import MiniTcp.Net.Tcp.Retransmit
import MiniTcp.Lib.Hull
import MiniTcp.Lib.Machine

/-!
# The RTO estimator over its calls

The estimate of the round trip is an average of what was measured and so lies in the range of the measurements;
the variance is an average of distances between values in that range. The timeout is clamped by every call that
computes it, and doubling keeps it above the minimum because the minimum is positive.
-/

namespace MiniTcp

namespace RTOEstimator

/-- A call of one of the four operations. -/
inductive Call where
  | sample (rtt : Time)
  | backoff
  | recompute
  | reset

def perform (e : RTOEstimator) : Call → RTOEstimator
  | .sample rtt => e.sample rtt
  | .backoff => e.backoff
  | .recompute => e.recompute
  | .reset => e.reset

/-- The positive samples since the last reset, with one more call. -/
def record (taken : List Time) : Call → List Time
  | .sample rtt => if 0 < rtt then taken ++ [rtt] else taken
  | .reset => []
  | _ => taken

/-- An estimator and the positive samples it has taken since the last reset. -/
def machine (initial minRto maxRto : Time) : Machine (RTOEstimator × List Time) Call where
  init s := s = (new initial minRto maxRto, [])
  next s c := (s.1.perform c, record s.2 c)

/-- The timeout is within its bounds. -/
structure Clamped (minRto maxRto : Time) (e : RTOEstimator) : Prop where
  minRto_eq : e.minRto = minRto
  maxRto_eq : e.maxRto = maxRto
  minRto_le : minRto ≤ e.rto
  le_maxRto : e.rto ≤ maxRto

/-- The estimate is within the range of the samples, and the variance no more than the largest. -/
inductive Estimates : Option Time → Option Time → List Time → Prop where
  | unmeasured : Estimates none none []
  | measured {taken : List Time} {srtt rttvar lo hi : Time} (hhull : Hull taken lo hi) (hpos : 0 < lo)
      (hlo : lo ≤ srtt) (hhi : srtt ≤ hi) (hnonneg : 0 ≤ rttvar) (hle : rttvar ≤ hi) :
      Estimates (some srtt) (some rttvar) taken

variable {minRto maxRto : Time} {e : RTOEstimator} {taken : List Time}

/-! ### The bounds of the timeout -/

theorem clamped_of_rto (hle : minRto ≤ maxRto) (t : Time) (hmin : e.minRto = minRto) (hmax : e.maxRto = maxRto)
    (hrto : e.rto = min (max t minRto) maxRto) : e.Clamped minRto maxRto :=
  ⟨hmin, hmax, hrto ▸ le_min (le_max_right _ _) hle, hrto ▸ min_le_right _ _⟩

theorem clamped_perform (hpos : 0 < minRto) (hle : minRto ≤ maxRto) (c : Call) (h : e.Clamped minRto maxRto) :
    (e.perform c).Clamped minRto maxRto := by
  obtain ⟨rfl, rfl, hmin, hmax⟩ := h
  cases c with
  | sample rtt =>
    change (e.sample rtt).Clamped e.minRto e.maxRto
    unfold sample
    split
    · exact ⟨rfl, rfl, hmin, hmax⟩
    · exact clamped_of_rto hle _ rfl rfl rfl
  | backoff =>
    have hdouble : e.minRto ≤ e.rto * 2 := by linarith
    exact ⟨rfl, rfl, le_min hdouble hle, min_le_right _ _⟩
  | recompute =>
    change e.recompute.Clamped e.minRto e.maxRto
    unfold recompute
    split
    · exact clamped_of_rto hle _ rfl rfl rfl
    · exact clamped_of_rto hle _ rfl rfl rfl
  | reset => exact clamped_of_rto hle _ rfl rfl rfl

/-! ### The range of the samples -/

theorem estimates_sample {rtt : Time} (hrtt : 0 < rtt) (h : Estimates e.srtt e.rttvar taken) :
    Estimates (e.sample rtt).srtt (e.sample rtt).rttvar (taken ++ [rtt]) := by
  rw [sample, if_neg (not_le.mpr hrtt)]
  generalize hsrtt : e.srtt = old, hrttvar : e.rttvar = oldvar at h
  cases h with
  | unmeasured => exact .measured (Hull.singleton rtt) hrtt le_rfl le_rfl (by linarith) (by linarith)
  | @measured _ srtt rttvar lo hi hhull hpos hlo hhi hnonneg hle =>
    have haverage := Hull.average hlo hhi rtt (p := 7 / 8) (q := 1 / 8) (by norm_num) (by norm_num) (by norm_num)
    have hdistance := Hull.abs_sub_le hlo hhi rtt
    have hwider := le_max_left hi rtt
    have hleast : 0 < min lo rtt := lt_min hpos hrtt
    refine .measured (hhull.concat rtt) hleast haverage.1 haverage.2 ?_ ?_
    · have habs := abs_nonneg (srtt - rtt)
      dsimp only [Option.getD_some]
      linarith
    · dsimp only [Option.getD_some]
      linarith

@[simp] theorem recompute_srtt : e.recompute.srtt = e.srtt := by
  unfold recompute
  split <;> rfl

@[simp] theorem recompute_rttvar : e.recompute.rttvar = e.rttvar := by
  unfold recompute
  split <;> rfl

theorem estimates_perform (c : Call) (h : Estimates e.srtt e.rttvar taken) :
    Estimates (e.perform c).srtt (e.perform c).rttvar (record taken c) := by
  cases c with
  | sample rtt =>
    rcases lt_or_ge 0 rtt with hrtt | hrtt
    · rw [record, if_pos hrtt]
      exact estimates_sample hrtt h
    · rw [record, if_neg (not_lt.mpr hrtt), perform, sample, if_pos hrtt]
      exact h
  | backoff => exact h
  | recompute =>
    rw [perform, recompute_srtt, recompute_rttvar]
    exact h
  | reset => exact .unmeasured

theorem Estimates.exists_hull {srtt rttvar : Option Time} (h : Estimates srtt rttvar taken) (hne : taken ≠ []) :
    ∃ mean var lo hi, srtt = some mean ∧ rttvar = some var ∧ Hull taken lo hi ∧ lo ≤ mean ∧ mean ≤ hi ∧
      0 ≤ var ∧ var ≤ hi := by
  cases h with
  | unmeasured => exact absurd rfl hne
  | measured hhull _ hlo hhi hnonneg hle => exact ⟨_, _, _, _, rfl, rfl, hhull, hlo, hhi, hnonneg, hle⟩

/-- After any calls: the timeout is within its bounds, and where samples have been taken, the estimate is
between the smallest and the largest and the variance between zero and the largest. -/
theorem rto_within (initial : Time) (hpos : 0 < minRto) (hle : minRto ≤ maxRto) (cs : List Call) :
    let s := (machine initial minRto maxRto).run (new initial minRto maxRto, []) cs
    minRto ≤ s.1.rto ∧ s.1.rto ≤ maxRto ∧
      (s.2 ≠ [] → ∃ srtt rttvar lo hi, s.1.srtt = some srtt ∧ s.1.rttvar = some rttvar ∧ Hull s.2 lo hi ∧
        lo ≤ srtt ∧ srtt ≤ hi ∧ 0 ≤ rttvar ∧ rttvar ≤ hi) := by
  have hinit : (new initial minRto maxRto).Clamped minRto maxRto ∧
      Estimates (new initial minRto maxRto).srtt (new initial minRto maxRto).rttvar [] :=
    ⟨clamped_of_rto hle initial rfl rfl rfl, .unmeasured⟩
  have hrun := (machine initial minRto maxRto).run_induction
    (P := fun s => s.1.Clamped minRto maxRto ∧ Estimates s.1.srtt s.1.rttvar s.2)
    (s := (new initial minRto maxRto, []))
    (fun s c h _ => ⟨clamped_perform hpos hle c h.1, estimates_perform c h.2⟩) hinit
    ((machine initial minRto maxRto).meets_true _ cs)
  exact ⟨hrun.1.minRto_le, hrun.1.le_maxRto, hrun.2.exists_hull⟩

/-- Two samples, a timeout between them. -/
theorem rto_within_two :
    let s := (machine 1 (1 / 5) 60).run (new 1 (1 / 5) 60, []) [.sample (1 / 10), .backoff, .sample (3 / 10)]
    1 / 5 ≤ s.1.rto ∧ s.1.rto ≤ 60 ∧
      (s.2 ≠ [] → ∃ srtt rttvar lo hi, s.1.srtt = some srtt ∧ s.1.rttvar = some rttvar ∧ Hull s.2 lo hi ∧
        lo ≤ srtt ∧ srtt ≤ hi ∧ 0 ≤ rttvar ∧ rttvar ≤ hi) :=
  rto_within 1 (by norm_num) (by norm_num) [.sample (1 / 10), .backoff, .sample (3 / 10)]

end RTOEstimator

end MiniTcp
