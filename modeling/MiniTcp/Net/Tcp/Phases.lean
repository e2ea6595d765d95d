import MiniTcp.Net.Tcp.Congestion
import MiniTcp.Lib.Machine

/-!
# Reno's phases

What the window, the threshold, the count of duplicates and the phase say about each other after any calls
(`Coherent`). The window is bounded outside recovery and the threshold outside slow start; with that each
call keeps the phases coherent, whatever it is called with.
-/

namespace MiniTcp

namespace RenoCongestion

/-- A call of one of the four operations. -/
inductive Call where
  | onAck (bytesAcked : Int) (ackNumber : Option SeqNo)
  | onDuplicateAck (ackNumber : Option SeqNo)
  | onTimeout
  | onPartialAck (ackNumber : SeqNo)

def perform (r : RenoCongestion) : Call → RenoCongestion
  | .onAck bytesAcked ackNumber => r.onAck bytesAcked ackNumber
  | .onDuplicateAck ackNumber => (r.onDuplicateAck ackNumber).1
  | .onTimeout => r.onTimeout
  | .onPartialAck ackNumber => r.onPartialAck ackNumber

/-- The calls made on an instance with default window and threshold. -/
def machine (mss : Nat) : Machine RenoCongestion Call where
  init r := r = new mss none none
  next := perform

/-- What the fields say about each other. -/
structure Coherent (mss : Nat) (r : RenoCongestion) : Prop where
  mss_eq : r.mss = mss
  mss_le_cwnd : mss ≤ r.cwnd
  duplicateAcks_le : r.duplicateAcks ≤ 3
  duplicateAcks_eq_iff : r.duplicateAcks = 3 ↔ r.state = .fastRecovery
  slowStart : r.state = .slowStart → r.cwnd < r.ssthresh
  congestionAvoidance : r.state = .congestionAvoidance → r.ssthresh ≤ r.cwnd
  /-- So it is from the start, where the threshold is `MAX_CWND`; a loss event keeps it so. -/
  ssthresh_ge : 2 * mss ≤ r.ssthresh

/-- The bounds the phases rest on. In recovery the window is unbounded, a partial ACK adds whatever it covers;
a timeout then leaves a threshold that slow start does not reach. -/
structure Bounded (r : RenoCongestion) : Prop where
  cwnd_le : r.state ≠ .fastRecovery → r.cwnd ≤ MAX_CWND
  ssthresh_le : r.state ≠ .slowStart → r.ssthresh ≤ MAX_CWND

variable {mss : Nat} {r : RenoCongestion}

theorem coherent_new (hpos : 1 ≤ mss) (hle : mss ≤ 65535) :
    (new mss none none).Coherent mss ∧ (new mss none none).Bounded := by
  have hmax : MAX_CWND = 2 ^ 30 := rfl
  have hcap : INITIAL_WINDOW_CAP = 14600 := rfl
  refine ⟨⟨rfl, ?_, by simp [new], by simp [new], fun _ => ?_, nofun, ?_⟩, ⟨fun _ => ?_, nofun⟩⟩ <;>
    (simp only [new, Option.getD_none]; omega)

theorem coherent_leave (hr : r.Coherent mss) (hb : r.Bounded) (hstate : r.state = .fastRecovery) :
    ({ r with cwnd := max r.ssthresh r.mss, state := .congestionAvoidance, duplicateAcks := 0 } :
      RenoCongestion).Coherent mss ∧
    ({ r with cwnd := max r.ssthresh r.mss, state := .congestionAvoidance, duplicateAcks := 0 } :
      RenoCongestion).Bounded := by
  have hmss := hr.mss_eq
  have hge := hr.ssthresh_ge
  have hle := hb.ssthresh_le (by simp [hstate])
  refine ⟨⟨hmss, ?_, by simp, by simp, nofun, fun _ => le_max_left _ _, hge⟩, ⟨fun _ => ?_, fun _ => hle⟩⟩
  · dsimp only
    omega
  · dsimp only
    omega

theorem coherent_onAck (bytesAcked : Int) (ackNumber : Option SeqNo) (hr : r.Coherent mss)
    (hb : r.Bounded) : (r.onAck bytesAcked ackNumber).Coherent mss ∧ (r.onAck bytesAcked ackNumber).Bounded := by
  have hmax : MAX_CWND = 2 ^ 30 := rfl
  have hcwnd := hr.mss_le_cwnd
  have hge := hr.ssthresh_ge
  unfold onAck
  split
  · exact ⟨hr, hb⟩
  · next hacked =>
    dsimp only
    split
    · next hstate =>
      split
      · exact coherent_leave hr hb hstate
      · refine ⟨⟨hr.mss_eq, ?_, hr.duplicateAcks_le, hr.duplicateAcks_eq_iff, ?_, ?_, hge⟩, ⟨?_, hb.ssthresh_le⟩⟩
        · dsimp only
          omega
        · simp [hstate]
        · simp [hstate]
        · simp [hstate]
    · next hstate =>
      have hbound := hb.cwnd_le (by simp [hstate])
      by_cases hover : min (r.cwnd + bytesAcked.toNat) MAX_CWND ≥ r.ssthresh
      · simp only [if_pos hover]
        refine ⟨⟨hr.mss_eq, ?_, by simp, by simp, nofun, fun _ => hover, hge⟩, ⟨fun _ => ?_, fun _ => ?_⟩⟩ <;>
          (dsimp only; omega)
      · simp only [if_neg hover]
        refine ⟨⟨hr.mss_eq, ?_, by simp, by simp, fun _ => ?_, nofun, hge⟩, ⟨fun _ => ?_, by simp⟩⟩ <;>
          (dsimp only; omega)
    · next hstate =>
      have hbound := hb.cwnd_le (by simp [hstate])
      have hreached := hr.congestionAvoidance hstate
      have hthreshold := hb.ssthresh_le (by simp [hstate])
      refine ⟨⟨hr.mss_eq, ?_, by simp, by simp [hstate], by simp [hstate], fun _ => ?_, hge⟩,
        ⟨fun _ => ?_, fun _ => hthreshold⟩⟩ <;> (dsimp only; omega)

theorem coherent_onDuplicateAck (ackNumber : Option SeqNo) (hle : mss ≤ 65535) (hr : r.Coherent mss)
    (hb : r.Bounded) : (r.onDuplicateAck ackNumber).1.Coherent mss ∧ (r.onDuplicateAck ackNumber).1.Bounded := by
  have hmax : MAX_CWND = 2 ^ 30 := rfl
  have hmss := hr.mss_eq
  have hcwnd := hr.mss_le_cwnd
  have hcount := hr.duplicateAcks_le
  have hthree := hr.duplicateAcks_eq_iff
  unfold onDuplicateAck
  split_ifs with hstate hthird
  · refine ⟨⟨hmss, ?_, hcount, hthree, ?_, ?_, hr.ssthresh_ge⟩, ⟨?_, hb.ssthresh_le⟩⟩
    · dsimp only
      omega
    · simp [hstate]
    · simp [hstate]
    · simp [hstate]
  · have hbound := hb.cwnd_le hstate
    refine ⟨⟨hmss, ?_, by simp [hthird], by simp [hthird], nofun, nofun, ?_⟩, ⟨by simp, fun _ => ?_⟩⟩ <;>
      (dsimp only; omega)
  · refine ⟨⟨hmss, hcwnd, ?_, ?_, hr.slowStart, hr.congestionAvoidance, hr.ssthresh_ge⟩,
      ⟨hb.cwnd_le, hb.ssthresh_le⟩⟩
    · dsimp only
      simp only [hstate, iff_false] at hthree
      omega
    · simp only [hstate, iff_false]
      exact hthird

theorem coherent_onTimeout (hpos : 1 ≤ mss) (hle : mss ≤ 65535) (hr : r.Coherent mss) :
    r.onTimeout.Coherent mss ∧ r.onTimeout.Bounded := by
  have hmax : MAX_CWND = 2 ^ 30 := rfl
  have hmss := hr.mss_eq
  refine ⟨⟨hmss, ?_, by simp [onTimeout], by simp [onTimeout], fun _ => ?_, nofun, ?_⟩, ⟨fun _ => ?_, nofun⟩⟩ <;>
    (simp only [onTimeout]; omega)

theorem coherent_onPartialAck (ackNumber : SeqNo) (hr : r.Coherent mss) (hb : r.Bounded) :
    (r.onPartialAck ackNumber).Coherent mss ∧ (r.onPartialAck ackNumber).Bounded := by
  unfold onPartialAck
  split_ifs with hleave
  · exact coherent_leave hr hb hleave.1
  · exact ⟨hr, hb⟩

theorem coherent_perform (hpos : 1 ≤ mss) (hle : mss ≤ 65535) (c : Call) (h : r.Coherent mss ∧ r.Bounded) :
    (r.perform c).Coherent mss ∧ (r.perform c).Bounded := by
  cases c with
  | onAck bytesAcked ackNumber => exact coherent_onAck bytesAcked ackNumber h.1 h.2
  | onDuplicateAck ackNumber => exact coherent_onDuplicateAck ackNumber hle h.1 h.2
  | onTimeout => exact coherent_onTimeout hpos hle h.1
  | onPartialAck ackNumber => exact coherent_onPartialAck ackNumber h.1 h.2

/-- After any calls at all, the phases are coherent. -/
theorem reno_coherent (hpos : 1 ≤ mss) (hle : mss ≤ 65535) (cs : List Call) :
    ((machine mss).run (new mss none none) cs).Coherent mss := by
  have hrun := (machine mss).run_induction (P := fun r => r.Coherent mss ∧ r.Bounded)
    (fun r c h _ => coherent_perform hpos hle c h) (coherent_new hpos hle) ((machine mss).meets_true _ cs)
  exact hrun.1

/-- Three duplicates and a partial ACK. -/
theorem reno_coherent_recovery :
    ((machine 1460).run (new 1460 none none)
      [.onDuplicateAck (some 7), .onDuplicateAck none, .onDuplicateAck (some 7), .onAck 5000 (some 3)]).Coherent
      1460 := reno_coherent (by decide) (by decide) _

end RenoCongestion

end MiniTcp
