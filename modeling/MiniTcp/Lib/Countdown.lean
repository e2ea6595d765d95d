import MiniTcp.Lib.Machine
import Mathlib.Algebra.Order.Group.Unbundled.Basic
import Mathlib.Algebra.Order.Monoid.Defs
import Mathlib.Algebra.Order.Monoid.Unbundled.Pow
import Mathlib.Tactic.Abel

/-!
# Machines that give up

A machine has a deadline and some patience. At a tick before the deadline nothing happens, and at a tick after it the
machine is done or sets a new deadline, at most `longest` ahead, which costs it patience (`Countdown`). If the ticks
come at least every `gap`, the machine is done by the first tick after all of its patience (`Countdown.done_of_late`).
-/

namespace Machine

variable {σ ε T : Type} [AddCommGroup T] [LinearOrder T] {m : Machine σ ε}
  {ok : ε → Prop} {tick : ε → Option T} {done : σ → Prop} {pending : σ → T → Nat → Prop} {longest : T}

/-- `pending s d k` if the machine in state `s` has the deadline `d` and patience for `k` more. -/
structure Countdown (m : Machine σ ε) (ok : ε → Prop) (tick : ε → Option T) (done : σ → Prop)
    (pending : σ → T → Nat → Prop) (longest : T) : Prop where
  keeps : ∀ s e, ok e → done s → done (m.next s e)
  idle : ∀ s e d k, ok e → tick e = none → pending s d k → pending (m.next s e) d k
  ticks : ∀ s e t d k, ok e → tick e = some t → pending s d k →
    done (m.next s e) ∨ t < d ∧ pending (m.next s e) d k ∨
      ∃ d' k', t ≤ d' ∧ d' ≤ t + longest ∧ k' < k ∧ pending (m.next s e) d' k'

namespace Countdown

theorem done_run (h : m.Countdown ok tick done pending longest) {s : σ} {es : List ε} (hes : ∀ e ∈ es, ok e)
    (hs : done s) : done (m.run s es) := by
  induction es generalizing s with
  | nil => exact hs
  | cons e es ih =>
    obtain ⟨he, hrest⟩ := List.forall_mem_cons.mp hes
    exact ih hrest (h.keeps s e he hs)

theorem chain_tail [IsOrderedAddMonoid T] {gap t d d' : T} {ts : List T}
    (hchain : (d :: t :: ts).IsChain fun s t => t ≤ s + gap) (hle : t ≤ d') :
    (d' :: ts).IsChain fun s t => t ≤ s + gap := by
  cases ts with
  | nil => exact .singleton _
  | cons u ts =>
    simp only [List.isChain_cons_cons] at hchain ⊢
    exact ⟨hchain.2.1.trans (add_le_add_left hle gap), hchain.2.2⟩

theorem done_of_late [IsOrderedAddMonoid T] (h : m.Countdown ok tick done pending longest)
    (hlongest : 0 < longest) {gap : T} (hgap : 0 ≤ gap) {s : σ} {d : T} {k : Nat} {es : List ε}
    (hes : ∀ e ∈ es, ok e) (hs : pending s d k)
    (hchain : (d :: es.filterMap tick).IsChain fun s t => t ≤ s + gap)
    (hlate : ∃ t ∈ es.filterMap tick, d + k • (longest + gap) ≤ t) : done (m.run s es) := by
  have hround : 0 ≤ longest + gap := add_nonneg hlongest.le hgap
  induction es generalizing s d k with
  | nil => simp at hlate
  | cons e es ih =>
    obtain ⟨he, hrest⟩ := List.forall_mem_cons.mp hes
    cases htick : tick e with
    | none =>
      rw [List.filterMap_cons_none htick] at hchain hlate
      exact ih hrest (h.idle s e d k he htick hs) hchain hlate
    | some t =>
      rw [List.filterMap_cons_some htick] at hchain hlate
      have hsoon : t ≤ d + gap := (List.isChain_cons_cons.mp hchain).1
      rcases h.ticks s e t d k he htick hs with hdone | ⟨hlt, hnext⟩ | ⟨d', k', hlo, hhi, hk, hnext⟩
      · have hrun := h.done_run hrest hdone
        exact hrun
      · apply ih hrest hnext (chain_tail hchain hlt.le)
        obtain ⟨u, hu, hle⟩ := hlate
        rcases List.mem_cons.mp hu with rfl | hu
        · have hnonneg : 0 ≤ k • (longest + gap) := nsmul_nonneg hround k
          exact absurd (hle.trans_lt hlt) (not_lt.mpr (le_add_of_nonneg_right hnonneg))
        · exact ⟨u, hu, hle⟩
      · apply ih hrest hnext (chain_tail hchain hlo)
        obtain ⟨u, hu, hle⟩ := hlate
        have hsteps : k' • (longest + gap) + (longest + gap) ≤ k • (longest + gap) := by
          rw [← succ_nsmul]
          exact nsmul_le_nsmul_left hround hk
        rcases List.mem_cons.mp hu with rfl | hu
        · -- this tick itself would be more than a gap late
          have hnonneg : 0 ≤ k' • (longest + gap) := nsmul_nonneg hround k'
          have hover : d + gap < d + k • (longest + gap) := by
            apply add_lt_add_right
            calc gap < longest + gap := lt_add_of_pos_left gap hlongest
              _ ≤ k' • (longest + gap) + (longest + gap) := le_add_of_nonneg_left hnonneg
              _ ≤ k • (longest + gap) := hsteps
          exact absurd (hle.trans hsoon) (not_le.mpr hover)
        · refine ⟨u, hu, le_trans ?_ hle⟩
          calc d' + k' • (longest + gap) ≤ d + gap + longest + k' • (longest + gap) := by
                apply add_le_add_left
                exact hhi.trans (add_le_add_left hsoon longest)
            _ = d + (k' • (longest + gap) + (longest + gap)) := by abel
            _ ≤ d + k • (longest + gap) := add_le_add_right hsteps d

end Countdown

end Machine
