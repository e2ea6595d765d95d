import Mathlib.Data.List.Nodup
import Mathlib.Data.List.Perm.Subperm
import Mathlib.Order.Lattice

/-!
# Logs of writes

A log has its newest write first, so `List.lookup` finds the last value written for a key, and `recent` is the log
without the writes that were written over. A bounded store that has to keep the `n` most recently written keys may
lose any other: what stands among the first `n` keys still does after a key is written anew (`take_filter_subset`),
and so does everything newer (`mem_take_of_le`).
-/

namespace Recency

variable {κ ν : Type} [DecidableEq κ] {log : List (κ × ν)} {e : κ × ν}

/-- The last write of each key, newest first. -/
def recent : List (κ × ν) → List (κ × ν)
  | [] => []
  | e :: log => e :: (recent log).filter fun f => f.1 ≠ e.1

@[simp] theorem recent_nil : recent ([] : List (κ × ν)) = [] := rfl

theorem recent_cons (e : κ × ν) (log : List (κ × ν)) :
    recent (e :: log) = e :: (recent log).filter fun f => f.1 ≠ e.1 := rfl

theorem recent_sublist (log : List (κ × ν)) : List.Sublist (recent log) log := by
  induction log with
  | nil => exact .slnil
  | cons e log ih => exact (List.filter_sublist.trans ih).cons_cons e

theorem nodup_recent (log : List (κ × ν)) : ((recent log).map Prod.fst).Nodup := by
  induction log with
  | nil => exact List.nodup_nil
  | cons e log ih =>
    rw [recent_cons, List.map_cons, List.nodup_cons]
    refine ⟨fun hmem => ?_, ih.sublist (List.filter_sublist.map Prod.fst)⟩
    obtain ⟨f, hf, heq⟩ := List.mem_map.mp hmem
    exact of_decide_eq_true (List.mem_filter.mp hf).2 heq

theorem mem_recent_iff [BEq κ] [LawfulBEq κ] : e ∈ recent log ↔ log.lookup e.1 = some e.2 := by
  induction log with
  | nil => simp
  | cons f log ih =>
    rw [recent_cons, List.mem_cons, List.mem_filter, ih]
    obtain ⟨a, b⟩ := f
    by_cases hkey : e.1 = a
    · subst hkey
      rw [List.lookup_cons_self]
      simp [Prod.ext_iff, eq_comm]
    · rw [List.lookup_cons, beq_eq_false_iff_ne.mpr hkey]
      simp [Prod.ext_iff, hkey]

theorem take_filter_subset (hnodup : (log.map Prod.fst).Nodup) (k : κ) (n : Nat) :
    (log.filter fun f => f.1 ≠ k).take n ⊆ log.take (n + 1) := by
  induction log generalizing n with
  | nil => simp
  | cons f log ih =>
    rw [List.map_cons, List.nodup_cons] at hnodup
    rw [List.take_succ_cons, List.filter_cons]
    by_cases hkey : f.1 = k
    · have hall : log.filter (fun f => f.1 ≠ k) = log := by
        rw [List.filter_eq_self]
        intro g hg
        rw [decide_eq_true_eq]
        rintro rfl
        exact hnodup.1 (hkey ▸ List.mem_map_of_mem hg)
      rw [if_neg (by simpa using hkey), hall]
      exact List.subset_cons_self f _
    · rw [if_pos (by simpa using hkey)]
      cases n with
      | zero => simp
      | succ n => exact List.cons_subset_cons f (ih hnodup.2 n)

theorem mem_take_of_le {α τ : Type} [LinearOrder τ] {time : α → τ} {xs : List α} {x y : α} {n : Nat}
    (hsorted : xs.Pairwise fun a b => time b < time a) (hx : x ∈ xs.take n) (hy : y ∈ xs)
    (hle : time x ≤ time y) : y ∈ xs.take n := by
  rw [← List.take_append_drop n xs] at hy hsorted
  rcases List.mem_append.mp hy with htake | hdrop
  · exact htake
  · exact absurd ((List.pairwise_append.mp hsorted).2.2 x hx y hdrop) (not_lt.mpr hle)

end Recency
