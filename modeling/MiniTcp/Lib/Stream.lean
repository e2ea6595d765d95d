import Mathlib.Data.List.Basic

/-!
# Pieces of a stream

A stream is a list that only grows at its end. `At s k p` says that the piece `p` stands at position
`k` of the stream `s`. A piece stays where it is when the stream grows, its parts stand at their own
positions, and a piece standing where a prefix ends extends that prefix.
-/

namespace Stream

variable {α : Type} {s t p : List α} {k i n : Nat}

/-- The piece `p` stands at position `k` of `s`. -/
def At (s : List α) (k : Nat) (p : List α) : Prop := p <+: s.drop k

instance [DecidableEq α] (s : List α) (k : Nat) (p : List α) : Decidable (At s k p) :=
  inferInstanceAs (Decidable (p <+: s.drop k))

theorem At.length_le (h : At s k p) (hp : p ≠ []) : k + p.length ≤ s.length := by
  have hlen := List.IsPrefix.length_le h
  have hpos := List.length_pos_iff.mpr hp
  rw [List.length_drop] at hlen
  omega

theorem at_drop_take (s : List α) (k n : Nat) : At s k ((s.drop k).take n) := List.take_prefix _ _

theorem At.append (h : At s k p) (t : List α) : At (s ++ t) k p := by
  rw [At, List.drop_append]
  exact List.IsPrefix.trans h (List.prefix_append _ _)

theorem At.of_isPrefix (h : At s k p) (hst : s <+: t) : At t k p := by
  obtain ⟨r, rfl⟩ := hst
  exact h.append r

theorem At.take (h : At s k p) (n : Nat) : At s k (p.take n) :=
  List.IsPrefix.trans ( List.take_prefix n p) h

theorem At.drop (h : At s k p) (i : Nat) : At s (k + i) (p.drop i) := by
  rw [At, ← List.drop_drop]
  obtain ⟨r, hr⟩ := h
  rw [← hr, List.drop_append]
  exact List.prefix_append _ _

theorem At.of_take (h : At s k p) (hn : k + p.length ≤ n) : At (s.take n) k p := by
  rw [At, List.drop_take]
  exact List.prefix_take_iff.mpr ⟨h, by omega⟩

theorem At.take_append (h : At s k p) : s.take k ++ p = s.take (k + p.length) := by
  obtain ⟨r, hr⟩ := h
  have hp : p = (s.drop k).take p.length := by rw [← hr, List.take_left]
  rw [List.take_add]
  congr 1

end Stream
