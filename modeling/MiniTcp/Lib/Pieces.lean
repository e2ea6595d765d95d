import Mathlib.Data.List.Basic
import Mathlib.Order.Basic
import Mathlib.Order.Lattice

/-!
# A list put together from pieces

A piece is an offset and the elements that stand from there on. Pieces in the order of their offsets are
scanned with a cursor that stops at the first hole (`reach`): the scan gets to `bound` exactly when every
position before `bound`, and before any piece, lies in a piece (`exists_reach_iff`). Pieces are written one
after another over a buffer, and each position then has what one of the pieces that lie there has
(`getElem?_writeAll`), so pieces of one list leave that list behind (`writeAll_of_covered`).
-/

namespace Pieces

variable {α : Type} {whole buffer : List α} {piece : Nat × List α} {pieces : List (Nat × List α)}
  {x cursor stop : Nat}

/-- The position `x` lies in the piece. -/
def Holds (piece : Nat × List α) (x : Nat) : Prop := piece.1 ≤ x ∧ x < piece.1 + piece.2.length

/-- The piece is a part of the list. -/
def PartOf (whole : List α) (piece : Nat × List α) : Prop :=
  piece.1 + piece.2.length ≤ whole.length ∧ piece.2 = (whole.drop piece.1).take piece.2.length

/-- The end of what the pieces cover from `cursor` on, unless a hole remains. -/
def reach : List (Nat × List α) → Nat → Option Nat
  | [], cursor => some cursor
  | piece :: rest, cursor =>
    if piece.1 > cursor then none else reach rest (max cursor (piece.1 + piece.2.length))

/-- The piece written over a buffer. -/
def write (buffer : List α) (piece : Nat × List α) : List α :=
  buffer.take piece.1 ++ piece.2 ++ buffer.drop (piece.1 + piece.2.length)

def writeAll (buffer : List α) (pieces : List (Nat × List α)) : List α := pieces.foldl write buffer

/-! ### The scan -/

theorem covered_of_reach (h : reach pieces cursor = some stop) (hle : cursor ≤ x) (hlt : x < stop) :
    ∃ piece ∈ pieces, Holds piece x := by
  induction pieces generalizing cursor with
  | nil =>
    have heq : cursor = stop := Option.some.inj h
    omega
  | cons piece rest ih =>
    rw [reach] at h
    split_ifs at h with hhole
    by_cases hx : x < piece.1 + piece.2.length
    · exact ⟨piece, List.mem_cons_self, by omega, hx⟩
    · obtain ⟨other, hmem, hholds⟩ := ih h (by omega)
      exact ⟨other, List.mem_cons_of_mem _ hmem, hholds⟩

theorem le_of_reach (h : reach pieces cursor = some stop) :
    cursor ≤ stop ∧ ∀ piece ∈ pieces, piece.1 + piece.2.length ≤ stop := by
  induction pieces generalizing cursor with
  | nil =>
    have heq : cursor = stop := Option.some.inj h
    simp [heq]
  | cons piece rest ih =>
    rw [reach] at h
    split_ifs at h
    obtain ⟨hcursor, hends⟩ := ih h
    refine ⟨by omega, fun other hmem => ?_⟩
    rcases List.mem_cons.mp hmem with rfl | hmem
    · omega
    · exact hends other hmem

/-- In the order of the offsets, a scan gets to `bound` exactly when there is no hole before `bound`, nor
before a piece. -/
theorem exists_reach_iff {bound : Nat} (hsorted : pieces.Pairwise (·.1 ≤ ·.1)) :
    (∃ stop, reach pieces cursor = some stop ∧ bound ≤ stop) ↔
      (∀ x, cursor ≤ x → x < bound → ∃ piece ∈ pieces, Holds piece x) ∧
      ∀ piece ∈ pieces, ∀ x, cursor ≤ x → x < piece.1 → ∃ other ∈ pieces, Holds other x := by
  constructor
  · rintro ⟨stop, hreach, hbound⟩
    have hcovered : ∀ x, cursor ≤ x → x < stop → ∃ piece ∈ pieces, Holds piece x :=
      fun x hle hlt => covered_of_reach hreach hle hlt
    refine ⟨fun x hle hlt => hcovered x hle (by omega), fun piece hmem x hle hlt => hcovered x hle ?_⟩
    have := (le_of_reach hreach).2 piece hmem
    omega
  · rintro ⟨hcovered, hfilled⟩
    induction pieces generalizing cursor with
    | nil =>
      refine ⟨cursor, rfl, ?_⟩
      by_contra hlt
      simpa using hcovered cursor (le_refl _) (by omega)
    | cons piece rest ih =>
      obtain ⟨hfirst, hsorted'⟩ := List.pairwise_cons.mp hsorted
      have hnohole : ¬ piece.1 > cursor := by
        intro hhole
        -- the cursor lies in some piece, and none begins before the first
        obtain ⟨other, hmem, hle, -⟩ := hfilled piece List.mem_cons_self cursor (le_refl _) hhole
        rcases List.mem_cons.mp hmem with rfl | hmem
        · omega
        · have := hfirst other hmem
          omega
      -- what lies beyond the first piece lies in another
      have hrest : ∀ x, max cursor (piece.1 + piece.2.length) ≤ x →
          (∃ other ∈ piece :: rest, Holds other x) → ∃ other ∈ rest, Holds other x := by
        rintro x hle ⟨other, hmem, hholds⟩
        rcases List.mem_cons.mp hmem with rfl | hmem
        · have := hholds.2
          omega
        · exact ⟨other, hmem, hholds⟩
      rw [reach, if_neg hnohole]
      apply ih hsorted'
      · intro x hle hlt
        exact hrest x hle (hcovered x (by omega) hlt)
      · intro other hmem x hle hlt
        exact hrest x hle (hfilled other (List.mem_cons_of_mem _ hmem) x (by omega) hlt)

/-! ### The buffer -/

theorem length_write (hle : piece.1 + piece.2.length ≤ buffer.length) :
    (write buffer piece).length = buffer.length := by
  simp only [write, List.length_append, List.length_take, List.length_drop]
  omega

theorem getElem?_write_of_holds (hle : piece.1 + piece.2.length ≤ buffer.length) (h : Holds piece x) :
    (write buffer piece)[x]? = piece.2[x - piece.1]? := by
  obtain ⟨hge, hlt⟩ := h
  have htake : (buffer.take piece.1).length = piece.1 := by
    rw [List.length_take]
    omega
  rw [write, List.getElem?_append_left (by rw [List.length_append, htake]; exact hlt),
    List.getElem?_append_right (by omega), htake]

theorem getElem?_write_of_not_holds (hle : piece.1 + piece.2.length ≤ buffer.length) (h : ¬ Holds piece x) :
    (write buffer piece)[x]? = buffer[x]? := by
  have htake : (buffer.take piece.1).length = piece.1 := by
    rw [List.length_take]
    omega
  rw [write]
  by_cases hbefore : x < piece.1
  · rw [List.append_assoc, List.getElem?_append_left (by omega), List.getElem?_take_of_lt hbefore]
  · have hafter : piece.1 + piece.2.length ≤ x := by
      by_contra hlt
      exact h ⟨by omega, by omega⟩
    rw [List.getElem?_append_right (by rw [List.length_append, htake]; exact hafter), List.length_append, htake,
      List.getElem?_drop]
    congr 1
    omega

theorem length_writeAll (hpieces : ∀ piece ∈ pieces, piece.1 + piece.2.length ≤ buffer.length) :
    (writeAll buffer pieces).length = buffer.length := by
  induction pieces generalizing buffer with
  | nil => rfl
  | cons piece rest ih =>
    have hlen := length_write (hpieces piece List.mem_cons_self)
    have hrest : ∀ other ∈ rest, other.1 + other.2.length ≤ (write buffer piece).length := by
      intro other hmem
      rw [hlen]
      exact hpieces other (List.mem_cons_of_mem _ hmem)
    exact (ih hrest).trans hlen

/-- What stands at a position in the end was written by a piece that lies there, or was there before. -/
theorem getElem?_writeAll (hpieces : ∀ piece ∈ pieces, piece.1 + piece.2.length ≤ buffer.length) (x : Nat) :
    (∃ piece ∈ pieces, Holds piece x ∧ (writeAll buffer pieces)[x]? = piece.2[x - piece.1]?) ∨
      (∀ piece ∈ pieces, ¬ Holds piece x) ∧ (writeAll buffer pieces)[x]? = buffer[x]? := by
  induction pieces generalizing buffer with
  | nil => simp [writeAll]
  | cons piece rest ih =>
    have hle := hpieces piece List.mem_cons_self
    have hrest : ∀ other ∈ rest, other.1 + other.2.length ≤ (write buffer piece).length := by
      intro other hmem
      rw [length_write hle]
      exact hpieces other (List.mem_cons_of_mem _ hmem)
    rcases ih hrest with ⟨other, hmem, hholds, heq⟩ | ⟨hnone, heq⟩
    · exact .inl ⟨other, List.mem_cons_of_mem _ hmem, hholds, heq⟩
    · by_cases hholds : Holds piece x
      · exact .inl ⟨piece, List.mem_cons_self, hholds, heq.trans (getElem?_write_of_holds hle hholds)⟩
      · refine .inr ⟨?_, heq.trans (getElem?_write_of_not_holds hle hholds)⟩
        simpa [hholds] using hnone

theorem PartOf.getElem? (hpiece : PartOf whole piece) (h : Holds piece x) :
    piece.2[x - piece.1]? = whole[x]? := by
  obtain ⟨hge, hlt⟩ := h
  rw [hpiece.2, List.getElem?_take_of_lt (by omega), List.getElem?_drop]
  congr 1
  omega

theorem writeAll_of_covered (hpieces : ∀ piece ∈ pieces, PartOf whole piece)
    (hlen : buffer.length = whole.length)
    (hcovered : ∀ x < whole.length, ∃ piece ∈ pieces, Holds piece x) : writeAll buffer pieces = whole := by
  have hle : ∀ piece ∈ pieces, piece.1 + piece.2.length ≤ buffer.length := by
    intro piece hmem
    rw [hlen]
    exact (hpieces piece hmem).1
  apply List.ext_getElem?
  intro x
  by_cases hx : x < whole.length
  · rcases getElem?_writeAll hle x with ⟨piece, hmem, hholds, heq⟩ | ⟨hnone, -⟩
    · rw [heq, (hpieces piece hmem).getElem? hholds]
    · obtain ⟨piece, hmem, hholds⟩ := hcovered x hx
      exact absurd hholds (hnone piece hmem)
  · rw [List.getElem?_eq_none (by rw [length_writeAll hle]; omega), List.getElem?_eq_none (by omega)]

end Pieces
