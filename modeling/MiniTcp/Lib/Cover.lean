import MiniTcp.Lib.Serial
import Mathlib.Data.List.Chain

/-!
# Pieces that cover a range of serial numbers

A piece `e` takes the `len e` numbers from `start e` on and stops at `stop`. `Covers s es n` says that
the pieces `es`, in this order, cover the `n` numbers from `s` on: each stops at or after the place the
pieces before it reach, and takes what lies between. A piece may begin before `s`, or before the stop of
the piece in front of it. Pieces are appended where the cover ends (`Covers.append`), and dropping those
that stop at or before a number leaves a cover of what lies beyond it (`Covers.filter`).

`Contiguous` asks for more: each piece begins exactly where the one before it stops. Contiguous pieces
that take less than the whole ring share no number.
-/

namespace Serial

variable {w : Nat} {α : Type} (start : α → BitVec w) (len : α → Nat)

/-- The number just past a piece. -/
def stop (e : α) : BitVec w := shift (start e) (len e)

/-- The pieces cover the `n` numbers from `s` on. -/
def Covers : BitVec w → List α → Nat → Prop
  | _, [], n => n = 0
  | s, e :: es, n => ∃ d ≤ n, stop start len e = shift s d ∧ d ≤ len e ∧ Covers (shift s d) es (n - d)

/-- How many numbers the pieces take together. -/
def total (es : List α) : Nat := (es.map len).sum

/-- Each piece begins where the one before it stops. -/
def Contiguous (es : List α) : Prop := es.IsChain fun e e' => stop start len e = start e'

variable {start len} {s : BitVec w} {e : α} {es : List α} {n a : Nat}

/-! ### Covers -/

namespace Covers

theorem nil : Covers start len s [] 0 := rfl

theorem eq_zero (h : Covers start len s [] n) : n = 0 := h

theorem le_total (h : Covers start len s es n) : n ≤ total len es := by
  induction es generalizing s n with
  | nil => exact (eq_zero h).le
  | cons e es ih =>
    obtain ⟨d, hd, -, hlen, hrest⟩ := h
    have := ih hrest
    simp only [total, List.map_cons, List.sum_cons] at this ⊢
    omega

theorem append {d : Nat} (h : Covers start len s es n) (hstop : stop start len e = shift s (n + d))
    (hd : d ≤ len e) : Covers start len s (es ++ [e]) (n + d) := by
  induction es generalizing s n with
  | nil =>
    obtain rfl := eq_zero h
    exact ⟨d, by omega, by simpa using hstop, hd, by simp [Covers]⟩
  | cons e' es ih =>
    obtain ⟨d', hd', hstop', hlen, hrest⟩ := h
    refine ⟨d', by omega, hstop', hlen, ?_⟩
    have := ih hrest (by rw [shift_shift, hstop]; congr 1; omega)
    rwa [show n - d' + d = n + d - d' by omega] at this

theorem getLast (h : Covers start len s es n) {last : α} (hlast : es.getLast? = some last) :
    stop start len last = shift s n := by
  induction es generalizing s n with
  | nil => cases hlast
  | cons e es ih =>
    obtain ⟨d, hd, hstop, -, hrest⟩ := h
    cases es with
    | nil =>
      obtain rfl : e = last := by simpa using hlast
      rw [hstop, show d = n by have := eq_zero hrest; omega]
    | cons e' es =>
      rw [List.getLast?_cons_cons] at hlast
      rw [ih hrest hlast, shift_shift]
      congr 1
      omega

theorem mem (h : Covers start len s es n) {i : Nat} (hi : i < n) :
    ∃ e ∈ es, ∃ j < len e, shift s i = shift (start e) j := by
  induction es generalizing s n i with
  | nil => exact absurd (eq_zero h) (by omega)
  | cons e es ih =>
    obtain ⟨d, hd, hstop, hlen, hrest⟩ := h
    by_cases hid : i < d
    · -- the piece stops `d - i` numbers after `i`
      refine ⟨e, List.mem_cons_self, len e - (d - i), by omega, ?_⟩
      have hback : shift (shift (start e) (len e - (d - i))) (d - i) = shift (shift s i) (d - i) := by
        rw [shift_shift, shift_shift, show len e - (d - i) + (d - i) = len e by omega,
          show i + (d - i) = d by omega]
        exact hstop
      exact (add_right_cancel hback).symm
    · obtain ⟨e', he', j, hj, heq⟩ := ih hrest (i := i - d) (by omega)
      refine ⟨e', List.mem_cons_of_mem _ he', j, hj, ?_⟩
      rw [← heq, shift_shift, show d + (i - d) = i by omega]

theorem stop_mem (h : Covers start len s es n) (he : e ∈ es) :
    ∃ d ≤ n, stop start len e = shift s d := by
  induction es generalizing s n with
  | nil => cases he
  | cons e' es ih =>
    obtain ⟨d, hd, hstop, -, hrest⟩ := h
    rcases List.mem_cons.mp he with rfl | hmem
    · exact ⟨d, hd, hstop⟩
    · obtain ⟨d', hd', hstop'⟩ := ih hrest hmem
      refine ⟨d + d', by omega, ?_⟩
      rw [hstop', shift_shift]

theorem replace_head {e' : α} (h : Covers start len s (e :: es) n) (hstart : start e' = start e)
    (hlen : len e' = len e) : Covers start len s (e' :: es) n := by
  obtain ⟨d, hd, hstop, hle, hrest⟩ := h
  refine ⟨d, hd, ?_, by rw [hlen]; exact hle, hrest⟩
  rw [← hstop, stop, stop, hstart, hlen]

/-- `filter` with the cover starting `k` numbers on; past the `a`-th number nothing is dropped. -/
theorem filter_aux {p : α → Bool} {k m : Nat} (hn : 2 * (k + m) < 2 ^ w) (ha : 2 * a < 2 ^ w)
    (hp : ∀ e, p e = true ↔ ¬ Le (stop start len e) (shift s a))
    (h : Covers start len (shift s k) es m) :
    Covers start len (shift s (max k a)) (es.filter p) (k + m - max k a) ∧ es.filter p <:+ es ∧
      (a < k → es.filter p = es) := by
  induction es generalizing k m with
  | nil =>
    obtain rfl := eq_zero h
    exact ⟨show k + 0 - max k a = 0 by omega, List.suffix_rfl, fun _ => rfl⟩
  | cons e es ih =>
    obtain ⟨d, hd, hstop, hlen, hrest⟩ := h
    rw [shift_shift] at hstop hrest
    obtain ⟨hcov, hsuffix, hall⟩ := ih (by omega) hrest
    have hle : Le (stop start len e) (shift s a) ↔ k + d ≤ a := by
      rw [hstop, le_shift_iff (by omega) (by omega)]
    by_cases hkd : k + d ≤ a
    · rw [List.filter_cons_of_neg (by rw [hp, hle]; omega)]
      refine ⟨?_, hsuffix.trans (List.suffix_cons e es), fun hak => absurd hkd (by omega)⟩
      rw [show max (k + d) a = max k a by omega,
        show k + d + (m - d) - max k a = k + m - max k a by omega] at hcov
      exact hcov
    · rw [List.filter_cons_of_pos (by rw [hp, hle]; exact hkd), hall (by omega)]
      refine ⟨⟨k + d - max k a, by omega, ?_, by omega, ?_⟩, List.suffix_rfl, fun _ => rfl⟩
      · rw [hstop, shift_shift]
        congr 1
        omega
      · rw [shift_shift, show max k a + (k + d - max k a) = k + d by omega,
          show k + m - max k a - (k + d - max k a) = m - d by omega]
        exact hrest

/-- Dropping the pieces that stop at or before the `a`-th number leaves a cover of what lies beyond;
they are the first ones. -/
theorem filter {p : α → Bool} (h : Covers start len s es n) (hn : 2 * n < 2 ^ w) (ha : 2 * a < 2 ^ w)
    (hp : ∀ e, p e = true ↔ ¬ Le (stop start len e) (shift s a)) :
    Covers start len (shift s a) (es.filter p) (n - a) ∧ es.filter p <:+ es := by
  have haux := filter_aux (k := 0) (m := n) (by omega) ha hp (by rwa [shift_zero])
  rw [Nat.zero_max, Nat.zero_add] at haux
  exact ⟨haux.1, haux.2.1⟩

end Covers

/-! ### Contiguous pieces -/

namespace Contiguous

theorem append (h : Contiguous start len es)
    (hlast : ∀ last, es.getLast? = some last → stop start len last = start e) :
    Contiguous start len (es ++ [e]) :=
  List.IsChain.append h (List.isChain_singleton e) fun last hmem e' he' => by
    obtain rfl : e = e' := by simpa using he'
    exact hlast last hmem

theorem offset (h : Contiguous start len (e :: es)) {e' : α} (he' : e' ∈ es) :
    ∃ k, start e' = shift (start e) (len e + k) ∧ k + len e' ≤ total len es := by
  induction es generalizing e with
  | nil => cases he'
  | cons e₁ es ih =>
    have hstart : start e₁ = shift (start e) (len e) := (List.IsChain.rel_head? h rfl).symm
    simp only [total, List.map_cons, List.sum_cons]
    rcases List.mem_cons.mp he' with rfl | hmem
    · exact ⟨0, by rw [hstart, Nat.add_zero], by omega⟩
    · obtain ⟨k, hk, hle⟩ := ih (List.IsChain.tail h) hmem
      refine ⟨len e₁ + k, ?_, by simp only [total] at hle; omega⟩
      rw [hk, hstart, shift_shift]

theorem disjoint (h : Contiguous start len es) (htotal : total len es < 2 ^ w) :
    es.Pairwise fun e e' => ∀ i < len e, ∀ j < len e', shift (start e) i ≠ shift (start e') j := by
  induction es with
  | nil => exact List.Pairwise.nil
  | cons e es ih =>
    simp only [total, List.map_cons, List.sum_cons] at htotal
    refine List.Pairwise.cons ?_ (ih (List.IsChain.tail h) (by simp only [total]; omega))
    intro e' he' i hi j hj heq
    obtain ⟨k, hk, hle⟩ := h.offset he'
    simp only [total] at hle
    rw [hk, shift_shift, shift_inj (by omega) (by omega)] at heq
    omega

end Contiguous

end Serial
