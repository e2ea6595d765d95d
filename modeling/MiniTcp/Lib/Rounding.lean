import Mathlib.Data.Rat.Floor

/-!
# Rounded results

A machine number stands for a rational one, and the result of a sum is rounded to a number that the machine has.
Rounding keeps the order, though not strictly: two results may become one, and so may a result and a number that the
machine has. Between two powers of two the numbers of a binary format are the multiples of a fixed unit, and
`nearest` rounds to such multiples.
-/

/-- A way to round that keeps the order. -/
structure Rounding where
  round : ℚ → ℚ
  monotone : Monotone round

namespace Rounding

/-- The machine has this number. -/
def Has (r : Rounding) (x : ℚ) : Prop := r.round x = x

/-- No rounding at all. -/
def exact : Rounding := ⟨id, monotone_id⟩

theorem monotone_nearest (n : Nat) : Monotone fun x : ℚ => (⌊x * n + 1 / 2⌋ : ℚ) / n := by
  intro x y hxy
  have hfloor : ⌊x * n + 1 / 2⌋ ≤ ⌊y * n + 1 / 2⌋ := by
    apply Int.floor_mono
    gcongr
  dsimp only
  gcongr

/-- To the nearest multiple of `1 / n`. -/
def nearest (n : Nat) : Rounding := ⟨fun x => (⌊x * n + 1 / 2⌋ : ℚ) / n, monotone_nearest n⟩

variable {r : Rounding} {x y : ℚ}

theorem lt_of_ne (hxy : x < y) (hne : r.round x ≠ r.round y) : r.round x < r.round y :=
  lt_of_le_of_ne (r.monotone hxy.le) hne

theorem Has.lt_of_lt_round (h : r.Has x) (hlt : x < r.round y) : x < y := by
  rw [← h] at hlt
  exact r.monotone.reflect_lt hlt

end Rounding
