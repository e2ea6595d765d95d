import Mathlib.Algebra.Order.Field.Basic
import Mathlib.Algebra.Order.Group.Unbundled.Abs
import Mathlib.Tactic.Linarith

/-!
# The range of a list of values

`Hull xs lo hi` says that `lo` is the least and `hi` the greatest element of `xs`. A value that stays in the
range of what was measured is moved by averages: an average of a value in the range with a new measurement is
in the range that has the new measurement too (`Hull.average`), and two values in the range are no further
apart than its ends (`Hull.abs_sub_le`).
-/

variable {α : Type*} [LinearOrder α]

/-- The least and the greatest element. -/
structure Hull (xs : List α) (lo hi : α) : Prop where
  lo_mem : lo ∈ xs
  hi_mem : hi ∈ xs
  bounds : ∀ x ∈ xs, lo ≤ x ∧ x ≤ hi

namespace Hull

variable {xs : List α} {lo hi : α}

theorem singleton (a : α) : Hull [a] a a :=
  ⟨List.mem_singleton_self a, List.mem_singleton_self a, by simp⟩

theorem concat (h : Hull xs lo hi) (a : α) : Hull (xs ++ [a]) (min lo a) (max hi a) := by
  refine ⟨?_, ?_, ?_⟩
  · rcases min_choice lo a with hmin | hmin <;> simp [hmin, h.lo_mem]
  · rcases max_choice hi a with hmax | hmax <;> simp [hmax, h.hi_mem]
  · intro x hx
    rcases List.mem_append.mp hx with hx | hx
    · exact ⟨min_le_of_left_le (h.bounds x hx).1, le_max_of_le_left (h.bounds x hx).2⟩
    · obtain rfl := List.mem_singleton.mp hx
      exact ⟨min_le_right _ _, le_max_right _ _⟩

section Field

variable {K : Type*} [Field K] [LinearOrder K] [IsStrictOrderedRing K] {xs : List K} {lo hi v : K}

theorem average (hlo : lo ≤ v) (hhi : v ≤ hi) (a : K) {p q : K} (hp : 0 ≤ p) (hq : 0 ≤ q) (hsum : p + q = 1) :
    min lo a ≤ p * v + q * a ∧ p * v + q * a ≤ max hi a := by
  have hmin : min lo a = p * min lo a + q * min lo a := by rw [← add_mul, hsum, one_mul]
  have hmax : max hi a = p * max hi a + q * max hi a := by rw [← add_mul, hsum, one_mul]
  rw [hmin, hmax]
  constructor
  · exact add_le_add (mul_le_mul_of_nonneg_left (min_le_of_left_le hlo) hp)
      (mul_le_mul_of_nonneg_left (min_le_right lo a) hq)
  · exact add_le_add (mul_le_mul_of_nonneg_left (le_max_of_le_left hhi) hp)
      (mul_le_mul_of_nonneg_left (le_max_right hi a) hq)

theorem abs_sub_le (hlo : lo ≤ v) (hhi : v ≤ hi) (a : K) : |v - a| ≤ max hi a - min lo a := by
  have hlow := min_le_left lo a
  have hlow' := min_le_right lo a
  have hhigh := le_max_left hi a
  have hhigh' := le_max_right hi a
  rw [abs_le]
  constructor <;> linarith

end Field

end Hull
