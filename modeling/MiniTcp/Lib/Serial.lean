import Mathlib.Data.BitVec
import Mathlib.Algebra.Order.Group.Unbundled.Abs
import Mathlib.Algebra.Order.Group.Unbundled.Int
import Mathlib.Tactic.SplitIfs

/-!
# Serial numbers

Counters of a fixed width that wrap. A serial number is a `BitVec w`; `shift b n` is the number `n`
places after `b` and `gap a b` how far one has to count up from `a` to reach `b`. Two numbers are
compared by their gap: `a` precedes `b` when the gap from `a` to `b` is neither zero nor at least
half the ring, so numbers exactly half a ring apart are not comparable in either direction.

Everything a proof needs about such a counter is that it looks like the natural numbers locally:
numbers counted from one base, less than half a ring apart, compare as their offsets do
(`lt_shift_iff`, `le_shift_iff`), and their signed distance is the difference of the offsets
(`diff_shift`). So it is for the residues of integers (`lt_ofInt_iff`, `le_ofInt_iff`, `diff_ofInt`).
-/

namespace Serial

variable {w : Nat}

/-- The number `n` places after `b`. -/
def shift (b : BitVec w) (n : Nat) : BitVec w := b + BitVec.ofNat w n

/-- How far one counts up from `a` to reach `b`. -/
def gap (a b : BitVec w) : Nat := (b - a).toNat

/-- `a` precedes `b`: it is less than half a ring behind. -/
def Lt (a b : BitVec w) : Prop := 0 < gap a b ∧ 2 * gap a b < 2 ^ w

/-- `a` is `b` or precedes it. -/
def Le (a b : BitVec w) : Prop := a = b ∨ Lt a b

/-- The signed distance from `b` to `a`, positive when `a` is ahead. -/
def diff (a b : BitVec w) : Int :=
  if 2 ^ w ≤ 2 * gap b a then (gap b a : Int) - 2 ^ w else gap b a

/-! ### Shifts and gaps -/

@[simp] theorem shift_zero (b : BitVec w) : shift b 0 = b := by simp [shift]

@[simp] theorem shift_shift (b : BitVec w) (m n : Nat) : shift (shift b m) n = shift b (m + n) := by
  simp only [shift, BitVec.ofNat_add, BitVec.add_assoc]

theorem gap_lt (a b : BitVec w) : gap a b < 2 ^ w := (b - a).isLt

@[simp] theorem gap_self (a : BitVec w) : gap a a = 0 := by simp [gap]

theorem gap_eq_zero {a b : BitVec w} : gap a b = 0 ↔ a = b := by
  constructor
  · intro h
    have : b - a = 0#w := BitVec.eq_of_toNat_eq (by simpa [gap] using h)
    exact (sub_eq_zero.mp this).symm
  · rintro rfl
    exact gap_self a

@[simp] theorem shift_gap (a b : BitVec w) : shift a (gap a b) = b := by
  rw [shift, gap, BitVec.ofNat_toNat, BitVec.setWidth_eq, add_sub_cancel]

theorem gap_shift_mod (b : BitVec w) (n : Nat) : gap b (shift b n) = n % 2 ^ w := by
  simp only [gap, shift]
  rw [add_sub_cancel_left, BitVec.toNat_ofNat]

theorem gap_shift {b : BitVec w} {n : Nat} (h : n < 2 ^ w) : gap b (shift b n) = n := by
  rw [gap_shift_mod, Nat.mod_eq_of_lt h]

theorem gap_shift_add {a b : BitVec w} {n : Nat} (h : gap a b + n < 2 ^ w) :
    gap a (shift b n) = gap a b + n := by
  conv_lhs => rw [← shift_gap a b]
  rw [shift_shift, gap_shift h]

theorem gap_shift_shift {b : BitVec w} {m n : Nat} (hmn : m ≤ n) (h : n - m < 2 ^ w) :
    gap (shift b m) (shift b n) = n - m := by
  obtain ⟨d, rfl⟩ := Nat.exists_eq_add_of_le hmn
  rw [← shift_shift, gap_shift (by omega)]
  omega

theorem gap_comm {a b : BitVec w} (h : a ≠ b) : gap b a = 2 ^ w - gap a b := by
  have hne : gap a b ≠ 0 := fun h0 => h (gap_eq_zero.mp h0)
  have hlt := gap_lt a b
  have hneg : a - b = -(b - a) := by rw [neg_sub]
  simp only [gap] at hne hlt ⊢
  rw [hneg, BitVec.toNat_neg, Nat.mod_eq_of_lt (by omega)]

theorem gap_shift_shift_down {b : BitVec w} {m n : Nat} (hmn : m < n) (h : n - m < 2 ^ w) :
    gap (shift b n) (shift b m) = 2 ^ w - (n - m) := by
  have hgap := gap_shift_shift (b := b) hmn.le h
  have hne : shift b m ≠ shift b n := by
    intro heq
    rw [heq, gap_self] at hgap
    omega
  rw [gap_comm hne, hgap]

theorem gap_from (u a b : BitVec w) :
    gap a b = if gap u a ≤ gap u b then gap u b - gap u a else 2 ^ w + gap u b - gap u a := by
  have ha := gap_lt u a
  have hb := gap_lt u b
  split_ifs with hle
  · conv_lhs => rw [← shift_gap u a, ← shift_gap u b]
    exact gap_shift_shift hle (by omega)
  · conv_lhs => rw [← shift_gap u a, ← shift_gap u b]
    rw [gap_shift_shift_down (by omega) (by omega)]
    omega

theorem shift_inj {b : BitVec w} {m n : Nat} (hmn : m < n + 2 ^ w) (hnm : n < m + 2 ^ w) :
    shift b m = shift b n ↔ m = n := by
  refine ⟨fun heq => ?_, fun heq => by rw [heq]⟩
  rcases le_total m n with h | h
  · have := gap_shift_shift (b := b) h (by omega)
    rw [heq, gap_self] at this
    omega
  · have := gap_shift_shift (b := b) h (by omega)
    rw [heq, gap_self] at this
    omega

/-! ### Comparing -/

theorem not_lt_self (a : BitVec w) : ¬ Lt a a := by simp [Lt]

theorem ne_of_lt {a b : BitVec w} (h : Lt a b) : a ≠ b := by
  rintro rfl
  exact not_lt_self a h

theorem le_iff_gap {a b : BitVec w} : Le a b ↔ 2 * gap a b < 2 ^ w := by
  have hpow : 0 < 2 ^ w := Nat.two_pow_pos w
  rw [Le, Lt, ← gap_eq_zero]
  omega

theorem lt_shift {b : BitVec w} {n : Nat} (hn : 0 < n) (h : 2 * n < 2 ^ w) : Lt b (shift b n) := by
  rw [Lt, gap_shift (by omega)]
  exact ⟨hn, h⟩

/-- Locally, serial numbers are ordered as their offsets are. -/
theorem lt_shift_iff {b : BitVec w} {m n : Nat} (hmn : 2 * m < 2 * n + 2 ^ w)
    (hnm : 2 * n < 2 * m + 2 ^ w) : Lt (shift b m) (shift b n) ↔ m < n := by
  rcases lt_trichotomy m n with h | rfl | h
  · have hgap := gap_shift_shift (b := b) h.le (by omega)
    simp only [Lt, hgap, h, iff_true]
    omega
  · simp [Lt]
  · have hgap := gap_shift_shift_down (b := b) h (by omega)
    simp only [Lt, hgap]
    omega

theorem le_shift_iff {b : BitVec w} {m n : Nat} (hmn : 2 * m < 2 * n + 2 ^ w)
    (hnm : 2 * n < 2 * m + 2 ^ w) : Le (shift b m) (shift b n) ↔ m ≤ n := by
  rw [Le, lt_shift_iff hmn hnm, shift_inj (by omega) (by omega)]
  omega

theorem diff_shift {b : BitVec w} {m n : Nat} (hmn : 2 * m < 2 * n + 2 ^ w)
    (hnm : 2 * n < 2 * m + 2 ^ w) : diff (shift b n) (shift b m) = (n : Int) - m := by
  rcases le_or_gt m n with h | h
  · have hgap := gap_shift_shift (b := b) h (by omega)
    rw [diff, hgap, if_neg (by omega)]
    omega
  · have hgap := gap_shift_shift_down (b := b) h (by omega)
    have hpow : ((2 ^ w : Nat) : Int) = 2 ^ w := by push_cast; rfl
    rw [diff, hgap, if_pos (by omega)]
    omega

theorem gap_sub {a b c : BitVec w} (hab : Lt a b) (hcb : ¬ Lt c b) :
    gap a b ≤ gap a c ∧ gap b c = gap a c - gap a b := by
  have hlt := gap_lt a c
  have hhalf := hab.2
  have hb : b = shift a (gap a b) := (shift_gap a b).symm
  have hc : c = shift a (gap a c) := (shift_gap a c).symm
  have hle : gap a b ≤ gap a c := by
    by_contra hno
    refine hcb ?_
    rw [hb, hc, lt_shift_iff (by omega) (by omega)]
    omega
  refine ⟨hle, ?_⟩
  conv_lhs => rw [hb, hc]
  exact gap_shift_shift hle (by omega)

theorem diff_self (a : BitVec w) : diff a a = 0 := by
  have : 0 < 2 ^ w := Nat.two_pow_pos w
  simp [diff]

theorem diff_of_lt {a b : BitVec w} (h : Lt a b) : diff b a = gap a b := by
  rw [diff, if_neg (by have := h.2; omega)]

theorem diff_nonneg_iff {a b : BitVec w} : 0 ≤ diff b a ↔ 2 * gap a b < 2 ^ w := by
  have hlt := gap_lt a b
  have hpow : ((2 ^ w : Nat) : Int) = 2 ^ w := by push_cast; rfl
  rw [diff]
  split <;> omega

theorem diff_of_nonneg {a b : BitVec w} (h : 2 * gap a b < 2 ^ w) : diff b a = gap a b := by
  rw [diff, if_neg (by omega)]

/-- Half a ring apart, neither is before the other. -/
theorem not_lt_of_gap {a b : BitVec w} (h : 2 * gap a b = 2 ^ w) : ¬Lt a b ∧ ¬Lt b a := by
  have hlt := gap_lt a b
  have hne : a ≠ b := by
    rintro rfl
    rw [gap_self] at h
    omega
  have hback := gap_comm hne
  rw [Lt, Lt, hback]
  omega

/-- Between a number and the one less than half a ring ahead of it are the numbers of smaller gap. -/
theorem between_shift_iff {s low : BitVec w} {n : Nat} (h : 2 * n < 2 ^ w) :
    Le low s ∧ Lt s (shift low n) ↔ gap low s < n := by
  rw [le_iff_gap]
  conv_lhs => rw [← shift_gap low s, gap_shift (gap_lt low s)]
  constructor
  · rintro ⟨hle, hlt⟩
    exact (lt_shift_iff (by omega) (by omega)).mp hlt
  · intro hlt
    exact ⟨by omega, (lt_shift_iff (by omega) (by omega)).mpr hlt⟩

/-! ### Integers and their residues -/

theorem ofInt_add_natCast (x : Int) (n : Nat) : BitVec.ofInt w (x + n) = shift (BitVec.ofInt w x) n := by
  rw [BitVec.ofInt_add, BitVec.ofInt_natCast, shift]

theorem exists_offsets {x y : Int} (h : 2 * |x - y| < 2 ^ w) :
    ∃ (b : Int) (m n : Nat), x = b + m ∧ y = b + n ∧ 2 * m < 2 * n + 2 ^ w ∧ 2 * n < 2 * m + 2 ^ w := by
  have hpow : ((2 ^ w : Nat) : Int) = 2 ^ w := by push_cast; rfl
  rcases le_total x y with hle | hle
  · rw [abs_of_nonpos (by omega)] at h
    exact ⟨x, 0, (y - x).toNat, by omega, by omega, by omega, by omega⟩
  · rw [abs_of_nonneg (by omega)] at h
    exact ⟨y, (x - y).toNat, 0, by omega, by omega, by omega, by omega⟩

theorem lt_ofInt_iff {x y : Int} (h : 2 * |x - y| < 2 ^ w) : Lt (BitVec.ofInt w x) (BitVec.ofInt w y) ↔ x < y := by
  obtain ⟨b, m, n, rfl, rfl, hmn, hnm⟩ := exists_offsets h
  rw [ofInt_add_natCast, ofInt_add_natCast, lt_shift_iff hmn hnm]
  omega

theorem le_ofInt_iff {x y : Int} (h : 2 * |x - y| < 2 ^ w) : Le (BitVec.ofInt w x) (BitVec.ofInt w y) ↔ x ≤ y := by
  obtain ⟨b, m, n, rfl, rfl, hmn, hnm⟩ := exists_offsets h
  rw [ofInt_add_natCast, ofInt_add_natCast, le_shift_iff hmn hnm]
  omega

theorem diff_ofInt {x y : Int} (h : 2 * |x - y| < 2 ^ w) : diff (BitVec.ofInt w x) (BitVec.ofInt w y) = x - y := by
  obtain ⟨b, m, n, rfl, rfl, hmn, hnm⟩ := exists_offsets h
  rw [ofInt_add_natCast, ofInt_add_natCast, diff_shift hnm hmn]
  omega

end Serial
