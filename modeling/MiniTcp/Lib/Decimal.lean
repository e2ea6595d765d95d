import Mathlib.Data.List.Induction

/-!
# Decimal numerals

A numeral is a nonempty list of digits without a leading zero, the number zero apart. Printing a number gives its
numeral (`isNumeral_toDigits`), and there is no other: what is read from a numeral prints as that numeral
(`toDigits_ofDigitChars`).
-/

namespace Decimal

/-- Digits, at least one, and no zero before another. -/
def IsNumeral (ds : List Char) : Prop :=
  ds ≠ [] ∧ (∀ c ∈ ds, c.isDigit = true) ∧ (ds.head? = some '0' → ds.length = 1)

instance (ds : List Char) : Decidable (IsNumeral ds) :=
  inferInstanceAs (Decidable (ds ≠ [] ∧ (∀ c ∈ ds, c.isDigit = true) ∧ (ds.head? = some '0' → ds.length = 1)))

variable {ds : List Char} {c : Char}

/-- The value of a digit. -/
def digit (c : Char) : Nat := c.toNat - '0'.toNat

theorem toNat_of_isDigit (h : c.isDigit = true) : c.toNat = 48 + digit c ∧ digit c < 10 := by
  have hzero : '0'.toNat = 48 := rfl
  have hnine : '9'.toNat = 57 := rfl
  rw [Char.isDigit_iff_toNat] at h
  rw [digit]
  omega

theorem digit_lt (h : c.isDigit = true) : digit c < 10 := (toNat_of_isDigit h).2

theorem digitChar_digit (h : c.isDigit = true) : Nat.digitChar (digit c) = c := by
  obtain ⟨hc, hlt⟩ := toNat_of_isDigit h
  rw [← Char.toNat_inj, Nat.toNat_digitChar_of_lt_ten hlt, hc]

theorem digit_eq_zero_iff (h : c.isDigit = true) : digit c = 0 ↔ c = '0' := by
  rw [← Nat.digitChar_eq_zero, digitChar_digit h]

theorem toDigits_digit (h : c.isDigit = true) : Nat.toDigits 10 (digit c) = [c] := by
  rw [Nat.toDigits_of_lt_base (digit_lt h), digitChar_digit h]

theorem ofDigitChars_concat (ds : List Char) (c : Char) :
    Nat.ofDigitChars 10 (ds ++ [c]) 0 = 10 * Nat.ofDigitChars 10 ds 0 + digit c := by
  rw [Nat.ofDigitChars_append, Nat.ofDigitChars_cons, Nat.ofDigitChars_nil]
  rfl

theorem ofDigitChars_pos (h : IsNumeral ds) (hhead : ds.head? ≠ some '0') : 0 < Nat.ofDigitChars 10 ds 0 := by
  obtain ⟨hne, hdigits, -⟩ := h
  obtain ⟨c, rest, rfl⟩ := List.exists_cons_of_ne_nil hne
  have hc := hdigits c List.mem_cons_self
  have hdigit : digit c ≠ 0 := by
    rw [ne_eq, digit_eq_zero_iff hc]
    rintro rfl
    exact hhead rfl
  have hpow : 0 < 10 ^ rest.length := Nat.pow_pos (by decide)
  rw [Nat.ofDigitChars_cons, Nat.mul_zero, Nat.zero_add, Nat.ofDigitChars_eq_ofDigitChars_zero]
  exact Nat.add_pos_left (Nat.mul_pos hpow (Nat.pos_of_ne_zero hdigit)) _

theorem toDigits_ofDigitChars (h : IsNumeral ds) : Nat.toDigits 10 (Nat.ofDigitChars 10 ds 0) = ds := by
  induction ds using List.reverseRecOn with
  | nil => exact absurd rfl h.1
  | append_singleton ds c ih =>
    obtain ⟨-, hdigits, hhead⟩ := h
    have hc : c.isDigit = true := hdigits c (by simp)
    rw [ofDigitChars_concat]
    cases ds with
    | nil => exact (Nat.zero_add _).symm ▸ toDigits_digit hc
    | cons d rest =>
      have hnonzero : (d :: rest).head? ≠ some '0' := by
        intro hzero
        have hlength := hhead (by simpa using hzero)
        simp at hlength
      have hnumeral : IsNumeral (d :: rest) :=
        ⟨by simp, fun c hc => hdigits c (List.mem_append_left _ hc), fun hzero => absurd hzero hnonzero⟩
      rw [← Nat.toDigits_append_toDigits (by decide) (ofDigitChars_pos hnumeral hnonzero) (digit_lt hc), ih hnumeral,
        toDigits_digit hc]

theorem isNumeral_toDigits (n : Nat) : IsNumeral (Nat.toDigits 10 n) := by
  induction n using Nat.strongRecOn with
  | ind n ih =>
    refine ⟨Nat.toDigits_ne_nil, fun c hc => Nat.isDigit_of_mem_toDigits (by decide) (by decide) hc, ?_⟩
    rcases Nat.lt_or_ge n 10 with hlt | hge
    · intro _
      rw [Nat.toDigits_of_lt_base hlt, List.length_singleton]
    · have hrest := ih (n / 10) (by omega)
      obtain ⟨c, rest, hcons⟩ := List.exists_cons_of_ne_nil hrest.1
      rw [Nat.toDigits_of_base_le (by decide) hge, hcons, List.cons_append, List.head?_cons, Option.some.injEq]
      rintro rfl
      -- what is left of `n` would be the number zero
      have hlength := hrest.2.2 (by rw [hcons, List.head?_cons])
      have hnil : rest = [] := by simpa [hcons] using hlength
      have hvalue : Nat.ofDigitChars 10 (Nat.toDigits 10 (n / 10)) 0 = n / 10 := Nat.ofDigitChars_ten_toDigits
      rw [hcons, hnil] at hvalue
      have hzero : Nat.ofDigitChars 10 ['0'] 0 = 0 := rfl
      omega

end Decimal
