import MiniTcp.Util.Checksum
import Mathlib.Algebra.BigOperators.Group.Finset.Basic
import Mathlib.Algebra.Order.BigOperators.Group.Finset
import Mathlib.Logic.Function.Iterate

/-!
# What a checksum accepts and what it finds

The words of a string, one by one: `wordSum` is the sum of what stands at the even places
(`wordSum_eq_sum`), and folding is the loop of the source (`foldCarries_iterate`), so the sum computed
is the sum of the words up to multiples of `65535`. One word for another moves the sum by less than
`65535`, or by `65535` itself when the two forms of zero are exchanged.
-/

namespace MiniTcp

open Finset (sum_range_succ' sum_range_zero)

/-- Does the string already hold a correct checksum? -/
def verify (data : Bytes) : Bool := checksum data == 0

theorem verify_iff {data : Bytes} : verify data = true ↔ 0 < wordSum data ∧ wordSum data % 65535 = 0 := by
  rw [verify, beq_iff_eq, checksum_eq_zero_iff]

/-! ### The loop -/

/-- One round of the loop that folds the carries. -/
def foldRound (total : Nat) : Nat := (total &&& 0xFFFF) + (total >>> 16)

theorem foldRound_lt {total : Nat} (h : total >>> 16 ≠ 0) : foldRound total < total := by
  have hlow : total &&& 0xFFFF = total % 65536 := Nat.and_two_pow_sub_one_eq_mod total 16
  have hhigh : total >>> 16 = total / 65536 := Nat.shiftRight_eq_div_pow total 16
  rw [foldRound, hlow, hhigh]
  omega

theorem foldCarries_iterate {fuel total : Nat} (h : total ≤ fuel) :
    ∃ n, (∀ m < n, (foldRound^[m] total) >>> 16 ≠ 0) ∧ (foldRound^[n] total) >>> 16 = 0 ∧
      foldCarries fuel total = foldRound^[n] total := by
  induction fuel generalizing total with
  | zero =>
    obtain rfl := Nat.le_zero.mp h
    exact ⟨0, by simp, rfl, rfl⟩
  | succ fuel ih =>
    by_cases hzero : total >>> 16 = 0
    · refine ⟨0, by simp, hzero, ?_⟩
      rw [foldCarries, if_pos hzero, Function.iterate_zero_apply]
    · have hlt := foldRound_lt hzero
      obtain ⟨n, hbefore, hend, heq⟩ := @ih (foldRound total) (by omega)
      refine ⟨n + 1, ?_, hend, ?_⟩
      · intro m hm
        cases m with
        | zero => exact hzero
        | succ m => exact hbefore m (by omega)
      · rw [foldCarries, if_neg hzero]
        exact heq

/-! ### Word by word -/

/-- The sum of the words, read where they stand; past the end the bytes are zero. -/
theorem wordSum_eq_sum (data : Bytes) :
    wordSum data = ∑ i ∈ Finset.range ((data.length + 1) / 2), u16At data (2 * i) := by
  induction data using words.induct with
  | case1 x y rest ih =>
    have hlength : ((x :: y :: rest).length + 1) / 2 = (rest.length + 1) / 2 + 1 := by
      simp only [List.length_cons]
      omega
    rw [hlength, sum_range_succ', wordSum_cons_cons, ih, Nat.add_comm]
    rfl
  | case2 data hno =>
    obtain _ | ⟨x, _ | ⟨y, rest⟩⟩ := data
    · rfl
    · have hlength : ([x].length + 1) / 2 = 0 + 1 := by simp
      rw [hlength, sum_range_succ', sum_range_zero]
      simp [wordSum, words, u16At, byteAt]
    · exact absurd rfl (hno x y rest)

theorem wordSum_eq_zero_iff {data : Bytes} : wordSum data = 0 ↔ ∀ b ∈ data, b = 0 := by
  induction data using words.induct with
  | case1 x y rest ih =>
    have hzero : unpackH x y = 0 ↔ x = 0 ∧ y = 0 := by
      rw [unpackH, ← UInt8.toNat_inj, ← UInt8.toNat_inj, UInt8.toNat_zero]
      omega
    rw [wordSum_cons_cons, Nat.add_eq_zero_iff, ih, hzero, List.forall_mem_cons, List.forall_mem_cons, and_assoc]
  | case2 data hno =>
    obtain _ | ⟨x, _ | ⟨y, rest⟩⟩ := data
    · simp [wordSum, words]
    · have hzero : x = 0 ↔ x.toNat = 0 := by rw [← UInt8.toNat_inj, UInt8.toNat_zero]
      simp only [wordSum, words, unpackH, List.length_singleton, Nat.and_self, ite_true, List.singleton_append,
        List.sum_singleton, UInt8.toNat_zero, Nat.add_zero, List.forall_mem_singleton, hzero]
      omega
    · exact absurd rfl (hno x y rest)

theorem wordSum_substitute {data data' : Bytes} {k : Nat} (hlength : data'.length = data.length)
    (hk : 2 * k < data.length) (hsame : ∀ j, j / 2 ≠ k → byteAt data' j = byteAt data j) :
    wordSum data' + u16At data (2 * k) = wordSum data + u16At data' (2 * k) := by
  have hmem : k ∈ Finset.range ((data.length + 1) / 2) := by
    rw [Finset.mem_range]
    omega
  have hothers : ∑ i ∈ (Finset.range ((data.length + 1) / 2)).erase k, u16At data' (2 * i) =
      ∑ i ∈ (Finset.range ((data.length + 1) / 2)).erase k, u16At data (2 * i) := by
    refine Finset.sum_congr rfl fun i hi => ?_
    have hne := Finset.ne_of_mem_erase hi
    rw [u16At, u16At, hsame (2 * i) (by omega), hsame (2 * i + 1) (by omega)]
  rw [wordSum_eq_sum, wordSum_eq_sum, hlength, ← Finset.add_sum_erase _ _ hmem, ← Finset.add_sum_erase _ _ hmem,
    hothers]
  omega

/-! ### Acceptance and detection -/

theorem verify_insert {data : Bytes} {i : Nat} (heven : i % 2 = 0) (hi : i + 2 ≤ data.length)
    (hzero : u16At data i = 0) :
    verify (data.take i ++ packH (checksum data) ++ data.drop (i + 2)) = true := by
  have hsplit : data.take i ++ packH 0 ++ data.drop (i + 2) = data := by
    rw [← hzero, ← take_two_eq (by omega), ← List.take_add, List.take_append_drop]
  have hlength : (data.take i).length % 2 = 0 := by
    rw [List.length_take]
    omega
  rw [verify, beq_iff_eq]
  exact checksum_insert _ hlength (.inl (by rw [hsplit]))

theorem verify_substitute {data data' : Bytes} {k : Nat} (hverify : verify data = true)
    (hlength : data'.length = data.length) (hk : 2 * k < data.length)
    (hsame : ∀ j, j / 2 ≠ k → byteAt data' j = byteAt data j)
    (hne : u16At data' (2 * k) ≠ u16At data (2 * k))
    (hup : ¬(u16At data (2 * k) = 0 ∧ u16At data' (2 * k) = 0xFFFF))
    (hdown : ¬(u16At data (2 * k) = 0xFFFF ∧ u16At data' (2 * k) = 0)) : verify data' = false := by
  have hsum := wordSum_substitute hlength hk hsame
  have hlt := u16At_lt data (2 * k)
  have hlt' := u16At_lt data' (2 * k)
  rw [verify_iff] at hverify
  rw [← Bool.not_eq_true, verify_iff]
  omega

/-- The checksum is a sum of words modulo `65535`, accepts the strings it is written into, and finds every
wrong word but the other form of zero. -/
theorem internetChecksum_sound :
    (∀ data : Bytes,
      (∃ n, (∀ m < n, (foldRound^[m] (∑ i ∈ Finset.range ((data.length + 1) / 2), u16At data (2 * i))) >>> 16 ≠ 0) ∧
        onesComplementSum data = foldRound^[n] (∑ i ∈ Finset.range ((data.length + 1) / 2), u16At data (2 * i))) ∧
      onesComplementSum data ≤ 0xFFFF ∧
      onesComplementSum data % 65535 = (∑ i ∈ Finset.range ((data.length + 1) / 2), u16At data (2 * i)) % 65535 ∧
      (onesComplementSum data = 0 ↔ ∀ b ∈ data, b = 0)) ∧
    (∀ (data : Bytes) (i : Nat), i % 2 = 0 → i + 2 ≤ data.length → u16At data i = 0 →
      verify (data.take i ++ packH (checksum data) ++ data.drop (i + 2)) = true) ∧
    ∀ (data data' : Bytes) (k : Nat), verify data = true → data'.length = data.length → 2 * k < data.length →
      (∀ j, j / 2 ≠ k → byteAt data' j = byteAt data j) → u16At data' (2 * k) ≠ u16At data (2 * k) →
      ¬(u16At data (2 * k) = 0 ∧ u16At data' (2 * k) = 0xFFFF) →
      ¬(u16At data (2 * k) = 0xFFFF ∧ u16At data' (2 * k) = 0) → verify data' = false := by
  refine ⟨fun data => ?_, fun _ _ => verify_insert, fun _ _ _ => verify_substitute⟩
  obtain ⟨hlt, hmod, hzero⟩ := onesComplementSum_spec data
  obtain ⟨n, hbefore, -, heq⟩ := foldCarries_iterate (Nat.le_refl (wordSum data))
  rw [← wordSum_eq_sum]
  exact ⟨⟨n, hbefore, heq⟩, by omega, hmod, hzero.trans wordSum_eq_zero_iff⟩

/-- Four bytes, the last two of them the checksum, and then another first word. -/
theorem internetChecksum_sound_four :
    verify ([1, 2, 0, 0].take 2 ++ packH (checksum [1, 2, 0, 0]) ++ [1, 2, 0, 0].drop 4) = true ∧
      verify [1, 3, 0xFE, 0xFD] = false :=
  ⟨internetChecksum_sound.2.1 [1, 2, 0, 0] 2 rfl (by decide) (by decide),
    internetChecksum_sound.2.2 [1, 2, 0xFE, 0xFD] [1, 3, 0xFE, 0xFD] 0 (by decide) rfl (by decide)
      (by
        intro j hj
        match j with
        | 0 => exact absurd rfl hj
        | 1 => exact absurd rfl hj
        | j + 2 => rfl)
      (by decide) (by decide) (by decide)⟩

end MiniTcp
