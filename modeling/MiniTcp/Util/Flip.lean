import MiniTcp.Util.Checksum
import Mathlib.Data.Nat.Bitwise

/-!
# One wrong bit

A bit of a message stands in its sum of words with a power of two below `65536` (`wordSum_flipBit`), and none of
these is a multiple of `65535`. So no message that passes verification passes it after one bit is flipped
(`checksum_flipBit_ne`), wherever the bit is.
-/

namespace MiniTcp

variable {data front : Bytes} {i k : Nat}

/-- `data[i] ^= 1 << k` -/
def flipBit (data : Bytes) (i k : Nat) : Bytes := data.set i (byteAt data i ^^^ UInt8.ofNat (1 <<< k))

@[simp] theorem length_flipBit (data : Bytes) (i k : Nat) : (flipBit data i k).length = data.length :=
  List.length_set

theorem byteAt_flipBit_of_ne {j : Nat} (h : j ≠ i) : byteAt (flipBit data i k) j = byteAt data j := by
  rw [byteAt, byteAt, flipBit, List.getD_eq_getElem?_getD, List.getD_eq_getElem?_getD, List.getElem?_set_ne h.symm]

theorem byteAt_flipBit (h : i < data.length) :
    byteAt (flipBit data i k) i = byteAt data i ^^^ UInt8.ofNat (1 <<< k) := by
  rw [byteAt, flipBit, List.getD_eq_getElem?_getD, List.getElem?_set_self h]
  rfl

theorem flipBit_append (front data : Bytes) (i k : Nat) :
    flipBit (front ++ data) (front.length + i) k = front ++ flipBit data i k := by
  rw [flipBit, byteAt_append rfl, List.set_append_right _ _ (Nat.le_add_right _ _), Nat.add_sub_cancel_left, flipBit]

theorem take_flipBit {n : Nat} (h : i < n) : (flipBit data i k).take n = flipBit (data.take n) i k := by
  have hbyte : byteAt (data.take n) i = byteAt data i := by
    rw [byteAt, byteAt, List.getD_eq_getElem?_getD, List.getD_eq_getElem?_getD, List.getElem?_take_of_lt h]
  rw [flipBit, flipBit, List.take_set, hbyte]

theorem xor_two_pow (n k : Nat) : n ^^^ 2 ^ k = n + 2 ^ k ∨ n = (n ^^^ 2 ^ k) + 2 ^ k := by
  have hdiv : (n ^^^ 2 ^ k) / 2 ^ k = n / 2 ^ k ^^^ 1 := by
    rw [Nat.xor_div_two_pow, Nat.div_self (Nat.two_pow_pos k)]
  have hmod : (n ^^^ 2 ^ k) % 2 ^ k = n % 2 ^ k := by rw [Nat.xor_mod_two_pow, Nat.mod_self, Nat.xor_zero]
  have hflipped := Nat.div_add_mod (n ^^^ 2 ^ k) (2 ^ k)
  have hsplit := Nat.div_add_mod n (2 ^ k)
  rw [hdiv, hmod] at hflipped
  rcases Nat.even_or_odd (n / 2 ^ k) with heven | hodd
  · rw [Nat.xor_one_of_even heven, Nat.mul_add, Nat.mul_one] at hflipped
    omega
  · have hpos : 1 ≤ n / 2 ^ k := by
      obtain ⟨m, hm⟩ := hodd
      omega
    have hmul : 2 ^ k * (n / 2 ^ k - 1) + 2 ^ k = 2 ^ k * (n / 2 ^ k) := by
      rw [← Nat.mul_succ, Nat.succ_eq_add_one, Nat.sub_add_cancel hpos]
    rw [Nat.xor_one_of_odd hodd] at hflipped
    omega

theorem toNat_flip (b : UInt8) (h : k < 8) : (b ^^^ UInt8.ofNat (1 <<< k)).toNat = b.toNat ^^^ 2 ^ k := by
  have hlt : 2 ^ k < 2 ^ 8 := Nat.pow_lt_pow_right (by decide) h
  rw [UInt8.toNat_xor, Nat.one_shiftLeft, toNat_ofNat_of_lt hlt]

/-! ### The weight of a byte -/

/-- What the byte at `i` counts for in the sum of words. -/
def weight (i : Nat) : Nat := if i % 2 = 0 then 256 else 1

theorem weight_zero : weight 0 = 256 := rfl

theorem weight_one : weight 1 = 1 := rfl

theorem wordSum_set (b : UInt8) (h : i < data.length) :
    wordSum (data.set i b) + weight i * (byteAt data i).toNat = wordSum data + weight i * b.toNat := by
  induction data using words.induct generalizing i with
  | case1 x y rest ih =>
    obtain _ | _ | i := i
    · simp only [List.set_cons_zero, wordSum_cons_cons, unpackH, weight_zero, byteAt, List.getD_cons_zero]
      omega
    · simp only [List.set_cons_succ, List.set_cons_zero, wordSum_cons_cons, unpackH, Nat.zero_add, weight_one, byteAt,
        List.getD_cons_succ, List.getD_cons_zero]
      omega
    · have hrest := @ih i (by simpa using h)
      have hweight : weight (i + 2) = weight i := by
        rw [weight, weight, Nat.add_mod_right]
      have hbyte : byteAt (x :: y :: rest) (i + 2) = byteAt rest i := rfl
      rw [List.set_cons_succ, List.set_cons_succ, wordSum_cons_cons, wordSum_cons_cons, hweight, hbyte]
      omega
  | case2 data hno =>
    obtain _ | ⟨x, _ | ⟨y, rest⟩⟩ := data
    · exact absurd h (Nat.not_lt_zero i)
    · obtain rfl : i = 0 := Nat.lt_one_iff.mp h
      have hsum : ∀ x : UInt8, wordSum [x] = 256 * x.toNat := fun x => by
        simp [wordSum, words, unpackH, Nat.mul_comm]
      simp only [List.set_cons_zero, hsum, weight_zero, byteAt, List.getD_cons_zero]
      omega
    · exact absurd rfl (hno x y rest)

theorem wordSum_flipBit (hi : i < data.length) (hk : k < 8) :
    ∃ n, 0 < n ∧ n < 65535 ∧
      (wordSum (flipBit data i k) = wordSum data + n ∨ wordSum data = wordSum (flipBit data i k) + n) := by
  have hset := wordSum_set (byteAt data i ^^^ UInt8.ofNat (1 <<< k)) hi
  have hpos : 0 < 2 ^ k := Nat.two_pow_pos k
  have hlt : 2 ^ k ≤ 2 ^ 7 := Nat.pow_le_pow_right (by decide) (by omega)
  have hweight : weight i = 256 ∨ weight i = 1 := by
    unfold weight
    split <;> simp
  refine ⟨weight i * 2 ^ k, ?_, ?_, ?_⟩
  · rcases hweight with h | h <;> rw [h] <;> omega
  · rcases hweight with h | h <;> rw [h] <;> omega
  · rw [toNat_flip _ hk] at hset
    rw [flipBit]
    rcases xor_two_pow (byteAt data i).toNat k with hbyte | hbyte
    · rw [hbyte, Nat.mul_add] at hset
      omega
    · have hmul := congrArg (weight i * ·) hbyte
      rw [Nat.mul_add] at hmul
      omega

/-- No message passes verification with one bit wrong. -/
theorem checksum_flipBit_ne (h : checksum data = 0) (hi : i < data.length) (hk : k < 8) :
    checksum (flipBit data i k) ≠ 0 := by
  obtain ⟨n, hpos, hlt, hsum⟩ := wordSum_flipBit hi hk
  rw [checksum_eq_zero_iff] at h
  rw [ne_eq, checksum_eq_zero_iff]
  omega

end MiniTcp
