import MiniTcp.Net.Ipv4
import MiniTcp.Net.Ipv4.Address
import Mathlib.Data.Nat.Bitwise

/-!
# Netmasks

The mask that `prefix_to_mask` writes has its leading bits set (`testBit_maskValue`), so two numbers agree under
it when they agree after a division by a power of two. Under such a mask two addresses share a subnet when their
first bits agree (`sameSubnet_of_prefixToMask`).
-/

namespace MiniTcp

/-- The number in `prefix_to_mask`. -/
def maskValue (n : Nat) : Nat := if n ≠ 0 then 0xFFFFFFFF <<< (32 - n) &&& 0xFFFFFFFF else 0

/-- Turn a prefix length into a netmask, e.g. 24 -> 255.255.255.0. -/
def prefixToMask (n : Int) : Except PyError Bytes :=
  if ¬ (0 ≤ n ∧ n ≤ 32) then .error (.valueError s!"prefix length must be between 0 and 32, got {n}")
  else .ok (packI (maskValue n.toNat))

variable {n i u v : Nat} {mask a b : Bytes}

theorem prefixToMask_eq_ok_iff : prefixToMask n = .ok mask ↔ n ≤ 32 ∧ packI (maskValue n) = mask := by
  unfold prefixToMask
  split_ifs with h
  · simp only [Except.ok.injEq, Int.toNat_natCast, iff_and_self]
    omega
  · simp only [false_iff, not_and]
    omega

/-! ### The bits of a mask -/

theorem maskValue_lt (n : Nat) : maskValue n < 2 ^ 32 := by
  unfold maskValue
  split_ifs
  · exact Nat.and_lt_two_pow _ (by decide)
  · decide

theorem testBit_maskValue (h : n ≤ 32) (i : Nat) : (maskValue n).testBit i = decide (32 - n ≤ i ∧ i < 32) := by
  have hones : 0xFFFFFFFF = 2 ^ 32 - 1 := rfl
  unfold maskValue
  split_ifs with hn
  · rw [hones, Nat.testBit_and, Nat.testBit_shiftLeft, Nat.testBit_two_pow_sub_one, Nat.testBit_two_pow_sub_one,
      Bool.eq_iff_iff]
    simp only [ge_iff_le, Bool.and_eq_true, decide_eq_true_eq]
    omega
  · rw [Nat.zero_testBit, eq_comm, decide_eq_false_iff_not]
    omega

theorem and_maskValue_eq_iff (h : n ≤ 32) (hu : u < 2 ^ 32) (hv : v < 2 ^ 32) :
    u &&& maskValue n = v &&& maskValue n ↔ u / 2 ^ (32 - n) = v / 2 ^ (32 - n) := by
  constructor
  · intro heq
    apply Nat.eq_of_testBit_eq
    intro i
    rw [Nat.testBit_div_two_pow, Nat.testBit_div_two_pow]
    by_cases hi : i + (32 - n) < 32
    · have hbit := congrArg (Nat.testBit · (i + (32 - n))) heq
      simpa [Nat.testBit_and, testBit_maskValue h, hi] using hbit
    · have hle : 2 ^ 32 ≤ 2 ^ (i + (32 - n)) := Nat.pow_le_pow_right (by decide) (by omega)
      rw [Nat.testBit_lt_two_pow (hu.trans_le hle), Nat.testBit_lt_two_pow (hv.trans_le hle)]
  · intro heq
    apply Nat.eq_of_testBit_eq
    intro i
    rw [Nat.testBit_and, Nat.testBit_and]
    by_cases hi : 32 - n ≤ i
    · have hbit := congrArg (Nat.testBit · (i - (32 - n))) heq
      simp only [Nat.testBit_div_two_pow, Nat.sub_add_cancel hi] at hbit
      rw [hbit]
    · simp [testBit_maskValue h, hi]

/-! ### Four bytes as a number -/

theorem u32At_lt (data : Bytes) (i : Nat) : u32At data i < 2 ^ 32 := by
  have hhigh := u16At_lt data i
  have hlow := u16At_lt data (i + 2)
  rw [u32At]
  omega

theorem packI_u32At (h : a.length = 4) : packI (u32At a 0) = a := by
  match a, h with
  | [w, x, y, z], _ =>
    have hlow := u16At_lt [w, x, y, z] 2
    have hdiv : u32At [w, x, y, z] 0 / 65536 = unpackH w x := by
      change (unpackH w x * 65536 + u16At [w, x, y, z] 2) / 65536 = _
      omega
    have hmod : u32At [w, x, y, z] 0 % 65536 = unpackH y z := by
      change (unpackH w x * 65536 + u16At [w, x, y, z] 2) % 65536 = u16At [w, x, y, z] 2
      omega
    rw [packI, hdiv, hmod, packH_unpackH, packH_unpackH]
    rfl

theorem u32At_inj (ha : a.length = 4) (hb : b.length = 4) : u32At a 0 = u32At b 0 ↔ a = b := by
  refine ⟨fun h => ?_, fun h => by rw [h]⟩
  rw [← packI_u32At ha, h, packI_u32At hb]

theorem u32At_packI_self (h : u < 2 ^ 32) : u32At (packI u) 0 = u := by
  have hpacked := u32At_packI h []
  rwa [List.append_nil] at hpacked

/-! ### Subnets -/

theorem and_two_pow_mul_add {k x y : Nat} (hu : u < 2 ^ k) (hv : v < 2 ^ k) :
    (2 ^ k * x + u) &&& (2 ^ k * y + v) = 2 ^ k * (x &&& y) + (u &&& v) := by
  apply Nat.eq_of_testBit_eq
  intro i
  have huv : u &&& v < 2 ^ k := Nat.and_lt_two_pow _ hv
  rw [Nat.testBit_and, Nat.testBit_two_pow_mul_add _ hu, Nat.testBit_two_pow_mul_add _ hv,
    Nat.testBit_two_pow_mul_add _ huv]
  split_ifs <;> rw [Nat.testBit_and]

theorem unpackH_and (w x y z : UInt8) : unpackH (w &&& y) (x &&& z) = unpackH w x &&& unpackH y z := by
  have hand := and_two_pow_mul_add (k := 8) (x := w.toNat) (y := y.toNat) x.toNat_lt z.toNat_lt
  simp only [unpackH, UInt8.toNat_and, Nat.mul_comm _ 256]
  exact hand.symm

theorem u32At_zipWith_and (ha : a.length = 4) (hmask : mask.length = 4) :
    u32At (List.zipWith (· &&& ·) a mask) 0 = u32At a 0 &&& u32At mask 0 := by
  match a, mask, ha, hmask with
  | [w, x, y, z], [w', x', y', z'], _, _ =>
    have hand := and_two_pow_mul_add (k := 16) (x := unpackH w x) (y := unpackH w' x') (unpackH_lt y z)
      (unpackH_lt y' z')
    change unpackH (w &&& w') (x &&& x') * 65536 + unpackH (y &&& y') (z &&& z') =
      (unpackH w x * 65536 + unpackH y z) &&& (unpackH w' x' * 65536 + unpackH y' z')
    rw [unpackH_and, unpackH_and]
    simp only [Nat.mul_comm _ 65536]
    exact hand.symm

theorem sameSubnet_eq (hb : b.length = a.length) (hmask : mask.length = a.length) :
    sameSubnet a b mask =
      .ok (decide (List.zipWith (· &&& ·) a mask = List.zipWith (· &&& ·) b mask)) := by
  induction a generalizing b mask with
  | nil =>
    obtain rfl := List.length_eq_zero_iff.mp hb
    obtain rfl := List.length_eq_zero_iff.mp hmask
    rfl
  | cons x a ih =>
    match b, mask, hb, hmask with
    | y :: b, m :: mask, hb, hmask =>
      rw [sameSubnet, ih (Nat.succ_inj.mp hb) (Nat.succ_inj.mp hmask)]
      split_ifs with heq
      · simp [heq]
      · simp [heq]

theorem sameSubnet_of_prefixToMask (hmask : prefixToMask n = .ok mask) (ha : a.length = 4) (hb : b.length = 4) :
    sameSubnet a b mask = .ok (decide (u32At a 0 / 2 ^ (32 - n) = u32At b 0 / 2 ^ (32 - n))) := by
  obtain ⟨hn, rfl⟩ := prefixToMask_eq_ok_iff.mp hmask
  have hlength : ∀ {c : Bytes}, c.length = 4 → (List.zipWith (· &&& ·) c (packI (maskValue n))).length = 4 := by
    intro c hc
    rw [List.length_zipWith, hc, length_packI]
    rfl
  rw [sameSubnet_eq (hb.trans ha.symm) ((length_packI _).trans ha.symm)]
  congr 2
  rw [← u32At_inj (hlength ha) (hlength hb), u32At_zipWith_and ha (length_packI _),
    u32At_zipWith_and hb (length_packI _), u32At_packI_self (maskValue_lt n),
    and_maskValue_eq_iff hn (u32At_lt a 0) (u32At_lt b 0)]

end MiniTcp
