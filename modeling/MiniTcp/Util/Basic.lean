import Mathlib.Algebra.GroupWithZero.Nat
import Mathlib.Algebra.Order.Ring.Rat
import Mathlib.Data.List.GetD

/-!
# Bytes, times, errors

What every layer of the stack is about: byte strings, times in seconds as exact rationals where the source
has floats, and the two kinds of exception its codecs raise.
-/

namespace MiniTcp

abbrev Bytes := List UInt8

/-- A time in seconds. -/
abbrev Time := ℚ

/-- `ValueError` with its text, or the `struct.error` of a field that does not fit. -/
inductive PyError where
  | valueError (message : String)
  | structError
  deriving DecidableEq, Repr

@[simp] theorem ok_bind {α β : Type} (a : α) (f : α → Except PyError β) : Except.ok a >>= f = f a := rfl

@[simp] theorem error_bind {α β : Type} (e : PyError) (f : α → Except PyError β) :
    (Except.error e : Except PyError α) >>= f = .error e := rfl

theorem ok_of_check {α : Type} {p : Prop} [Decidable p] {e : PyError} {r : Except PyError α} {a : α}
    (h : (if p then .error e else r) = .ok a) : ¬ p ∧ r = .ok a := by
  split_ifs at h with hp
  exact ⟨hp, h⟩

theorem check_ne {α : Type} {p : Prop} [Decidable p] {message : String} {r : Except PyError α}
    (h : r ≠ .error .structError) : (if p then .error (.valueError message) else r) ≠ .error .structError := by
  split_ifs
  · simp
  · exact h

/-! ### `struct` -/

/-- `struct.pack("!H", n)` of a number that fits. -/
def packH (n : Nat) : Bytes := [UInt8.ofNat (n / 256), UInt8.ofNat (n % 256)]

/-- The number two bytes stand for. -/
def unpackH (hi lo : UInt8) : Nat := hi.toNat * 256 + lo.toNat

/-- The byte at `i`, as `struct.unpack_from` reads it. -/
def byteAt (data : Bytes) (i : Nat) : UInt8 := data.getD i 0

def u16At (data : Bytes) (i : Nat) : Nat := unpackH (byteAt data i) (byteAt data (i + 1))

/-- `struct.pack("!I", n)` of a number that fits. -/
def packI (n : Nat) : Bytes := packH (n / 65536) ++ packH (n % 65536)

def u32At (data : Bytes) (i : Nat) : Nat := u16At data i * 65536 + u16At data (i + 2)

@[simp] theorem length_packH (n : Nat) : (packH n).length = 2 := rfl

@[simp] theorem length_packI (n : Nat) : (packI n).length = 4 := rfl

theorem toNat_ofNat_of_lt {n : Nat} (h : n < 256) : (UInt8.ofNat n).toNat = n := by
  rw [UInt8.toNat_ofNat']
  omega

theorem unpackH_lt (hi lo : UInt8) : unpackH hi lo < 65536 := by
  have hhi := hi.toNat_lt
  have hlo := lo.toNat_lt
  rw [unpackH]
  omega

theorem unpackH_packH {n : Nat} (h : n < 65536) :
    unpackH (UInt8.ofNat (n / 256)) (UInt8.ofNat (n % 256)) = n := by
  rw [unpackH, toNat_ofNat_of_lt (by omega), toNat_ofNat_of_lt (by omega)]
  omega

theorem byteAt_append {front : Bytes} {n : Nat} (h : front.length = n) (data : Bytes) (i : Nat) :
    byteAt (front ++ data) (n + i) = byteAt data i := by
  rw [byteAt, byteAt, List.getD_append_right _ _ _ _ (by omega), h, Nat.add_sub_cancel_left]

theorem u16At_append {front : Bytes} {n : Nat} (h : front.length = n) (data : Bytes) (i : Nat) :
    u16At (front ++ data) (n + i) = u16At data i := by
  rw [u16At, Nat.add_assoc, byteAt_append h, byteAt_append h, u16At]

theorem u16At_packH {n : Nat} (h : n < 65536) (rest : Bytes) : u16At (packH n ++ rest) 0 = n :=
  unpackH_packH h

theorem u32At_packI {n : Nat} (h : n < 2 ^ 32) (rest : Bytes) : u32At (packI n ++ rest) 0 = n := by
  have hhigh : u16At (packI n ++ rest) 0 = n / 65536 := unpackH_packH (by omega)
  have hlow : u16At (packI n ++ rest) 2 = n % 65536 := unpackH_packH (by omega)
  rw [u32At, hhigh, hlow]
  omega

theorem u16At_lt (data : Bytes) (i : Nat) : u16At data i < 65536 := unpackH_lt _ _

/-! ### What was read is written back -/

theorem packH_unpackH (hi lo : UInt8) : packH (unpackH hi lo) = [hi, lo] := by
  have hlt := lo.toNat_lt
  have hhigh : (hi.toNat * 256 + lo.toNat) / 256 = hi.toNat := by omega
  have hlow : (hi.toNat * 256 + lo.toNat) % 256 = lo.toNat := by omega
  rw [packH, unpackH, hhigh, hlow, UInt8.ofNat_toNat, UInt8.ofNat_toNat]

theorem take_one_eq {data : Bytes} {i : Nat} (h : i < data.length) : (data.drop i).take 1 = [byteAt data i] := by
  rw [List.drop_eq_getElem_cons h, List.take_succ_cons, List.take_zero, byteAt, List.getD_eq_getElem _ _ h]

theorem take_two_eq {data : Bytes} {i : Nat} (h : i + 1 < data.length) :
    (data.drop i).take 2 = packH (u16At data i) := by
  rw [u16At, packH_unpackH, List.take_add (i := 1) (j := 1), take_one_eq (by omega), List.drop_drop, take_one_eq h]
  rfl

end MiniTcp
