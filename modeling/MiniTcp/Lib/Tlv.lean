import Mathlib.Data.List.Basic

/-!
# Lists of kind, length and body

An item is a filler byte, or a kind, a length that counts the whole item, and a body. A list of items ends
where the bytes do, at an end byte, or at what is no item (`Ends`). Every byte string is such a list
(`exists_items`), so what a walk does with items and at their end is all that it does.
-/

namespace Tlv

/-- A filler byte, or an item that says how long it is. -/
inductive Item where
  | nop
  | option (kind : UInt8) (body : List UInt8) (kind_ge : 2 ≤ kind.toNat) (short : body.length ≤ 253)

def Item.bytes : Item → List UInt8
  | .nop => [1]
  | .option kind body _ _ => kind :: UInt8.ofNat (body.length + 2) :: body

def encode (items : List Item) : List UInt8 := items.flatMap Item.bytes

/-- No item begins here: nothing is left, an end byte, a kind without a length, a length that does not count
itself, or one past the end. -/
inductive Ends : List UInt8 → Prop
  | nil : Ends []
  | eol (rest : List UInt8) : Ends (0 :: rest)
  | cut (kind : UInt8) (hkind : 2 ≤ kind.toNat) : Ends [kind]
  | short (kind size : UInt8) (rest : List UInt8) (hkind : 2 ≤ kind.toNat) (hsize : size.toNat < 2) :
      Ends (kind :: size :: rest)
  | past (kind size : UInt8) (rest : List UInt8) (hkind : 2 ≤ kind.toNat)
      (hsize : (kind :: size :: rest).length < size.toNat) : Ends (kind :: size :: rest)

@[simp] theorem encode_nil : encode [] = [] := rfl

@[simp] theorem encode_cons (item : Item) (items : List Item) : encode (item :: items) = item.bytes ++ encode items :=
  rfl

theorem toNat_size {body : List UInt8} (h : body.length ≤ 253) :
    (UInt8.ofNat (body.length + 2)).toNat = body.length + 2 := by
  rw [UInt8.toNat_ofNat']
  omega

theorem two_le_toNat {kind : UInt8} (hend : kind ≠ 0) (hnop : kind ≠ 1) : 2 ≤ kind.toNat := by
  have h0 : kind.toNat ≠ 0 := fun h => hend (UInt8.toNat_inj.mp h)
  have h1 : kind.toNat ≠ 1 := fun h => hnop (UInt8.toNat_inj.mp h)
  omega

theorem exists_items (data : List UInt8) : ∃ items tail, data = encode items ++ tail ∧ Ends tail := by
  induction hn : data.length using Nat.strongRecOn generalizing data with
  | ind n ih =>
    subst hn
    match data, ih with
    | [], _ => exact ⟨[], [], rfl, .nil⟩
    | kind :: rest, ih =>
      by_cases hend : kind = 0
      · exact ⟨[], kind :: rest, rfl, hend ▸ .eol rest⟩
      by_cases hnop : kind = 1
      · obtain ⟨items, tail, heq, htail⟩ := ih rest.length (by simp) rest rfl
        exact ⟨.nop :: items, tail, by simp [heq, hnop, Item.bytes], htail⟩
      have hkind := two_le_toNat hend hnop
      match rest, ih with
      | [], _ => exact ⟨[], [kind], rfl, .cut kind hkind⟩
      | size :: rest, ih =>
        by_cases hsize : size.toNat < 2
        · exact ⟨[], _, rfl, .short kind size rest hkind hsize⟩
        by_cases hpast : (kind :: size :: rest).length < size.toNat
        · exact ⟨[], _, rfl, .past kind size rest hkind hpast⟩
        -- the body is as long as the length says
        have hlt := size.toNat_lt
        have hlength : (rest.take (size.toNat - 2)).length = size.toNat - 2 := by
          simp only [List.length_cons] at hpast
          rw [List.length_take]
          omega
        have hbyte : UInt8.ofNat ((rest.take (size.toNat - 2)).length + 2) = size := by
          apply UInt8.toNat_inj.mp
          rw [hlength, UInt8.toNat_ofNat']
          omega
        obtain ⟨items, tail, heq, htail⟩ := ih (rest.drop (size.toNat - 2)).length
          (by simp only [List.length_drop, List.length_cons]; omega) _ rfl
        refine ⟨.option kind (rest.take (size.toNat - 2)) hkind (by omega) :: items, tail, ?_, htail⟩
        rw [encode_cons, Item.bytes, hbyte, List.append_assoc, ← heq]
        simp

end Tlv
