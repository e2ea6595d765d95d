import MiniTcp.Util.Basic
import MiniTcp.Lib.Decimal
import Mathlib.Data.List.Basic
import Mathlib.Data.List.TakeWhile

/-!
# `minitcp/net/ipv4.py`: addresses as text

`ip_to_bytes` and `ip_to_str`. What `str.isdigit`, `int` and `repr` do with characters beyond ASCII is in the
Unicode database of the interpreter, and so is the limit on the digits that `int` reads a setting of it; both are
the fields of `Interpreter`. On ASCII text neither makes a difference: the addresses read are the dotted quads
(`DottedQuad`), one spelling for each address.
-/

namespace MiniTcp

/-- What depends on the interpreter. -/
structure Interpreter where
  isDigit : Char → Bool
  /-- The value of a decimal digit. -/
  decimal : Char → Option Nat
  isPrintable : Char → Bool
  /-- `sys.get_int_max_str_digits()` -/
  maxStrDigits : Nat
  /-- No limit at all, or one that is not below 640. -/
  maxStrDigits_ok : maxStrDigits = 0 ∨ 640 ≤ maxStrDigits

def ASCII_END : Nat := 0x80

namespace Interpreter

variable (py : Interpreter)

/-! ### Strings -/

def digitChar (c : Char) : Bool := if c.toNat < ASCII_END then c.isDigit else py.isDigit c

def decimalChar (c : Char) : Option Nat :=
  if c.toNat < ASCII_END then if c.isDigit then some (Decimal.digit c) else none else py.decimal c

/-- `str.isdigit` -/
def isdigit (part : List Char) : Bool := !part.isEmpty && part.all py.digitChar

/-- `n` in hexadecimal, as many digits as are asked for. -/
def hex (digits n : Nat) : List Char := (List.range digits).reverse.map fun i => Nat.digitChar (n / 16 ^ i % 16)

def reprChar (quote c : Char) : List Char :=
  if c = quote ∨ c.toNat = 0x5C then [Char.ofNat 0x5C, c]
  else if c = '\t' then [Char.ofNat 0x5C, 't']
  else if c = '\n' then [Char.ofNat 0x5C, 'n']
  else if c = '\r' then [Char.ofNat 0x5C, 'r']
  else if c.toNat < 0x20 ∨ c.toNat = 0x7F then Char.ofNat 0x5C :: 'x' :: hex 2 c.toNat
  else if c.toNat < ASCII_END ∨ py.isPrintable c then [c]
  else if c.toNat ≤ 0xFF then Char.ofNat 0x5C :: 'x' :: hex 2 c.toNat
  else if c.toNat ≤ 0xFFFF then Char.ofNat 0x5C :: 'u' :: hex 4 c.toNat
  else Char.ofNat 0x5C :: 'U' :: hex 8 c.toNat

/-- `repr` of a string: in single quotes, unless it has some of them and no double ones. -/
def repr (text : List Char) : String :=
  let single := Char.ofNat 0x27
  let double := Char.ofNat 0x22
  let quote := if single ∈ text ∧ double ∉ text then double else single
  String.ofList (quote :: (text.flatMap (py.reprChar quote) ++ [quote]))

/-- `int` of a string that has digits only, not all of them decimal perhaps. -/
def int (part : List Char) : Except PyError Nat :=
  let digits := part.takeWhile fun c => (py.decimalChar c).isSome
  if py.maxStrDigits ≠ 0 ∧ digits.length > py.maxStrDigits then
    .error (.valueError (s!"Exceeds the limit ({py.maxStrDigits} digits) for integer string conversion: " ++
      s!"value has {digits.length} digits; use sys.set_int_max_str_digits() to increase the limit"))
  else if digits.length ≠ part.length then
    .error (.valueError s!"invalid literal for int() with base 10: {py.repr part}")
  else .ok (part.foldl (fun n c => 10 * n + (py.decimalChar c).getD 0) 0)

/-! ### Addresses -/

/-- One round of the loop of `ip_to_bytes`. -/
def octet (text part : List Char) : Except PyError UInt8 := do
  if !py.isdigit part || (part.length > 1 && part.head? = some '0') then
    throw (.valueError s!"invalid octet {py.repr part} in {py.repr text}")
  let value ← py.int part
  if value > 255 then throw (.valueError s!"octet {value} out of range in {py.repr text}")
  return UInt8.ofNat value

/-- Dotted-quad notation, read. -/
def ipToBytes (text : String) : Except PyError Bytes := do
  let parts := text.toList.splitOn '.'
  if parts.length ≠ 4 then
    throw (.valueError s!"an IPv4 address has four octets, got {py.repr text.toList}")
  parts.mapM (py.octet text.toList)

end Interpreter

/-- Dotted-quad notation. -/
def ipToStr (addr : Bytes) : String := ".".intercalate (addr.map fun b => toString b.toNat)

/-- `ip_to_str`, with its check of the length. -/
def ipToStrChecked (addr : Bytes) : Except PyError String :=
  if addr.length ≠ 4 then .error (.valueError s!"an IPv4 address is 4 bytes, got {addr.length}")
  else .ok (ipToStr addr)

/-! ### The canonical form -/

/-- A decimal number up to 255 without leading zeros. -/
def IsOctet (part : List Char) : Prop := Decimal.IsNumeral part ∧ Nat.ofDigitChars 10 part 0 ≤ 255

instance (part : List Char) : Decidable (IsOctet part) :=
  inferInstanceAs (Decidable (Decimal.IsNumeral part ∧ Nat.ofDigitChars 10 part 0 ≤ 255))

/-- Four such numbers joined by single dots. -/
def DottedQuad (text : String) : Prop :=
  ∃ a b c d, (IsOctet a ∧ IsOctet b ∧ IsOctet c ∧ IsOctet d) ∧
    text.toList = a ++ '.' :: (b ++ '.' :: (c ++ '.' :: d))

def IsAscii (text : List Char) : Prop := ∀ c ∈ text, c.toNat < ASCII_END

instance (text : List Char) : Decidable (IsAscii text) :=
  List.decidableBAll (fun c : Char => c.toNat < ASCII_END) text

section Ascii

variable {py : Interpreter} {part text : List Char}

theorem isdigit_iff (h : IsAscii part) : py.isdigit part = true ↔ part ≠ [] ∧ ∀ c ∈ part, c.isDigit = true := by
  have hchar : ∀ c ∈ part, (py.digitChar c = true ↔ c.isDigit = true) := fun c hc => by
    rw [Interpreter.digitChar, if_pos (h c hc)]
  rw [Interpreter.isdigit, Bool.and_eq_true, Bool.not_eq_true', List.isEmpty_eq_false_iff, List.all_eq_true]
  exact and_congr_right fun _ => forall₂_congr hchar

theorem int_eq (h : IsAscii part) (hdigits : ∀ c ∈ part, c.isDigit = true) :
    py.int part = .ok (Nat.ofDigitChars 10 part 0) ∨
      640 < part.length ∧ ∃ message, py.int part = .error (.valueError message) := by
  have hdecimal : ∀ c ∈ part, py.decimalChar c = some (Decimal.digit c) := fun c hc => by
    rw [Interpreter.decimalChar, if_pos (h c hc), if_pos (hdigits c hc)]
  have htake : part.takeWhile (fun c => (py.decimalChar c).isSome) = part := by
    rw [List.takeWhile_eq_self_iff]
    intro c hc
    rw [hdecimal c hc, Option.isSome_some]
  have hvalue : part.foldl (fun n c => 10 * n + (py.decimalChar c).getD 0) 0 = Nat.ofDigitChars 10 part 0 := by
    rw [Nat.ofDigitChars_eq_foldl]
    apply List.foldl_ext
    intro n c hc
    rw [hdecimal c hc, Option.getD_some, Decimal.digit]
  rw [Interpreter.int, htake]
  by_cases hlimit : py.maxStrDigits ≠ 0 ∧ part.length > py.maxStrDigits
  · have hok := py.maxStrDigits_ok
    rw [if_pos hlimit]
    exact .inr ⟨by omega, _, rfl⟩
  · rw [if_neg hlimit, if_neg (by simp), hvalue]
    exact .inl rfl

theorem IsOctet.length_le (h : IsOctet part) : part.length ≤ 3 := by
  rw [← Decimal.toDigits_ofDigitChars h.1, Nat.length_toDigits_le_iff (by decide) (by decide)]
  exact Nat.lt_of_le_of_lt h.2 (by decide)

theorem octet_of_isOctet (h : IsAscii part) (hpart : IsOctet part) :
    py.octet text part = .ok (UInt8.ofNat (Nat.ofDigitChars 10 part 0)) := by
  obtain ⟨⟨hne, hdigits, hzero⟩, hvalue⟩ := hpart
  have hguard : ¬(!py.isdigit part || (part.length > 1 && part.head? = some '0')) = true := by
    simp only [Bool.or_eq_true, Bool.not_eq_true', Bool.and_eq_true, decide_eq_true_eq, not_or, Bool.not_eq_false,
      not_and]
    refine ⟨(isdigit_iff h).mpr ⟨hne, hdigits⟩, fun hlength hhead => ?_⟩
    have hone := hzero hhead
    omega
  have hlength := IsOctet.length_le ⟨⟨hne, hdigits, hzero⟩, hvalue⟩
  rcases int_eq  h hdigits with hint | ⟨hlong, -⟩
  · rw [Interpreter.octet, if_neg hguard, hint]
    simp only [ok_bind, if_neg (Nat.not_lt.mpr hvalue)]
    rfl
  · omega

theorem octet_of_not_isOctet (h : IsAscii part) (hpart : ¬IsOctet part) :
    ∃ message, py.octet text part = .error (.valueError message) := by
  unfold Interpreter.octet
  split_ifs with hguard
  · exact ⟨_, rfl⟩
  · simp only [Bool.or_eq_true, Bool.not_eq_true', Bool.and_eq_true, decide_eq_true_eq, not_or, Bool.not_eq_false,
      not_and] at hguard
    obtain ⟨hne, hdigits⟩ := (isdigit_iff h).mp hguard.1
    have hnumeral : Decimal.IsNumeral part := by
      refine ⟨hne, hdigits, fun hhead => ?_⟩
      have hlength := List.length_pos_iff.mpr hne
      have hshort := mt hguard.2 (not_not_intro hhead)
      omega
    rcases int_eq  h hdigits with hint | ⟨-, message, hint⟩
    · have hlarge : Nat.ofDigitChars 10 part 0 > 255 := by
        by_contra hno
        exact hpart ⟨hnumeral, by omega⟩
      rw [hint]
      simp only [ok_bind, if_pos hlarge]
      exact ⟨_, rfl⟩
    · rw [hint]
      exact ⟨message, rfl⟩

theorem octets_of_forall {parts : List (List Char)} (h : ∀ part ∈ parts, IsAscii part)
    (hparts : ∀ part ∈ parts, IsOctet part) :
    parts.mapM (py.octet text) = .ok (parts.map fun part => UInt8.ofNat (Nat.ofDigitChars 10 part 0)) := by
  induction parts with
  | nil => rfl
  | cons part parts ih =>
    rw [List.forall_mem_cons] at h hparts
    rw [List.mapM_cons, octet_of_isOctet h.1 hparts.1, ok_bind, ih h.2 hparts.2]
    rfl

theorem octets_of_exists {parts : List (List Char)} (h : ∀ part ∈ parts, IsAscii part)
    (hparts : ¬∀ part ∈ parts, IsOctet part) :
    ∃ message, parts.mapM (py.octet text) = .error (.valueError message) := by
  induction parts with
  | nil => simp at hparts
  | cons part parts ih =>
    rw [List.forall_mem_cons] at h hparts
    rw [List.mapM_cons]
    by_cases hpart : IsOctet part
    · obtain ⟨message, hrest⟩ := ih h.2 fun hrest => hparts ⟨hpart, hrest⟩
      rw [octet_of_isOctet h.1 hpart, ok_bind, hrest]
      exact ⟨message, rfl⟩
    · obtain ⟨message, hfirst⟩ := octet_of_not_isOctet  h.1 hpart
      rw [hfirst]
      exact ⟨message, rfl⟩

end Ascii

/-! ### Both directions -/

theorem IsOctet.not_mem {part : List Char} (h : IsOctet part) : '.' ∉ part := by
  intro hmem
  have hdigit := h.1.2.1 '.' hmem
  cases hdigit

theorem IsOctet.isAscii {part : List Char} (h : IsOctet part) : IsAscii part := by
  intro c hc
  obtain ⟨hvalue, hlt⟩ := Decimal.toNat_of_isDigit (h.1.2.1 c hc)
  rw [ASCII_END]
  omega

theorem isOctet_toDigits (b : UInt8) : IsOctet (Nat.toDigits 10 b.toNat) := by
  refine ⟨Decimal.isNumeral_toDigits _, ?_⟩
  rw [Nat.ofDigitChars_ten_toDigits]
  have hlt := b.toNat_lt
  omega

theorem dottedQuad_iff {text : String} :
    DottedQuad text ↔ (text.toList.splitOn '.').length = 4 ∧ ∀ part ∈ text.toList.splitOn '.', IsOctet part := by
  constructor
  · rintro ⟨a, b, c, d, ⟨ha, hb, hc, hd⟩, htext⟩
    have hsplit : text.toList.splitOn '.' = [a, b, c, d] := by
      rw [htext, List.splitOn_append_cons_self_of_not_mem ha.not_mem,
        List.splitOn_append_cons_self_of_not_mem hb.not_mem, List.splitOn_append_cons_self_of_not_mem hc.not_mem,
        List.splitOn_eq_singleton hd.not_mem]
    rw [hsplit]
    simp [ha, hb, hc, hd]
  · rintro ⟨hlength, hparts⟩
    obtain ⟨a, b, c, d, hsplit⟩ := List.length_eq_four.mp hlength
    have htext : ['.'].intercalate (text.toList.splitOn '.') = text.toList := List.intercalate_splitOn '.'
    rw [hsplit] at htext hparts
    refine ⟨a, b, c, d, ⟨hparts a (by simp), hparts b (by simp), hparts c (by simp), hparts d (by simp)⟩, ?_⟩
    rw [← htext]
    simp [List.intercalate]

theorem toList_ipToStr (addr : Bytes) :
    (ipToStr addr).toList = ['.'].intercalate (addr.map fun b => Nat.toDigits 10 b.toNat) := by
  rw [ipToStr, String.toList_intercalate, List.map_map]
  congr 1
  refine List.map_congr_left fun b _ => ?_
  rw [Function.comp_apply, Nat.toString_eq_repr, Nat.toList_repr]

theorem ipToStrChecked_eq {addr : Bytes} (h : addr.length = 4) : ipToStrChecked addr = .ok (ipToStr addr) := by
  rw [ipToStrChecked, if_neg (not_not_intro h)]

theorem ipToBytes_of_parts {py : Interpreter} {text : String} (hlength : (text.toList.splitOn '.').length = 4)
    (hparts : ∀ part ∈ text.toList.splitOn '.', IsOctet part) :
    py.ipToBytes text =
      .ok ((text.toList.splitOn '.').map fun part => UInt8.ofNat (Nat.ofDigitChars 10 part 0)) := by
  rw [Interpreter.ipToBytes, if_neg (not_not_intro hlength)]
  exact octets_of_forall (fun part hpart => (hparts part hpart).isAscii) hparts

theorem mem_intercalate {α : Type} {part : List α} (sep : List α) {parts : List (List α)} {a : α} (hpart : part ∈ parts)
    (ha : a ∈ part) : a ∈ sep.intercalate parts := by
  induction parts with
  | nil => cases hpart
  | cons first rest ih =>
    by_cases hrest : rest = []
    · subst hrest
      obtain rfl := List.mem_singleton.mp hpart
      rwa [List.intercalate_singleton]
    · rw [List.intercalate_cons_of_ne_nil hrest, List.mem_append, List.mem_append]
      rcases List.mem_cons.mp hpart with rfl | hlater
      · exact .inl (.inl ha)
      · exact .inr (ih hlater)

theorem ipToStr_of_parts {text : String} (hparts : ∀ part ∈ text.toList.splitOn '.', IsOctet part) :
    ipToStr ((text.toList.splitOn '.').map fun part => UInt8.ofNat (Nat.ofDigitChars 10 part 0)) = text := by
  have hprint : ∀ part ∈ text.toList.splitOn '.',
      Nat.toDigits 10 (UInt8.ofNat (Nat.ofDigitChars 10 part 0)).toNat = part := by
    intro part hpart
    obtain ⟨hnumeral, hvalue⟩ := hparts part hpart
    rw [toNat_ofNat_of_lt (Nat.lt_succ_of_le hvalue), Decimal.toDigits_ofDigitChars hnumeral]
  have hmap : ((text.toList.splitOn '.').map fun part => UInt8.ofNat (Nat.ofDigitChars 10 part 0)).map
      (fun b => Nat.toDigits 10 b.toNat) = text.toList.splitOn '.' := by
    rw [List.map_map]
    exact (List.map_congr_left hprint).trans (List.map_id _)
  rw [← String.toList_inj, toList_ipToStr, hmap, List.intercalate_splitOn]

theorem splitOn_ipToStr {addr : Bytes} (h : addr.length = 4) :
    (ipToStr addr).toList.splitOn '.' = addr.map fun b => Nat.toDigits 10 b.toNat := by
  rw [toList_ipToStr]
  apply List.splitOn_intercalate
  · intro part hpart
    obtain ⟨b, -, rfl⟩ := List.mem_map.mp hpart
    exact (isOctet_toDigits b).not_mem
  · intro hnil
    have hlength := congrArg List.length hnil
    rw [List.length_map, h] at hlength
    cases hlength

/-- Of the ASCII strings exactly the dotted quads are read, each prints as itself again, and every address is
read from what it prints as. -/
theorem ipToBytes_canonical (py : Interpreter) :
    (∀ text : String, IsAscii text.toList →
      ((∃ addr, py.ipToBytes text = .ok addr) ↔ DottedQuad text) ∧
      (∀ addr, py.ipToBytes text = .ok addr → ipToStrChecked addr = .ok text) ∧
      (¬DottedQuad text → ∃ message, py.ipToBytes text = .error (.valueError message))) ∧
    ∀ addr : Bytes, addr.length = 4 → ∃ text, ipToStrChecked addr = .ok text ∧ py.ipToBytes text = .ok addr := by
  refine ⟨fun text hascii => ?_, fun addr hlength => ?_⟩
  · have hreject : ¬DottedQuad text → ∃ message, py.ipToBytes text = .error (.valueError message) := by
      rw [dottedQuad_iff, not_and]
      intro hno
      rw [Interpreter.ipToBytes]
      by_cases hfour : (text.toList.splitOn '.').length = 4
      · rw [if_neg (not_not_intro hfour)]
        refine octets_of_exists (fun part hpart c hc => hascii c ?_) (hno hfour)
        have hmem := mem_intercalate ['.'] hpart hc
        rwa [List.intercalate_splitOn] at hmem
      · rw [if_pos hfour]
        exact ⟨_, rfl⟩
    have haccept : DottedQuad text → ∃ addr, py.ipToBytes text = .ok addr ∧ ipToStrChecked addr = .ok text := by
      rw [dottedQuad_iff]
      rintro ⟨hfour, hparts⟩
      refine ⟨_, ipToBytes_of_parts hfour hparts, ?_⟩
      rw [ipToStrChecked_eq (by rw [List.length_map, hfour]), ipToStr_of_parts hparts]
    by_cases hquad : DottedQuad text
    · obtain ⟨addr, hread, hprint⟩ := haccept hquad
      refine ⟨⟨fun _ => hquad, fun _ => ⟨addr, hread⟩⟩, fun addr' hread' => ?_, fun hno => absurd hquad hno⟩
      obtain rfl := Except.ok.inj (hread.symm.trans hread')
      exact hprint
    · obtain ⟨message, herror⟩ := hreject hquad
      refine ⟨⟨?_, fun h => absurd h hquad⟩, ?_, hreject⟩
      · rintro ⟨addr, hread⟩
        rw [herror] at hread
        cases hread
      · intro addr hread
        rw [herror] at hread
        cases hread
  · have hsplit := splitOn_ipToStr hlength
    have hparts : ∀ part ∈ (ipToStr addr).toList.splitOn '.', IsOctet part := by
      rw [hsplit]
      intro part hpart
      obtain ⟨b, -, rfl⟩ := List.mem_map.mp hpart
      exact isOctet_toDigits b
    refine ⟨ipToStr addr, ipToStrChecked_eq hlength, ?_⟩
    rw [ipToBytes_of_parts (by rw [hsplit, List.length_map, hlength]) hparts, hsplit, List.map_map]
    congr 1
    conv_rhs => rw [← List.map_id addr]
    refine List.map_congr_left fun b _ => ?_
    rw [Function.comp_apply, Nat.ofDigitChars_ten_toDigits, UInt8.ofNat_toNat, id]

/-- An interpreter with no digits beyond ASCII and the limit it is delivered with. -/
def asciiInterpreter : Interpreter :=
  { isDigit := fun _ => false
    decimal := fun _ => none
    isPrintable := fun _ => false
    maxStrDigits := 4300
    maxStrDigits_ok := .inr (by decide) }

/-- An address read, another spelling of it, and the address printed. -/
theorem ipToBytes_canonical_loopback :
    ((∃ addr, asciiInterpreter.ipToBytes "127.0.0.1" = .ok addr) ↔ DottedQuad "127.0.0.1") ∧
      ∃ text, ipToStrChecked [127, 0, 0, 1] = .ok text ∧ asciiInterpreter.ipToBytes text = .ok [127, 0, 0, 1] :=
  ⟨((ipToBytes_canonical asciiInterpreter).1 "127.0.0.1" (by decide)).1,
    (ipToBytes_canonical asciiInterpreter).2 [127, 0, 0, 1] rfl⟩

example : asciiInterpreter.ipToBytes "127.0.0.01" =
    .error (.valueError "invalid octet '01' in '127.0.0.01'") := by decide +kernel

end MiniTcp
