import MiniTcp.Util.Basic

/-!
# `minitcp/util/checksum.py`: the Internet checksum

The sum of the sixteen-bit words is a number modulo `65535`, and folding the carries back in picks its
representative between `1` and `65535`, or `0` for the sum `0` (`foldCarries_spec`). So a string passes
verification when its words sum to a positive multiple of `65535` (`checksum_eq_zero_iff`), which is what a
checksum in its place makes them do (`checksum_insert`).
-/

namespace MiniTcp

/-- The big-endian sixteen-bit words of a string of even length. -/
def words : Bytes → List Nat
  | a :: b :: rest => unpackH a b :: words rest
  | _ => []

/-- `while total >> 16`; each round makes the total smaller, so `total` rounds are enough. -/
def foldCarries : Nat → Nat → Nat
  | 0, total => total
  | fuel + 1, total =>
    if total >>> 16 = 0 then total else foldCarries fuel ((total &&& 0xFFFF) + (total >>> 16))

/-- The sixteen-bit one's complement sum. -/
def onesComplementSum (data : Bytes) : Nat :=
  let data := if data.length &&& 1 = 1 then data ++ [0] else data
  let total := (words data).sum
  foldCarries total total

/-- The Internet checksum. -/
def checksum (data : Bytes) : Nat := (~~~ BitVec.ofNat 16 (onesComplementSum data)).toNat

/-- The pseudo-header in front of a transport message. -/
def pseudoHeader (src dst : Bytes) (protocol length : Nat) : Except PyError Bytes :=
  if protocol ≤ 0xFF ∧ length ≤ 0xFFFF then
    .ok (src ++ dst ++ [0, UInt8.ofNat protocol] ++ packH length)
  else .error .structError

/-- The TCP or UDP checksum over the IPv4 pseudo-header. -/
def transportChecksum (src dst : Bytes) (protocol : Nat) (segment : Bytes) : Except PyError Nat := do
  let pseudo ← pseudoHeader src dst protocol segment.length
  return checksum (pseudo ++ segment)

/-! ### Folding -/

theorem foldCarries_spec {fuel total : Nat} (h : total ≤ fuel) :
    foldCarries fuel total < 65536 ∧ foldCarries fuel total % 65535 = total % 65535 ∧
      (foldCarries fuel total = 0 ↔ total = 0) := by
  induction fuel generalizing total with
  | zero =>
    obtain rfl := Nat.le_zero.mp h
    exact ⟨by decide, rfl, Iff.rfl⟩
  | succ fuel ih =>
    have hlow : total &&& 0xFFFF = total % 65536 := Nat.and_two_pow_sub_one_eq_mod total 16
    have hhigh : total >>> 16 = total / 65536 := Nat.shiftRight_eq_div_pow total 16
    rw [foldCarries, hlow, hhigh]
    split_ifs with hzero
    · exact ⟨by omega, rfl, Iff.rfl⟩
    · obtain ⟨hlt, hmod, hiff⟩ := @ih (total % 65536 + total / 65536) (by omega)
      refine ⟨hlt, by omega, ?_⟩
      rw [hiff]
      omega

/-! ### Sums of words -/

theorem words_append {a : Bytes} (b : Bytes) (h : a.length % 2 = 0) :
    words (a ++ b) = words a ++ words b := by
  induction a using words.induct with
  | case1 x y rest ih =>
    have hrest : rest.length % 2 = 0 := by
      simp only [List.length_cons] at h
      omega
    simp only [List.cons_append, words, ih hrest]
  | case2 a hno =>
    match a, h with
    | [], _ => rfl
    | [x], h => simp at h
    | x :: y :: rest, _ => exact absurd rfl (hno x y rest)

/-- The sum of the words, an odd last byte padded with zero. -/
def wordSum (data : Bytes) : Nat :=
  (words (if data.length &&& 1 = 1 then data ++ [0] else data)).sum

theorem wordSum_append {a : Bytes} (b : Bytes) (h : a.length % 2 = 0) :
    wordSum (a ++ b) = (words a).sum + wordSum b := by
  have hodd : (a ++ b).length &&& 1 = b.length &&& 1 := by
    rw [Nat.and_one_is_mod, Nat.and_one_is_mod, List.length_append]
    omega
  rw [wordSum, wordSum, hodd]
  split_ifs
  · rw [List.append_assoc, words_append _ h, List.sum_append]
  · rw [words_append _ h, List.sum_append]

theorem wordSum_splice {a : Bytes} (b : Bytes) (h : a.length % 2 = 0) (c : Nat) :
    wordSum (a ++ packH c ++ b) =
      (words a).sum + unpackH (UInt8.ofNat (c / 256)) (UInt8.ofNat (c % 256)) + wordSum b := by
  have heven : (a ++ packH c).length % 2 = 0 := by
    rw [List.length_append, length_packH]
    omega
  rw [wordSum_append b heven, words_append (packH c) h, List.sum_append]
  simp only [packH, words, List.sum_cons, List.sum_nil, Nat.add_zero]

theorem wordSum_cons_cons (a b : UInt8) (rest : Bytes) : wordSum (a :: b :: rest) = unpackH a b + wordSum rest := by
  have h := wordSum_append (a := [a, b]) rest (by simp)
  rwa [words, words, List.sum_singleton] at h
  exact nofun

theorem wordSum_append_even {a : Bytes} (b : Bytes) (h : a.length % 2 = 0) :
    wordSum (a ++ b) = wordSum a + wordSum b := by
  have hself := wordSum_append [] h
  rw [List.append_nil] at hself
  rw [wordSum_append b h, hself]
  rfl

theorem wordSum_packH {n : Nat} (h : n < 65536) (rest : Bytes) : wordSum (packH n ++ rest) = n + wordSum rest := by
  have hword := wordSum_cons_cons (UInt8.ofNat (n / 256)) (UInt8.ofNat (n % 256)) rest
  rwa [unpackH_packH h] at hword

theorem wordSum_packI {n : Nat} (h : n < 2 ^ 32) (rest : Bytes) :
    wordSum (packI n ++ rest) = n / 65536 + n % 65536 + wordSum rest := by
  rw [packI, List.append_assoc, wordSum_packH (by omega), wordSum_packH (by omega), Nat.add_assoc]

theorem onesComplementSum_spec (data : Bytes) :
    onesComplementSum data < 65536 ∧ onesComplementSum data % 65535 = wordSum data % 65535 ∧
      (onesComplementSum data = 0 ↔ wordSum data = 0) := foldCarries_spec (Nat.le_refl _)

theorem checksum_eq (data : Bytes) : checksum data = 65535 - onesComplementSum data := by
  have hlt := (onesComplementSum_spec data).1
  rw [checksum, BitVec.toNat_not, BitVec.toNat_ofNat, Nat.mod_eq_of_lt (by omega)]

theorem checksum_lt (data : Bytes) : checksum data < 65536 := by
  rw [checksum_eq]
  omega

theorem checksum_eq_zero_iff (data : Bytes) :
    checksum data = 0 ↔ 0 < wordSum data ∧ wordSum data % 65535 = 0 := by
  obtain ⟨hlt, hmod, hzero⟩ := onesComplementSum_spec data
  rw [checksum_eq]
  generalize wordSum data = s at hmod hzero ⊢
  generalize onesComplementSum data = o at hlt hmod hzero ⊢
  omega

theorem checksum_mod (data : Bytes) :
    (wordSum data + checksum data) % 65535 = 0 ∧ 0 < wordSum data + checksum data := by
  obtain ⟨hlt, hmod, hzero⟩ := onesComplementSum_spec data
  rw [checksum_eq]
  generalize wordSum data = s at hmod hzero ⊢
  generalize onesComplementSum data = o at hlt hmod hzero ⊢
  omega

/-- A string with its checksum in place of two zero bytes passes verification, and so it does with the
other form of zero. -/
theorem checksum_insert {a : Bytes} (b : Bytes) (h : a.length % 2 = 0) {c : Nat}
    (hc : c = checksum (a ++ packH 0 ++ b) ∨ c = 65535 ∧ checksum (a ++ packH 0 ++ b) = 0) :
    checksum (a ++ packH c ++ b) = 0 := by
  have hblank : wordSum (a ++ packH 0 ++ b) = (words a).sum + 0 + wordSum b := wordSum_splice b h 0
  obtain ⟨hmod, hpos⟩ := checksum_mod (a ++ packH 0 ++ b)
  have hlt := checksum_lt (a ++ packH 0 ++ b)
  rw [checksum_eq_zero_iff, wordSum_splice b h c, unpackH_packH (by omega)]
  rw [hblank] at hmod hpos
  generalize checksum (a ++ packH 0 ++ b) = k at hc hmod hpos hlt
  omega

/-- What passes verification has its checksum in the field, or else the form of zero that is not computed. -/
theorem checksum_unique {a : Bytes} (b : Bytes) (h : a.length % 2 = 0) {c : Nat} (hc : c < 65536)
    (hblank : wordSum (a ++ packH 0 ++ b) ≠ 0) (hzero : checksum (a ++ packH c ++ b) = 0) :
    c ≠ 65535 ∧ checksum (a ++ packH 0 ++ b) = c ∨
      c = 65535 ∧ checksum (a ++ packH 0 ++ b) = 0 ∧ onesComplementSum (a ++ packH 0 ++ b) = 65535 := by
  have hsum : wordSum (a ++ packH 0 ++ b) = (words a).sum + 0 + wordSum b := wordSum_splice b h 0
  rw [checksum_eq_zero_iff, wordSum_splice b h c, unpackH_packH hc] at hzero
  obtain ⟨hlt, hmod, hnonzero⟩ := onesComplementSum_spec (a ++ packH 0 ++ b)
  rw [hsum] at hblank hmod hnonzero
  rw [checksum_eq]
  generalize onesComplementSum (a ++ packH 0 ++ b) = o at hlt hmod hnonzero ⊢
  omega

/-! ### The pseudo-header -/

theorem transportChecksum_eq {src dst segment : Bytes} {protocol : Nat} (hprotocol : protocol ≤ 0xFF)
    (hlength : segment.length ≤ 0xFFFF) :
    transportChecksum src dst protocol segment =
      .ok (checksum (src ++ dst ++ [0, UInt8.ofNat protocol] ++ packH segment.length ++ segment)) := by
  rw [transportChecksum, pseudoHeader, if_pos ⟨hprotocol, hlength⟩]
  rfl

/-- The checksum computed with a blank field makes the message verify, and so does the other form of
zero. -/
theorem transportChecksum_insert {src dst a : Bytes} (b : Bytes) {protocol : Nat} (hsrc : src.length = 4)
    (hdst : dst.length = 4) (hprotocol : protocol ≤ 0xFF) (ha : a.length % 2 = 0)
    (hlength : a.length + 2 + b.length ≤ 0xFFFF) :
    ∃ csum, csum < 65536 ∧ transportChecksum src dst protocol (a ++ packH 0 ++ b) = .ok csum ∧
      ∀ c, c = csum ∨ c = 65535 ∧ csum = 0 →
        transportChecksum src dst protocol (a ++ packH c ++ b) = .ok 0 := by
  have hlen : ∀ c, (a ++ packH c ++ b).length = a.length + 2 + b.length := by
    intro c
    rw [List.length_append, List.length_append, length_packH]
  have hsum : ∀ c, transportChecksum src dst protocol (a ++ packH c ++ b) =
      .ok (checksum (src ++ dst ++ [0, UInt8.ofNat protocol] ++ packH (a.length + 2 + b.length) ++ a ++
        packH c ++ b)) := by
    intro c
    rw [transportChecksum_eq hprotocol ((hlen c).symm ▸ hlength), hlen]
    simp only [List.append_assoc]
  have heven : (src ++ dst ++ [0, UInt8.ofNat protocol] ++ packH (a.length + 2 + b.length) ++ a).length % 2 =
      0 := by
    simp only [List.length_append, length_packH, List.length_cons, List.length_nil]
    omega
  refine ⟨_, checksum_lt _, hsum 0, ?_⟩
  intro c hc
  rw [hsum, checksum_insert b heven hc]

end MiniTcp
