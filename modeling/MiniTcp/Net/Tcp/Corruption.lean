import Mathlib.Tactic.Ring
import MiniTcp.Net.Tcp.Wire
import MiniTcp.Util.Flip

/-!
# A segment with one wrong bit

`to_bytes` writes the checksum that it computes, also where that is zero, and `parse` takes a zero for a checksum
that was not computed. So a segment is protected against a wrong bit when its checksum is another number, which
is when its words, those of the pseudo-header among them, do not sum to a multiple of `65535`
(`flips_rejected_iff`).
-/

namespace MiniTcp

namespace TCPSegment

variable {seg : TCPSegment} {src dst data options : Bytes} {i k : Nat}

/-- The sum of all words but the checksum: the pseudo-header, the fields, the options and the payload. -/
def fieldSum (seg : TCPSegment) (src dst options : Bytes) : Nat :=
  wordSum (src ++ dst) + PROTO_TCP + (HEADER_LEN + options.length + seg.payload.length) + seg.srcPort +
    seg.dstPort + (seg.seq.toNat / 65536 + seg.seq.toNat % 65536) +
    (seg.ack.toNat / 65536 + seg.ack.toNat % 65536) +
    ((HEADER_LEN + options.length) / 4 * 4096 + seg.flags.toNat) + seg.window + seg.urgentPointer +
    wordSum options + wordSum seg.payload

theorem fieldSum_pos (seg : TCPSegment) (src dst options : Bytes) : 0 < seg.fieldSum src dst options := by
  rw [fieldSum, HEADER_LEN]
  omega

/-- What `to_bytes` has checked, and what it computes. -/
structure Encodes (seg : TCPSegment) (src dst area : Bytes) (csum : Nat) : Prop where
  options : seg.options.toBytes = .ok area
  srcPort : seg.srcPort ≤ 0xFFFF
  dstPort : seg.dstPort ≤ 0xFFFF
  window : seg.window ≤ 0xFFFF
  urgentPointer : seg.urgentPointer ≤ 0xFFFF
  computed : transportChecksum src dst PROTO_TCP (seg.bytes area 0) = .ok csum

theorem encodes_of_toBytes (h : seg.toBytes (some src) (some dst) = .ok data) :
    ∃ options csum, Encodes seg src dst options csum ∧ data = seg.bytes options csum := by
  have hchecked := h
  unfold toBytes at hchecked
  split_ifs at hchecked with hsrcPort hdstPort hwindow
  cases hoptions : seg.options.toBytes with
  | error e =>
    rw [hoptions] at hchecked
    cases hchecked
  | ok options =>
    have hurgent : seg.urgentPointer ≤ 0xFFFF := by
      by_contra hno
      have hpack : ∀ offsetByte, seg.packHeader offsetByte = .error .structError := fun offsetByte =>
        if_neg fun hboth => hno hboth.2
      rw [hoptions, ok_bind] at hchecked
      dsimp only at hchecked
      rw [hpack] at hchecked
      split_ifs at hchecked
      cases hchecked
    rw [toBytes_eq_bind hsrcPort hdstPort hwindow hurgent hoptions] at h
    cases hcsum : transportChecksum src dst PROTO_TCP (seg.bytes options 0) with
    | error e =>
      rw [hcsum] at h
      cases h
    | ok csum =>
      rw [hcsum, ok_bind] at h
      split_ifs at h
      exact ⟨options, csum, ⟨hoptions, hsrcPort, hdstPort, hwindow, hurgent, hcsum⟩, (Except.ok.inj h).symm⟩

namespace Encodes

variable {csum : Nat} (h : Encodes seg src dst options csum)
include h

theorem length_le : HEADER_LEN + options.length + seg.payload.length ≤ 0xFFFF := by
  by_contra hlong
  have hchecksum := h.computed
  rw [transportChecksum, pseudoHeader, if_neg fun hboth => hlong (length_bytes options 0 ▸ hboth.2)] at hchecksum
  cases hchecksum

theorem wordSum_bytes (hsrc : src.length = 4) (hdst : dst.length = 4) :
    wordSum (src ++ dst ++ [0, UInt8.ofNat PROTO_TCP] ++
      packH (HEADER_LEN + options.length + seg.payload.length) ++ seg.bytes options 0) =
        seg.fieldSum src dst options := by
  obtain ⟨-, -, -, -, -, -, hmod, hlong⟩ := TCPOptions.toBytes_parts h.options
  have hlength := h.length_le
  have hflags := seg.flags.isLt
  have hproto : unpackH 0 (UInt8.ofNat PROTO_TCP) = PROTO_TCP := rfl
  have hmask : seg.flags.toNat &&& 0xFF = seg.flags.toNat % 2 ^ 8 := Nat.and_two_pow_sub_one_eq_mod _ 8
  have hoffset : unpackH (UInt8.ofNat ((HEADER_LEN + options.length) / 4 * 16 + seg.flags.toNat / 256))
      (UInt8.ofNat (seg.flags.toNat &&& 0xFF)) = (HEADER_LEN + options.length) / 4 * 4096 + seg.flags.toNat := by
    rw [unpackH, toNat_ofNat_of_lt (by rw [HEADER_LEN]; omega), toNat_ofNat_of_lt (by omega)]
    omega
  have hseq := seg.seq.isLt
  have hack := seg.ack.isLt
  have hsrcPort := h.srcPort
  have hdstPort := h.dstPort
  have hwindow := h.window
  have hurgent := h.urgentPointer
  simp only [bytes, front, List.append_assoc, List.cons_append, List.nil_append]
  rw [wordSum_append_even _ (by omega), wordSum_append_even _ (by omega), wordSum_cons_cons, hproto,
    wordSum_packH (by omega), wordSum_packH (by omega), wordSum_packH (by omega), wordSum_packI hseq,
    wordSum_packI hack, wordSum_cons_cons, hoffset, wordSum_packH (by omega), wordSum_packH (by omega),
    wordSum_packH (by omega), wordSum_append_even _ (by omega), fieldSum, wordSum_append_even _ (by omega)]
  ring

/-- The checksum that `to_bytes` computes makes the segment verify, and it is zero for these sums. -/
theorem checksum_spec (hsrc : src.length = 4) (hdst : dst.length = 4) :
    csum < 65536 ∧ (csum = 0 ↔ seg.fieldSum src dst options % 65535 = 0) ∧
      MiniTcp.checksum (src ++ dst ++ [0, UInt8.ofNat PROTO_TCP] ++
        packH (HEADER_LEN + options.length + seg.payload.length) ++ seg.bytes options csum) = 0 := by
  have hchecksum := h.computed
  rw [transportChecksum_eq (by decide) (by rw [length_bytes]; exact h.length_le), length_bytes] at hchecksum
  have heq := Except.ok.inj hchecksum
  refine ⟨heq ▸ checksum_lt _, ?_, ?_⟩
  · rw [← heq, checksum_eq_zero_iff, h.wordSum_bytes hsrc hdst, and_iff_right (seg.fieldSum_pos src dst options)]
  · have heven : (src ++ dst ++ [0, UInt8.ofNat PROTO_TCP] ++
        packH (HEADER_LEN + options.length + seg.payload.length) ++
          seg.front ((HEADER_LEN + options.length) / 4 * 16 + seg.flags.toNat / 256)).length % 2 = 0 := by
      simp only [List.length_append, length_packH, length_front, List.length_cons, List.length_nil]
      omega
    have hinsert := checksum_insert (packH seg.urgentPointer ++ (options ++ seg.payload)) heven (c := csum)
    simp only [List.append_assoc] at hinsert heq
    simp only [bytes, List.append_assoc] at heq ⊢
    exact hinsert (.inl heq.symm)

end Encodes

theorem parse_of_blank (hlength : HEADER_LEN ≤ data.length) (hlow : 5 ≤ (byteAt data 12).toNat >>> 4)
    (hhigh : (byteAt data 12).toNat >>> 4 * 4 ≤ data.length) (hblank : u16At data 16 = 0) :
    ∃ q, parse data (some src) (some dst) = .ok q := by
  have hmatch : mismatch data (some src) (some dst) true = .ok false := by
    rw [mismatch, hblank]
    rfl
  rw [HEADER_LEN] at hlength
  unfold parse
  dsimp only
  rw [HEADER_LEN, if_neg (by omega), if_neg (by omega), if_neg (by omega), hmatch]
  exact ⟨_, rfl⟩

theorem checksum_of_parse {q : TCPSegment} (h : parse data (some src) (some dst) = .ok q)
    (hfield : u16At data 16 ≠ 0) : transportChecksum src dst PROTO_TCP data = .ok 0 := by
  unfold parse at h
  dsimp only at h
  split_ifs at h
  have hmatch : mismatch data (some src) (some dst) true =
      transportChecksum src dst PROTO_TCP data >>= fun csum => .ok (csum != 0) :=
    if_pos (by simpa using hfield)
  rw [hmatch] at h
  cases hsum : transportChecksum src dst PROTO_TCP data with
  | error e =>
    rw [hsum] at h
    cases h
  | ok csum =>
    rw [hsum, ok_bind, ok_bind] at h
    split_ifs at h with hzero
    rw [bne_iff_ne, not_not] at hzero
    rw [hzero]

theorem Encodes.rejects {csum : Nat} (h : Encodes seg src dst options csum) (hsrc : src.length = 4)
    (hdst : dst.length = 4) (hcsum : csum ≠ 0) (hi : i < (seg.bytes options csum).length) (hk : k < 8)
    (h16 : i ≠ 16) (h17 : i ≠ 17) :
    ∃ message, parse (flipBit (seg.bytes options csum) i k) (some src) (some dst) =
      .error (.valueError message) := by
  obtain ⟨hlt, -, hverified⟩ := h.checksum_spec hsrc hdst
  have hlength := h.length_le
  have hfield : u16At (flipBit (seg.bytes options csum) i k) 16 = csum := by
    rw [u16At, byteAt_flipBit_of_ne h16.symm, byteAt_flipBit_of_ne h17.symm]
    exact u16At_bytes_checksum hlt seg options
  cases hparse : parse (flipBit (seg.bytes options csum) i k) (some src) (some dst) with
  | error e =>
    cases e with
    | valueError message => exact ⟨message, rfl⟩
    | structError =>
      have hlong := (parse_error_iff.mp hparse).1
      rw [length_flipBit, length_bytes] at hlong
      omega
  | ok q =>
    have hzero := checksum_of_parse hparse (by rwa [hfield])
    rw [transportChecksum_eq (by decide) (by rw [length_flipBit, length_bytes]; exact hlength), length_flipBit,
      length_bytes, ← flipBit_append] at hzero
    refine absurd (Except.ok.inj hzero) (checksum_flipBit_ne hverified ?_ hk)
    simp only [List.length_append]
    omega

theorem Encodes.accepts (h : Encodes seg src dst options 0) :
    ∃ q, parse (flipBit (seg.bytes options 0) 0 0) (some src) (some dst) = .ok q := by
  obtain ⟨-, -, -, -, -, -, hmod, hlong⟩ := TCPOptions.toBytes_parts h.options
  have hflags := seg.flags.isLt
  have hoffset : (byteAt (flipBit (seg.bytes options 0) 0 0) 12).toNat >>> 4 = (HEADER_LEN + options.length) / 4 := by
    rw [byteAt_flipBit_of_ne (by decide), byteAt_bytes_offset h.options, Nat.shiftRight_eq_div_pow]
    omega
  apply parse_of_blank
  · rw [length_flipBit, length_bytes]
    omega
  · rw [hoffset, HEADER_LEN]
    omega
  · rw [hoffset, length_flipBit, length_bytes, HEADER_LEN]
    omega
  · rw [u16At, byteAt_flipBit_of_ne (by decide), byteAt_flipBit_of_ne (by decide)]
    exact u16At_bytes_checksum (by decide) seg options

/-- Every wrong bit outside the checksum is noticed, unless the words sum to a multiple of `65535`. -/
theorem flips_rejected_iff (hsrc : src.length = 4) (hdst : dst.length = 4)
    (h : seg.toBytes (some src) (some dst) = .ok data) :
    ∃ options, seg.options.toBytes = .ok options ∧
      ((∀ i k, i < data.length → k < 8 → i ≠ 16 → i ≠ 17 →
          ∃ message, parse (flipBit data i k) (some src) (some dst) = .error (.valueError message)) ↔
        seg.fieldSum src dst options % 65535 ≠ 0) := by
  obtain ⟨options, csum, hencodes, rfl⟩ := encodes_of_toBytes h
  refine ⟨options, hencodes.options, ?_⟩
  rw [ne_eq, ← (hencodes.checksum_spec hsrc hdst).2.1]
  constructor
  · rintro hall rfl
    obtain ⟨q, hq⟩ := hencodes.accepts
    have hpos : 0 < (seg.bytes options 0).length := by
      rw [length_bytes, HEADER_LEN]
      omega
    obtain ⟨message, herror⟩ := hall 0 0 hpos (by decide) (by decide) (by decide)
    cases hq.symm.trans herror
  · intro hcsum i k hi hk h16 h17
    exact hencodes.rejects hsrc hdst hcsum hi hk h16 h17

def shortSegment : TCPSegment where
  srcPort := 80
  dstPort := 8080
  seq := 1000
  payload := [1, 2, 3]

theorem flips_rejected_shortSegment :
    shortSegment.fieldSum [10, 0, 0, 1] [10, 0, 0, 2] [] % 65535 ≠ 0 ∧ ∀ i k, i < 23 → k < 8 → i ≠ 16 → i ≠ 17 →
      ∃ message, parse (flipBit [0, 80, 31, 144, 0, 0, 3, 232, 0, 0, 0, 0, 80, 0, 0, 0, 116, 21, 0, 0, 1, 2, 3] i k)
        (some [10, 0, 0, 1]) (some [10, 0, 0, 2]) = .error (.valueError message) := by
  have hbytes : shortSegment.toBytes (some [10, 0, 0, 1]) (some [10, 0, 0, 2]) =
      .ok [0, 80, 31, 144, 0, 0, 3, 232, 0, 0, 0, 0, 80, 0, 0, 0, 116, 21, 0, 0, 1, 2, 3] := by
    decide +kernel
  obtain ⟨options, hoptions, hiff⟩ := flips_rejected_iff rfl rfl hbytes
  obtain rfl := Except.ok.inj hoptions
  have hsum : shortSegment.fieldSum [10, 0, 0, 1] [10, 0, 0, 2] [] % 65535 ≠ 0 := by decide +kernel
  exact ⟨hsum, hiff.mpr hsum⟩

/-- It differs in its source port, with which its checksum is zero. -/
def blankSegment : TCPSegment := { shortSegment with srcPort := 29797 }

/-- The lowest bit of the first byte goes unnoticed. -/
theorem flips_rejected_blankSegment :
    ¬ ∀ (seg : TCPSegment) (src dst data : Bytes), src.length = 4 → dst.length = 4 →
      seg.toBytes (some src) (some dst) = .ok data →
        ∀ i k, i < data.length → k < 8 → i ≠ 16 → i ≠ 17 →
          ∃ message, parse (flipBit data i k) (some src) (some dst) = .error (.valueError message) := by
  intro hall
  have hbytes : blankSegment.toBytes (some [10, 0, 0, 1]) (some [10, 0, 0, 2]) =
      .ok [116, 101, 31, 144, 0, 0, 3, 232, 0, 0, 0, 0, 80, 0, 0, 0, 0, 0, 0, 0, 1, 2, 3] := by
    decide +kernel
  obtain ⟨message, herror⟩ := hall _ _ _ _ rfl rfl hbytes 0 0 (by decide) (by decide) (by decide) (by decide)
  have hok : (parse (flipBit [116, 101, 31, 144, 0, 0, 3, 232, 0, 0, 0, 0, 80, 0, 0, 0, 0, 0, 0, 0, 1, 2, 3] 0 0)
      (some [10, 0, 0, 1]) (some [10, 0, 0, 2])).isOk = true := by
    decide +kernel
  rw [herror] at hok
  cases hok

end TCPSegment

end MiniTcp
