import MiniTcp.Net.Ipv4.Reencode
import MiniTcp.Util.Flip

/-!
# A header with one wrong bit

The header that `to_bytes` writes passes verification, so with one bit flipped it does not; and `parse` verifies
the same bytes, since all but the header length is checked after the checksum (`parse_flipBit`).
-/

namespace MiniTcp

namespace IPv4Packet

variable {p : IPv4Packet} {data : Bytes} {i k : Nat}

/-- The packet with what `to_bytes` writes of its identification and its flags. -/
def masked (p : IPv4Packet) : IPv4Packet :=
  { p with identification := p.identification &&& 0xFFFF, flags := p.flags &&& FLAG_MASK }

theorem toBytes_masked (p : IPv4Packet) : p.masked.toBytes = p.toBytes := by
  have hid : (p.identification &&& 0xFFFF) &&& 0xFFFF = p.identification &&& 0xFFFF := by
    rw [Nat.and_assoc, Nat.and_self]
  have hflags : (p.flags &&& FLAG_MASK) &&& FLAG_MASK = p.flags &&& FLAG_MASK := by
    rw [Nat.and_assoc, Nat.and_self]
  unfold toBytes packHeader
  change (if _ then _ else _) = _
  simp only [masked, hid, hflags]
  rfl

theorem inWireRange_masked (h : p.toBytes = .ok data) : p.masked.InWireRange := by
  unfold toBytes at h
  obtain ⟨haddresses, h⟩ := ok_of_check h
  obtain ⟨hpadded, h⟩ := ok_of_check h
  obtain ⟨hlong, h⟩ := ok_of_check h
  obtain ⟨htotal, h⟩ := ok_of_check h
  obtain ⟨hoffset, h⟩ := ok_of_check h
  obtain ⟨httl, h⟩ := ok_of_check h
  rw [not_or, not_not, not_not] at haddresses
  rw [not_not] at hpadded hoffset httl
  rw [Nat.not_lt] at hlong htotal
  change (p.packHeader _ p.flagsFrag >>= _) = _ at h
  rw [packHeader_eq hlong htotal hoffset httl] at h
  by_cases hpack : p.dscp ≤ 0xFF ∧ p.protocol ≤ 0xFF
  · exact
      { src := haddresses.1
        dst := haddresses.2
        protocol := hpack.2
        ttl := httl
        identification := Nat.and_le_right
        flags := by rw [masked, Nat.and_assoc, Nat.and_self]
        fragmentOffset := hoffset
        dscp := hpack.1
        padded := hpadded
        options := hlong
        total := htotal }
  · rw [if_neg hpack] at h
    cases h

theorem written_of_toBytes (h : p.toBytes = .ok data) :
    data.length = p.totalLength ∧ (byteAt data 0).toNat = 64 + p.ihl ∧ p.ihl < 16 ∧
      checksum (data.take p.headerLength) = 0 := by
  have hrange := inWireRange_masked h
  have hsame := (toBytes_masked p).trans h
  rw [hrange.toBytes_eq] at hsame
  have hlength := hrange.length_header (checksum (p.masked.header 0))
  obtain rfl := Except.ok.inj hsame
  refine ⟨?_, (hrange.reads_fields _ _).1, hrange.ihl_bounds.2, ?_⟩
  · rw [List.length_append, hlength]
    rfl
  · have htake : (p.masked.header (checksum (p.masked.header 0)) ++ p.masked.payload).take p.headerLength =
        p.masked.header (checksum (p.masked.header 0)) := List.take_left' hlength
    rw [htake]
    exact checksum_header p.masked

/-- A bit of the version changes the version, and any other one the checksum. -/
theorem parse_flipBit (h : p.toBytes = .ok data) (hi : i < p.headerLength) (hk : k < 8)
    (hihl : ¬ (i = 0 ∧ k < 4)) : ∃ message, parse (flipBit data i k) = .error (.valueError message) := by
  obtain ⟨hlength, hversion, hlt, hzero⟩ := written_of_toBytes h
  have hshort : p.headerLength ≤ data.length := by
    rw [hlength, totalLength]
    omega
  cases hparse : parse (flipBit data i k) with
  | error e =>
    cases e with
    | valueError message => exact ⟨message, rfl⟩
    | structError => exact absurd hparse (parse_ne _)
  | ok q =>
    exfalso
    have haccepted := accepted_of_parse hparse
    have hversion' := haccepted.version
    obtain ⟨-, hlt'⟩ := haccepted.ihl
    by_cases hfirst : i = 0
    · subst hfirst
      -- one of 16, 32, 64 and 128 is added to the first byte or taken from it
      have hpow : 2 ^ 4 ≤ 2 ^ k := Nat.pow_le_pow_right (by decide) (by omega)
      rw [byteAt_flipBit (by omega), toNat_flip _ hk, hversion] at hversion'
      rcases xor_two_pow (64 + p.ihl) k with hflip | hflip <;> omega
    · rw [byteAt_flipBit_of_ne (Ne.symm hfirst), hversion] at hversion'
      have hsame : q.headerLength = p.headerLength := by
        rw [headerLength, headerLength]
        omega
      have hchecksum := haccepted.checksum
      rw [hsame, take_flipBit hi] at hchecksum
      have hlong : i < (data.take p.headerLength).length := by
        rw [List.length_take]
        omega
      exact checksum_flipBit_ne hzero hlong hk hchecksum

/-- A header of twenty-four bytes whose checksum is zero. -/
def zeroChecksum : IPv4Packet where
  src := [10, 0, 0, 1]
  dst := [10, 0, 0, 2]
  protocol := 17
  payload := [7]
  identification := 0x63D1
  options := [1, 1, 1, 0]

/-- The lowest bit of its last option byte. -/
theorem parse_flipBit_zeroChecksum :
    ∃ message, parse [70, 0, 0, 25, 99, 209, 0, 0, 64, 17, 0, 0, 10, 0, 0, 1, 10, 0, 0, 2, 1, 1, 1, 1, 7] =
      .error (.valueError message) := by
  have hbytes : zeroChecksum.toBytes =
      .ok [70, 0, 0, 25, 99, 209, 0, 0, 64, 17, 0, 0, 10, 0, 0, 1, 10, 0, 0, 2, 1, 1, 1, 0, 7] := by
    decide +kernel
  exact parse_flipBit (i := 23) (k := 0) hbytes (by decide) (by decide) (by decide)

end IPv4Packet

end MiniTcp
