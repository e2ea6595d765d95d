import MiniTcp.Net.Ipv4.Wire

/-!
# What was parsed is encoded again

Every field of the header is in the packet (`Accepted`), so encoding a parsed packet gives the datagram back,
but for its checksum, which is computed anew. In one's complement arithmetic that is the same number, unless it
stands for zero: of the two forms of zero only `0x0000` is computed (`toBytes_parse`).
-/

namespace MiniTcp

namespace IPv4Packet

variable {p : IPv4Packet} {data : Bytes}

/-- The same bytes with another checksum. -/
def withChecksum (data : Bytes) (csum : Nat) : Bytes := data.take 10 ++ packH csum ++ data.drop 12

/-- The checks that an accepted datagram has passed, and where the fields of the packet come from. -/
structure Accepted (data : Bytes) (p : IPv4Packet) : Prop where
  version : (byteAt data 0).toNat = 64 + p.ihl
  ihl : 5 ≤ p.ihl ∧ p.ihl < 16
  checksum : MiniTcp.checksum (data.take p.headerLength) = 0
  total : u16At data 2 = p.totalLength
  fits : p.totalLength ≤ data.length
  src : p.src = (data.drop 12).take 4
  dst : p.dst = (data.drop 16).take 4
  protocol : p.protocol = (byteAt data 9).toNat
  payload : p.payload = (data.take p.totalLength).drop p.headerLength
  ttl : p.ttl = (byteAt data 8).toNat
  identification : p.identification = u16At data 4
  flags : p.flags = u16At data 6 &&& FLAG_MASK
  fragmentOffset : p.fragmentOffset = u16At data 6 &&& FRAG_OFFSET_MASK
  dscp : p.dscp = (byteAt data 1).toNat
  options : p.options = (data.take p.headerLength).drop 20

theorem accepted_of_parse (h : parse data = .ok p) : Accepted data p := by
  have hbyte := (byteAt data 0).toNat_lt
  have hlow : (byteAt data 0).toNat &&& 0x0F = (byteAt data 0).toNat % 16 := Nat.and_two_pow_sub_one_eq_mod _ 4
  have hhigh : (byteAt data 0).toNat >>> 4 = (byteAt data 0).toNat / 16 := Nat.shiftRight_eq_div_pow _ 4
  unfold parse at h
  dsimp only at h
  rw [hlow, hhigh] at h
  obtain ⟨hshort, h⟩ := ok_of_check h
  obtain ⟨hversion, h⟩ := ok_of_check h
  obtain ⟨hihl, h⟩ := ok_of_check h
  obtain ⟨hheader, h⟩ := ok_of_check h
  obtain ⟨hchecksum, h⟩ := ok_of_check h
  obtain ⟨htotal, h⟩ := ok_of_check h
  obtain ⟨hlong, h⟩ := ok_of_check h
  have hoptions : ((data.take ((byteAt data 0).toNat % 16 * 4)).drop 20).length =
      (byteAt data 0).toNat % 16 * 4 - 20 := by
    rw [List.length_drop, List.length_take]
    omega
  have hpayload : ((data.take (u16At data 2)).drop ((byteAt data 0).toNat % 16 * 4)).length =
      u16At data 2 - (byteAt data 0).toNat % 16 * 4 := by
    rw [List.length_drop, List.length_take]
    omega
  have hp := Except.ok.inj h
  have hihlEq : p.ihl = (byteAt data 0).toNat % 16 := by
    rw [← hp]
    change (20 + ((data.take _).drop 20).length) / 4 = _
    omega
  have hheaderEq : p.headerLength = (byteAt data 0).toNat % 16 * 4 := by rw [headerLength, hihlEq]
  have htotalEq : p.totalLength = u16At data 2 := by
    rw [totalLength, hheaderEq, ← hp]
    dsimp only
    omega
  refine ⟨by omega, by omega, by rw [hheaderEq]; exact not_not.mp hchecksum, htotalEq.symm, by omega, ?_, ?_, ?_, ?_,
    ?_, ?_, ?_, ?_, ?_, ?_⟩
  · rw [← hp]
  · rw [← hp]
  · rw [← hp]
  · rw [htotalEq, hheaderEq, ← hp]
  · rw [← hp]
  · rw [← hp]
  · rw [← hp]
  · rw [← hp]
  · rw [← hp]
  · rw [hheaderEq, ← hp]
    rfl

namespace Accepted

variable (h : Accepted data p)
include h

theorem headerLength_le : 20 ≤ p.headerLength ∧ p.headerLength ≤ 60 ∧ p.headerLength ≤ p.totalLength := by
  obtain ⟨hlow, hhigh⟩ := h.ihl
  rw [totalLength, headerLength]
  omega

theorem inWireRange : p.InWireRange := by
  obtain ⟨hmin, hmax, hle⟩ := h.headerLength_le
  have hfits := h.fits
  have hlength : p.options.length = p.headerLength - 20 := by
    rw [h.options, List.length_drop, List.length_take]
    omega
  have hfour : p.headerLength = p.ihl * 4 := rfl
  refine ⟨?_, ?_, ?_, ?_, ?_, ?_, ?_, ?_, by omega, by omega, ?_⟩
  · rw [h.src, List.length_take, List.length_drop]
    omega
  · rw [h.dst, List.length_take, List.length_drop]
    omega
  · exact h.protocol ▸ Nat.le_of_lt_succ (UInt8.toNat_lt _)
  · exact h.ttl ▸ Nat.le_of_lt_succ (UInt8.toNat_lt _)
  · exact h.identification ▸ Nat.le_of_lt_succ (u16At_lt data 4)
  · rw [h.flags, Nat.and_assoc, Nat.and_self]
  · rw [h.fragmentOffset]
    exact Nat.and_le_right
  · exact h.dscp ▸ Nat.le_of_lt_succ (UInt8.toNat_lt _)
  · rw [← h.total]
    exact Nat.le_of_lt_succ (u16At_lt data 2)

theorem flagsFrag_eq : p.flagsFrag = u16At data 6 := by
  have hlt := u16At_lt data 6
  have hmask : FLAG_MASK ||| FRAG_OFFSET_MASK = 2 ^ 16 - 1 := by decide
  rw [flagsFrag, h.flags, h.fragmentOffset, Nat.and_assoc, Nat.and_self, ← Nat.and_or_distrib_left, hmask,
    Nat.and_two_pow_sub_one_eq_mod]
  omega

theorem fields_eq : p.fields = data.take 10 := by
  obtain ⟨hmin, -, hle⟩ := h.headerLength_le
  have hlong : 20 ≤ data.length := by
    have := h.fits
    omega
  have hvihl : UInt8.ofNat ((4 <<< 4) ||| p.ihl) = byteAt data 0 := by
    apply UInt8.toNat_inj.mp
    rw [h.inWireRange.vihl_eq, h.version]
  have hid : p.identification &&& 0xFFFF = u16At data 4 := by
    have hlt := u16At_lt data 4
    have hmod : p.identification &&& 0xFFFF = p.identification % 65536 := Nat.and_two_pow_sub_one_eq_mod _ 16
    rw [hmod, h.identification]
    omega
  have hsplit : data.take 10 = data.take 1 ++ (data.drop 1).take 1 ++ (data.drop 2).take 2 ++
      (data.drop 4).take 2 ++ (data.drop 6).take 2 ++ (data.drop 8).take 1 ++ (data.drop 9).take 1 := by
    simp only [← List.take_add]
  have hfirst : data.take 1 = [byteAt data 0] := take_one_eq (i := 0) (by omega)
  rw [fields, hsplit, hfirst, take_one_eq (by omega), take_two_eq (by omega), take_two_eq (by omega),
    take_two_eq (by omega), take_one_eq (by omega), take_one_eq (by omega), hvihl, hid, h.flagsFrag_eq, h.total,
    h.dscp, h.ttl, h.protocol]
  simp only [UInt8.ofNat_toNat]
  rfl

theorem addresses_eq : p.addresses = (data.take p.headerLength).drop 12 := by
  obtain ⟨hmin, -, -⟩ := h.headerLength_le
  have hlength : p.headerLength - 12 = 4 + 4 + (p.headerLength - 20) := by omega
  rw [addresses, h.src, h.dst, h.options, List.drop_take, List.drop_take, hlength, List.take_add, List.take_add,
    List.drop_drop, List.drop_drop]

theorem header_eq : p.header (u16At data 10) = data.take p.headerLength := by
  obtain ⟨hmin, -, hle⟩ := h.headerLength_le
  have hfits := h.fits
  have hlength : p.headerLength = 10 + 2 + (p.headerLength - 12) := by omega
  rw [header, h.fields_eq, h.addresses_eq, ← take_two_eq (by omega), List.drop_take, ← List.take_add,
    ← List.take_add, ← hlength]

theorem withChecksum_eq {n : Nat} (hn : p.headerLength ≤ n) (csum : Nat) :
    withChecksum (data.take n) csum = p.header csum ++ (data.take n).drop p.headerLength := by
  obtain ⟨hmin, -, -⟩ := h.headerLength_le
  have hlength : n - 12 = p.headerLength - 12 + (n - p.headerLength) := by omega
  have hpos : 12 + (p.headerLength - 12) = p.headerLength := by omega
  rw [header, h.fields_eq, h.addresses_eq, withChecksum, List.take_take, min_eq_left (by omega), List.drop_take,
    List.drop_take, List.drop_take, hlength, List.take_add, List.drop_drop, hpos]
  simp only [List.append_assoc]

theorem wordSum_ne_zero : wordSum (p.header 0) ≠ 0 := by
  have hvihl : UInt8.ofNat ((4 <<< 4) ||| p.ihl) = byteAt data 0 := by
    apply UInt8.toNat_inj.mp
    rw [h.inWireRange.vihl_eq, h.version]
  have hheader : p.header 0 = [UInt8.ofNat ((4 <<< 4) ||| p.ihl), UInt8.ofNat p.dscp] ++
      (p.fields.drop 2 ++ packH 0 ++ p.addresses) := by
    rw [header]
    rfl
  have hversion := h.version
  rw [hheader, wordSum_append _ (by simp), hvihl]
  simp only [words, unpackH, List.sum_cons]
  omega

end Accepted

/-- What was parsed is encoded again, byte for byte. Only a checksum that is the other form of zero, because
the rest of the header sums to it, becomes zero. -/
theorem toBytes_parse (h : parse data = .ok p) :
    ∃ again, p.toBytes = .ok again ∧
      (u16At data 10 ≠ 0xFFFF ∧ again = data.take (u16At data 2) ∨
        u16At data 10 = 0xFFFF ∧ onesComplementSum (withChecksum (data.take p.headerLength) 0) = 0xFFFF ∧
          again = withChecksum (data.take (u16At data 2)) 0) := by
  have haccepted := accepted_of_parse h
  obtain ⟨hmin, -, hle⟩ := haccepted.headerLength_le
  have hblank : withChecksum (data.take p.headerLength) 0 = p.header 0 := by
    rw [haccepted.withChecksum_eq le_rfl, List.drop_eq_nil_of_le (by simp), List.append_nil]
  have hagain : ∀ csum, p.header csum ++ p.payload = withChecksum (data.take (u16At data 2)) csum := by
    intro csum
    rw [haccepted.total, haccepted.withChecksum_eq hle, haccepted.payload]
  refine ⟨_, haccepted.inWireRange.toBytes_eq, ?_⟩
  have hunique := checksum_unique (a := p.fields) p.addresses (by rw [length_fields]) (u16At_lt data 10)
    haccepted.wordSum_ne_zero (by
      change checksum (p.header (u16At data 10)) = 0
      rw [haccepted.header_eq, haccepted.checksum])
  change _ ≠ _ ∧ checksum (p.header 0) = _ ∨ _ ∧ checksum (p.header 0) = 0 ∧ onesComplementSum (p.header 0) = _
    at hunique
  rw [hblank, hagain]
  rcases hunique with ⟨hne, hsame⟩ | ⟨hother, hzero, hsum⟩
  · refine .inl ⟨hne, ?_⟩
    have hhead : data.take p.headerLength = (data.take p.totalLength).take p.headerLength := by
      rw [List.take_take, min_eq_left hle]
    rw [hsame, ← hagain, haccepted.header_eq, haccepted.payload, haccepted.total, hhead, List.take_append_drop]
  · exact .inr ⟨hother, hsum, by rw [hzero]⟩

/-- A header that sums to negative zero but for its checksum, a byte of payload and a byte of padding. -/
def negativeZero : Bytes :=
  [0x45, 0, 0, 21, 0x66, 0xD6, 0, 0, 64, 17, 0xFF, 0xFF, 10, 0, 0, 1, 10, 0, 0, 2, 7, 0]

theorem toBytes_parse_negativeZero :
    ∃ p, parse negativeZero = .ok p ∧ p.toBytes = .ok (withChecksum (negativeZero.take 21) 0) := by
  have hok : (parse negativeZero).isOk = true := by decide +kernel
  cases hp : parse negativeZero with
  | error e =>
    rw [hp] at hok
    cases hok
  | ok p =>
    obtain ⟨again, hagain, ⟨hne, -⟩ | ⟨-, -, heq⟩⟩ := toBytes_parse hp
    · exact absurd rfl hne
    · exact ⟨p, rfl, hagain.trans (congrArg Except.ok heq)⟩

end IPv4Packet

end MiniTcp
