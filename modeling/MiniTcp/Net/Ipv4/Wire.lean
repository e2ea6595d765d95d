import MiniTcp.Net.Ipv4

/-!
# `to_bytes` and `parse`

A datagram whose fields fit their places on the wire is encoded, and parsing gives it back, also when the
frame that carried it was padded (`parse_toBytes`).
-/

namespace MiniTcp

namespace IPv4Packet

/-- Every field fits its place in the header, and the length its sixteen bits. -/
structure InWireRange (p : IPv4Packet) : Prop where
  src : p.src.length = 4
  dst : p.dst.length = 4
  protocol : p.protocol ≤ 255
  ttl : p.ttl ≤ 255
  identification : p.identification ≤ 65535
  flags : p.flags &&& FLAG_MASK = p.flags
  fragmentOffset : p.fragmentOffset ≤ FRAG_OFFSET_MASK
  dscp : p.dscp ≤ 255
  padded : p.options.length % 4 = 0
  options : p.options.length ≤ 40
  total : p.totalLength ≤ MAX_PACKET

variable {p : IPv4Packet}

/-- The sixteen bits that flags and offset share. -/
def flagsFrag (p : IPv4Packet) : Nat := (p.flags &&& FLAG_MASK) ||| p.fragmentOffset

/-- The ten bytes in front of the checksum. -/
def fields (p : IPv4Packet) : Bytes :=
  [UInt8.ofNat ((4 <<< 4) ||| p.ihl), UInt8.ofNat p.dscp] ++ packH p.totalLength ++
    packH (p.identification &&& 0xFFFF) ++ packH p.flagsFrag ++ [UInt8.ofNat p.ttl, UInt8.ofNat p.protocol]

/-- What follows the checksum in the header. -/
def addresses (p : IPv4Packet) : Bytes := p.src ++ p.dst ++ p.options

/-- The header with `csum` in the place of the checksum. -/
def header (p : IPv4Packet) (csum : Nat) : Bytes := p.fields ++ packH csum ++ p.addresses

@[simp] theorem length_fields (p : IPv4Packet) : p.fields.length = 10 := rfl

/-! ### Flags and offset -/

theorem flags_and_offset {a b : Nat} (ha : a &&& FLAG_MASK = a) (hb : b ≤ FRAG_OFFSET_MASK) :
    (a ||| b) &&& FLAG_MASK = a ∧ (a ||| b) &&& FRAG_OFFSET_MASK = b := by
  have hoff : b &&& FRAG_OFFSET_MASK = b := by
    have hmod : b &&& FRAG_OFFSET_MASK = b % 8192 := Nat.and_two_pow_sub_one_eq_mod b 13
    rw [FRAG_OFFSET_MASK] at hb
    omega
  have hab : a &&& FRAG_OFFSET_MASK = 0 := by
    rw [← ha, Nat.and_assoc]
    exact Nat.and_zero a
  have hba : b &&& FLAG_MASK = 0 := by
    rw [← hoff, Nat.and_assoc]
    exact Nat.and_zero b
  constructor
  · rw [Nat.and_or_distrib_right, ha, hba, Nat.or_zero]
  · rw [Nat.and_or_distrib_right, hab, hoff, Nat.zero_or]

theorem flagsFrag_lt (hoffset : p.fragmentOffset ≤ FRAG_OFFSET_MASK) : p.flagsFrag < 65536 := by
  apply Nat.or_lt_two_pow (n := 16)
  · have hle := Nat.and_le_right (n := p.flags) (m := FLAG_MASK)
    rw [FLAG_MASK] at hle ⊢
    omega
  · rw [FRAG_OFFSET_MASK] at hoffset
    omega

/-- Once `to_bytes` has made its checks, `struct.pack` only has the fields of one byte left to refuse. -/
theorem packHeader_eq (hoptions : p.options.length ≤ 40) (htotal : p.totalLength ≤ MAX_PACKET)
    (hoffset : p.fragmentOffset ≤ FRAG_OFFSET_MASK) (httl : p.ttl ≤ 255) :
    p.packHeader ((4 <<< 4) ||| p.ihl) p.flagsFrag =
      if p.dscp ≤ 0xFF ∧ p.protocol ≤ 0xFF then .ok (p.fields ++ packH 0 ++ p.src ++ p.dst)
      else .error .structError := by
  have hihl : p.ihl < 16 := by
    simp only [ihl, HEADER_LEN]
    omega
  have hvihl : (4 <<< 4) ||| p.ihl < 2 ^ 8 := Nat.or_lt_two_pow (by decide) (by omega)
  have hflags := flagsFrag_lt hoffset
  rw [packHeader]
  exact if_congr ⟨fun h => ⟨h.2.1, h.2.2.2.2.2⟩, fun h => ⟨by omega, h.1, htotal, by omega, httl, h.2⟩⟩ rfl rfl

/-! ### The header -/

theorem checksum_header (p : IPv4Packet) : checksum (p.header (checksum (p.header 0))) = 0 := by
  apply checksum_insert
  · rw [length_fields]
  · exact .inl rfl

namespace InWireRange

variable (h : p.InWireRange)
include h

theorem headerLength_eq : p.headerLength = 20 + p.options.length := by
  have hpadded := h.padded
  simp only [headerLength, ihl, HEADER_LEN]
  omega

theorem ihl_bounds : 5 ≤ p.ihl ∧ p.ihl < 16 := by
  have hoptions := h.options
  simp only [ihl, HEADER_LEN]
  omega

theorem length_addresses : p.addresses.length = 8 + p.options.length := by
  simp only [addresses, List.length_append, h.src, h.dst]

theorem length_header (csum : Nat) : (p.header csum).length = p.headerLength := by
  simp only [header, List.length_append, length_fields, length_packH, h.length_addresses, h.headerLength_eq]
  omega

theorem vihl_eq : (UInt8.ofNat ((4 <<< 4) ||| p.ihl)).toNat = 64 + p.ihl := by
  obtain ⟨-, hlt⟩ := h.ihl_bounds
  have hor : (4 <<< 4) ||| p.ihl = 64 + p.ihl := by
    have hadd := Nat.two_pow_add_eq_or_of_lt (i := 4) hlt 4
    exact hadd.symm
  rw [hor, toNat_ofNat_of_lt (by omega)]

/-- The checks of `to_bytes` pass, and the header it writes is `header` with its own checksum. -/
theorem toBytes_eq : p.toBytes = .ok (p.header (checksum (p.header 0)) ++ p.payload) := by
  have hsrc := h.src
  have hdst := h.dst
  have hpadded := h.padded
  have hoptions := h.options
  have htotal := h.total
  have hpack : p.packHeader ((4 <<< 4) ||| p.ihl) p.flagsFrag =
      .ok (p.fields ++ packH 0 ++ p.src ++ p.dst) := by
    rw [packHeader_eq hoptions htotal h.fragmentOffset h.ttl, if_pos ⟨h.dscp, h.protocol⟩]
  rw [toBytes, if_neg (by omega), if_neg (by omega), if_neg (by omega), if_neg (by omega),
    if_neg (not_not.mpr h.fragmentOffset), if_neg (not_not.mpr h.ttl)]
  change (p.packHeader _ p.flagsFrag >>= _) = _
  rw [hpack]
  have hheader : p.fields ++ packH 0 ++ p.src ++ p.dst ++ p.options = p.header 0 := by
    simp only [header, addresses, List.append_assoc]
  change Except.ok _ = _
  rw [hheader]
  rfl

theorem reads_fields (csum : Nat) (rest : Bytes) :
    (byteAt (p.header csum ++ rest) 0).toNat = 64 + p.ihl ∧
      (byteAt (p.header csum ++ rest) 1).toNat = p.dscp ∧
      u16At (p.header csum ++ rest) 2 = p.totalLength ∧
      u16At (p.header csum ++ rest) 4 = p.identification ∧
      u16At (p.header csum ++ rest) 6 = p.flagsFrag ∧
      (byteAt (p.header csum ++ rest) 8).toNat = p.ttl ∧
      (byteAt (p.header csum ++ rest) 9).toNat = p.protocol := by
  have htotal := h.total
  have hid := h.identification
  have hmod : p.identification &&& 0xFFFF = p.identification % 65536 :=
    Nat.and_two_pow_sub_one_eq_mod _ 16
  rw [MAX_PACKET] at htotal
  refine ⟨h.vihl_eq, toNat_ofNat_of_lt (Nat.lt_succ_of_le h.dscp), unpackH_packH (by omega), ?_,
    unpackH_packH (flagsFrag_lt h.fragmentOffset), toNat_ofNat_of_lt (Nat.lt_succ_of_le h.ttl),
    toNat_ofNat_of_lt (Nat.lt_succ_of_le h.protocol)⟩
  calc u16At (p.header csum ++ rest) 4 = p.identification &&& 0xFFFF := unpackH_packH (by omega)
    _ = p.identification := by omega

theorem reads_slices (csum : Nat) (rest : Bytes) :
    (p.header csum ++ rest).take p.headerLength = p.header csum ∧
      ((p.header csum ++ rest).drop 12).take 4 = p.src ∧
      ((p.header csum ++ rest).drop 16).take 4 = p.dst ∧ (p.header csum).drop 20 = p.options := by
  have haddresses : (p.header csum ++ rest).drop 12 = p.src ++ (p.dst ++ (p.options ++ rest)) := by
    change p.addresses ++ rest = _
    simp only [addresses, List.append_assoc]
  refine ⟨List.take_left' (h.length_header csum), ?_, ?_, ?_⟩
  · rw [haddresses]
    exact List.take_left' h.src
  · rw [show 16 = 12 + 4 from rfl, ← List.drop_drop, haddresses, List.drop_left' h.src]
    exact List.take_left' h.dst
  · have hlength : (p.src ++ p.dst).length = 8 := by rw [List.length_append, h.src, h.dst]
    rw [show 20 = 12 + 8 from rfl, ← List.drop_drop]
    exact List.drop_left' hlength

/-- What `to_bytes` writes is as long as it says, and `parse` gives the datagram back, whatever padding
follows. -/
theorem parse_toBytes (pad : Bytes) :
    ∃ data, p.toBytes = .ok data ∧ data.length = p.totalLength ∧ parse (data ++ pad) = .ok p := by
  have hlength := h.length_header (checksum (p.header 0))
  have hchecksum := checksum_header p
  have htotal : (p.header (checksum (p.header 0)) ++ p.payload).length = p.totalLength := by
    rw [List.length_append, hlength, totalLength]
  refine ⟨_, h.toBytes_eq, htotal, ?_⟩
  have hbody : (p.header (checksum (p.header 0)) ++ p.payload ++ pad).take p.totalLength =
      p.header (checksum (p.header 0)) ++ p.payload := List.take_left' htotal
  have hdata : (p.header (checksum (p.header 0)) ++ p.payload ++ pad).length = p.totalLength + pad.length := by
    rw [List.length_append, htotal]
  rw [List.append_assoc] at hbody hdata ⊢
  obtain ⟨hvihl, hdscp, hlen, hid, hfrag, httl, hprotocol⟩ :=
    h.reads_fields (checksum (p.header 0)) (p.payload ++ pad)
  obtain ⟨hhead, hsrc, hdst, hoptions⟩ := h.reads_slices (checksum (p.header 0)) (p.payload ++ pad)
  obtain ⟨hihl, hihl'⟩ := h.ihl_bounds
  have hversion : (64 + p.ihl) >>> 4 = 4 := by
    rw [Nat.shiftRight_eq_div_pow]
    omega
  have hlow : (64 + p.ihl) &&& 0x0F = p.ihl := by
    have hmod : (64 + p.ihl) &&& 0x0F = (64 + p.ihl) % 16 := Nat.and_two_pow_sub_one_eq_mod _ 4
    omega
  have hheader : p.ihl * 4 = p.headerLength := rfl
  have hfits : p.headerLength ≤ p.totalLength := Nat.le_add_right _ _
  have hflags : p.flagsFrag &&& FLAG_MASK = p.flags ∧
      p.flagsFrag &&& FRAG_OFFSET_MASK = p.fragmentOffset := by
    rw [flagsFrag, h.flags]
    exact flags_and_offset h.flags h.fragmentOffset
  rw [parse, if_neg (by rw [hdata, HEADER_LEN]; omega)]
  dsimp only
  rw [hvihl, hversion, hlow, hheader, hdata, hhead, hchecksum, hlen, hfrag, if_neg (by omega),
    if_neg (by omega), if_neg (by omega), if_neg (by omega), if_neg (by omega), if_neg (by omega), hsrc,
    hdst, hprotocol, httl, hid, hdscp, hflags.1, hflags.2, hbody, List.drop_left' hlength]
  exact congrArg Except.ok (congrArg (IPv4Packet.mk _ _ _ _ _ _ _ _ _) hoptions)

end InWireRange

/-! ### Errors of decoding -/

theorem parse_ne (data : Bytes) : parse data ≠ .error .structError := by
  unfold parse
  dsimp only
  iterate 7 apply check_ne
  exact nofun

theorem length_src_of_parse {data : Bytes} (h : parse data = .ok p) : p.src.length = 4 := by
  unfold parse at h
  dsimp only at h
  obtain ⟨hshort, h⟩ := ok_of_check h
  iterate 6 replace h := (ok_of_check h).2
  cases h
  rw [HEADER_LEN] at hshort
  simp only [List.length_take, List.length_drop]
  omega

end IPv4Packet

end MiniTcp
