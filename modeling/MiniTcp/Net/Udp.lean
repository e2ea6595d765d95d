import MiniTcp.Net.Ipv4

/-!
# `minitcp/net/udp.py`: UDP datagrams

A datagram that fits survives encoding, whatever follows it (`parse_toBytes`). A checksum of zero is sent
as `0xFFFF`, which verifies all the same.
-/

namespace MiniTcp

/-- A decoded UDP datagram. -/
structure UDPSegment where
  srcPort : Nat
  dstPort : Nat
  payload : Bytes := []
  checksum : Nat := 0
  deriving DecidableEq, Repr

namespace UDPSegment

def HEADER_LEN : Nat := 8
def MAX_PORT : Nat := 0xFFFF

variable (seg : UDPSegment)

/-- Value of the length field: header plus payload. -/
def length : Nat := HEADER_LEN + seg.payload.length

/-- The value `to_bytes` puts into the checksum field of `header + payload`. -/
def checksumFor (header : Bytes) (srcIp dstIp : Option Bytes) (computeChecksum : Bool) :
    Except PyError Nat :=
  if computeChecksum then
    match srcIp, dstIp with
    | some src, some dst => do
      let csum ← transportChecksum src dst PROTO_UDP (header ++ seg.payload)
      return if csum = 0 then 0xFFFF else csum
    | _, _ =>
      .error (.valueError
        "source and destination addresses are required to compute the UDP checksum")
  else .ok seg.checksum

/-- Serialise the datagram. -/
def toBytes (srcIp dstIp : Option Bytes := none) (computeChecksum : Bool := true) :
    Except PyError Bytes :=
  if ¬ seg.srcPort ≤ MAX_PORT then .error (.valueError "source port out of range")
  else if ¬ seg.dstPort ≤ MAX_PORT then .error (.valueError "destination port out of range")
  else if seg.length > 0xFFFF then
    .error (.valueError s!"UDP datagram of {seg.length} bytes is too large")
  else do
    let header := packH seg.srcPort ++ packH seg.dstPort ++ packH seg.length ++ packH 0
    let csum ← seg.checksumFor header srcIp dstIp computeChecksum
    -- `struct.pack("!H", csum)`
    if csum ≤ 0xFFFF then return header.take 6 ++ packH csum ++ seg.payload
    else .error .structError

/-- Decode a datagram and verify its checksum. -/
def parse (data srcIp dstIp : Bytes) : Except PyError UDPSegment :=
  if data.length < HEADER_LEN then
    .error (.valueError s!"UDP datagram too short: {data.length} bytes, need at least {HEADER_LEN}")
  else
    let length := u16At data 4
    let csum := u16At data 6
    if length < HEADER_LEN then
      .error (.valueError s!"UDP length field {length} is below the header size")
    else if length > data.length then
      .error (.valueError
        s!"UDP length field claims {length} bytes but only {data.length} were received")
    else do
      let body := data.take length
      let verified ← if csum ≠ 0 then transportChecksum srcIp dstIp PROTO_UDP body else pure 0
      if verified ≠ 0 then .error (.valueError "UDP checksum mismatch")
      else
        return {
          srcPort := u16At data 0
          dstPort := u16At data 2
          payload := body.drop HEADER_LEN
          checksum := csum }

/-! ### Encoding and decoding -/

/-- Ports and length in range. -/
structure InWireRange (seg : UDPSegment) : Prop where
  srcPort : seg.srcPort ≤ MAX_PORT
  dstPort : seg.dstPort ≤ MAX_PORT
  total : seg.length ≤ 0xFFFF

variable {seg}

/-- The bytes in front of the checksum. -/
def front (seg : UDPSegment) : Bytes := packH seg.srcPort ++ packH seg.dstPort ++ packH seg.length

theorem length_front (seg : UDPSegment) : seg.front.length = 6 := rfl

theorem length_of_toBytes {src dst : Option Bytes} {data : Bytes} (h : seg.toBytes src dst = .ok data) :
    data.length = seg.length := by
  unfold toBytes at h
  split_ifs at h
  dsimp only at h
  generalize seg.checksumFor _ _ _ _ = found at h
  cases found with
  | error e => cases h
  | ok csum =>
    change (if csum ≤ 0xFFFF then _ else _) = _ at h
    split_ifs at h
    cases h
    exact List.length_append

namespace InWireRange

variable (h : seg.InWireRange) {src dst : Bytes}
include h

theorem toBytes_eq (hsrc : src.length = 4) (hdst : dst.length = 4) :
    ∃ csum, 0 < csum ∧ csum < 65536 ∧
      seg.toBytes (some src) (some dst) = .ok (seg.front ++ packH csum ++ seg.payload) ∧
      transportChecksum src dst PROTO_UDP (seg.front ++ packH csum ++ seg.payload) = .ok 0 := by
  have htotal : seg.front.length + 2 + seg.payload.length ≤ 0xFFFF := h.total
  have heven : seg.front.length % 2 = 0 := by rw [length_front]
  obtain ⟨csum, hlt, hcsum, hzero⟩ :=
    transportChecksum_insert seg.payload hsrc hdst (show PROTO_UDP ≤ 0xFF by decide) heven htotal
  have hfor : seg.checksumFor (seg.front ++ packH 0) (some src) (some dst) true =
      .ok (if csum = 0 then 0xFFFF else csum) := by
    change (transportChecksum src dst PROTO_UDP (seg.front ++ packH 0 ++ seg.payload) >>= _) = _
    rw [hcsum]
    rfl
  have hbytes : seg.toBytes (some src) (some dst) =
      .ok (seg.front ++ packH (if csum = 0 then 0xFFFF else csum) ++ seg.payload) := by
    rw [toBytes, if_neg (not_not.mpr h.srcPort), if_neg (not_not.mpr h.dstPort), if_neg (not_lt.mpr h.total)]
    change (seg.checksumFor (seg.front ++ packH 0) (some src) (some dst) true >>= _) = _
    rw [hfor]
    change (if (if csum = 0 then 0xFFFF else csum) ≤ 0xFFFF then _ else _) = _
    rw [if_pos (by split_ifs <;> omega)]
    rfl
  refine ⟨_, ?_, ?_, hbytes, hzero _ ?_⟩ <;> split_ifs <;> omega

theorem parse_toBytes (hsrc : src.length = 4) (hdst : dst.length = 4) (rest : Bytes) :
    ∃ data csum, seg.toBytes (some src) (some dst) = .ok data ∧ data.length = seg.length ∧
      parse (data ++ rest) src dst = .ok { seg with checksum := csum } := by
  obtain ⟨csum, hpos, hlt, hbytes, hzero⟩ := h.toBytes_eq hsrc hdst
  have hlength : (seg.front ++ packH csum ++ seg.payload).length = seg.length := by
    simp only [List.length_append, length_front, length_packH]
    rfl
  refine ⟨_, csum, hbytes, hlength, ?_⟩
  generalize hdata : seg.front ++ packH csum ++ seg.payload = data at hlength hzero
  have hports : u16At (data ++ rest) 0 = seg.srcPort ∧ u16At (data ++ rest) 2 = seg.dstPort ∧
      u16At (data ++ rest) 4 = seg.length ∧ u16At (data ++ rest) 6 = csum := by
    have htotal := h.total
    rw [← hdata]
    exact ⟨unpackH_packH (Nat.lt_succ_of_le h.srcPort), unpackH_packH (Nat.lt_succ_of_le h.dstPort),
      unpackH_packH (by omega), unpackH_packH hlt⟩
  obtain ⟨hsrcPort, hdstPort, hlen, hfield⟩ := hports
  have hmin : HEADER_LEN ≤ seg.length := Nat.le_add_right _ _
  have hbody : (data ++ rest).take seg.length = data := List.take_left' hlength
  have hpayload : data.drop HEADER_LEN = seg.payload := by
    rw [← hdata]
    exact List.drop_left' rfl
  rw [parse, if_neg (by rw [List.length_append]; omega)]
  dsimp only
  rw [hlen, hfield, if_neg (by omega), if_neg (by rw [List.length_append]; omega), hbody, hpayload, hsrcPort,
    hdstPort, if_pos (by omega), hzero]
  rfl

end InWireRange

/-! ### Errors of decoding -/

/-- The length field has 16 bits, so the pseudo-header of a datagram always fits. -/
theorem parse_ne (data src dst : Bytes) : parse data src dst ≠ .error .structError := by
  unfold parse
  dsimp only
  split_ifs
  · exact nofun
  · exact nofun
  · exact nofun
  · have hfield : u16At data 4 ≤ 0xFFFF := Nat.le_of_lt_succ (unpackH_lt _ _)
    rw [transportChecksum_eq (by decide) ((List.length_take_le _ _).trans hfield)]
    dsimp only [ok_bind]
    split_ifs <;> exact nofun
  · exact nofun

end UDPSegment

end MiniTcp
