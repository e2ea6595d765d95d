import MiniTcp.Util.Checksum
import Mathlib.Data.List.AList
import Mathlib.Data.List.Sort

/-!
# `minitcp/net/ipv4.py`: packets, fragmentation and reassembly

The addresses, the header fields and the payload of a datagram, its encoding and decoding with their
errors, `fragment`, and the `Reassembler`. The dictionaries of the source are association lists without
repeated keys; nothing in it depends on their order.
-/

namespace MiniTcp

def PROTO_ICMP : Nat := 1
def PROTO_TCP : Nat := 6
def PROTO_UDP : Nat := 17

def FLAG_DF : Nat := 0x4000
def FLAG_MF : Nat := 0x2000
def FLAG_MASK : Nat := 0xE000
def FRAG_OFFSET_MASK : Nat := 0x1FFF
def HEADER_LEN : Nat := 20
def DEFAULT_MTU : Nat := 1500
def MIN_MTU : Nat := 68
def MAX_PACKET : Nat := 0xFFFF

def IP_ANY : Bytes := List.replicate 4 0
def IP_BROADCAST : Bytes := List.replicate 4 0xFF

/-- Whether two addresses share a subnet under `mask`. The `zip` is strict, but `all` stops at the first
difference. -/
def sameSubnet : Bytes → Bytes → Bytes → Except PyError Bool
  | x :: a, y :: b, m :: mask => if x &&& m = y &&& m then sameSubnet a b mask else .ok false
  | [], [], [] => .ok true
  | [], [], _ :: _ => .error (.valueError "zip() argument 3 is longer than arguments 1-2")
  | [], _ :: _, _ => .error (.valueError "zip() argument 2 is longer than argument 1")
  | _ :: _, [], _ => .error (.valueError "zip() argument 2 is shorter than argument 1")
  | _ :: _, _ :: _, [] => .error (.valueError "zip() argument 3 is shorter than arguments 1-2")

/-- A decoded IPv4 datagram. -/
structure IPv4Packet where
  src : Bytes
  dst : Bytes
  protocol : Nat
  payload : Bytes
  ttl : Nat := 64
  identification : Nat := 0
  flags : Nat := 0
  /-- In units of eight bytes. -/
  fragmentOffset : Nat := 0
  dscp : Nat := 0
  options : Bytes := []
  deriving DecidableEq, Repr

namespace IPv4Packet

variable (p : IPv4Packet)

/-- Header length in 32-bit words. -/
def ihl : Nat := (HEADER_LEN + p.options.length) / 4
def headerLength : Nat := p.ihl * 4
def totalLength : Nat := p.headerLength + p.payload.length

/-- One piece of a larger datagram. -/
def isFragmented : Bool := p.flags &&& FLAG_MF != 0 || p.fragmentOffset > 0
def dontFragment : Bool := p.flags &&& FLAG_DF != 0

/-- `struct.pack("!BBHHHBBH4s4s", ...)` with a checksum field of zero. -/
def packHeader (vihl flagsFrag : Nat) : Except PyError Bytes :=
  if vihl ≤ 0xFF ∧ p.dscp ≤ 0xFF ∧ p.totalLength ≤ 0xFFFF ∧ flagsFrag ≤ 0xFFFF ∧ p.ttl ≤ 0xFF ∧
      p.protocol ≤ 0xFF then
    .ok ([UInt8.ofNat vihl, UInt8.ofNat p.dscp] ++ packH p.totalLength ++
      packH (p.identification &&& 0xFFFF) ++ packH flagsFrag ++
      [UInt8.ofNat p.ttl, UInt8.ofNat p.protocol] ++ packH 0 ++ p.src ++ p.dst)
  else .error .structError

/-- Serialise the datagram, computing the header checksum. -/
def toBytes : Except PyError Bytes :=
  if p.src.length ≠ 4 ∨ p.dst.length ≠ 4 then .error (.valueError "IPv4 addresses must be 4 bytes")
  else if p.options.length % 4 ≠ 0 then
    .error (.valueError "IPv4 options must pad to a 4-byte boundary")
  else if p.options.length > 40 then .error (.valueError "IPv4 options may not exceed 40 bytes")
  else if p.totalLength > MAX_PACKET then
    .error (.valueError s!"IPv4 datagram of {p.totalLength} bytes exceeds the {MAX_PACKET} byte limit")
  else if ¬ p.fragmentOffset ≤ FRAG_OFFSET_MASK then .error (.valueError "fragment offset out of range")
  else if ¬ p.ttl ≤ 255 then .error (.valueError "TTL must be between 0 and 255")
  else do
    let header ← p.packHeader ((4 <<< 4) ||| p.ihl) ((p.flags &&& FLAG_MASK) ||| p.fragmentOffset)
    let header := header ++ p.options
    return header.take 10 ++ packH (checksum header) ++ header.drop 12 ++ p.payload

/-- Decode a datagram, validating the header. -/
def parse (data : Bytes) : Except PyError IPv4Packet :=
  if data.length < HEADER_LEN then
    .error (.valueError
      s!"IPv4 datagram too short: {data.length} bytes, need at least {HEADER_LEN}")
  else
    let version := (byteAt data 0).toNat >>> 4
    let ihl := (byteAt data 0).toNat &&& 0x0F
    let headerLen := ihl * 4
    let totalLength := u16At data 2
    let flagsFrag := u16At data 6
    if version ≠ 4 then .error (.valueError s!"not an IPv4 datagram (version {version})")
    else if ihl < 5 then
      .error (.valueError s!"IPv4 header length {ihl} is below the minimum of 5")
    else if data.length < headerLen then
      .error (.valueError
        s!"IPv4 header claims {headerLen} bytes but only {data.length} were received")
    else if checksum (data.take headerLen) ≠ 0 then
      .error (.valueError "IPv4 header checksum mismatch")
    else if totalLength < headerLen then
      .error (.valueError s!"IPv4 total length {totalLength} is smaller than its header ({headerLen})")
    else if totalLength > data.length then
      .error (.valueError
        s!"IPv4 datagram claims {totalLength} bytes but only {data.length} were received")
    else
      .ok
        { src := (data.drop 12).take 4
          dst := (data.drop 16).take 4
          protocol := (byteAt data 9).toNat
          payload := (data.take totalLength).drop headerLen
          ttl := (byteAt data 8).toNat
          identification := u16At data 4
          flags := flagsFrag &&& FLAG_MASK
          fragmentOffset := flagsFrag &&& FRAG_OFFSET_MASK
          dscp := (byteAt data 1).toNat
          options := (data.take headerLen).drop HEADER_LEN }

/-! ### Fragmentation -/

/-- The piece of `p` that starts at `offset`. -/
def piece (maxPayload offset : Nat) : IPv4Packet :=
  let chunk := (p.payload.drop offset).take maxPayload
  let more := offset + chunk.length < p.payload.length
  { src := p.src
    dst := p.dst
    protocol := p.protocol
    payload := chunk
    ttl := p.ttl
    identification := p.identification
    flags := (p.flags &&& FLAG_DF) ||| (if more then FLAG_MF else 0)
    fragmentOffset := offset / 8
    dscp := p.dscp }

/-- The loop of `fragment`. Each round takes at least one byte, so the length of the payload bounds the
rounds. -/
def fragmentLoop (maxPayload : Nat) : Nat → Nat → List IPv4Packet
  | 0, _ => []
  | fuel + 1, offset =>
    if offset < p.payload.length then
      p.piece maxPayload offset ::
        fragmentLoop maxPayload fuel (offset + (p.piece maxPayload offset).payload.length)
    else []

end IPv4Packet

/-- Split `packet` so that no fragment exceeds `mtu` bytes. -/
def fragment (packet : IPv4Packet) (mtu : Nat := DEFAULT_MTU) : Except PyError (List IPv4Packet) :=
  if mtu < MIN_MTU then
    .error (.valueError s!"MTU {mtu} is below the required minimum of {MIN_MTU}")
  else
    let headerLen := packet.headerLength
    if headerLen + packet.payload.length ≤ mtu then .ok [packet]
    else if packet.dontFragment then
      .error (.valueError "packet has DF set and cannot be fragmented")
    else
      -- `& ~7`
      let maxPayload := (mtu - headerLen) / 8 * 8
      if maxPayload = 0 then .error (.valueError s!"MTU {mtu} leaves no room for payload")
      else .ok (packet.fragmentLoop maxPayload packet.payload.length 0)

/-! ### Reassembly -/

/-- Fragments collected for one key. -/
structure FragmentSet where
  firstSeen : Time
  totalLength : Option Nat := none
  header : Option IPv4Packet := none
  pieces : AList fun _ : Nat => Bytes := ∅

/-- Source, destination, protocol and identification. -/
abbrev FragmentKey := Bytes × Bytes × Nat × Nat

def IPv4Packet.key (p : IPv4Packet) : FragmentKey := (p.src, p.dst, p.protocol, p.identification)

/-- `buffer[start:stop] = data` on a `bytearray`. -/
def sliceAssign (buffer : Bytes) (start stop : Nat) (data : Bytes) : Bytes :=
  buffer.take start ++ data ++ buffer.drop (max (min start buffer.length) stop)

/-- `data[:stop]`, where a negative `stop` counts from the end. -/
def sliceTo (data : Bytes) (stop : Int) : Bytes :=
  if 0 ≤ stop then data.take stop.toNat else data.take (data.length + stop).toNat

/-- The end of what the pieces cover from `cursor` on, unless a hole remains. -/
def coverFrom : List (Nat × Bytes) → Nat → Option Nat
  | [], cursor => some cursor
  | (offset, data) :: rest, cursor =>
    if offset > cursor then none else coverFrom rest (max cursor (offset + data.length))

/-- The loop that fills the buffer. -/
def fill (total : Nat) : List (Nat × Bytes) → Bytes → Bytes
  | [], buffer => buffer
  | (offset, data) :: rest, buffer =>
    let stop := min (offset + data.length) total
    fill total rest (sliceAssign buffer offset stop (sliceTo data ((stop : Int) - offset)))

namespace FragmentSet

variable (entry : FragmentSet)

/-- `sorted(entry.pieces.items())`; the offsets are distinct. -/
def ordered : List (Nat × Bytes) :=
  (entry.pieces.entries.map fun item => (item.1, item.2)).insertionSort (·.1 ≤ ·.1)

def tryComplete : Option IPv4Packet :=
  match entry.totalLength, coverFrom entry.ordered 0, entry.header with
  | some total, some cursor, some head =>
    if entry.pieces.entries = [] ∨ cursor < total then none
    else
      some
        { src := head.src
          dst := head.dst
          protocol := head.protocol
          payload := fill total entry.ordered (List.replicate total 0)
          ttl := head.ttl
          identification := head.identification
          flags := 0
          fragmentOffset := 0
          dscp := head.dscp }
  | _, _, _ => none

/-- The fragment `packet` is recorded. -/
def record (packet : IPv4Packet) : FragmentSet :=
  let offset := packet.fragmentOffset * 8
  { entry with
    pieces := entry.pieces.insert offset packet.payload
    header := entry.header.orElse fun _ => packet
    totalLength := if packet.flags &&& FLAG_MF = 0 then some (offset + packet.payload.length)
      else entry.totalLength }

end FragmentSet

/-- Collects fragments and rebuilds complete datagrams. -/
structure Reassembler where
  sets : AList fun _ : FragmentKey => FragmentSet := ∅
  timeout : Time := 30
  maxPending : Nat := 64
  reassembled : Nat := 0
  dropped : Nat := 0

namespace Reassembler

variable (r : Reassembler)

/-- The keys of the sets that are out of time. -/
def stale (now : Time) : List FragmentKey :=
  (r.sets.entries.filter fun item => now - item.2.firstSeen > r.timeout).map (·.1)

def expire (now : Time) : Reassembler :=
  { r with
    sets := (r.stale now).foldl (fun sets key => sets.erase key) r.sets
    dropped := r.dropped + (r.stale now).length }

/-- Feed in a datagram; the second result is the rebuilt packet when it is complete. -/
def add (packet : IPv4Packet) (now : Time) : Reassembler × Option IPv4Packet :=
  if !packet.isFragmented then (r, some packet)
  else
    let r := r.expire now
    let key := packet.key
    if r.sets.lookup key = none ∧ r.sets.entries.length ≥ r.maxPending then
      ({ r with dropped := r.dropped + 1 }, none)
    else
      let entry := ((r.sets.lookup key).getD { firstSeen := now }).record packet
      match entry.tryComplete with
      | none => ({ r with sets := r.sets.insert key entry }, none)
      | some rebuilt =>
        ({ r with sets := (r.sets.insert key entry).erase key, reassembled := r.reassembled + 1 },
          some rebuilt)

end Reassembler

end MiniTcp
