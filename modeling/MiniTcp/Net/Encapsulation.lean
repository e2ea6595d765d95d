import MiniTcp.Net.Ethernet
import MiniTcp.Net.Icmp
import MiniTcp.Net.Udp
import MiniTcp.Net.Ipv4.Wire
import MiniTcp.Net.Tcp.Wire

/-!
# A message in a datagram in a frame

The three layers put together: a transport message that fits is encoded with its checksum, wrapped in a
datagram and in a padded frame, and every layer is decoded again as it was (`encapsulation`). The three
formats know their length in three ways: the frame does not, the datagram has a length field and cuts the
padding off, and of the messages only UDP has a length of its own.
-/

namespace MiniTcp

/-- What a datagram carries. -/
inductive Transport where
  | icmp (message : ICMPMessage)
  | tcp (segment : TCPSegment)
  | udp (segment : UDPSegment)
  deriving DecidableEq

namespace Transport

def protocol : Transport → Nat
  | .icmp _ => PROTO_ICMP
  | .tcp _ => PROTO_TCP
  | .udp _ => PROTO_UDP

/-- The encoding, with the checksum over the pseudo-header where there is one. -/
def toBytes (src dst : Bytes) : Transport → Except PyError Bytes
  | .icmp message => message.toBytes
  | .tcp segment => segment.toBytes (some src) (some dst)
  | .udp segment => segment.toBytes (some src) (some dst)

/-- What the stack reads from a datagram; it looks at three protocols. -/
def parse (packet : IPv4Packet) : Except PyError (Option Transport) :=
  if packet.protocol = PROTO_ICMP then do
    return some (.icmp (← ICMPMessage.parse packet.payload))
  else if packet.protocol = PROTO_TCP then do
    return some (.tcp (← TCPSegment.parse packet.payload (some packet.src) (some packet.dst)))
  else if packet.protocol = PROTO_UDP then do
    return some (.udp (← UDPSegment.parse packet.payload packet.src packet.dst))
  else return none

/-- Every field fits its place on the wire, and the options of a segment are ones `to_bytes` accepts. -/
def InWireRange : Transport → Prop
  | .icmp message => message.type ≤ 0xFF ∧ message.code ≤ 0xFF
  | .tcp segment => segment.InWireRange ∧ ∃ options, segment.options.toBytes = .ok options
  | .udp segment => segment.srcPort ≤ UDPSegment.MAX_PORT ∧ segment.dstPort ≤ UDPSegment.MAX_PORT

/-- The length of the encoding. -/
def size : Transport → Nat
  | .icmp message => ICMPMessage.HEADER_LEN + message.body.length
  | .tcp segment =>
    match segment.options.toBytes with
    | .ok options => TCPSegment.HEADER_LEN + options.length + segment.payload.length
    | .error _ => TCPSegment.HEADER_LEN + segment.payload.length
  | .udp segment => segment.length

/-- The message without what its checksum field says. -/
def checksumAside : Transport → Transport
  | .icmp message => .icmp message
  | .tcp segment => .tcp { segment with checksum := 0 }
  | .udp segment => .udp { segment with checksum := 0 }

variable {t : Transport} {src dst : Bytes}

theorem InWireRange.parse_toBytes (h : t.InWireRange) (hsrc : src.length = 4) (hdst : dst.length = 4)
    (hsize : t.size ≤ 0xFFFF) :
    ∃ body, t.toBytes src dst = .ok body ∧ body.length = t.size ∧
      ∀ p : IPv4Packet, p.src = src → p.dst = dst → p.protocol = t.protocol → p.payload = body →
        ∃ t', parse p = .ok (some t') ∧ t'.checksumAside = t.checksumAside := by
  cases t with
  | icmp message =>
    obtain ⟨data, hbytes, hlength, hparse⟩ := ICMPMessage.parse_toBytes h.1 h.2
    refine ⟨data, hbytes, hlength, ?_⟩
    rintro p - - hprotocol rfl
    refine ⟨.icmp message, ?_, rfl⟩
    change p.protocol = PROTO_ICMP at hprotocol
    rw [parse, if_pos hprotocol, hparse]
    rfl
  | tcp segment =>
    obtain ⟨hrange, options, hoptions⟩ := h
    simp only [size, hoptions] at hsize ⊢
    obtain ⟨data, csum, hbytes, hlength, hparse⟩ := hrange.parse_toBytes hsrc hdst hoptions hsize
    refine ⟨data, hbytes, hlength, ?_⟩
    rintro p rfl rfl hprotocol rfl
    refine ⟨.tcp { segment with checksum := csum }, ?_, rfl⟩
    change p.protocol = PROTO_TCP at hprotocol
    rw [parse, hprotocol, if_neg (by decide), if_pos rfl, hparse]
    rfl
  | udp segment =>
    have hrange : segment.InWireRange := ⟨h.1, h.2, hsize⟩
    obtain ⟨data, csum, hbytes, hlength, hparse⟩ := hrange.parse_toBytes hsrc hdst []
    rw [List.append_nil] at hparse
    refine ⟨data, hbytes, hlength, ?_⟩
    rintro p rfl rfl hprotocol rfl
    refine ⟨.udp { segment with checksum := csum }, ?_, rfl⟩
    change p.protocol = PROTO_UDP at hprotocol
    rw [parse, hprotocol, if_neg (by decide), if_neg (by decide), if_pos rfl, hparse]
    rfl

end Transport

/-- A message that fits a datagram, with its checksum in a datagram with any header in a padded frame: the
frame, the datagram and the message are decoded again as they were, and none of the padding gets into the
payload. The payloads of `p` and `f` are not looked at. -/
theorem encapsulation {t : Transport} {p : IPv4Packet} {f : EthernetFrame} (ht : t.InWireRange)
    (hp : ({ p with payload := [] } : IPv4Packet).InWireRange) (hprotocol : p.protocol = t.protocol)
    (hfits : p.headerLength + t.size ≤ MAX_PACKET) (hdst : f.dst.length = 6) (hsrc : f.src.length = 6)
    (htype : f.ethertype = ETHERTYPE_IPV4) :
    ∃ body datagram data, t.toBytes p.src p.dst = .ok body ∧
      ({ p with payload := body } : IPv4Packet).toBytes = .ok datagram ∧
      ({ f with payload := datagram } : EthernetFrame).toBytes = .ok data ∧
      EthernetFrame.MIN_FRAME_LEN ≤ data.length ∧
      ∃ frame packet t', EthernetFrame.parse data = .ok frame ∧ IPv4Packet.parse frame.payload = .ok packet ∧
        Transport.parse packet = .ok (some t') ∧
        frame.dst = f.dst ∧ frame.src = f.src ∧ frame.ethertype = f.ethertype ∧
        packet = { p with payload := body } ∧ t'.checksumAside = t.checksumAside := by
  rw [MAX_PACKET] at hfits
  obtain ⟨body, hbody, hlength, hmessage⟩ := ht.parse_toBytes hp.src hp.dst (by omega)
  have hrange : ({ p with payload := body } : IPv4Packet).InWireRange :=
    { hp with
      total := by
        change p.headerLength + body.length ≤ MAX_PACKET
        rw [hlength, MAX_PACKET]
        omega }
  obtain ⟨t', hparse, haside⟩ := hmessage { p with payload := body } rfl rfl hprotocol rfl
  obtain ⟨datagram, hdatagram, -, -⟩ := hrange.parse_toBytes []
  have hframe := @EthernetFrame.parse_toBytes { f with payload := datagram } hdst hsrc
    (htype.trans_lt (by decide))
  obtain ⟨data, n, hdata, hmin, hdecoded⟩ := hframe
  refine ⟨body, datagram, data, hbody, hdatagram, hdata, hmin, _, _, t', hdecoded, ?_, hparse, rfl, rfl, rfl, rfl,
    haside⟩
  -- the zeros behind the datagram are cut off by its length field
  obtain ⟨datagram', hdatagram', -, hcut⟩ := hrange.parse_toBytes (List.replicate n 0)
  rw [hdatagram] at hdatagram'
  cases hdatagram'
  exact hcut

/-- A SYN with every option and one byte of payload. -/
def sampleSyn : Transport :=
  .tcp
    { srcPort := 49152
      dstPort := 80
      seq := 0xFFFFFFFF
      flags := FLAG_SYN ||| FLAG_NS
      window := 0xFFFF
      payload := [7]
      options :=
        { mss := some 1460
          windowScale := some 14
          sackPermitted := true
          sackBlocks := [(1, 2)]
          timestamp := some 0xFFFFFFFF
          timestampEcho := some 0 }
      urgentPointer := 1 }

def sampleHeader : IPv4Packet :=
  { src := [10, 0, 0, 1]
    dst := [10, 0, 0, 2]
    protocol := PROTO_TCP
    payload := []
    flags := FLAG_DF }

def sampleFrame : EthernetFrame :=
  { dst := [2, 0, 0, 0, 0, 2]
    src := [2, 0, 0, 0, 0, 1]
    ethertype := ETHERTYPE_IPV4
    payload := [] }

theorem sampleSyn_inWireRange : sampleSyn.InWireRange := by
  refine ⟨⟨by decide, by decide, by decide, by decide, ⟨?_, ?_, rfl, ?_, by decide⟩⟩, _, rfl⟩
  · rintro _ ⟨⟩
    decide
  · rintro _ ⟨⟩
    decide
  · decide

theorem sampleHeader_inWireRange : sampleHeader.InWireRange := by
  constructor <;> decide

theorem encapsulation_syn :
    ∃ body datagram data, sampleSyn.toBytes sampleHeader.src sampleHeader.dst = .ok body ∧
      ({ sampleHeader with payload := body } : IPv4Packet).toBytes = .ok datagram ∧
      ({ sampleFrame with payload := datagram } : EthernetFrame).toBytes = .ok data ∧
      EthernetFrame.MIN_FRAME_LEN ≤ data.length ∧
      ∃ frame packet t', EthernetFrame.parse data = .ok frame ∧ IPv4Packet.parse frame.payload = .ok packet ∧
        Transport.parse packet = .ok (some t') ∧
        frame.dst = sampleFrame.dst ∧ frame.src = sampleFrame.src ∧ frame.ethertype = sampleFrame.ethertype ∧
        packet = { sampleHeader with payload := body } ∧ t'.checksumAside = sampleSyn.checksumAside :=
  encapsulation sampleSyn_inWireRange sampleHeader_inWireRange rfl (by decide) rfl rfl rfl

end MiniTcp
