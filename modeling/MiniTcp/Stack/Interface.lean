import MiniTcp.Net.Arp
import MiniTcp.Net.Ipv4

/-!
# `minitcp/stack.py`: the outbound path and address resolution

`Interface` has the fields of `Stack` that its outbound path and `_handle_arp` use: the link, the addresses,
the ARP cache and the packets parked for an address that is not known yet. A method gives what the call
returned or raised, and the interface after it; what was done before a raise stays done. The clock, which the
source reads inside `ARPCache`, is the argument `now`.

The link takes every frame. `link` has the frames, and `departed` the packets in them with the next hop that
each was sent to, none for a broadcast.
-/

namespace MiniTcp

/-- The counters of `Stack.stats`. -/
structure Stats where
  framesOut : Nat := 0
  framesDropped : Nat := 0
  ipv4In : Nat := 0
  ipv4Out : Nat := 0
  arpRequestsSent : Nat := 0
  arpRepliesSent : Nat := 0
  icmpEchoReplied : Nat := 0
  tcpIn : Nat := 0
  tcpOut : Nat := 0
  udpIn : Nat := 0
  udpOut : Nat := 0
  malformed : Nat := 0
  errors : Nat := 0
  deriving DecidableEq, Repr

namespace Stats

variable (stats : Stats)

def frameOut (ethertype : Nat) : Stats :=
  { stats with
    framesOut := stats.framesOut + 1
    ipv4Out := if ethertype = ETHERTYPE_IPV4 then stats.ipv4Out + 1 else stats.ipv4Out }

def frameDropped : Stats := { stats with framesDropped := stats.framesDropped + 1 }
def arpRequestSent : Stats := { stats with arpRequestsSent := stats.arpRequestsSent + 1 }
def arpReplySent : Stats := { stats with arpRepliesSent := stats.arpRepliesSent + 1 }

end Stats

/-- The part of `Stack` that is about the link. -/
structure Interface where
  mac : Bytes
  ip : Bytes
  netmask : Bytes
  gateway : Option Bytes := none
  maxArpPending : Nat := 32
  arpCache : ARPCache := {}
  arpPending : Dict Bytes (List IPv4Packet) := ∅
  nextId : Nat := 1
  stats : Stats := {}
  /-- Every frame given to the link, oldest first. -/
  link : List Bytes := []
  /-- Next hop and packet of every IPv4 frame given to the link, oldest first. -/
  departed : List (Option Bytes × IPv4Packet) := []

namespace Interface

variable (i : Interface)

/-- Put one frame on the link. -/
def emit (dstMac : Bytes) (ethertype : Nat) (payload : Bytes) : Except PyError Unit × Interface :=
  let frame : EthernetFrame := { dst := dstMac, src := i.mac, ethertype := ethertype, payload := payload }
  let i := { i with stats := i.stats.frameOut ethertype }
  match frame.toBytes with
  | .error e => (.error e, i)
  | .ok data => (.ok (), { i with link := i.link ++ [data] })

/-- `self._emit(mac, ETHERTYPE_IPV4, packet.to_bytes())` -/
def emitPacket (hop : Option Bytes) (mac : Bytes) (packet : IPv4Packet) : Except PyError Unit × Interface :=
  match packet.toBytes with
  | .error e => (.error e, i)
  | .ok data =>
    let (result, i) := i.emit mac ETHERTYPE_IPV4 data
    (result, { i with departed := i.departed ++ [(hop, packet)] })

def sendArpRequest (targetIp : Bytes) : Except PyError Unit × Interface :=
  let request : ARPPacket :=
    { operation := ARP_REQUEST
      senderMac := i.mac
      senderIp := i.ip
      targetMac := List.replicate 6 0
      targetIp := targetIp }
  let i := { i with stats := i.stats.arpRequestSent }
  match request.toBytes with
  | .error e => (.error e, i)
  | .ok data => i.emit BROADCAST_MAC ETHERTYPE_ARP data

/-- The packets that wait for the MAC of `hop`. -/
def parked (hop : Bytes) : List IPv4Packet := (i.arpPending.get? hop).getD []

/-- Keep a packet until the MAC of `ip` is known, and ask for it. -/
def parkPending (ip : Bytes) (packet : IPv4Packet) : Except PyError Unit × Interface :=
  let queue := i.parked ip
  if queue.length ≥ i.maxArpPending then
    (.ok (), { i with arpPending := i.arpPending.set ip queue, stats := i.stats.frameDropped })
  else { i with arpPending := i.arpPending.set ip (queue ++ [packet]) }.sendArpRequest ip

/-- The loop of `_flush_pending`. -/
def emitAll (ip mac : Bytes) : List IPv4Packet → Interface → Except PyError Unit × Interface
  | [], i => (.ok (), i)
  | packet :: queue, i =>
    match i.emitPacket (some ip) mac packet with
    | (.error e, i) => (.error e, i)
    | (.ok (), i) => emitAll ip mac queue i

def flushPending (ip mac : Bytes) : Except PyError Unit × Interface :=
  emitAll ip mac (i.parked ip) { i with arpPending := i.arpPending.erase ip }

/-- On-link destinations go direct; everything else goes via the gateway. -/
def nextHop (dst : Bytes) : Except PyError Bytes := do
  if (← sameSubnet dst i.ip i.netmask) then return dst else return i.gateway.getD dst

/-- The next hop of a packet, none for a broadcast. -/
def hopOf (packet : IPv4Packet) : Except PyError (Option Bytes) :=
  if packet.dst = IP_BROADCAST then .ok none
  else do
    return some (← i.nextHop packet.dst)

/-- Send a datagram, resolving the next hop's MAC if necessary; `false` when the packet had to wait. -/
def sendIpv4 (packet : IPv4Packet) (now : Time) : Except PyError Bool × Interface :=
  match i.hopOf packet with
  | .error e => (.error e, i)
  | .ok none =>
    let (result, i) := i.emitPacket none BROADCAST_MAC packet
    (result.map fun _ => true, i)
  | .ok (some hop) =>
    let (mac, arpCache) := i.arpCache.lookup hop now
    let i := { i with arpCache := arpCache }
    match mac with
    | none =>
      let (result, i) := i.parkPending hop packet
      (result.map fun _ => false, i)
    | some mac =>
      let (result, i) := i.emitPacket (some hop) mac packet
      (result.map fun _ => true, i)

/-- Any ARP traffic teaches where the sender lives; a request for this address is answered, and a reply
releases what waited for it. -/
def handleArp (frame : EthernetFrame) (now : Time) : Except PyError Unit × Interface :=
  match ARPPacket.parse frame.payload with
  | .error e => (.error e, i)
  | .ok packet =>
    let i := { i with arpCache := i.arpCache.store packet.senderIp packet.senderMac now }
    if packet.isRequest && packet.targetIp = i.ip then
      let reply : ARPPacket :=
        { operation := ARP_REPLY
          senderMac := i.mac
          senderIp := i.ip
          targetMac := packet.senderMac
          targetIp := packet.senderIp }
      let i := { i with stats := i.stats.arpReplySent }
      match reply.toBytes with
      | .error e => (.error e, i)
      | .ok data => i.emit packet.senderMac ETHERTYPE_ARP data
    else if packet.isReply then i.flushPending packet.senderIp packet.senderMac
    else (.ok (), i)

/-- The part of `tick` that is about the cache. -/
def expireArp (now : Time) : Interface := { i with arpCache := (i.arpCache.expire now).1 }

/-- `_allocate_id` -/
def allocateId : Nat × Interface :=
  let next := (i.nextId + 1) &&& 0xFFFF
  (i.nextId, { i with nextId := if next = 0 then 1 else next })

end Interface

end MiniTcp
