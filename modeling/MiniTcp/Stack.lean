import MiniTcp.Net.Icmp
import MiniTcp.Net.Udp
import MiniTcp.Net.Tcp.Wire
import MiniTcp.Stack.Interface
import MiniTcp.Stack.Tables

/-!
# `minitcp/stack.py`: demultiplexing, the TCP and UDP calls

`Stack` is the `Interface`, the `Tables` and what else comes in. A method gives what the call returned or
raised, and the stack after it.

A call into a connection runs to its end; then what it handed out is transmitted, and then its callbacks run.
The callbacks touch the tables only and transmitting touches the link only, so this order is that of the source
as long as no transmission raises, and none does (`Sound.call`).

A method that blocks is split where it waits: `tcpConnect` is the first half of `tcp_connect` and
`connectWait` the second, and `tcpAccept` is one look at the queue.
-/

namespace MiniTcp

/-- A complete IPv4/TCP/UDP stack attached to a single link. -/
structure Stack extends Interface, Tables where
  promiscuous : Bool := false
  reassembler : Reassembler := {}
  /-- The handlers of UDP ports, as numbers. -/
  udpHandlers : Dict Nat Nat := ∅
  /-- Every call of a UDP handler: handler, payload, source, source port. -/
  handled : List (Nat × Bytes × Bytes × Nat) := []

namespace Stack

variable (s : Stack)

def malformed : Stack := { s with stats := { s.stats with malformed := s.stats.malformed + 1 } }

def dropped : Stack := { s with stats := s.stats.frameDropped }

/-- What an operation of the interface gave. -/
def onLink {α : Type} (r : Except PyError α × Interface) : Except PyError α × Stack :=
  (r.1, { s with toInterface := r.2 })

/-- What an operation on the tables gave. -/
def onTables {α : Type} (r : Except Raised α × Tables) : Except Raised α × Stack :=
  (r.1, { s with toTables := r.2 })

/-! ### Calls into a connection -/

/-- `send_ipv4` of a datagram of our own. -/
def sendOwn (protocol : Nat) (dst payload : Bytes) (now : Time) : Except PyError Bool × Stack :=
  let (id, i) := s.toInterface.allocateId
  s.onLink (i.sendIpv4
    { src := s.ip, dst := dst, protocol := protocol, payload := payload, ttl := 64, identification := id } now)

/-- The callback every TCP connection uses to put a segment on the wire. -/
def transmitSegment (segment : TCPSegment) (remoteIp : Bytes) (now : Time) : Except PyError Unit × Stack :=
  let s := { s with stats := { s.stats with tcpOut := s.stats.tcpOut + 1 } }
  match segment.toBytes (some s.ip) (some remoteIp) with
  | .error e => (.error e, s)
  | .ok payload =>
    let (result, s) := s.sendOwn PROTO_TCP remoteIp payload now
    (result.map fun _ => (), s)

/-- Transmit what a call handed out, up to one that raises. -/
def transmitAll (remoteIp : Bytes) (now : Time) : List TCPSegment → Stack → Except PyError Unit × Stack
  | [], s => (.ok (), s)
  | segment :: rest, s =>
    match s.transmitSegment segment remoteIp now with
    | (.error e, s) => (.error e, s)
    | (.ok (), s) => transmitAll remoteIp now rest s

/-- One call into a connection. -/
def call (id : ConnId) (e : Event) (now : Time) : Except PyError Unit × Stack :=
  match s.slots[id]? with
  | none => (.ok (), s)
  | some slot =>
    let ep := slot.ep.step e
    let s := { s with toTables := s.modifySlot id fun slot => { slot with ep := slot.ep.step e } }
    match transmitAll ep.conn.cfg.remoteIp now (ep.conn.sent.drop slot.ep.conn.sent.length) s with
    | (.error err, s) => (.error err, s)
    | (.ok (), s) => (.ok (), { s with toTables := s.callbacks id slot e })

/-- A child that a listener has created sends its SYN+ACK and is handed to `on_accept`. -/
def adopt (onAccept : Option Nat) (child : TCPConnection) (now : Time) : Except PyError Unit × Stack :=
  let id := s.slots.length
  let s := { s with toTables := s.add (Tables.childSlot onAccept child) }
  match transmitAll child.cfg.remoteIp now child.sent s with
  | (.error e, s) => (.error e, s)
  | (.ok (), s) =>
    match onAccept with
    | none => (.ok (), s)
    | some port => (.ok (), { s with toTables := s.enqueueAccept s.ip port id child })

/-- `conn.on_segment(segment, packet.src, packet.dst)` -/
def onSegment (id : ConnId) (segment : TCPSegment) (src : Bytes) (draw : SeqNo) (now : Time) :
    Except PyError Unit × Stack :=
  match s.slots[id]? with
  | none => (.ok (), s)
  | some slot =>
    match s.call id (.segment segment (some src) draw now) now with
    | (.error e, s) => (.error e, s)
    | (.ok (), s) =>
      match (slot.ep.conn.onSegment segment (some src) draw now).2 with
      | none => (.ok (), s)
      | some child => s.adopt slot.role.onAccept child now

/-! ### Inbound path -/

/-- `except ValueError`: the frame is counted as malformed. -/
def caught : Except PyError Unit × Stack → Except PyError Unit × Stack
  | (.error (.valueError _), s) => (.ok (), s.malformed)
  | r => r

/-- Answer pings aimed at us. -/
def handleIcmp (packet : IPv4Packet) (now : Time) : Except PyError Unit × Stack :=
  match ICMPMessage.parse packet.payload with
  | .error e => (.error e, s)
  | .ok message =>
    if message.type ≠ ECHO_REQUEST then (.ok (), s)
    else
      match EchoMessage.fromIcmp message with
      | .error e => (.error e, s)
      | .ok echo =>
        let reply := echo.toIcmp ECHO_REPLY
        let s := { s with stats := { s.stats with icmpEchoReplied := s.stats.icmpEchoReplied + 1 } }
        match reply.toBytes with
        | .error e => (.error e, s)
        | .ok payload =>
          let (result, s) := s.sendOwn PROTO_ICMP packet.src payload now
          (result.map fun _ => (), s)

/-- The reset that answers a segment for a port nothing owns. -/
def resetFor (segment : TCPSegment) : TCPSegment :=
  { srcPort := segment.dstPort
    dstPort := segment.srcPort
    seq := if segment.isAck then segment.ack else 0
    ack := if segment.isAck then 0 else seqAdd segment.seq segment.seqLen
    flags := FLAG_RST ||| (if segment.isAck then 0 else FLAG_ACK)
    window := 0 }

def sendReset (packet : IPv4Packet) (segment : TCPSegment) (now : Time) : Except PyError Unit × Stack :=
  if segment.isRst then (.ok (), s)
  else
    match (resetFor segment).toBytes (some s.ip) (some packet.src) with
    | .error e => (.error e, s)
    | .ok payload =>
      let (result, s) := s.sendOwn PROTO_TCP packet.src payload now
      (result.map fun _ => (), s)

/-- The object a segment is for: the connection of the four-tuple, else the listener of the port. -/
def lookup (packet : IPv4Packet) (segment : TCPSegment) : Option ConnId :=
  (s.connections.get? (packet.dst, segment.dstPort, packet.src, segment.srcPort)).orElse fun _ =>
    s.listeners.get? segment.dstPort

def handleTcp (packet : IPv4Packet) (draw : SeqNo) (now : Time) : Except PyError Unit × Stack :=
  match TCPSegment.parse packet.payload (some packet.src) (some packet.dst) with
  | .error e => (.error e, s)
  | .ok segment =>
    let s := { s with stats := { s.stats with tcpIn := s.stats.tcpIn + 1 } }
    match s.lookup packet segment with
    | some id => s.onSegment id segment packet.src draw now
    | none => s.sendReset packet segment now

def handleUdp (packet : IPv4Packet) : Except PyError Unit × Stack :=
  match UDPSegment.parse packet.payload packet.src packet.dst with
  | .error e => (.error e, s)
  | .ok segment =>
    let s := { s with stats := { s.stats with udpIn := s.stats.udpIn + 1 } }
    match s.udpHandlers.get? segment.dstPort with
    | none => (.ok (), s)
    | some handler =>
      (.ok (), { s with handled := s.handled ++ [(handler, segment.payload, packet.src, segment.srcPort)] })

def dispatchIpv4 (packet : IPv4Packet) (draw : SeqNo) (now : Time) : Except PyError Unit × Stack :=
  caught <|
    if packet.protocol = PROTO_ICMP then s.handleIcmp packet now
    else if packet.protocol = PROTO_TCP then s.handleTcp packet draw now
    else if packet.protocol = PROTO_UDP then s.handleUdp packet
    else (.ok (), s)

/-- A fragment is collected; the datagram at hand, if there is one. -/
def reassemble (packet : IPv4Packet) (now : Time) : Option IPv4Packet × Stack :=
  if packet.isFragmented then
    ((s.reassembler.add packet now).2, { s with reassembler := (s.reassembler.add packet now).1 })
  else (some packet, s)

def handleIpv4Frame (frame : EthernetFrame) (draw : SeqNo) (now : Time) : Except PyError Unit × Stack :=
  match IPv4Packet.parse frame.payload with
  | .error e => caught (.error e, s)
  | .ok packet =>
    let s := { s with stats := { s.stats with ipv4In := s.stats.ipv4In + 1 } }
    match s.reassemble packet now with
    | (none, s) => (.ok (), s)
    | (some packet, s) =>
      if packet.dst ≠ s.ip ∧ packet.dst ≠ IP_BROADCAST then (.ok (), s.dropped)
      else s.dispatchIpv4 packet draw now

/-- Process one raw Ethernet frame. -/
def handleFrame (raw : Bytes) (draw : SeqNo) (now : Time) : Except PyError Unit × Stack :=
  caught <|
    match EthernetFrame.parse raw with
    | .error e => (.error e, s)
    | .ok frame =>
      if !s.promiscuous && !frame.acceptedBy s.mac then (.ok (), s.dropped)
      else if frame.ethertype = ETHERTYPE_ARP then s.onLink (s.toInterface.handleArp frame now)
      else if frame.ethertype = ETHERTYPE_IPV4 then s.handleIpv4Frame frame draw now
      else (.ok (), s.dropped)

/-! ### Timers -/

/-- The loop of `tick` over the connections there were at its start. -/
def tickAll (now : Time) : List ConnId → Stack → Stack
  | [], s => s
  | id :: ids, s =>
    match s.call id (.tick now) now with
    | (.error _, s) => tickAll now ids { s with stats := { s.stats with errors := s.stats.errors + 1 } }
    | (.ok (), s) => tickAll now ids s

/-- Advance every connection's timers. -/
def tick (now : Time) : Stack :=
  let s := tickAll now s.connections.values s
  { s with toInterface := s.toInterface.expireArp now }

/-! ### The TCP calls -/

def tcpListen (port : Nat) (backlog : Nat := 16) : Except Raised ConnId × Stack :=
  s.onTables (s.toTables.tcpListen s.ip port backlog)

def tcpAccept (port : Nat) (expired : Bool) : Except Raised (Option ConnId) × Stack :=
  s.onTables (s.toTables.tcpAccept port expired)

/-- `tcp_connect` up to where it waits: the connection is registered and sends its SYN. -/
def tcpConnect (remoteIp : Bytes) (remotePort port : Nat) (draw : SeqNo) (now : Time) :
    Except Raised ConnId × Stack :=
  match s.onTables (s.localPort port) with
  | (.error e, s) => (.error e, s)
  | (.ok port, s) =>
    let id := s.slots.length
    let s := { s with toTables := s.register s.ip port remoteIp remotePort }
    match s.call id (.connect draw now) now with
    | (.error e, s) => (.error (.codec e), s)
    | (.ok (), s) => (.ok id, s)

/-- `tcp_connect` from where it waits for `established`; it goes on waiting unless the time is up. -/
def connectWait (id : ConnId) (expired : Bool) (now : Time) : Except Raised (Option ConnId) × Stack :=
  match s.slots[id]? with
  | none => (.ok none, s)
  | some slot =>
    let remote := s!"{ipToStr slot.ep.conn.cfg.remoteIp}:{slot.ep.conn.cfg.remotePort}"
    if slot.role ≠ .active ∨ slot.phase ≠ .waiting then (.ok none, s)
    else if slot.established then
      if slot.failed && !slot.ep.conn.isEstablished then
        (.error (.connectionRefused s!"connection to {remote} was refused"), { s with toTables := s.refused id })
      else (.ok (some id), { s with toTables := s.connected id })
    else if expired then
      match s.call id (.abort now) now with
      | (.error e, s) => (.error (.codec e), s)
      | (.ok (), s) =>
        (.error (.timeout s!"connection to {remote} timed out"), { s with toTables := s.refused id })
    else (.ok none, s)

/-- `tcp_close`, but for the time it waits. -/
def tcpClose (id : ConnId) (now : Time) : Except PyError Unit × Stack :=
  { s with toTables := s.markShut id }.call id (.close now) now

/-- `socket.close()` of the socket that holds the object: a listening socket only drops it. -/
def closeSocket (id : ConnId) (now : Time) : Except PyError Unit × Stack :=
  if s.isListener id then (.ok (), { s with toTables := s.markShut id }) else s.tcpClose id now

/-! ### The UDP calls -/

def udpBind (port handler : Nat) : Stack := { s with udpHandlers := s.udpHandlers.set port handler }

def udpUnbind (port : Nat) : Stack := { s with udpHandlers := s.udpHandlers.erase port }

/-- Send one datagram. -/
def udpSend (payload remoteIp : Bytes) (remotePort port : Nat) (now : Time) : Except Raised Bool × Stack :=
  match s.onTables (s.localPort port) with
  | (.error e, s) => (.error e, s)
  | (.ok port, s) =>
    let segment : UDPSegment := { srcPort := port, dstPort := remotePort, payload := payload }
    let s := { s with stats := { s.stats with udpOut := s.stats.udpOut + 1 } }
    match segment.toBytes (some s.ip) (some remoteIp) with
    | .error e => (.error (.codec e), s)
    | .ok payload =>
      let (result, s) := s.sendOwn PROTO_UDP remoteIp payload now
      (result.mapError .codec, s)

end Stack

/-! ### Runs -/

/-- A port number. -/
abbrev Port := Fin 65536

instance portNeZero : NeZero 65536 := ⟨by decide⟩

/-- What a peer is reached under. -/
structure Address where
  ip : Bytes
  port : Port
  ip_length : ip.length = 4

/-- The constructor's arguments, with addresses of their length. -/
structure StackConfig where
  mac : Bytes
  ip : Bytes
  netmask : Bytes
  gateway : Option Bytes := none
  promiscuous : Bool := false
  maxArpPending : Nat := 32
  receiveCapacity : Nat := 65535
  mac_length : mac.length = 6
  ip_length : ip.length = 4
  netmask_length : netmask.length = 4
  gateway_length : ∀ hop ∈ gateway, hop.length = 4
  receiveCapacity_pos : 0 < receiveCapacity := by exact defaultWindow_pos

/-- `Stack(...)` -/
def Stack.new (cfg : StackConfig) : Stack where
  mac := cfg.mac
  ip := cfg.ip
  netmask := cfg.netmask
  gateway := cfg.gateway
  maxArpPending := cfg.maxArpPending
  promiscuous := cfg.promiscuous
  receiveCapacity := cfg.receiveCapacity
  receiveCapacity_pos := cfg.receiveCapacity_pos

/-- A frame, a tick, or a call of the application, which names a connection by its index. -/
inductive StackEvent where
  | frame (raw : Bytes) (draw : SeqNo) (now : Time)
  | tick (now : Time)
  | tcpListen (port : Port) (backlog : Nat)
  | tcpAccept (port : Port) (expired : Bool)
  | tcpConnect (remote : Address) (port : Port) (draw : SeqNo) (now : Time)
  | connectWait (id : ConnId) (expired : Bool) (now : Time)
  | send (id : ConnId) (data : Bytes) (now : Time)
  | recv (id : ConnId) (maxBytes : Nat) (now : Time)
  | abort (id : ConnId) (now : Time)
  | tcpClose (id : ConnId) (now : Time)
  | closeSocket (id : ConnId) (now : Time)
  | udpBind (port : Port) (handler : Nat)
  | udpUnbind (port : Port)
  | udpSend (payload : Bytes) (remote : Address) (port : Port) (now : Time)

/-- The stack after an event, whatever the call returned or raised. -/
def Stack.step (s : Stack) : StackEvent → Stack
  | .frame raw draw now => (s.handleFrame raw draw now).2
  | .tick now => s.tick now
  | .tcpListen port backlog => (s.tcpListen port backlog).2
  | .tcpAccept port expired => (s.tcpAccept port expired).2
  | .tcpConnect remote port draw now => (s.tcpConnect remote.ip remote.port port draw now).2
  | .connectWait id expired now => (s.connectWait id expired now).2
  | .send id data now => (s.call id (.send data now) now).2
  | .recv id maxBytes now => (s.call id (.recv maxBytes now) now).2
  | .abort id now => (s.call id (.abort now) now).2
  | .tcpClose id now => (s.tcpClose id now).2
  | .closeSocket id now => (s.closeSocket id now).2
  | .udpBind port handler => s.udpBind port handler
  | .udpUnbind port => s.udpUnbind port
  | .udpSend payload remote port now => (s.udpSend payload remote.ip remote.port port now).2

/-- All runs of one stack. -/
def stack : Machine Stack StackEvent where
  init s := ∃ cfg, s = .new cfg
  next := Stack.step

@[simp] theorem stack_next (s : Stack) (e : StackEvent) : stack.next s e = s.step e := rfl

end MiniTcp
