import MiniTcp.Lib.Dict
import MiniTcp.Net.Ipv4
import MiniTcp.Net.Ipv4.Address
import MiniTcp.Net.Tcp.Endpoint

/-!
# `minitcp/stack.py`: the tables

`Tables` has the fields of `Stack` that are about TCP, and the methods that touch nothing else. The
`TCPConnection` objects are the entries of `slots`, and the dictionaries refer to them by their index, which is
their identity. The callbacks that an object was created with follow from its `Role`.

`called` and the methods behind it are what a call of the stack does to the tables once everything is
transmitted; `Stack.Sound.step` compares the two.
-/

namespace MiniTcp

def FIRST_EPHEMERAL_PORT : Nat := 49152
def LAST_EPHEMERAL_PORT : Nat := 65535

/-- What an operation of the application raises. -/
inductive Raised where
  | stackError (message : String)
  | timeout (message : String)
  | connectionRefused (message : String)
  | codec (e : PyError)
  deriving DecidableEq, Repr

/-- The identity of a `TCPConnection` object. -/
abbrev ConnId := Nat

/-- Local address and port, remote address and port. -/
abbrev ConnKey := Bytes × Nat × Bytes × Nat

def Config.key (cfg : Config) : ConnKey := (cfg.localIp, cfg.localPort, cfg.remoteIp, cfg.remotePort)

/-- Who created a connection: `tcp_listen` with the backlog it was given, `tcp_connect`, or a listener, whose
`on_accept` the child inherits. -/
inductive Role where
  | listener (port backlog : Nat)
  | active
  | accepted (port : Option Nat)
  deriving DecidableEq, Repr

namespace Role

/-- The port `on_accept` enqueues for. -/
def onAccept : Role → Option Nat
  | .listener port _ => some port
  | .active => none
  | .accepted port => port

def isListener : Role → Bool
  | .listener _ _ => true
  | _ => false

end Role

/-- Where a call of `tcp_connect` stands. -/
inductive Phase where
  | waiting | returned | raised
  deriving DecidableEq, Repr

/-- A `TCPConnection` object. The two events and the phase are those of the `tcp_connect` that created it. -/
structure Slot where
  ep : Endpoint
  role : Role
  established : Bool := false
  failed : Bool := false
  phase : Phase := .waiting
  /-- The application has closed it. -/
  shut : Bool := false

/-- The part of `Stack` that is about TCP. -/
structure Tables where
  receiveCapacity : Nat := 65535
  receiveCapacity_pos : 0 < receiveCapacity := by exact defaultWindow_pos
  slots : List Slot := []
  connections : Dict ConnKey ConnId := ∅
  listeners : Dict Nat ConnId := ∅
  acceptQueues : Dict Nat (List ConnId) := ∅
  readEvents : Dict ConnId Bool := ∅
  nextPort : Nat := FIRST_EPHEMERAL_PORT
  /-- Every connection `tcp_accept` has returned, oldest first. -/
  returned : List ConnId := []

namespace Tables

variable (t : Tables) (ip : Bytes)

/-- The arguments the stack gives to every `TCPConnection`. -/
def config (localPort : Nat) (remoteIp : Bytes) (remotePort : Nat) : Config where
  localIp := ip
  localPort := localPort
  remoteIp := remoteIp
  remotePort := remotePort
  receiveCapacity := t.receiveCapacity
  mss_pos := defaultMss_pos
  receiveCapacity_pos := t.receiveCapacity_pos
  sendCapacity_pos := defaultSendCapacity_pos

def modifySlot (id : ConnId) (f : Slot → Slot) : Tables := { t with slots := t.slots.modify id f }

/-- `_forget` -/
def forget (id : ConnId) : Tables :=
  { t with
    readEvents := t.readEvents.erase id
    connections := t.connections.filter fun entry => entry.2 ≠ id }

/-- `_signal_readable` -/
def signalReadable (id : ConnId) : Tables :=
  match t.readEvents.get? id with
  | none => t
  | some _ => { t with readEvents := t.readEvents.set id true }

/-! ### Ports -/

def portInUse (port : Nat) : Bool :=
  t.listeners.contains port || t.connections.keys.any fun key => key.2.1 = port

def advancePort : Tables :=
  { t with
    nextPort := if t.nextPort + 1 > LAST_EPHEMERAL_PORT then FIRST_EPHEMERAL_PORT else t.nextPort + 1 }

/-- The loop of `_allocate_port`. -/
def searchPort : Nat → Tables → Option Nat × Tables
  | 0, t => (none, t)
  | fuel + 1, t =>
    if t.advancePort.portInUse t.nextPort then searchPort fuel t.advancePort
    else (some t.nextPort, t.advancePort)

def allocatePort : Except Raised Nat × Tables :=
  match searchPort (LAST_EPHEMERAL_PORT - FIRST_EPHEMERAL_PORT) t with
  | (none, t) => (.error (.stackError "no ephemeral ports available"), t)
  | (some port, t) => (.ok port, t)

/-- `local_port or self._allocate_port()` -/
def localPort (port : Nat) : Except Raised Nat × Tables :=
  if port = 0 then t.allocatePort else (.ok port, t)

/-! ### Callbacks -/

/-- One callback of a connection. -/
def callback (id : ConnId) (role : Role) (t : Tables) (notice : Notice) : Tables :=
  match role, notice with
  | .listener _ _, .closed => t.forget id
  | .active, .established => t.modifySlot id fun slot => { slot with established := true }
  | .active, .closed => t.modifySlot id fun slot => { slot with established := true, failed := true }
  | .active, .reset => t.modifySlot id fun slot => { slot with failed := true }
  | .accepted _, .data => t.signalReadable id
  | .accepted _, .closed => t.forget id
  | _, _ => t

/-- `_enqueue_accept` -/
def enqueueAccept (port : Nat) (id : ConnId) (child : TCPConnection) : Tables :=
  let t := { t with
    connections := t.connections.set (ip, child.cfg.localPort, child.cfg.remoteIp, child.cfg.remotePort) id
    readEvents := t.readEvents.set id false }
  match t.acceptQueues.get? port with
  | none => t
  | some queue => { t with acceptQueues := t.acceptQueues.set port (queue ++ [id]) }

/-! ### Calls into a connection -/

/-- The callbacks of the call `e` into `slot`. -/
def callbacks (id : ConnId) (slot : Slot) (e : Event) : Tables :=
  ((slot.ep.step e).conn.notices.drop slot.ep.conn.notices.length).foldl (callback id slot.role) t

def called (id : ConnId) (e : Event) : Tables :=
  match t.slots[id]? with
  | none => t
  | some slot => (t.modifySlot id fun slot => { slot with ep := slot.ep.step e }).callbacks id slot e

/-- A new object. -/
def add (slot : Slot) : Tables := { t with slots := t.slots ++ [slot] }

/-- A child that a listener has created. -/
def childSlot (onAccept : Option Nat) (child : TCPConnection) : Slot :=
  { ep := { conn := child }, role := .accepted onAccept }

def adopted (onAccept : Option Nat) (child : TCPConnection) : Tables :=
  match onAccept with
  | none => t.add (childSlot onAccept child)
  | some port => (t.add (childSlot onAccept child)).enqueueAccept ip port t.slots.length child

/-- A segment from `src` for an object. -/
def segment (id : ConnId) (segment : TCPSegment) (src : Bytes) (draw : SeqNo) (now : Time) : Tables :=
  match t.slots[id]? with
  | none => t
  | some slot =>
    let t := t.called id (.segment segment (some src) draw now)
    match (slot.ep.conn.onSegment segment (some src) draw now).2 with
    | none => t
    | some child => t.adopted ip slot.role.onAccept child

def tick (now : Time) : Tables := t.connections.values.foldl (fun t id => t.called id (.tick now)) t

/-! ### The calls of the application -/

/-- A connection that `tcp_listen` has created. -/
def listenerSlot (port backlog : Nat) : Slot :=
  { ep := (Endpoint.new (t.config ip port IP_ANY 0)).step .listen, role := .listener port backlog }

/-- A connection that `tcp_connect` has created. -/
def activeSlot (localPort : Nat) (remoteIp : Bytes) (remotePort : Nat) : Slot :=
  { ep := .new (t.config ip localPort remoteIp remotePort), role := .active }

/-- Register a listening socket on `port`. -/
def tcpListen (port : Nat) (backlog : Nat := 16) : Except Raised ConnId × Tables :=
  if t.listeners.contains port then
    (.error (.stackError s!"port {port} is already listening"), t)
  else
    (.ok t.slots.length, { t.add (t.listenerSlot ip port backlog) with
      listeners := t.listeners.set port t.slots.length
      acceptQueues := t.acceptQueues.set port [] })

/-- One look of `tcp_accept` at the queue of `port`; it goes on waiting unless the time is up. -/
def tcpAccept (port : Nat) (expired : Bool) : Except Raised (Option ConnId) × Tables :=
  match t.acceptQueues.get? port with
  | none => (.error (.stackError s!"port {port} is not listening"), t)
  | some [] =>
    (if expired then .error (.timeout s!"no connection arrived on port {port}") else .ok none, t)
  | some (id :: queue) =>
    (.ok (some id), { t with
      acceptQueues := t.acceptQueues.set port queue
      returned := t.returned ++ [id] })

/-- A connection that `tcp_connect` is about to open. -/
def register (localPort : Nat) (remoteIp : Bytes) (remotePort : Nat) : Tables :=
  { t.add (t.activeSlot ip localPort remoteIp remotePort) with
    connections := t.connections.set (ip, localPort, remoteIp, remotePort) t.slots.length
    readEvents := t.readEvents.set t.slots.length false }

def tcpConnect (remoteIp : Bytes) (remotePort port : Nat) (draw : SeqNo) (now : Time) : Tables :=
  match t.localPort port with
  | (.error _, t) => t
  | (.ok port, t) => (t.register ip port remoteIp remotePort).called t.slots.length (.connect draw now)

/-- `tcp_connect` returns. -/
def connected (id : ConnId) : Tables := t.modifySlot id fun slot => { slot with phase := .returned }

/-- `tcp_connect` raises. -/
def refused (id : ConnId) : Tables :=
  (t.forget id).modifySlot id fun slot => { slot with phase := .raised }

/-- `tcp_connect` from where it waits for `established`; it goes on waiting unless the time is up. -/
def connectWait (id : ConnId) (expired : Bool) (now : Time) : Tables :=
  match t.slots[id]? with
  | none => t
  | some slot =>
    if slot.role ≠ .active ∨ slot.phase ≠ .waiting then t
    else if slot.established then
      if slot.failed && !slot.ep.conn.isEstablished then t.refused id else t.connected id
    else if expired then (t.called id (.abort now)).refused id
    else t

/-- The application lets go of an object. -/
def markShut (id : ConnId) : Tables := t.modifySlot id fun slot => { slot with shut := true }

def tcpClose (id : ConnId) (now : Time) : Tables := (t.markShut id).called id (.close now)

def isListener (id : ConnId) : Bool := t.slots[id]?.any fun slot => slot.role.isListener

def closeSocket (id : ConnId) (now : Time) : Tables :=
  if t.isListener id then t.markShut id else t.tcpClose id now

end Tables

/-- What happens to the tables. -/
inductive TableEvent where
  | quiet
  | allocate (port : Nat)
  | segment (id : ConnId) (segment : TCPSegment) (src : Bytes) (draw : SeqNo) (now : Time)
  | tick (now : Time)
  | tcpListen (port backlog : Nat)
  | tcpAccept (port : Nat) (expired : Bool)
  | tcpConnect (remoteIp : Bytes) (remotePort port : Nat) (draw : SeqNo) (now : Time)
  | connectWait (id : ConnId) (expired : Bool) (now : Time)
  | send (id : ConnId) (data : Bytes) (now : Time)
  | recv (id : ConnId) (maxBytes : Nat) (now : Time)
  | abort (id : ConnId) (now : Time)
  | tcpClose (id : ConnId) (now : Time)
  | closeSocket (id : ConnId) (now : Time)

/-- The tables of a stack with address `ip` after an event. -/
def Tables.step (ip : Bytes) (t : Tables) : TableEvent → Tables
  | .quiet => t
  | .allocate port => (t.localPort port).2
  | .segment id segment src draw now => t.segment ip id segment src draw now
  | .tick now => t.tick now
  | .tcpListen port backlog => (t.tcpListen ip port backlog).2
  | .tcpAccept port expired => (t.tcpAccept port expired).2
  | .tcpConnect remoteIp remotePort port draw now => t.tcpConnect ip remoteIp remotePort port draw now
  | .connectWait id expired now => t.connectWait id expired now
  | .send id data now => t.called id (.send data now)
  | .recv id maxBytes now => t.called id (.recv maxBytes now)
  | .abort id now => t.called id (.abort now)
  | .tcpClose id now => t.tcpClose id now
  | .closeSocket id now => t.closeSocket id now

end MiniTcp
