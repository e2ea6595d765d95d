import MiniTcp.Lib.Machine
import MiniTcp.Net.Tcp.Frame

/-!
# A connection and its history

An `Endpoint` is a connection together with what its application has seen of it: the bytes `send()`
has accepted and the bytes `recv()` has returned since the connection was opened. An `Event` is one
call from outside. A call that raises leaves the connection as it was, since the source raises before
it changes anything. `endpoint` is the machine of all runs of one connection, created by its
constructor or handed out by a listener.
-/

namespace MiniTcp

/-- One call into a connection. -/
inductive Event where
  | listen
  | connect (draw : SeqNo) (now : Time)
  | send (data : Bytes) (now : Time)
  | recv (maxBytes : Nat) (now : Time)
  | close (now : Time)
  | abort (now : Time)
  | tick (now : Time)
  | segment (seg : TCPSegment) (srcIp : Option Bytes) (draw : SeqNo) (now : Time)

/-- The segment an event brings in from the network. -/
def Event.inbound : Event → Option TCPSegment
  | .segment seg _ _ _ => some seg
  | _ => none

/-- The events that do not come from the application. -/
def Event.IsEnvironment : Event → Prop
  | .segment .. | .tick _ => True
  | _ => False

/-- A connection, the bytes `send()` accepted and the bytes `recv()` returned. -/
structure Endpoint where
  conn : TCPConnection
  accepted : Bytes := []
  returned : Bytes := []

namespace Endpoint

/-- The same history with another connection state. -/
def put (ep : Endpoint) (c : TCPConnection) : Endpoint := { ep with conn := c }

@[simp] theorem put_conn (ep : Endpoint) (c : TCPConnection) : (ep.put c).conn = c := rfl
@[simp] theorem put_accepted (ep : Endpoint) (c : TCPConnection) :
    (ep.put c).accepted = ep.accepted := rfl
@[simp] theorem put_returned (ep : Endpoint) (c : TCPConnection) :
    (ep.put c).returned = ep.returned := rfl
@[simp] theorem put_put (ep : Endpoint) (c c' : TCPConnection) : (ep.put c).put c' = ep.put c' := rfl
@[simp] theorem put_self (ep : Endpoint) : ep.put ep.conn = ep := rfl

/-- What one call does. -/
def step (ep : Endpoint) : Event → Endpoint
  | .listen =>
    match ep.conn.listen with
    | .ok c => ep.put c
    | .error _ => ep
  | .connect draw now =>
    match ep.conn.connect draw now with
    | .ok c => ⟨c, [], []⟩
    | .error _ => ep
  | .send data now =>
    match ep.conn.send data now with
    | .ok (c, written) => { ep.put c with accepted := ep.accepted ++ data.take written }
    | .error _ => ep
  | .recv maxBytes now =>
    { ep.put (ep.conn.recv maxBytes now).1 with
      returned := ep.returned ++ (ep.conn.recv maxBytes now).2 }
  | .close now => ep.put (ep.conn.close now)
  | .abort now => ep.put (ep.conn.abort now)
  | .tick now => ep.put (ep.conn.onTick now)
  | .segment seg srcIp draw now => ep.put (ep.conn.onSegment seg srcIp draw now).1

/-- A connection as its constructor leaves it. -/
def new (cfg : Config) : Endpoint := { conn := .new cfg }

/-- A connection as a listener hands it out. -/
def passive (cfg : Config) (seg : TCPSegment) (draw : SeqNo) (now : Time) : Endpoint :=
  { conn := (TCPConnection.new cfg).beginPassiveOpen seg draw now }

/-- `ep` is newly created, by the constructor or by a listener answering a SYN. -/
def Created (ep : Endpoint) : Prop :=
  (∃ cfg, ep = new cfg) ∨
    ∃ cfg seg draw now, seg.isSyn = true ∧ seg.isRst = false ∧ ep = passive cfg seg draw now

end Endpoint

/-- All runs of one connection. -/
def endpoint : Machine Endpoint Event where
  init := Endpoint.Created
  next := Endpoint.step

@[simp] theorem endpoint_next (ep : Endpoint) (e : Event) : endpoint.next ep e = ep.step e := rfl

end MiniTcp
