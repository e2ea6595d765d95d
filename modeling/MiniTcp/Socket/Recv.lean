import MiniTcp.Net.Tcp.PeerStream
import MiniTcp.Net.Tcp.Reset

/-!
# `recv()` of a stream socket

The loop in `socket.recv` takes data from the connection, and when there is none it asks `is_closed` and then
`peer_closed`. Nothing holds the connection still between these steps, so the thread that reads the link can bring
in a segment there. One segment can carry the last bytes and the FIN; then `peer_closed` is true of a connection
that still has bytes to read, and `recv()` returns `b""` all the same. `end_of_stream_iff` says that this is the
only way, as long as the connection itself is not ended too early.
-/

namespace MiniTcp

/-- The steps of the loop in `recv`. -/
inductive RecvStep where
  | take
  | isClosed
  | peerClosed
deriving DecidableEq

/-- A stream socket with its `_conn`, and the step that its `recv` makes next. -/
structure StreamSocket where
  ep : Endpoint
  next : RecvStep := .take

/-- A step of `recv`, or what another thread does with the connection. -/
inductive StreamEvent where
  | take (bufsize : Nat) (now : Time)
  | isClosed
  | peerClosed
  | meanwhile (e : Event)

namespace StreamSocket

/-- What a step does. After `peer_closed` the loop is over, or it waits and starts again. -/
def step (t : StreamSocket) : StreamEvent → StreamSocket
  | .take bufsize now =>
    { ep := t.ep.step (.recv bufsize now)
      next := if (t.ep.conn.recv bufsize now).2 = [] then .isClosed else .take }
  | .isClosed => { t with next := if t.ep.conn.state.isClosed then .take else .peerClosed }
  | .peerClosed => { t with next := .take }
  | .meanwhile e => { t with ep := t.ep.step e }

/-- What `recv` returns at a step, if it returns there. -/
def returns (t : StreamSocket) : StreamEvent → Option Bytes
  | .take bufsize now =>
    if (t.ep.conn.recv bufsize now).2 = [] then none else some (t.ep.conn.recv bufsize now).2
  | .isClosed => if t.ep.conn.state.isClosed then some [] else none
  | .peerClosed => if t.ep.conn.peerClosed then some [] else none
  | .meanwhile _ => none

/-- `connect` or `accept` has just given the socket its connection; an accepted one has seen the SYN `irs`. -/
inductive Started (irs : SeqNo) : StreamSocket → Prop
  | connected (cfg : Config) (draw : SeqNo) (now : Time) :
    Started irs { ep := (Endpoint.new cfg).step (.connect draw now) }
  | accepted (cfg : Config) (seg : TCPSegment) (draw : SeqNo) (now : Time) (hsyn : seg.isSyn = true)
      (hrst : seg.isRst = false) (hseq : seg.seq = irs) :
    Started irs { ep := .passive cfg seg draw now }

end StreamSocket

/-- All runs of a stream socket. -/
def streamSocket : Machine StreamSocket StreamEvent where
  init t := ∃ irs, t.Started irs
  next := StreamSocket.step

@[simp] theorem streamSocket_next (t : StreamSocket) (e : StreamEvent) : streamSocket.next t e = t.step e := rfl

namespace StreamSocket

variable {irs : SeqNo} {s : Bytes} {t : StreamSocket} {e : StreamEvent} {es : List StreamEvent}

/-- `recv` makes its steps in order. Between them come the segments of a peer with the stream `s`, the timers, and
`send` and `close` of other threads. -/
def Allowed (irs : SeqNo) (s : Bytes) (t : StreamSocket) : StreamEvent → Prop
  | .take .. => t.next = .take
  | .isClosed => t.next = .isClosed
  | .peerClosed => t.next = .peerClosed
  | .meanwhile (.segment seg _ _ _) => seg.Honest irs s t.ep.got
  | .meanwhile (.tick _) | .meanwhile (.send ..) | .meanwhile (.close _) => True
  | .meanwhile _ => False

/-- The connection ends only when the peer has closed and everything is read. -/
def EndsRead (t : StreamSocket) : StreamEvent → Prop
  | .meanwhile e => t.ep.EndsRead e
  | _ => True

/-- `recv` says `b""` only when the whole stream has been returned. -/
def Truthful (s : Bytes) (t : StreamSocket) (e : StreamEvent) : Prop := t.returns e = some [] → t.ep.returned = s

/-- When `peer_closed` is asked and true, nothing is left to read. -/
def NothingUnread (t : StreamSocket) : StreamEvent → Prop
  | .peerClosed => t.ep.conn.peerClosed = true → t.ep.conn.recvQueue.available = 0
  | _ => True

/-! ### The receiving side along a run -/

theorem Started.reachable (h : t.Started irs) : endpoint.Reachable t.ep := by
  cases h with
  | connected cfg draw now =>
    exact (Machine.ReachableBy.init endpoint (.inl ⟨cfg, rfl⟩)).step endpoint (.connect draw now) trivial
  | accepted cfg seg draw now hsyn hrst =>
    exact .init endpoint (.inr ⟨cfg, seg, draw, now, hsyn, hrst, rfl⟩)

theorem Started.receives (h : t.Started irs) (s : Bytes) : t.ep.Receives irs s := by
  cases h with
  | connected => exact .waiting rfl rfl rfl
  | accepted cfg seg draw now _ _ hseq =>
    have heq := (TCPConnection.new cfg).beginPassiveOpen_eq seg draw now
    refine .open 0 ?_ ?_ ?_
    · rw [Endpoint.passive, heq]
      exact .inl rfl
    · rw [Endpoint.passive, heq]
      rfl
    · rw [Endpoint.passive, heq, ← hseq]
      exact ReceiveQueue.holds_new seg.seq _ cfg.receiveCapacity

theorem step_receives (hreach : endpoint.Reachable t.ep) (h : t.ep.Receives irs s) (he : Allowed irs s t e)
    (hread : EndsRead t e) : endpoint.Reachable (t.step e).ep ∧ (t.step e).ep.Receives irs s := by
  have hwithin := Endpoint.within_of_reachable hreach
  cases e with
  | take bufsize now => exact ⟨hreach.step endpoint (.recv bufsize now) trivial, h.recv hwithin bufsize now⟩
  | isClosed | peerClosed => exact ⟨hreach, h⟩
  | meanwhile e =>
    refine ⟨hreach.step endpoint e trivial, ?_⟩
    cases e with
    | segment seg srcIp draw now => exact h.segment hwithin he hread
    | tick now => exact h.tick hread
    | send data now => exact h.send data now
    | close now => exact h.close hread
    | listen | connect | recv | abort => exact he.elim

/-- A closed connection has returned the stream; after the FIN what is missing can be read. -/
theorem truthful_iff (h : t.ep.Receives irs s) : Truthful s t e ↔ NothingUnread t e := by
  cases e with
  | take bufsize now =>
    simp only [Truthful, NothingUnread, returns, iff_true]
    split_ifs with hnil
    · nofun
    · exact fun hsome => absurd (Option.some.inj hsome) hnil
  | isClosed =>
    simp only [Truthful, NothingUnread, returns, iff_true]
    intro hends
    have hclosed : t.ep.conn.state = .closed := by
      by_contra hopen
      cases hst : t.ep.conn.state <;> simp_all [TcpState.isClosed]
    cases h with
    | waiting hst => simp [hclosed] at hst
    | «open» _ hopen => exact absurd hopen (TCPConnection.not_opened.mpr (.inl hclosed))
    | finished hpeer => simp [TCPConnection.peerClosed, hclosed] at hpeer
    | closed _ hreturned => exact hreturned
  | peerClosed =>
    have hreports : t.returns .peerClosed = some [] ↔ t.ep.conn.peerClosed = true := by simp [returns]
    refine imp_congr_ctx hreports fun hpeer => ?_
    cases h with
    | waiting hst => simp [TCPConnection.peerClosed, hst] at hpeer
    | «open» _ _ hno => simp [hno] at hpeer
    | finished _ _ _ hstream => rw [← ReceiveQueue.readable_eq_nil_iff, ← hstream, List.self_eq_append_right]
    | closed hst => simp [TCPConnection.peerClosed, hst] at hpeer
  | meanwhile e => simp [Truthful, NothingUnread, returns]

/-- In a run in which the connection ends only after everything is read, `recv` reports the end truthfully exactly
when `peer_closed` is never found true with bytes left to read. -/
theorem end_of_stream_iff (h : t.Started irs) (hes : streamSocket.Meets (Allowed irs s) t es)
    (hread : streamSocket.Meets EndsRead t es) :
    streamSocket.Meets (Truthful s) t es ↔ streamSocket.Meets NothingUnread t es := by
  have hboth := (streamSocket.meets_and t es).mpr ⟨hes, hread⟩
  refine streamSocket.meets_iff_meets (Q := fun t => endpoint.Reachable t.ep ∧ t.ep.Receives irs s) ?_ ?_ hboth
    ⟨h.reachable, h.receives s⟩
  · rintro t e ⟨hreach, hrecv⟩ ⟨he, hends⟩ -
    exact step_receives hreach hrecv he hends
  · rintro t e ⟨-, hrecv⟩ -
    exact truthful_iff hrecv

/-! ### Two bytes and a FIN -/

/-- The socket of a client that has sent its SYN. -/
def client : StreamSocket := { ep := (Endpoint.new (.plain 100)).step (.connect 0 0) }

/-- The last two bytes of the peer, with its FIN. -/
def lastSegment : TCPSegment :=
  { srcPort := 2000, dstPort := 1000, seq := 501, ack := 101, flags := FLAG_ACK ||| FLAG_FIN, window := 1000,
    payload := [7, 8] }

theorem honest_synAck (got : Nat) : Endpoint.synAck.Honest 500 [7, 8] got where
  noRst := by decide
  syn _ := rfl
  piece hsyn := absurd hsyn (by decide)

theorem honest_lastSegment : lastSegment.Honest 500 [7, 8] 0 where
  noRst := by decide
  syn hsyn := absurd hsyn (by decide)
  piece _ _ := ⟨0, by decide, by decide, by decide, by decide, by decide, by decide⟩

theorem endsRead_arrival {seg : TCPSegment} (hrst : seg.isRst = false) (hst : t.ep.conn.state ≠ .lastAck)
    (srcIp : Option Bytes) (draw : SeqNo) (now : Time) : EndsRead t (.meanwhile (.segment seg srcIp draw now)) := by
  rintro - (hreset | hlast)
  · rw [hrst] at hreset
    cases hreset
  · exact absurd hlast.1 hst

/-- `recv` is called when the segment has come in, and then once more. -/
def readingRun : List StreamEvent :=
  [.meanwhile (.segment Endpoint.synAck none 0 0), .meanwhile (.segment lastSegment none 0 0), .take 10 0, .take 10 0,
    .isClosed, .peerClosed]

theorem end_of_stream_reading : streamSocket.Meets (Truthful [7, 8]) client readingRun := by
  have hmeets : streamSocket.Meets (Allowed 500 [7, 8]) client readingRun := by
    refine ⟨honest_synAck _, honest_lastSegment, ?_⟩
    simp only [Machine.Meets, Allowed]
    decide +kernel
  have hread : streamSocket.Meets EndsRead client readingRun :=
    ⟨endsRead_arrival (by decide) (by decide) none 0 0, endsRead_arrival (by decide) (by decide +kernel) none 0 0,
      trivial, trivial, trivial, trivial, trivial⟩
  refine (end_of_stream_iff (.connected _ _ _) hmeets hread).mpr
    ⟨trivial, trivial, trivial, trivial, trivial, fun _ => ?_, trivial⟩
  decide +kernel

/-- The segment comes in between the first two steps of `recv`. -/
def racingRun : List StreamEvent :=
  [.meanwhile (.segment Endpoint.synAck none 0 0), .take 10 0, .meanwhile (.segment lastSegment none 0 0), .isClosed,
    .peerClosed]

/-- Then `recv` returns `b""` while both bytes can be read. -/
theorem recv_races :
    client.Started 500 ∧ streamSocket.Meets (Allowed 500 [7, 8]) client racingRun ∧
      streamSocket.Meets EndsRead client racingRun ∧ ¬ streamSocket.Meets (Truthful [7, 8]) client racingRun ∧
      (streamSocket.run client racingRun).ep.returned = [] ∧
      (streamSocket.run client racingRun).ep.conn.recvQueue.readable = [7, 8] := by
  refine ⟨.connected _ _ _, ⟨honest_synAck _, ?_, honest_lastSegment, ?_⟩,
    ⟨endsRead_arrival (by decide) (by decide) none 0 0, trivial,
      endsRead_arrival (by decide) (by decide +kernel) none 0 0, trivial, trivial, trivial⟩, ?_,
    by decide +kernel, by decide +kernel⟩
  · show StreamSocket.next _ = .take
    decide +kernel
  · simp only [Machine.Meets, Allowed]
    decide +kernel
  · rintro ⟨-, -, -, -, htruthful, -⟩
    exact absurd (htruthful (by decide +kernel)) (by decide +kernel)

end StreamSocket

end MiniTcp
