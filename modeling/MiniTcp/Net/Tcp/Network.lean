import MiniTcp.Net.Tcp.Inbound

/-!
# Two endpoints and the network between them

A client that has called `connect()`, a listener, and the child the listener creates from the client's
SYN. The network may deliver any segment that the other side has ever sent, at any time and as often as
it likes: it loses, delays, reorders and duplicates, but never forges. Once there is a child, it gets
every later segment of the client.
-/

namespace MiniTcp

/-- The two sides of a connection. -/
inductive Side where
  | client | server
  deriving DecidableEq

def Side.other : Side → Side
  | client => server
  | server => client

/-- The client, the listener and the listener's child. -/
structure Network where
  client : Endpoint
  listener : TCPConnection
  child : Option Endpoint

namespace Network

variable (n : Network)

/-- The endpoint of one side, once there is one. -/
def side : Side → Option Endpoint
  | .client => some n.client
  | .server => n.child

/-- Every segment one side has put on the network. -/
def sentBy (s : Side) : List TCPSegment := (n.side s).elim [] (·.conn.sent)

/-- A call at one side. -/
def step : Side × Event → Network
  | (.client, e) => { n with client := n.client.step e }
  | (.server, e) =>
    match n.child, e with
    | some c, e => { n with child := some (c.step e) }
    | none, .segment seg srcIp draw now =>
      let answer := n.listener.onSegment seg srcIp draw now
      { n with listener := answer.1, child := answer.2.map fun c => { conn := c } }
    | none, _ => n

/-- The client has called `connect()`, the listener `listen()`. -/
def Started (n : Network) : Prop :=
  ∃ cfg draw now listener, listener.state = .listen ∧
    n = { client := (Endpoint.new cfg).step (.connect draw now), listener := listener, child := none }

/-- Only what the other side has sent is delivered. -/
def Genuine (n : Network) (a : Side × Event) : Prop :=
  ∀ seg, a.2.inbound = some seg → seg ∈ n.sentBy a.1.other

instance (n : Network) (a : Side × Event) : Decidable (n.Genuine a) :=
  match h : a.2.inbound with
  | none => .isTrue fun seg hseg => by rw [h] at hseg; cases hseg
  | some x =>
    if hx : x ∈ n.sentBy a.1.other then
      .isTrue fun seg hseg => by rw [h] at hseg; exact Option.some.inj hseg ▸ hx
    else .isFalse fun hall => hx (hall x h)

end Network

/-- All runs of a client, a listener and its child. -/
def network : Machine Network (Side × Event) where
  init := Network.Started
  next := Network.step

/-! ### Stream integrity -/

namespace Endpoint

variable {p q : Endpoint} {e : Event} {irs : SeqNo} {s : Bytes} {m r : Nat}

/-- One direction: `q` has taken in a part of what `p` has put on the network. -/
def Flows (p q : Endpoint) : Prop :=
  ∃ m r, Outbound m p ∧ Inbound p.conn.iss (p.accepted.take m) r q

theorem Flows.send (h : Flows p q) (hbasic : p.conn.Basic) (he : e.IsStreaming)
    (hsent : ∀ seg, e.inbound = some seg → seg ∈ q.conn.sent)
    (hlen : (p.step e).accepted.length < 2 ^ 31) : Flows (p.step e) q := by
  obtain ⟨m, r, hout, hin⟩ := h
  have hr : r ≤ m := hin.le.trans (List.length_take_le _ _)
  obtain ⟨m', hm', hout'⟩ := hout.step hbasic he
    (fun seg hseg => (hin.acks seg (hsent seg hseg)).mono hr) hlen
  refine ⟨m', r, hout', ?_⟩
  rw [step_iss he.ne_connect]
  obtain ⟨t, ht⟩ := step_accepted he.ne_connect (p := p)
  refine hin.of_isPrefix ?_
  have hkeep : p.accepted.take m = (p.accepted ++ t).take m := (List.take_append_of_le_length hout.le).symm
  rw [← ht, hkeep]
  exact List.take_prefix_take_left hm'

theorem Flows.receive (h : Flows p q) (hbasic : q.conn.Basic) (he : e.IsStreaming)
    (hsent : ∀ seg, e.inbound = some seg → seg ∈ p.conn.sent)
    (hlen : p.accepted.length < 2 ^ 31) : Flows p (q.step e) := by
  obtain ⟨m, r, hout, hin⟩ := h
  obtain ⟨r', -, hin'⟩ := hin.step hbasic he (fun seg hseg => hout.sent seg (hsent seg hseg))
    ((List.length_take_le' _ _).trans_lt hlen)
  exact ⟨m, r', hout, hin'⟩

/-! ### How the two sides start -/

theorem step_connect (cfg : Config) (draw : SeqNo) (now : Time) :
    ((Endpoint.new cfg).step (.connect draw now)) =
      ⟨{ ((TCPConnection.new cfg).opening draw).tracking ((TCPConnection.new cfg).opening draw).synSegment
            now with
          sendQueue := { SendQueue.new ((TCPConnection.new cfg).chooseIss draw) cfg.sendCapacity with
            nxt := seqAdd ((TCPConnection.new cfg).chooseIss draw) 1 }
          state := .synSent
          synSentAt := some now }, [], []⟩ := by
  cases hconn : (TCPConnection.new cfg).connect draw now with
  | error err => simp [TCPConnection.connect, TCPConnection.new] at hconn
  | ok c =>
    obtain ⟨-, rfl⟩ := TCPConnection.connect_eq hconn
    simp only [Endpoint.step, Endpoint.new, hconn]
    rfl

theorem outbound_connect (cfg : Config) (draw : SeqNo) (now : Time) :
    Outbound 0 ((Endpoint.new cfg).step (.connect draw now)) := by
  rw [step_connect]
  obtain ⟨hsent, hretx⟩ := TCPConnection.tracking_new (c := (TCPConnection.new cfg).opening draw)
    ((TCPConnection.new cfg).opening draw).synSegment now rfl rfl
  have hsyn := TCPSegment.isPiece_syn ((TCPConnection.new cfg).opening draw) []
  exact
    { le := le_rfl
      noFin := rfl
      opening := fun _ => rfl
      aligned := fun hst => by cases hst
      sent := fun x hx => hsent x hx ▸ hsyn
      retx := by
        intro y hy
        obtain ⟨hseq, hflags, hpayload⟩ := hretx y hy
        rw [hseq, hflags, hpayload]
        exact hsyn }

theorem inbound_connect (cfg : Config) (draw : SeqNo) (now : Time) (irs : SeqNo) :
    Inbound irs [] 0 ((Endpoint.new cfg).step (.connect draw now)) := by
  rw [step_connect]
  obtain ⟨hsent, hretx⟩ := TCPConnection.tracking_new (c := (TCPConnection.new cfg).opening draw)
    ((TCPConnection.new cfg).opening draw).synSegment now rfl rfl
  have hno : (FLAG_SYN &&& FLAG_ACK != 0) = false := by decide
  exact
    { le := le_rfl
      noFin := rfl
      waiting := fun _ => ⟨rfl, rfl, rfl, fun x hx => hsent x hx ▸ hno,
        fun y hy => (hretx y hy).2.1 ▸ hno⟩
      idle := fun _ => ⟨rfl, List.prefix_rfl⟩
      holds := fun hopen => (hopen.elim (fun h => by cases h) fun h => by cases h)
      acks := fun x hx => hsent x hx ▸ .of_flags (.inl hno) }

theorem outbound_passive (cfg : Config) (seg : TCPSegment) (draw : SeqNo) (now : Time) :
    Outbound 0 (Endpoint.passive cfg seg draw now) := by
  rw [Endpoint.passive, TCPConnection.beginPassiveOpen_eq]
  obtain ⟨hsent, hretx⟩ := TCPConnection.tracking_new (c := (TCPConnection.new cfg).answering seg draw)
    (((TCPConnection.new cfg).answering seg draw).synAckSegment seg) now rfl rfl
  have hsyn := TCPSegment.isPiece_synAck ((TCPConnection.new cfg).answering seg draw) seg []
  exact
    { le := le_rfl
      noFin := rfl
      opening := fun _ => rfl
      aligned := fun hst => by cases hst
      sent := fun x hx => hsent x hx ▸ hsyn
      retx := by
        intro y hy
        obtain ⟨hseq, hflags, hpayload⟩ := hretx y hy
        rw [hseq, hflags, hpayload]
        exact hsyn }

theorem inbound_passive (cfg : Config) (seg : TCPSegment) (draw : SeqNo) (now : Time) (s : Bytes) :
    Inbound seg.seq s 0 (Endpoint.passive cfg seg draw now) := by
  rw [Endpoint.passive, TCPConnection.beginPassiveOpen_eq]
  obtain ⟨hsent, -⟩ := TCPConnection.tracking_new (c := (TCPConnection.new cfg).answering seg draw)
    (((TCPConnection.new cfg).answering seg draw).synAckSegment seg) now rfl rfl
  exact
    { le := Nat.zero_le _
      noFin := rfl
      waiting := fun hst => by cases hst
      idle := fun hno => absurd (.inl rfl) hno
      holds := fun _ => ReceiveQueue.holds_new seg.seq s cfg.receiveCapacity
      acks := fun x hx => hsent x hx ▸ fun _ _ => ⟨0, le_rfl, rfl⟩ }

end Endpoint

theorem TCPConnection.onSegment_child {l c : TCPConnection} {seg : TCPSegment} {srcIp : Option Bytes}
    {draw : SeqNo} {now : Time} (h : (l.onSegment seg srcIp draw now).2 = some c) :
    seg.isSyn = true ∧ seg.isRst = false ∧
      ∃ cfg, ({ conn := c } : Endpoint) = Endpoint.passive cfg seg draw now := by
  unfold onSegment dispatch at h
  split_ifs at h with hclosed hrst hlisten
  unfold handleSegmentInListen at h
  rw [if_neg hrst] at h
  split_ifs at h with hsyn
  obtain rfl := Option.some.inj h
  exact ⟨by simpa using hsyn, by simpa using hrst, (l.stamp now).childConfig seg srcIp, rfl⟩

namespace Network

open Endpoint TCPConnection

/-- A step of a run in which the applications only read and write, fewer than `2 ^ 31` bytes each. -/
structure Streams (n : Network) (a : Side × Event) : Prop where
  event : a.2.IsStreaming
  genuine : n.Genuine a
  short : ∀ p, (n.step a).side a.1 = some p → p.accepted.length < 2 ^ 31

/-- Both directions are in order; before there is a child, the client has only its SYN out. -/
structure InStep (n : Network) : Prop where
  client : n.client.conn.Basic ∧ n.client.accepted.length < 2 ^ 31
  alone : n.child = none → (∃ m, Outbound m n.client) ∧ ∀ irs, Inbound irs [] 0 n.client
  both : ∀ c, n.child = some c → (c.conn.Basic ∧ c.accepted.length < 2 ^ 31) ∧
    Flows n.client c ∧ Flows c n.client

theorem step_server_of_child {n : Network} {c : Endpoint} (hchild : n.child = some c) (e : Event) :
    n.step (.server, e) = { n with child := some (c.step e) } := by
  simp only [Network.step, hchild]

theorem step_server_segment {n : Network} (hchild : n.child = none) (seg : TCPSegment) (srcIp : Option Bytes)
    (draw : SeqNo) (now : Time) : n.step (.server, .segment seg srcIp draw now) =
      { n with
        listener := (n.listener.onSegment seg srcIp draw now).1
        child := (n.listener.onSegment seg srcIp draw now).2.map fun c => { conn := c } } := by
  simp only [Network.step, hchild]

theorem step_server_of_inbound {n : Network} {e : Event} (hchild : n.child = none) (he : e.inbound = none) :
    n.step (.server, e) = n := by
  cases e with
  | segment seg srcIp draw now => cases he
  | _ => simp only [Network.step, hchild]

theorem InStep.step {n : Network} {a : Side × Event} (h : n.InStep) (ha : n.Streams a) :
    (n.step a).InStep := by
  obtain ⟨s, e⟩ := a
  obtain ⟨he, hgenuine, hshort⟩ := ha
  cases s with
  | client =>
    have hlen : (n.client.step e).accepted.length < 2 ^ 31 := hshort _ rfl
    refine ⟨⟨h.client.1.step e, hlen⟩, fun hnone => ?_, fun c hc => ?_⟩
    · -- nothing has been sent to the client yet
      have hquiet : ∀ seg, e.inbound = some seg → False := by
        intro seg hseg
        have hmem := hgenuine seg hseg
        have hchild : n.child = none := hnone
        simp [Side.other, sentBy, side, hchild] at hmem
      obtain ⟨⟨m, hout⟩, hin⟩ := h.alone hnone
      obtain ⟨m', -, hout'⟩ := hout.step h.client.1 he (fun seg hseg => (hquiet seg hseg).elim) hlen
      refine ⟨⟨m', hout'⟩, fun irs => ?_⟩
      obtain ⟨r', -, hin'⟩ := (hin irs).step h.client.1 he
        (fun seg hseg => (hquiet seg hseg).elim) (by decide)
      obtain rfl : r' = 0 := Nat.le_zero.mp hin'.le
      exact hin'
    · obtain ⟨hbasic, hto, hfrom⟩ := h.both c hc
      have hsent : ∀ seg, e.inbound = some seg → seg ∈ c.conn.sent := by
        intro seg hseg
        have hmem := hgenuine seg hseg
        have hchild : n.child = some c := hc
        simpa [Side.other, sentBy, side, hchild] using hmem
      exact ⟨hbasic, hto.send h.client.1 he hsent hlen, hfrom.receive h.client.1 he hsent hbasic.2⟩
  | server =>
    cases hchild : n.child with
    | some c =>
      obtain ⟨hbasic, hto, hfrom⟩ := h.both c hchild
      have hstep := step_server_of_child hchild e
      rw [hstep] at hshort ⊢
      have hlen : (c.step e).accepted.length < 2 ^ 31 := hshort _ rfl
      have hsent : ∀ seg, e.inbound = some seg → seg ∈ n.client.conn.sent := hgenuine
      refine ⟨h.client, fun hnone => absurd hnone (Option.some_ne_none _), fun c' hc' => ?_⟩
      obtain rfl := Option.some.inj hc'
      exact ⟨⟨hbasic.1.step e, hlen⟩, hto.receive hbasic.1 he hsent h.client.2,
        hfrom.send hbasic.1 he hsent hlen⟩
    | none =>
      cases e with
      | segment seg srcIp draw now =>
        have hstep := step_server_segment hchild seg srcIp draw now
        obtain ⟨⟨m, hout⟩, hin⟩ := h.alone hchild
        rw [hstep]
        refine ⟨h.client, fun _ => ⟨⟨m, hout⟩, hin⟩, fun c' hc' => ?_⟩
        obtain ⟨c, hc, rfl⟩ := Option.map_eq_some_iff.mp hc'
        obtain ⟨hsyn, -, cfg, hpassive⟩ := TCPConnection.onSegment_child hc
        rw [hpassive]
        -- the SYN of the client carries its initial number
        have hiss : seg.seq = n.client.conn.iss := (hout.sent seg (hgenuine seg rfl)).syn hsyn
        refine ⟨⟨basic_passive cfg seg draw now, ?_⟩, ⟨m, 0, hout, ?_⟩, ⟨0, 0, ?_, ?_⟩⟩
        · exact Nat.two_pow_pos 31
        · rw [← hiss]
          exact inbound_passive cfg seg draw now _
        · exact outbound_passive cfg seg draw now
        · exact hin _
      | send | recv | tick =>
        rw [step_server_of_inbound hchild rfl]
        exact h
      | listen | connect | close | abort => cases he

theorem InStep.of_started {n : Network} (h : n.Started) : n.InStep := by
  obtain ⟨cfg, draw, now, listener, -, rfl⟩ := h
  exact
    { client := ⟨(basic_new cfg).step _, by rw [step_connect]; exact Nat.two_pow_pos 31⟩
      alone := fun _ => ⟨⟨0, outbound_connect cfg draw now⟩, inbound_connect cfg draw now⟩
      both := fun c hc => by cases hc }

/-- In every run in which the applications only read and write, what one side has read, followed by what
it can read, is a prefix of what the other side's `send()` accepted. -/
theorem stream_integrity {n : Network} (h : network.ReachableBy Streams n) {c : Endpoint}
    (hc : n.child = some c) :
    c.returned ++ c.conn.recvQueue.readable <+: n.client.accepted ∧
      n.client.returned ++ n.client.conn.recvQueue.readable <+: c.accepted := by
  have hstep : n.InStep := Machine.ReachableBy.induction network (P := InStep)
    (fun _ => InStep.of_started) (fun _ _ _ hn ha => hn.step ha) h
  obtain ⟨-, ⟨m, r, -, hto⟩, ⟨m', r', -, hfrom⟩⟩ := hstep.both c hc
  exact ⟨hto.received.trans ( List.take_prefix _ _), hfrom.received.trans ( List.take_prefix _ _)⟩

/-- A client whose numbers are about to wrap, and a listener. -/
def atWrap : Network where
  client := (Endpoint.new (.plain 0xFFFFFFFE)).step (.connect 0 0)
  listener := { TCPConnection.new (.plain 700) with state := .listen }
  child := none

def wrapSyn : TCPSegment :=
  { srcPort := 1000, dstPort := 2000, seq := 0xFFFFFFFE, ack := 1, flags := FLAG_SYN, window := 65535,
    options := { mss := some 1460, sackPermitted := true } }

def wrapSynAck : TCPSegment :=
  { srcPort := 1000, dstPort := 1000, seq := 700, ack := 0xFFFFFFFF, flags := FLAG_SYN ||| FLAG_ACK,
    window := 65535, options := { mss := some 1460, sackPermitted := true } }

def wrapData : TCPSegment :=
  { srcPort := 1000, dstPort := 2000, seq := 0xFFFFFFFF, ack := 701, flags := FLAG_ACK ||| FLAG_PSH,
    window := 65535, payload := [1, 2, 3] }

/-- The handshake ACK is lost, so the first data segment completes the handshake and its copy brings the
bytes, across the wrap. -/
def wrapRun : List (Side × Event) :=
  [(.server, .segment wrapSyn none 0 0), (.client, .segment wrapSynAck none 0 0),
    (.client, .send [1, 2, 3] 0), (.server, .segment wrapData none 0 0),
    (.server, .segment wrapData none 0 0), (.server, .recv 2 0)]

theorem stream_integrity_wrap : ∃ c, (network.run atWrap wrapRun).child = some c ∧
    c.returned = [1, 2] ∧ c.conn.recvQueue.readable = [3] ∧ c.conn.rcvNxt = 2 ∧
    c.returned ++ c.conn.recvQueue.readable <+: (network.run atWrap wrapRun).client.accepted := by
  have hmeets : network.Meets Streams atWrap wrapRun := by
    refine ⟨⟨trivial, by decide, ?_⟩, ⟨trivial, by decide, ?_⟩, ⟨trivial, by decide, ?_⟩,
      ⟨trivial, by decide, ?_⟩, ⟨trivial, by decide, ?_⟩, ⟨trivial, by decide, ?_⟩, trivial⟩
    all_goals
      rintro p ⟨⟩
      decide
  have hreach : network.ReachableBy Streams (network.run atWrap wrapRun) :=
    (Machine.ReachableBy.init network ⟨_, 0, 0, _, rfl, rfl⟩).run network hmeets
  exact ⟨_, rfl, by decide, by decide, by decide, (stream_integrity hreach rfl).1⟩

end Network

end MiniTcp
