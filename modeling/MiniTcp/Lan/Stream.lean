import MiniTcp.Lan.Authentic
import MiniTcp.Net.Tcp.Corruption
import MiniTcp.Net.Tcp.Network

/-!
# Streams across a network

What reaches a connection with the addresses and ports of a peer was sent by a connection of this peer with the same
addresses and ports the other way round, or is a bare reset of the peer's stack (`Good.arrival`). So two connections
that fit each other are in order, in both directions (`Linked`): whatever the wire loses, delays, reorders or
duplicates, and whatever else the stacks do meanwhile, what one application reads is a prefix of what the other one
has written (`streams_intact`).
-/

namespace MiniTcp

/-- Remote address and port, local address and port. -/
def mirrored (key : ConnKey) : ConnKey := (key.2.2.1, key.2.2.2, key.1, key.2.1)

/-! ### Segments on the wire -/

theorem TCPOptions.inWireRange_empty : ({} : TCPOptions).InWireRange := ⟨nofun, nofun, rfl, nofun, Nat.zero_le _⟩

namespace TCPSegment

theorem parse_of_toBytes {seg : TCPSegment} {src dst data : Bytes} (hoptions : seg.options.InWireRange)
    (hsrc : src.length = 4) (hdst : dst.length = 4) (h : seg.toBytes (some src) (some dst) = .ok data) :
    ∃ csum, parse data (some src) (some dst) = .ok { seg with checksum := csum } := by
  obtain ⟨area, csum, hencodes, rfl⟩ := encodes_of_toBytes h
  have hrange : seg.InWireRange :=
    ⟨hencodes.srcPort, hencodes.dstPort, hencodes.window, hencodes.urgentPointer, hoptions⟩
  obtain ⟨data, csum', hdata, -, hparse⟩ := hrange.parse_toBytes hsrc hdst hencodes.options hencodes.length_le
  obtain rfl := Except.ok.inj (h.symm.trans hdata)
  exact ⟨csum', hparse⟩

/-- A reset and nothing else. -/
structure OnlyResets (seg : TCPSegment) : Prop where
  rst : seg.isRst = true
  noSyn : seg.isSyn = false
  noFin : seg.isFin = false
  payload : seg.payload = []

theorem onlyResets_resetFor (seg : TCPSegment) (csum : Nat) :
    ({ Stack.resetFor seg with checksum := csum } : TCPSegment).OnlyResets := by
  cases hack : seg.isAck with
  | true =>
    have hflags : (Stack.resetFor seg).flags = FLAG_RST ||| 0 := by
      rw [Stack.resetFor, hack]
      rfl
    constructor <;> simp only [isRst, isSyn, isFin, hflags] <;> rfl
  | false =>
    have hflags : (Stack.resetFor seg).flags = FLAG_RST ||| FLAG_ACK := by
      rw [Stack.resetFor, hack]
      rfl
    constructor <;> simp only [isRst, isSyn, isFin, hflags] <;> rfl

end TCPSegment

/-! ### Two endpoints -/

namespace Endpoint

variable {p q : Endpoint} {seg : TCPSegment} {es : List Event} {irs : SeqNo} {s : Bytes} {r : Nat}

/-- The segment is one that `q` has sent. -/
def Sends (q : Endpoint) (seg : TCPSegment) : Prop := ∃ x ∈ q.conn.sent, ∃ csum, seg = { x with checksum := csum }

/-- The segment is one that `q` has sent, or only resets. -/
def Stems (q : Endpoint) (seg : TCPSegment) : Prop := q.Sends seg ∨ seg.OnlyResets

theorem acks_of_onlyResets (h : seg.OnlyResets) : Acks irs r seg := .of_flags (.inr h.rst)

theorem isPiece_of_onlyResets (h : seg.OnlyResets) : seg.IsPiece irs s := by
  rw [TCPSegment.IsPiece, h.payload]
  exact .bare h.noFin h.noSyn

theorem Stems.acks (h : q.Stems seg) (hacks : ∀ x ∈ q.conn.sent, Acks irs r x) : Acks irs r seg := by
  rcases h with ⟨x, hx, csum, rfl⟩ | hreset
  · exact hacks x hx
  · exact acks_of_onlyResets hreset

theorem Stems.isPiece (h : q.Stems seg) (hpieces : ∀ x ∈ q.conn.sent, x.IsPiece irs s) : seg.IsPiece irs s := by
  rcases h with ⟨x, hx, csum, rfl⟩ | hreset
  · exact hpieces x hx
  · exact isPiece_of_onlyResets hreset

/-- The calls of an application that reads and writes, with segments that stem from `q`. -/
def Fed (q : Endpoint) (es : List Event) : Prop :=
  ∀ e ∈ es, e.IsStreaming ∧ ∀ seg, e.inbound = some seg → q.Stems seg

theorem accepted_run (h : ∀ e ∈ es, ∀ draw now, e ≠ .connect draw now) (p : Endpoint) :
    p.accepted <+: (endpoint.run p es).accepted := by
  induction es generalizing p with
  | nil => exact List.prefix_refl _
  | cons e es ih =>
    obtain ⟨hfirst, hrest⟩ := List.forall_mem_cons.mp h
    exact (step_accepted hfirst).trans (ih hrest _)

theorem Flows.send_run (h : Flows p q) (hbasic : p.conn.Basic) (hes : q.Fed es)
    (hlen : (endpoint.run p es).accepted.length < 2 ^ 31) : Flows (endpoint.run p es) q := by
  induction es generalizing p with
  | nil => exact h
  | cons e es ih =>
    obtain ⟨⟨he, hstems⟩, hrest⟩ := List.forall_mem_cons.mp hes
    have hshort : (p.step e).accepted.length < 2 ^ 31 :=
      (accepted_run (fun e' he' => (hrest e' he').1.ne_connect) (p.step e)).length_le.trans_lt hlen
    refine ih ?_ (hbasic.step e) hrest hlen
    obtain ⟨m, r, hout, hin⟩ := h
    have hr : r ≤ m := hin.le.trans (List.length_take_le _ _)
    obtain ⟨m', hm', hout'⟩ := hout.step hbasic he
      (fun seg hseg => ((hstems seg hseg).acks hin.acks).mono hr) hshort
    refine ⟨m', r, hout', ?_⟩
    change Inbound (p.step e).conn.iss ((p.step e).accepted.take m') r q
    rw [step_iss he.ne_connect]
    refine hin.of_isPrefix ?_
    obtain ⟨t, ht⟩ := step_accepted he.ne_connect (p := p)
    have hkeep : p.accepted.take m = (p.accepted ++ t).take m := (List.take_append_of_le_length hout.le).symm
    rw [← ht, hkeep]
    exact List.take_prefix_take_left hm'

theorem Flows.receive_run (h : Flows p q) (hbasic : q.conn.Basic) (hes : p.Fed es)
    (hlen : p.accepted.length < 2 ^ 31) : Flows p (endpoint.run q es) := by
  induction es generalizing q with
  | nil => exact h
  | cons e es ih =>
    obtain ⟨⟨he, hstems⟩, hrest⟩ := List.forall_mem_cons.mp hes
    refine ih ?_ (hbasic.step e) hrest
    obtain ⟨m, r, hout, hin⟩ := h
    obtain ⟨r', -, hin'⟩ := hin.step hbasic he (fun seg hseg => (hstems seg hseg).isPiece hout.sent)
      ((List.length_take_le' _ _).trans_lt hlen)
    exact ⟨m, r', hout, hin'⟩

/-- Nothing has come in but resets. -/
def Lonely (p : Endpoint) : Prop := (∃ m, Outbound m p) ∧ ∀ irs, Inbound irs [] 0 p

theorem Lonely.run (h : p.Lonely) (hbasic : p.conn.Basic)
    (hes : ∀ e ∈ es, e.IsStreaming ∧ ∀ seg, e.inbound = some seg → seg.OnlyResets)
    (hlen : (endpoint.run p es).accepted.length < 2 ^ 31) : (endpoint.run p es).Lonely := by
  induction es generalizing p with
  | nil => exact h
  | cons e es ih =>
    obtain ⟨⟨he, honly⟩, hrest⟩ := List.forall_mem_cons.mp hes
    have hshort : (p.step e).accepted.length < 2 ^ 31 :=
      (accepted_run (fun e' he' => (hrest e' he').1.ne_connect) (p.step e)).length_le.trans_lt hlen
    refine ih ?_ (hbasic.step e) hrest hlen
    obtain ⟨⟨m, hout⟩, hin⟩ := h
    obtain ⟨m', -, hout'⟩ := hout.step hbasic he (fun seg hseg => acks_of_onlyResets (honly seg hseg)) hshort
    refine ⟨⟨m', hout'⟩, fun irs => ?_⟩
    obtain ⟨r', -, hin'⟩ := (hin irs).step hbasic he (fun seg hseg => isPiece_of_onlyResets (honly seg hseg))
      (by decide)
    obtain rfl : r' = 0 := Nat.le_zero.mp hin'.le
    exact hin'

theorem lonely_connect (cfg : Config) (draw : SeqNo) (now : Time) :
    ((Endpoint.new cfg).step (.connect draw now)).Lonely :=
  ⟨⟨0, outbound_connect cfg draw now⟩, inbound_connect cfg draw now⟩

theorem Lonely.flows_new (h : q.Lonely) (hout : Outbound 0 p) (hin : ∀ m, Outbound m q →
    Inbound q.conn.iss (q.accepted.take m) 0 p) : Flows p q ∧ Flows q p := by
  obtain ⟨⟨m, houtq⟩, hinq⟩ := h
  exact ⟨⟨0, 0, hout, hinq _⟩, m, 0, houtq, hin m houtq⟩

end Endpoint

/-! ### The connection of a stack with a key -/

namespace TableEvent

variable {i : ConnId} {e : TableEvent} {call : Event}

/-- A call of the application that can close or abort the object. -/
def Closes (i : ConnId) : TableEvent → Prop
  | .connectWait id expired _ => i = id ∧ expired = true
  | .abort id _ | .tcpClose id _ | .closeSocket id _ => i = id
  | _ => False

theorem ne_connect_of_calls (h : e.Calls i call) (draw : SeqNo) (now : Time) : call ≠ .connect draw now := by
  rintro rfl
  cases e <;> first | exact h.elim | cases h.2 | cases h

theorem streaming_of_calls (h : e.Calls i call) (hopen : ¬ e.Closes i) : call.IsStreaming := by
  cases e with
  | segment | send | recv =>
    obtain ⟨-, rfl⟩ := h
    trivial
  | tick now =>
    obtain rfl := h
    trivial
  | connectWait => exact absurd h.1 hopen
  | abort | tcpClose | closeSocket => exact absurd h.1 hopen
  | quiet | allocate | tcpListen | tcpAccept | tcpConnect => exact h.elim

end TableEvent

namespace Tables

variable {t u : Tables} {i : ConnId} {e : TableEvent}

/-- Listeners have no peer. -/
def ListenersOpen (t : Tables) : Prop :=
  ∀ slot ∈ t.slots, slot.role.isListener = true → slot.ep.conn.cfg.remoteIp = IP_ANY

theorem remoteIp_listenerSlot (t : Tables) (ip : Bytes) (port backlog : Nat) :
    (t.listenerSlot ip port backlog).ep.conn.cfg.remoteIp = IP_ANY :=
  congrArg (·.remoteIp) (TCPConnection.outputs_step (Endpoint.new (t.config ip port IP_ANY 0)) .listen).cfg

theorem Follows.cases {ip : Bytes} (h : Follows ip t u e) {slot' : Slot} (hslot' : u.slots[i]? = some slot') :
    (∃ slot es, t.slots[i]? = some slot ∧ slot'.role = slot.role ∧ slot'.ep = endpoint.run slot.ep es ∧
      ∀ call ∈ es, e.Calls i call) ∨ i = t.slots.length ∧ Born ip t e slot' := by
  rcases h.born i slot' hslot' with hold | hnew
  · obtain ⟨found, es, hfound, hrole, hep, hes⟩ := h.moves i _ (List.getElem?_eq_getElem hold)
    obtain rfl := Option.some.inj (hslot'.symm.trans hfound)
    exact .inl ⟨_, es, List.getElem?_eq_getElem hold, hrole, hep, hes⟩
  · exact .inr hnew

theorem ListenersOpen.follows {ip : Bytes} (h : t.ListenersOpen) (hfollows : Follows ip t u e) : u.ListenersOpen := by
  intro slot' hmem hlistener
  obtain ⟨i, hi⟩ := List.mem_iff_getElem?.mp hmem
  rcases hfollows.cases hi with ⟨slot, es, hslot, hrole, hep, -⟩ | ⟨-, hborn⟩
  · rw [hep, cfg_run]
    exact h slot (List.mem_of_getElem? hslot) (hrole ▸ hlistener)
  · cases hborn with
    | listener port backlog => exact remoteIp_listenerSlot t ip port backlog
    | active _ _ _ _ _ _ hrole _ =>
      rw [hrole] at hlistener
      cases hlistener
    | child => cases hlistener

end Tables

namespace Stack

variable {s s' : Stack} {e : StackEvent} {key : ConnKey} {i j : ConnId} {p p' : Endpoint}

theorem listenersOpen (h : stack.Reachable s) : s.toTables.ListenersOpen := by
  refine Machine.ReachableBy.induction stack (P := fun s => s.toTables.ListenersOpen) (fun s hs => ?_)
    (fun s e hreach hs _ => hs.follows ((sound hreach).follows e)) h
  obtain ⟨cfg, rfl⟩ := hs
  exact fun slot hmem => absurd hmem List.not_mem_nil

/-- The object `i` is a connection with this key, as it stands. -/
def Holds (s : Stack) (key : ConnKey) (i : ConnId) (p : Endpoint) : Prop :=
  ∃ slot, s.slots[i]? = some slot ∧ slot.ep = p ∧ p.conn.cfg.key = key

/-- The connection with this key was opened once and has taken fewer than `2 ^ 31` bytes, and nothing was opened to
the broadcast address. -/
structure Tame (s : Stack) (key : ConnKey) : Prop where
  once : ∀ {i j p q}, s.Holds key i p → s.Holds key j q → i = j
  short : ∀ {i p}, s.Holds key i p → p.accepted.length < 2 ^ 31
  directed : ∀ slot ∈ s.slots, slot.ep.conn.cfg.remoteIp ≠ IP_BROADCAST

/-- The connection with this key is neither closed nor aborted by the application. -/
def Spares (s : Stack) (key : ConnKey) (e : StackEvent) : Prop := ∀ i p, s.Holds key i p → ¬ (s.view e).Closes i

theorem spares_frame (s : Stack) (key : ConnKey) (raw : Bytes) (draw : SeqNo) (now : Time) :
    s.Spares key (.frame raw draw now) := by
  intro i p _
  change ¬ (s.arrival raw draw now).Closes i
  unfold arrival
  cases s.datagram raw now with
  | none => exact id
  | some packet =>
    dsimp only
    unfold delivery
    split_ifs
    · split
      · exact id
      · split <;> exact id
    · exact id

/-- A datagram with a segment comes in. -/
def Receives (s : Stack) (e : StackEvent) (packet : IPv4Packet) (seg : TCPSegment) : Prop :=
  ∃ raw draw now, e = .frame raw draw now ∧ s.datagram raw now = some packet ∧ packet.protocol = PROTO_TCP ∧
    TCPSegment.parse packet.payload (some packet.src) (some packet.dst) = .ok seg

theorem tame_of_nodup (hkeys : (s.slots.map fun slot => slot.ep.conn.cfg.key).Nodup)
    (hslots : ∀ slot ∈ s.slots, slot.ep.accepted.length < 2 ^ 31 ∧ slot.ep.conn.cfg.remoteIp ≠ IP_BROADCAST)
    (key : ConnKey) : s.Tame key := by
  refine ⟨?_, ?_, fun slot hmem => (hslots slot hmem).2⟩
  · rintro i j p q ⟨slot, hslot, rfl, hkey⟩ ⟨slot', hslot', rfl, hkey'⟩
    obtain ⟨hi, -⟩ := List.getElem?_eq_some_iff.mp hslot
    refine (List.getElem?_inj (by rwa [List.length_map]) hkeys).mp ?_
    rw [List.getElem?_map, List.getElem?_map, hslot, hslot', Option.map_some, Option.map_some, hkey, hkey']
  · rintro i p ⟨slot, hslot, rfl, -⟩
    exact (hslots slot (List.mem_of_getElem? hslot)).1

theorem Tame.eq (h : s.Tame key) {q : Endpoint} (hp : s.Holds key i p) (hq : s.Holds key j q) : p = q := by
  obtain rfl := h.once hp hq
  obtain ⟨slot, hslot, rfl, -⟩ := hp
  obtain ⟨slot', hslot', rfl, -⟩ := hq
  rw [Option.some.inj (hslot.symm.trans hslot')]

theorem Holds.basic (hp : s.Holds key i p) (h : stack.Reachable s) : p.conn.Basic := by
  obtain ⟨slot, hslot, rfl, -⟩ := hp
  exact TCPConnection.basic_of_reachable (reachable_slot h slot (List.mem_of_getElem? hslot))

theorem Holds.step (h : stack.Reachable s) (hp : s.Holds key i p) (e : StackEvent) :
    ∃ es, (s.step e).Holds key i (endpoint.run p es) ∧ ∀ call ∈ es, (s.view e).Calls i call := by
  obtain ⟨slot, hslot, rfl, hkey⟩ := hp
  obtain ⟨slot', es, hslot', -, hep, hes⟩ := ((sound h).follows e).moves i slot hslot
  refine ⟨es, ⟨slot', hslot', hep, ?_⟩, hes⟩
  rw [Tables.cfg_run]
  exact hkey

theorem Tame.of_step (h : stack.Reachable s) (htame : (s.step e).Tame key) : s.Tame key := by
  refine ⟨fun hp hq => ?_, fun hp => ?_, fun slot hmem => ?_⟩
  · obtain ⟨es, hp', -⟩ := hp.step h e
    obtain ⟨es', hq', -⟩ := hq.step h e
    exact htame.once hp' hq'
  · obtain ⟨es, hp', hes⟩ := hp.step h e
    have hconnect := fun call hcall => TableEvent.ne_connect_of_calls (hes call hcall)
    exact (Endpoint.accepted_run hconnect _).length_le.trans_lt (htame.short hp')
  · obtain ⟨i, hi⟩ := List.mem_iff_getElem?.mp hmem
    obtain ⟨slot', es, hslot', -, hep, -⟩ := ((sound h).follows e).moves i slot hi
    have hdirected := htame.directed slot' (List.mem_of_getElem? hslot')
    rw [hep, Tables.cfg_run] at hdirected
    exact hdirected

/-- A connection that an event has opened: by `tcp_connect`, or by a listener for a SYN. -/
inductive Opened (s : Stack) (key : ConnKey) (e : StackEvent) (p : Endpoint) : Prop
  | active (cfg : Config) (draw : SeqNo) (now : Time) (hp : p = (Endpoint.new cfg).step (.connect draw now))
  | passive (packet : IPv4Packet) (seg : TCPSegment) (cfg : Config) (draw : SeqNo) (now : Time)
      (hreceives : s.Receives e packet seg) (hsyn : seg.isSyn = true)
      (hkey : key.2 = (seg.dstPort, packet.src, seg.srcPort)) (hp : p = Endpoint.passive cfg seg draw now)

theorem receives_of_calls {seg : TCPSegment} {src : Option Bytes} {draw : SeqNo} {now : Time}
    (h : (s.view e).Calls i (.segment seg src draw now)) :
    ∃ packet, s.Receives e packet seg ∧ src = some packet.src ∧ s.lookup packet seg = some i := by
  obtain ⟨raw, packet, rfl, hdatagram, hprotocol, hparse, hsrc, hlookup⟩ := segment_of_calls h
  exact ⟨packet, ⟨raw, draw, now, rfl, hdatagram, hprotocol, hparse⟩, hsrc, hlookup⟩

/-- A child is opened for a SYN that comes in, between the addresses and ports of this segment. -/
theorem adopts (h : stack.Reachable s) {seg : TCPSegment} {src : Bytes} {draw : SeqNo} {now : Time} {parent : Slot}
    {child : TCPConnection} (hview : s.view e = .segment i seg src draw now) (hparent : s.slots[i]? = some parent)
    (hchild : (parent.ep.conn.onSegment seg (some src) draw now).2 = some child) :
    ∃ packet cfg, s.Receives e packet seg ∧ seg.isSyn = true ∧
      child = (TCPConnection.new cfg).beginPassiveOpen seg draw now ∧
      cfg.key = (s.ip, seg.dstPort, packet.src, seg.srcPort) := by
  have hcall : (s.view e).Calls i (.segment seg (some src) draw now) := by
    rw [hview]
    exact ⟨rfl, rfl⟩
  obtain ⟨packet, hreceives, hsrc, hlookup⟩ := receives_of_calls hcall
  have hport : parent.ep.conn.cfg.localPort = seg.dstPort := by
    rcases meantFor_of_lookup (keyed h) hlookup hparent with heq | ⟨-, hport, -⟩
    · exact congrArg (·.2.1) heq
    · exact hport
  have hlocal := (keyed h).localIp parent (List.mem_of_getElem? hparent)
  obtain ⟨hsyn, -⟩ := TCPConnection.onSegment_child hchild
  rw [TCPConnection.onSegment_snd] at hchild
  split_ifs at hchild
  refine ⟨packet, _, hreceives, hsyn, (Option.some.inj hchild).symm, ?_⟩
  rw [← hlocal, ← hport, ← Option.some.inj hsrc]
  rfl

/-- The calls that an event makes into a connection that the application neither closes nor aborts. -/
theorem streaming_of_calls (h : stack.Reachable s) (hany : key.2.2.1 ≠ IP_ANY) (hp : s.Holds key i p)
    (hspares : s.Spares key e) {call : Event} (hcall : (s.view e).Calls i call) :
    call.IsStreaming ∧ ∀ seg, call.inbound = some seg →
      ∃ packet, s.Receives e packet seg ∧ key = (packet.dst, seg.dstPort, packet.src, seg.srcPort) := by
  refine ⟨TableEvent.streaming_of_calls hcall (hspares i p hp), ?_⟩
  obtain ⟨slot, hslot, rfl, hkey⟩ := hp
  intro seg hseg
  cases call with
  | segment seg' src draw now =>
    obtain rfl := Option.some.inj hseg
    obtain ⟨packet, hreceives, -, hlookup⟩ := receives_of_calls hcall
    refine ⟨packet, hreceives, ?_⟩
    rcases meantFor_of_lookup (keyed h) hlookup hslot with heq | ⟨hlistener, -⟩
    · exact hkey.symm.trans heq
    · refine absurd ?_ hany
      rw [← hkey]
      exact listenersOpen h slot (List.mem_of_getElem? hslot) hlistener
  | _ => cases hseg

theorem cases_of_holds (h : stack.Reachable s) (hany : key.2.2.1 ≠ IP_ANY) (htame : (s.step e).Tame key)
    (hp' : (s.step e).Holds key i p') :
    (∃ p es, s.Holds key i p ∧ p' = endpoint.run p es ∧ ∀ call ∈ es, (s.view e).Calls i call) ∨
      (∀ j p, ¬ s.Holds key j p) ∧ s.Opened key e p' := by
  obtain ⟨slot', hslot', rfl, hkey⟩ := hp'
  rcases ((sound h).follows e).cases hslot' with ⟨slot, es, hslot, -, hep, hes⟩ | ⟨rfl, hborn⟩
  · refine .inl ⟨slot.ep, es, ⟨slot, hslot, rfl, ?_⟩, hep, hes⟩
    rw [← hkey, hep, Tables.cfg_run]
  · have hnone : ∀ j p, ¬ s.Holds key j p := by
      intro j p hp
      obtain ⟨es, hstill, -⟩ := hp.step h e
      obtain ⟨slot, hslot, -⟩ := hp
      have hlast := htame.once hstill ⟨slot', hslot', rfl, hkey⟩
      exact absurd (List.getElem?_eq_some_iff.mp hslot).1 (hlast ▸ Nat.lt_irrefl _)
    refine .inr ⟨hnone, ?_⟩
    cases hview : s.view e with
    | segment id seg src draw now =>
      rw [hview] at hborn
      cases hborn with
      | child hparent hchild =>
        obtain ⟨packet, cfg, hreceives, hsyn, rfl, hcfg⟩ := adopts h hview hparent hchild
        refine .passive packet seg cfg draw now hreceives hsyn ?_ rfl
        rw [← hkey]
        exact congrArg (·.2) hcfg
    | tcpConnect remoteIp remotePort port draw now =>
      rw [hview] at hborn
      cases hborn with
      | active _ _ _ _ _ _ _ hep => exact .active _ draw now hep
    | tcpListen port backlog =>
      rw [hview] at hborn
      cases hborn with
      | listener =>
        refine absurd ?_ hany
        rw [← hkey]
        exact Tables.remoteIp_listenerSlot s.toTables s.ip port backlog
    | _ =>
      rw [hview] at hborn
      cases hborn

/-- A segment that a stack has sent comes from the connection with its addresses and ports, or only resets. -/
theorem Origin.sends {said : List (UDPSegment × Bytes)} {packet : IPv4Packet} {seg : TCPSegment}
    (h : Origin s said packet) (hreach : stack.Reachable s) (hdst : packet.dst.length = 4)
    (hprotocol : packet.protocol = PROTO_TCP)
    (hparse : TCPSegment.parse packet.payload (some packet.src) (some packet.dst) = .ok seg) :
    packet.src = s.ip ∧ (seg.OnlyResets ∨
      ∃ i p, s.Holds (packet.src, seg.srcPort, packet.dst, seg.dstPort) i p ∧ p.Sends seg) := by
  have hip := (sound hreach).ready.ip
  cases h with
  | @segment i slot x payload id hid hslot hx hbytes =>
    have hmem := List.mem_of_getElem? hslot
    obtain ⟨hmodest, hcfg⟩ := (sound hreach).tables.slots slot hmem
    have hfits := hmodest.sent x hx
    obtain ⟨csum, hsame⟩ := TCPSegment.parse_of_toBytes (hcfg.options hfits.options).1 hip hdst hbytes
    obtain rfl := Except.ok.inj (hparse.symm.trans hsame)
    refine ⟨rfl, .inr ⟨i, slot.ep, ⟨slot, hslot, rfl, ?_⟩, x, hx, csum, rfl⟩⟩
    rw [Config.key, (keyed hreach).localIp slot hmem, ← hfits.srcPort, ← hfits.dstPort]
    rfl
  | @reset segment dst payload id hid hrst hbytes =>
    obtain ⟨csum, hsame⟩ := TCPSegment.parse_of_toBytes TCPOptions.inWireRange_empty hip hdst hbytes
    obtain rfl := Except.ok.inj (hparse.symm.trans hsame)
    exact ⟨rfl, .inl (TCPSegment.onlyResets_resetFor segment csum)⟩
  | echo => cases hprotocol
  | datagram => cases hprotocol

end Stack

/-! ### Both ends of a connection -/

namespace Lan

open Endpoint (Flows)

variable {n : Nat} {cfg : Fin n → StackConfig} {fault : FaultProfile} {L M : Lan n} {a b i : Fin n} {key : ConnKey}
  {e : StackEvent}

theorem Good.arrival (h : L.Good cfg fault) (hclean : fault.corrupt.1 = 0)
    (he : ∀ raw draw now, e = .frame raw draw now → raw ∈ L.wire.held i) {packet : IPv4Packet} {seg : TCPSegment}
    (hreceives : (L.host i).Receives e packet seg) :
    (packet.dst = (L.host i).ip ∨ packet.dst = IP_BROADCAST) ∧ ∃ j ≠ i, packet.src = (cfg j).ip ∧
      (seg.OnlyResets ∨
        ∃ k q, (L.host j).Holds (packet.src, seg.srcPort, packet.dst, seg.dstPort) k q ∧ q.Sends seg) := by
  obtain ⟨raw, draw, now, rfl, hdatagram, hprotocol, hparse⟩ := hreceives
  obtain ⟨j, hj, hcarries⟩ := h.own hclean (List.mem_append_left _ (he raw draw now rfl))
  obtain ⟨horigin, hdst⟩ := Stack.packet_of_carries hcarries (fun _ hp => hp.plain) hdatagram
  have hlength : packet.dst.length = 4 := by
    rcases hdst with heq | heq
    · exact (congrArg List.length heq).trans (Stack.sound (h.host i)).ready.ip
    · exact congrArg List.length heq
  obtain ⟨hsrc, hsends⟩ := horigin.sends (h.host j) hlength hprotocol hparse
  exact ⟨hdst, j, hj, hsrc.trans (h.addresses j).2, hsends⟩

/-- Two different stacks, no other one with the same address as one of them, and what the first one calls a
connection between them. -/
structure Paired (cfg : Fin n → StackConfig) (a b : Fin n) (key : ConnKey) : Prop where
  ne : a ≠ b
  localIp : key.1 = (cfg a).ip ∧ ∀ j, (cfg j).ip = (cfg a).ip → j = a
  remoteIp : key.2.2.1 = (cfg b).ip ∧ ∀ j, (cfg j).ip = (cfg b).ip → j = b
  localAny : key.1 ≠ IP_ANY
  remoteAny : key.2.2.1 ≠ IP_ANY

theorem Paired.symm (h : Paired cfg a b key) : Paired cfg b a (mirrored key) :=
  ⟨h.ne.symm, h.remoteIp, h.localIp, h.remoteAny, h.localAny⟩

/-- One end has heard nothing as long as the other one is not there; when both are, both directions are in order. -/
structure Linked (L : Lan n) (a b : Fin n) (key : ConnKey) : Prop where
  first : ∀ {i p}, (L.host a).Holds key i p → (∀ j q, ¬ (L.host b).Holds (mirrored key) j q) → p.Lonely
  second : ∀ {j q}, (L.host b).Holds (mirrored key) j q → (∀ i p, ¬ (L.host a).Holds key i p) → q.Lonely
  flows : ∀ {i p j q}, (L.host a).Holds key i p → (L.host b).Holds (mirrored key) j q → Flows p q ∧ Flows q p

theorem Linked.symm (h : L.Linked a b key) : L.Linked b a (mirrored key) :=
  ⟨h.second, h.first, fun hq hp => (h.flows hp hq).symm⟩

theorem Linked.of_eq (h : L.Linked a b key) (ha : M.host a = L.host a) (hb : M.host b = L.host b) :
    M.Linked a b key := by
  constructor
  · rw [ha, hb]
    exact h.first
  · rw [ha, hb]
    exact h.second
  · rw [ha, hb]
    exact h.flows

theorem Good.heard_from (h : L.Good cfg fault) (hpaired : Paired cfg a b key) (hclean : fault.corrupt.1 = 0)
    (he : ∀ raw draw now, e = .frame raw draw now → raw ∈ L.wire.held a)
    (hdirected : ∀ slot ∈ (L.host b).slots, slot.ep.conn.cfg.remoteIp ≠ IP_BROADCAST) {packet : IPv4Packet}
    {seg : TCPSegment}
    (hreceives : (L.host a).Receives e packet seg) (hkey : key.2 = (seg.dstPort, packet.src, seg.srcPort)) :
    seg.OnlyResets ∨ ∃ j q, (L.host b).Holds (mirrored key) j q ∧ q.Sends seg := by
  obtain ⟨hdst, j, -, hsrc, hsends⟩ := h.arrival hclean he hreceives
  have hremote : packet.src = key.2.2.1 := by rw [hkey]
  obtain rfl : j = b := hpaired.remoteIp.2 j (by rw [← hsrc, hremote, hpaired.remoteIp.1])
  refine hsends.imp_right fun ⟨k, q, hq, hsent⟩ => ⟨k, q, ?_, hsent⟩
  have hlocal : packet.dst = key.1 := by
    rcases hdst with heq | heq
    · rw [heq, (h.addresses a).2, hpaired.localIp.1]
    · obtain ⟨slot, hslot, rfl, hcfg⟩ := hq
      refine absurd ?_ (hdirected slot (List.mem_of_getElem? hslot))
      exact (congrArg (·.2.2.1) hcfg).trans heq
  have hsame : mirrored key = (packet.src, seg.srcPort, packet.dst, seg.dstPort) := by
    rw [mirrored, hkey, hlocal]
  rw [hsame]
  exact hq

theorem Linked.act (h : L.Linked a b key) (hgood : L.Good cfg fault) (hpaired : Paired cfg a b key)
    (hclean : fault.corrupt.1 = 0) (he : ∀ raw draw now, e = .frame raw draw now → raw ∈ L.wire.held a)
    (hspares : (L.host a).Spares key e) (ha : ((L.host a).step e).Tame key) (hb : (L.host b).Tame (mirrored key))
    (draws : Nat → Draws) : (L.act a e draws).Linked a b key := by
  have hreach := hgood.host a
  have hsame : (L.act a e draws).host b = L.host b := L.host_act_of_ne hpaired.ne.symm e draws
  have hfrom : ∀ {packet : IPv4Packet} {seg : TCPSegment}, (L.host a).Receives e packet seg →
      key.2 = (seg.dstPort, packet.src, seg.srcPort) →
        seg.OnlyResets ∨ ∃ j q, (L.host b).Holds (mirrored key) j q ∧ q.Sends seg :=
    hgood.heard_from hpaired hclean he hb.directed
  have hcalls : ∀ {i p}, (L.host a).Holds key i p → ∀ call, ((L.host a).view e).Calls i call →
      call.IsStreaming ∧ ∀ seg, call.inbound = some seg →
        seg.OnlyResets ∨ ∃ j q, (L.host b).Holds (mirrored key) j q ∧ q.Sends seg := by
    intro i p hp call hcall
    obtain ⟨hstreaming, hreceives⟩ := Stack.streaming_of_calls hreach hpaired.remoteAny hp hspares hcall
    refine ⟨hstreaming, fun seg hseg => ?_⟩
    obtain ⟨packet, hpacket, hkey⟩ := hreceives seg hseg
    exact hfrom hpacket (by rw [hkey])
  constructor
  · intro i p' hp' hnone
    rw [host_act] at hp'
    rw [hsame] at hnone
    rcases Stack.cases_of_holds hreach hpaired.remoteAny ha hp' with ⟨p, es, hp, rfl, hes⟩ | ⟨-, hopened⟩
    · refine (h.first hp hnone).run (hp.basic hreach) (fun call hcall => ?_) (ha.short hp')
      obtain ⟨hstreaming, hin⟩ := hcalls hp call (hes call hcall)
      exact ⟨hstreaming, fun seg hseg => (hin seg hseg).resolve_right fun ⟨j, q, hq, _⟩ => hnone j q hq⟩
    · cases hopened with
      | active cfg draw now heq =>
        rw [heq]
        exact Endpoint.lonely_connect cfg draw now
      | passive packet seg cfg draw now hreceives hsyn hkey heq =>
        rcases hfrom hreceives hkey with honly | ⟨j, q, hq, -⟩
        · rw [honly.noSyn] at hsyn
          cases hsyn
        · exact absurd hq (hnone j q)
  · intro j q hq hnone
    rw [hsame] at hq
    refine h.second hq fun i p hp => ?_
    obtain ⟨es, hstill, -⟩ := hp.step hreach e
    rw [host_act] at hnone
    exact hnone i _ hstill
  · intro i p' j q hp' hq
    rw [host_act] at hp'
    rw [hsame] at hq
    rcases Stack.cases_of_holds hreach hpaired.remoteAny ha hp' with ⟨p, es, hp, rfl, hes⟩ | ⟨hnone, hopened⟩
    · obtain ⟨hto, hfro⟩ := h.flows hp hq
      have hfed : q.Fed es := by
        intro call hcall
        obtain ⟨hstreaming, hin⟩ := hcalls hp call (hes call hcall)
        refine ⟨hstreaming, fun seg hseg => (hin seg hseg).symm.imp_left fun ⟨k, q', hq', hsent⟩ => ?_⟩
        rw [hb.eq hq hq']
        exact hsent
      exact ⟨hto.send_run (hp.basic hreach) hfed (ha.short hp'),
        hfro.receive_run (hp.basic hreach) hfed (hb.short hq)⟩
    · have hlonely := h.second hq hnone
      cases hopened with
      | active cfg draw now heq =>
        rw [heq]
        refine hlonely.flows_new (Endpoint.outbound_connect cfg draw now) fun m _ => ?_
        exact (Endpoint.inbound_connect cfg draw now q.conn.iss).of_isPrefix List.nil_prefix
      | passive packet seg cfg draw now hreceives hsyn hkey heq =>
        rw [heq]
        refine hlonely.flows_new (Endpoint.outbound_passive cfg seg draw now) fun m hout => ?_
        rcases hfrom hreceives hkey with honly | ⟨k, q', hq', x, hx, csum, rfl⟩
        · rw [honly.noSyn] at hsyn
          cases hsyn
        · -- the SYN of the peer carries its initial number
          obtain rfl := hb.eq hq hq'
          have hiss : x.seq = q.conn.iss := (hout.sent x hx).syn hsyn
          rw [← hiss]
          exact Endpoint.inbound_passive cfg { x with checksum := csum } draw now _

theorem linked_act (hgood : L.Good cfg fault) (hpaired : Paired cfg a b key) (hclean : fault.corrupt.1 = 0)
    (he : ∀ raw draw now, e = .frame raw draw now → raw ∈ L.wire.held i)
    (hspares : (i = a → (L.host a).Spares key e) ∧ (i = b → (L.host b).Spares (mirrored key) e))
    {draws : Nat → Draws} (ha : ((L.act i e draws).host a).Tame key)
    (hb : ((L.act i e draws).host b).Tame (mirrored key))
    (h : (L.host a).Tame key → (L.host b).Tame (mirrored key) → L.Linked a b key) :
    (L.act i e draws).Linked a b key := by
  by_cases hia : i = a
  · subst hia
    rw [host_act] at ha
    rw [L.host_act_of_ne hpaired.ne.symm] at hb
    exact (h (ha.of_step (hgood.host i)) hb).act hgood hpaired hclean he (hspares.1 rfl) ha hb draws
  · rw [L.host_act_of_ne (Ne.symm hia)] at ha
    by_cases hib : i = b
    · subst hib
      rw [host_act] at hb
      exact ((h ha (hb.of_step (hgood.host i))).symm.act hgood hpaired.symm hclean he (hspares.2 rfl) hb ha draws).symm
    · rw [L.host_act_of_ne (Ne.symm hib)] at hb
      exact (h ha hb).of_eq (L.host_act_of_ne (Ne.symm hia) e draws) (L.host_act_of_ne (Ne.symm hib) e draws)

/-- The applications at both ends neither close nor abort the connection. -/
def Spares (a b : Fin n) (key : ConnKey) (L : Lan n) : LanEvent n → Prop
  | .call i e _ => (i = a → (L.host a).Spares key e.1) ∧ (i = b → (L.host b).Spares (mirrored key) e.1)
  | _ => True

theorem linked (h : (lan cfg fault).ReachableBy (Spares a b key) L) (hpaired : Paired cfg a b key)
    (hclean : fault.corrupt.1 = 0) (ha : (L.host a).Tame key) (hb : (L.host b).Tame (mirrored key)) :
    L.Linked a b key := by
  refine Machine.ReachableBy.induction (lan cfg fault)
    (P := fun L => (L.host a).Tame key → (L.host b).Tame (mirrored key) → L.Linked a b key) (fun L hstart _ _ => ?_)
    (fun L e hreach hL hspares ha hb => ?_) h ha hb
  · obtain ⟨names, rfl⟩ := hstart
    have hnone : ∀ {i : Fin n} {key k p}, ¬ (Stack.new (cfg i)).Holds key k p := by
      rintro i key k p ⟨slot, hslot, -⟩
      cases hslot
    exact ⟨fun hp => absurd hp hnone, fun hq => absurd hq hnone, fun hp => absurd hp hnone⟩
  · rcases (good hreach).step_cases e with
      ⟨-, hhost, -⟩ | ⟨M, i, e', draws, hgood, hhost, -, heq, hheld, hfrom⟩
    · rw [lan_next, hhost] at ha hb
      exact (hL ha hb).of_eq (by rw [lan_next, hhost]) (by rw [lan_next, hhost])
    · rw [lan_next, heq] at ha hb ⊢
      refine linked_act hgood hpaired hclean hheld ?_ ha hb fun ha hb => ?_
      · rcases hfrom with ⟨call, rfl, rfl⟩ | ⟨raw, draw, now, rfl⟩
        · rw [hhost]
          exact hspares
        · exact ⟨fun _ => Stack.spares_frame _ _ raw draw now, fun _ => Stack.spares_frame _ _ raw draw now⟩
      · rw [hhost] at ha hb
        exact (hL ha hb).of_eq (by rw [hhost]) (by rw [hhost])

/-- On a wire that corrupts nothing, what one application has read from a connection, and what it can read, is a prefix
of what the other one has written to it, in both directions: whatever the wire loses, delays, reorders or duplicates,
whatever the other stacks do, and whatever else the two applications do but close or abort this connection. -/
theorem streams_intact (h : (lan cfg fault).ReachableBy (Spares a b key) L) (hpaired : Paired cfg a b key)
    (hclean : fault.corrupt.1 = 0) (ha : (L.host a).Tame key) (hb : (L.host b).Tame (mirrored key))
    {i j : ConnId} {p q : Endpoint} (hp : (L.host a).Holds key i p) (hq : (L.host b).Holds (mirrored key) j q) :
    q.returned ++ q.conn.recvQueue.readable <+: p.accepted ∧
      p.returned ++ p.conn.recvQueue.readable <+: q.accepted := by
  obtain ⟨⟨m, r, -, hto⟩, m', r', -, hfrom⟩ := (linked h hpaired hclean ha hb).flows hp hq
  exact ⟨hto.received.trans (List.take_prefix _ _), hfrom.received.trans (List.take_prefix _ _)⟩

theorem probability_half : (0 : ℚ) ≤ 1 / 2 ∧ (1 / 2 : ℚ) ≤ 1 := by norm_num

theorem draw_half : (0 : ℚ) ≤ 1 / 2 ∧ (1 / 2 : ℚ) < 1 := by norm_num

/-- A wire that carries some frames twice. -/
def doubling : FaultProfile := { duplicate := ⟨1 / 2, probability_half⟩ }

def once (_ : Nat) : Draws := { duplicate := ⟨1 / 2, draw_half⟩ }

def twice (_ : Nat) : Draws := {}

def rounds (k : Nat) : List (LanEvent 2) := (List.replicate k [.poll 1 700 0 once, .poll 0 0 0 once]).flatten

/-- Both sides send, and what they send arrives twice. -/
def talk : List (LanEvent 2) :=
  [.call 1 ⟨.tcpListen 80 16, rfl⟩ once,
    .call 0 ⟨.tcpConnect ⟨[10, 0, 0, 2], 80, secondHost_length⟩ 5000 100 0, rfl⟩ once] ++
    rounds 3 ++ [.call 0 ⟨.send 0 [1, 2, 3] 0, rfl⟩ twice, .call 1 ⟨.send 1 [4] 0, rfl⟩ twice] ++ rounds 2 ++
    [.call 1 ⟨.recv 1 2 0, rfl⟩ once]

def talked : Lan 2 := (lan pair doubling).run (start pair doubling) talk

def talkKey : ConnKey := ([10, 0, 0, 1], 5000, [10, 0, 0, 2], 80)

theorem reachable_talked : (lan pair doubling).ReachableBy (Spares 0 1 talkKey) talked := by
  refine (Machine.ReachableBy.init (lan pair doubling) (started_start pair doubling)).run (lan pair doubling) ?_
  have hpoll : ∀ k, ∀ e ∈ rounds k, ∀ L, Spares 0 1 talkKey L e := by
    intro k e he L
    obtain ⟨round, hround, hmem⟩ := List.mem_flatten.mp he
    obtain rfl := List.eq_of_mem_replicate hround
    rcases List.mem_cons.mp hmem with rfl | hmem
    · trivial
    · rw [List.mem_singleton.mp hmem]
      trivial
  have hcall : ∀ (i : Fin 2) (e : StackCall) draws, (∀ (s : Stack) k, ¬ (s.view e.1).Closes k) →
      ∀ L, Spares 0 1 talkKey L (.call i e draws) :=
    fun i e draws hopen L => ⟨fun _ k _ _ => hopen _ k, fun _ k _ _ => hopen _ k⟩
  have hall : ∀ e ∈ talk, ∀ L, Spares 0 1 talkKey L e := by
    simp only [talk, List.forall_mem_append, List.forall_mem_cons]
    have hnil : ∀ e ∈ ([] : List (LanEvent 2)), ∀ L, Spares 0 1 talkKey L e := by simp
    refine ⟨⟨⟨⟨⟨hcall _ _ _ ?_, hcall _ _ _ ?_, hnil⟩, hpoll 3⟩, hcall _ _ _ ?_, hcall _ _ _ ?_, hnil⟩,
      hpoll 2⟩, hcall _ _ _ ?_, hnil⟩
    all_goals exact fun _ _ h => h
  have hmeets := ((lan pair doubling).meets_const (start pair doubling) talk).mpr hall
  exact hmeets.mono (lan pair doubling) fun L e he => he L

theorem paired_talk : Paired pair 0 1 talkKey :=
  ⟨by decide, ⟨by decide, by decide⟩, ⟨by decide, by decide⟩, by decide, by decide⟩

theorem tame_talked (i : Fin 2) (key : ConnKey) : (talked.host i).Tame key := by
  refine Stack.tame_of_nodup ?_ ?_ key
  · revert i
    decide +kernel
  · revert i
    decide +kernel

theorem streams_intact_talked : ∃ p q, (talked.host 0).Holds talkKey 0 p ∧
    (talked.host 1).Holds (mirrored talkKey) 1 q ∧ q.returned = [1, 2] ∧ q.conn.recvQueue.readable = [3] ∧
    q.returned ++ q.conn.recvQueue.readable <+: p.accepted ∧
    p.returned ++ p.conn.recvQueue.readable <+: q.accepted := by
  have hp : (talked.host 0).slots[0]?.map (·.ep.conn.cfg.key) = some talkKey := by decide +kernel
  have hq : (talked.host 1).slots[1]?.map (fun slot =>
      (slot.ep.conn.cfg.key, slot.ep.returned, slot.ep.conn.recvQueue.readable)) =
        some (mirrored talkKey, [1, 2], [3]) := by
    decide +kernel
  obtain ⟨slot, hslot, hkey⟩ := Option.map_eq_some_iff.mp hp
  obtain ⟨slot', hslot', heq⟩ := Option.map_eq_some_iff.mp hq
  obtain ⟨hkey', hreturned, hreadable⟩ : _ ∧ _ ∧ _ := by simpa using heq
  exact ⟨slot.ep, slot'.ep, ⟨slot, hslot, rfl, hkey⟩, ⟨slot', hslot', rfl, hkey'⟩, hreturned, hreadable,
    streams_intact reachable_talked paired_talk (by decide) (tame_talked 0 _) (tame_talked 1 _)
      ⟨slot, hslot, rfl, hkey⟩ ⟨slot', hslot', rfl, hkey'⟩⟩

end Lan

end MiniTcp
