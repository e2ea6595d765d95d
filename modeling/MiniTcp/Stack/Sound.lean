import MiniTcp.Net.Ipv4.Restore
import MiniTcp.Net.Tcp.Negotiation
import MiniTcp.Stack
import MiniTcp.Stack.Callbacks
import MiniTcp.Stack.Link

/-!
# The stack and its tables

In a sound stack every connection hands out segments that fit the wire, so no call into a connection raises
(`Sound.call`), and what an event does to the tables is what `Tables.step` says (`Sound.step`).
-/

namespace MiniTcp

open Interface (Onward)

/-! ### Segments of the stack's connections -/

/-- A configuration the stack gives to a connection. -/
structure Config.OnWire (cfg : Config) : Prop where
  localPort : cfg.localPort ≤ 0xFFFF
  remotePort : cfg.remotePort ≤ 0xFFFF
  remoteIp : cfg.remoteIp.length = 4
  mss : cfg.mss = DEFAULT_MSS
  windowScale : cfg.windowScale = 0

theorem Config.OnWire.options {cfg : Config} (h : cfg.OnWire) {o : TCPOptions}
    (ho : o = {} ∨ o = (TCPConnection.new cfg).synOptions) :
    o.InWireRange ∧ ∃ data, o.toBytes = .ok data ∧ data.length ≤ 40 := by
  have hsyn : (TCPConnection.new cfg).synOptions = { mss := some 1460, sackPermitted := true } := by
    change ({ mss := some cfg.mss
              windowScale := if cfg.windowScale = 0 then none else some cfg.windowScale
              sackPermitted := true } : TCPOptions) = _
    rw [h.windowScale, h.mss]
    rfl
  rw [hsyn] at ho
  rcases ho with rfl | rfl
  · exact ⟨⟨nofun, nofun, rfl, nofun, Nat.zero_le _⟩, [], rfl, by decide⟩
  · exact ⟨⟨nofun, nofun, rfl, nofun, Nat.zero_le _⟩, [2, 4, 5, 180, 4, 2, 1, 1], rfl, by decide⟩

theorem Config.Fits.toBytes {cfg : Config} {x : TCPSegment} (h : cfg.Fits x) (hcfg : cfg.OnWire) {src : Bytes}
    (hsrc : src.length = 4) :
    ∃ data, x.toBytes (some src) (some cfg.remoteIp) = .ok data ∧ data.length ≤ 1600 := by
  obtain ⟨hoptions, options, hbytes, hshort⟩ := hcfg.options h.options
  have hpayload : x.payload.length ≤ 1460 := by
    have hmax := h.payload
    rw [Config.maxPayload, hcfg.mss] at hmax
    exact hmax
  have hrange : x.InWireRange :=
    ⟨h.srcPort ▸ hcfg.localPort, h.dstPort ▸ hcfg.remotePort, h.window, by rw [h.urgentPointer]; decide,
      hoptions⟩
  obtain ⟨csum, -, hdata, -⟩ := hrange.toBytes_eq hsrc hcfg.remoteIp hbytes (by
    rw [TCPSegment.HEADER_LEN]
    omega)
  refine ⟨_, hdata, ?_⟩
  rw [TCPSegment.length_bytes, TCPSegment.HEADER_LEN]
  omega

/-- A connection of the stack. -/
structure Endpoint.Sound (p : Endpoint) : Prop where
  modest : p.conn.Modest
  cfg : p.conn.cfg.OnWire

theorem Endpoint.Sound.step {p : Endpoint} (h : p.Sound) (e : Event) : (p.step e).Sound := by
  have hout := TCPConnection.outputs_step p e
  refine ⟨hout.modest h.modest, ?_⟩
  rw [hout.cfg]
  exact h.cfg

theorem Endpoint.sound_new {cfg : Config} (h : cfg.OnWire) : (Endpoint.new cfg).Sound :=
  ⟨TCPConnection.modest_new cfg, h⟩

/-! ### Connections in the tables -/

/-- What the wire or the application's arguments guarantee about an event. -/
def TableEvent.OnWire : TableEvent → Prop
  | .segment _ seg src _ _ => src.length = 4 ∧ seg.srcPort ≤ 0xFFFF
  | .allocate port => port ≤ 0xFFFF
  | .tcpListen port _ => port ≤ 0xFFFF
  | .tcpConnect remoteIp remotePort port _ _ => remoteIp.length = 4 ∧ remotePort ≤ 0xFFFF ∧ port ≤ 0xFFFF
  | _ => True

namespace Tables

variable {t u : Tables} {ip : Bytes} {id : ConnId} {e : Event}

/-- Every connection is sound, and the next ephemeral port is one. -/
structure Sound (t : Tables) : Prop where
  slots : ∀ slot ∈ t.slots, slot.ep.Sound
  nextPort : t.nextPort ≤ LAST_EPHEMERAL_PORT

theorem Sound.of_eq (h : t.Sound) (hslots : u.slots = t.slots) (hport : u.nextPort = t.nextPort) : u.Sound :=
  ⟨hslots ▸ h.slots, hport ▸ h.nextPort⟩

theorem Sound.modifySlot (h : t.Sound) {f : Slot → Slot} (hf : ∀ slot, (f slot).ep = slot.ep) :
    (t.modifySlot id f).Sound := by
  refine ⟨fun slot hslot => ?_, h.nextPort⟩
  obtain ⟨i, hi⟩ := List.mem_iff_getElem?.mp hslot
  rw [Tables.modifySlot, List.getElem?_modify] at hi
  obtain ⟨old, hold, rfl⟩ := Option.map_eq_some_iff.mp hi
  have hsound := h.slots old (List.mem_of_getElem? hold)
  split_ifs
  · rw [hf]
    exact hsound
  · exact hsound

theorem Sound.add (h : t.Sound) {slot : Slot} (hslot : slot.ep.Sound) : (t.add slot).Sound := by
  refine ⟨fun other hother => ?_, h.nextPort⟩
  rcases List.mem_append.mp hother with hold | hnew
  · exact h.slots other hold
  · rw [List.mem_singleton.mp hnew]
    exact hslot

theorem Sound.forget (h : t.Sound) (id : ConnId) : (t.forget id).Sound := h.of_eq rfl rfl

theorem Sound.called (h : t.Sound) (id : ConnId) (e : Event) : (t.called id e).Sound := by
  refine ⟨forall_called (fun _ hp => hp.step e) h.slots, ?_⟩
  cases hslot : t.slots[id]? with
  | none =>
    rw [called_none hslot]
    exact h.nextPort
  | some slot => exact (local_called hslot e).nextPort.symm ▸ h.nextPort

theorem onWire_config (t : Tables) (ip : Bytes) {localPort remotePort : Nat} {remoteIp : Bytes}
    (hlocal : localPort ≤ 0xFFFF) (hremote : remotePort ≤ 0xFFFF) (hip : remoteIp.length = 4) :
    (t.config ip localPort remoteIp remotePort).OnWire :=
  ⟨hlocal, hremote, hip, rfl, rfl⟩

theorem sound_child {p : Endpoint} (h : p.Sound) {segment : TCPSegment} {src : Bytes} {draw : SeqNo} {now : Time}
    (hsrc : src.length = 4) (hport : segment.srcPort ≤ 0xFFFF) {child : TCPConnection}
    (hchild : (p.conn.onSegment segment (some src) draw now).2 = some child) :
    ({ conn := child } : Endpoint).Sound := by
  rw [TCPConnection.onSegment_snd] at hchild
  split_ifs at hchild
  obtain rfl := Option.some.inj hchild
  have hcfg : (p.conn.childConfig segment (some src)).OnWire :=
    ⟨h.cfg.localPort, hport, hsrc, h.cfg.mss, h.cfg.windowScale⟩
  exact ⟨TCPConnection.modest_beginPassiveOpen _ _ _ _, hcfg⟩

theorem Sound.adopted (h : t.Sound) (onAccept : Option Nat) {child : TCPConnection}
    (hchild : ({ conn := child } : Endpoint).Sound) : (t.adopted ip onAccept child).Sound := by
  have hadd : (t.add (childSlot onAccept child)).Sound := h.add hchild
  cases onAccept with
  | none => exact hadd
  | some port =>
    rw [Tables.adopted, enqueueAccept]
    split <;> exact hadd.of_eq rfl rfl

theorem Sound.searchPort (fuel : Nat) (h : t.Sound) : (searchPort fuel t).2.Sound ∧
    ∀ port, (searchPort fuel t).1 = some port → port ≤ LAST_EPHEMERAL_PORT := by
  induction fuel generalizing t with
  | zero => exact ⟨h, nofun⟩
  | succ fuel ih =>
    have hadvance : t.advancePort.Sound := by
      refine ⟨h.slots, ?_⟩
      unfold advancePort
      dsimp only
      split_ifs
      · decide
      · omega
    rw [Tables.searchPort]
    split_ifs
    · exact ih hadvance
    · refine ⟨hadvance, ?_⟩
      rintro port ⟨⟩
      exact h.nextPort

theorem Sound.localPort (h : t.Sound) {port : Nat} (hport : port ≤ 0xFFFF) : (t.localPort port).2.Sound ∧
    ∀ found, (t.localPort port).1 = .ok found → found ≤ 0xFFFF := by
  have hsearch := h.searchPort (LAST_EPHEMERAL_PORT - FIRST_EPHEMERAL_PORT)
  unfold Tables.localPort allocatePort
  split_ifs
  · generalize Tables.searchPort _ t = r at hsearch
    obtain ⟨found, t'⟩ := r
    cases found with
    | none => exact ⟨hsearch.1, nofun⟩
    | some found =>
      refine ⟨hsearch.1, ?_⟩
      rintro _ ⟨⟩
      exact hsearch.2 found rfl
  · refine ⟨h, ?_⟩
    rintro _ ⟨⟩
    exact hport

theorem Sound.tick (h : t.Sound) (now : Time) : (t.tick now).Sound := by
  unfold Tables.tick
  generalize t.connections.values = ids
  induction ids generalizing t with
  | nil => exact h
  | cons id ids ih => exact ih (h.called id _)

theorem Sound.segment (h : t.Sound) (ip : Bytes) (id : ConnId) {segment : TCPSegment} {src : Bytes} (draw : SeqNo)
    (now : Time) (hsrc : src.length = 4) (hport : segment.srcPort ≤ 0xFFFF) :
    (t.segment ip id segment src draw now).Sound := by
  unfold Tables.segment
  cases hslot : t.slots[id]? with
  | none => exact h
  | some slot =>
    dsimp only
    cases hchild : (slot.ep.conn.onSegment segment (some src) draw now).2 with
    | none => exact h.called id _
    | some child =>
      have hsound := h.slots slot (List.mem_of_getElem? hslot)
      exact (h.called id _).adopted _ (sound_child hsound hsrc hport hchild)

theorem Sound.tcpListen (h : t.Sound) (ip : Bytes) {port : Nat} (backlog : Nat) (hport : port ≤ 0xFFFF) :
    (t.tcpListen ip port backlog).2.Sound := by
  unfold Tables.tcpListen
  split_ifs
  · exact h
  · have hcfg := t.onWire_config ip hport (Nat.zero_le 0xFFFF) (show IP_ANY.length = 4 from rfl)
    have hadd : (t.add (t.listenerSlot ip port backlog)).Sound := h.add ((Endpoint.sound_new hcfg).step .listen)
    exact hadd.of_eq rfl rfl

theorem Sound.tcpAccept (h : t.Sound) (port : Nat) (expired : Bool) : (t.tcpAccept port expired).2.Sound := by
  unfold Tables.tcpAccept
  split
  · exact h
  · exact h
  · exact h.of_eq rfl rfl

theorem Sound.register (h : t.Sound) {ip remoteIp : Bytes} {port remotePort : Nat} (hport : port ≤ 0xFFFF)
    (hip : remoteIp.length = 4) (hremote : remotePort ≤ 0xFFFF) :
    (t.register ip port remoteIp remotePort).Sound := by
  have hcfg := t.onWire_config ip hport hremote hip
  have hadd : (t.add (t.activeSlot ip port remoteIp remotePort)).Sound := h.add (Endpoint.sound_new hcfg)
  exact hadd.of_eq rfl rfl

theorem Sound.tcpConnect (h : t.Sound) {ip remoteIp : Bytes} {port remotePort : Nat} (draw : SeqNo) (now : Time)
    (hport : port ≤ 0xFFFF) (hip : remoteIp.length = 4) (hremote : remotePort ≤ 0xFFFF) :
    (t.tcpConnect ip remoteIp remotePort port draw now).Sound := by
  have hlocal := h.localPort hport
  unfold Tables.tcpConnect
  generalize t.localPort port = r at hlocal
  obtain ⟨found, t'⟩ := r
  cases found with
  | error e => exact hlocal.1
  | ok found => exact (hlocal.1.register (hlocal.2 found rfl) hip hremote).called _ _

theorem Sound.refused (h : t.Sound) (id : ConnId) : (t.refused id).Sound := (h.forget id).modifySlot fun _ => rfl

theorem Sound.connectWait (h : t.Sound) (id : ConnId) (expired : Bool) (now : Time) :
    (t.connectWait id expired now).Sound := by
  unfold Tables.connectWait
  split
  · exact h
  · split_ifs
    · exact h
    · exact h.refused id
    · exact h.modifySlot fun _ => rfl
    · exact (h.called id _).refused id
    · exact h

theorem Sound.markShut (h : t.Sound) (id : ConnId) : (t.markShut id).Sound := h.modifySlot fun _ => rfl

theorem Sound.tcpClose (h : t.Sound) (id : ConnId) (now : Time) : (t.tcpClose id now).Sound :=
  (h.markShut id).called id _

theorem Sound.closeSocket (h : t.Sound) (id : ConnId) (now : Time) : (t.closeSocket id now).Sound := by
  unfold Tables.closeSocket
  split_ifs
  · exact h.markShut id
  · exact h.tcpClose id now

theorem Sound.step (h : t.Sound) {e : TableEvent} (he : e.OnWire) : (t.step ip e).Sound := by
  cases e with
  | quiet => exact h
  | allocate port => exact (h.localPort he).1
  | segment id segment src draw now => exact h.segment ip id draw now he.1 he.2
  | tick now => exact h.tick now
  | tcpListen port backlog => exact h.tcpListen ip backlog he
  | tcpAccept port expired => exact h.tcpAccept port expired
  | tcpConnect remoteIp remotePort port draw now => exact h.tcpConnect draw now he.2.2 he.1 he.2.1
  | connectWait id expired now => exact h.connectWait id expired now
  | send id data now => exact h.called id _
  | recv id maxBytes now => exact h.called id _
  | abort id now => exact h.called id _
  | tcpClose id now => exact h.tcpClose id now
  | closeSocket id now => exact h.closeSocket id now

end Tables

/-! ### Transmitting -/

namespace Stack

variable {s : Stack} {now : Time}

theorem sendOwn_spec (s : Stack) {protocol : Nat} (dst payload : Bytes) (now : Time) (hprotocol : protocol ≤ 0xFF) :
    ∃ result j, s.sendOwn protocol dst payload now = (result, { s with toInterface := j }) ∧
      result ≠ .error .structError ∧ Onward s.toInterface j ∧
      (s.toInterface.Ready → dst.length = 4 → payload.length ≤ 1600 → ∃ sent, result = .ok sent) := by
  have hid : s.toInterface.allocateId.1 = s.nextId := rfl
  have hnext := Interface.onward_allocateId s.toInterface
  refine ⟨_, _, rfl, Interface.sendIpv4_ne _ ⟨hprotocol, Nat.zero_le _⟩ now,
    hnext.trans (Interface.onward_sendIpv4 _ ⟨hprotocol, Nat.zero_le _⟩ now), ?_⟩
  intro hready hdst hpayload
  apply (hnext.ready hready).sendIpv4_fits
  have hlength : ∀ p : IPv4Packet, p.options = [] → p.payload = payload → p.totalLength ≤ MAX_PACKET := by
    intro p hoptions hp
    rw [IPv4Packet.totalLength, IPv4Packet.headerLength, IPv4Packet.ihl, hoptions, hp]
    simp only [HEADER_LEN, MAX_PACKET, List.length_nil]
    omega
  exact ⟨hready.ip, hdst, hprotocol, show 64 ≤ 0xFF by decide, hid ▸ hready.nextId,
    show 0 &&& FLAG_MASK = 0 by decide, Nat.zero_le _, Nat.zero_le _, rfl,
    Nat.zero_le _, hlength _ rfl rfl⟩

theorem transmitSegment_spec (hready : s.toInterface.Ready) {cfg : Config} {x : TCPSegment} (hx : cfg.Fits x)
    (hcfg : cfg.OnWire) (now : Time) :
    ∃ j, s.transmitSegment x cfg.remoteIp now = (.ok (), { s with toInterface := j }) ∧
      Onward s.toInterface j := by
  obtain ⟨data, hdata, hshort⟩ := hx.toBytes hcfg hready.ip
  have hcount : Onward s.toInterface { s.toInterface with stats := { s.stats with tcpOut := s.stats.tcpOut + 1 } } :=
    .of_eq rfl rfl rfl rfl rfl rfl
  obtain ⟨result, j, hsend, -, honward, hok⟩ :=
    sendOwn_spec { s with stats := { s.stats with tcpOut := s.stats.tcpOut + 1 } } cfg.remoteIp data now
      (show PROTO_TCP ≤ 0xFF by decide)
  obtain ⟨sent, rfl⟩ := hok (hcount.ready hready) hcfg.remoteIp hshort
  refine ⟨j, ?_, hcount.trans honward⟩
  unfold transmitSegment
  dsimp only
  rw [hdata]
  dsimp only
  rw [hsend]
  rfl

theorem transmitAll_spec {cfg : Config} (hcfg : cfg.OnWire) (now : Time) {segs : List TCPSegment}
    (hsegs : ∀ x ∈ segs, cfg.Fits x) (s : Stack) (hready : s.toInterface.Ready) :
    ∃ j, transmitAll cfg.remoteIp now segs s = (.ok (), { s with toInterface := j }) ∧
      Onward s.toInterface j := by
  induction segs generalizing s with
  | nil => exact ⟨s.toInterface, rfl, .refl _⟩
  | cons x segs ih =>
    obtain ⟨j, hfirst, honward⟩ := transmitSegment_spec hready (hsegs x List.mem_cons_self) hcfg now
    obtain ⟨k, hrest, honward'⟩ := ih (fun y hy => hsegs y (List.mem_cons_of_mem _ hy))
      { s with toInterface := j } (honward.ready hready)
    refine ⟨k, ?_, honward.trans honward'⟩
    rw [transmitAll, hfirst]
    exact hrest

/-! ### Calls -/

/-- The addresses have their lengths, sets of fragments have the key of their header, and every connection
hands out what fits the wire. -/
structure Sound (s : Stack) : Prop where
  ready : s.toInterface.Ready
  labelled : s.reassembler.Labelled
  tables : s.toTables.Sound

/-- From `s` to `s'` the tables have become `t`, and the rest has stayed sound. -/
structure After (s s' : Stack) (t : Tables) : Prop where
  tables : s'.toTables = t
  onward : Onward s.toInterface s'.toInterface
  labelled : s.reassembler.Labelled → s'.reassembler.Labelled

variable {s' s'' : Stack} {t : Tables}

theorem After.refl (s : Stack) : After s s s.toTables := ⟨rfl, .refl _, id⟩

theorem After.trans (h : After s s' s.toTables) (h' : After s' s'' t) : After s s'' t :=
  ⟨h'.tables, h.onward.trans h'.onward, fun hl => h'.labelled (h.labelled hl)⟩

theorem After.link {j : Interface} (h : Onward s.toInterface j) : After s { s with toInterface := j } s.toTables :=
  ⟨rfl, h, id⟩

theorem After.count (s : Stack) (stats : Stats) : After s { s with stats := stats } s.toTables :=
  .link (.of_eq rfl rfl rfl rfl rfl rfl)

theorem Sound.after (h : s.Sound) (ha : After s s' t) (ht : t.Sound) : s'.Sound :=
  ⟨ha.onward.ready h.ready, ha.labelled h.labelled, ha.tables ▸ ht⟩

theorem Sound.call (h : s.Sound) (id : ConnId) (e : Event) (now : Time) :
    (s.call id e now).1 = .ok () ∧ After s (s.call id e now).2 (s.called id e) := by
  unfold Stack.call
  cases hslot : s.slots[id]? with
  | none =>
    rw [Tables.called_none hslot]
    exact ⟨rfl, .refl s⟩
  | some slot =>
    have hsound := (h.tables.slots slot (List.mem_of_getElem? hslot)).step e
    have hfits : ∀ x ∈ (slot.ep.step e).conn.sent.drop slot.ep.conn.sent.length, (slot.ep.step e).conn.cfg.Fits x :=
      fun x hx => hsound.modest.sent x (List.mem_of_mem_drop hx)
    obtain ⟨j, hsend, honward⟩ := transmitAll_spec hsound.cfg now hfits
      { s with toTables := s.modifySlot id fun slot => { slot with ep := slot.ep.step e } } h.ready
    dsimp only at hsend ⊢
    rw [hsend, Tables.called_eq hslot]
    exact ⟨rfl, rfl, honward, fun hl => hl⟩

theorem Sound.adopt (h : s.Sound) (onAccept : Option Nat) {child : TCPConnection}
    (hchild : ({ conn := child } : Endpoint).Sound) (now : Time) :
    (s.adopt onAccept child now).1 = .ok () ∧
      After s (s.adopt onAccept child now).2 (s.adopted s.ip onAccept child) := by
  obtain ⟨j, hsend, honward⟩ := transmitAll_spec hchild.cfg now hchild.modest.sent
    { s with toTables := s.add (Tables.childSlot onAccept child) } h.ready
  unfold Stack.adopt
  dsimp only at hsend ⊢
  rw [hsend]
  cases onAccept with
  | none => exact ⟨rfl, rfl, honward, fun hl => hl⟩
  | some port =>
    refine ⟨rfl, ?_, honward, fun hl => hl⟩
    change Tables.enqueueAccept _ j.ip port _ child = _
    rw [honward.ip]
    rfl

theorem Sound.onSegment (h : s.Sound) (id : ConnId) {segment : TCPSegment} {src : Bytes} (draw : SeqNo) (now : Time)
    (hsrc : src.length = 4) (hport : segment.srcPort ≤ 0xFFFF) :
    (s.onSegment id segment src draw now).1 = .ok () ∧
      After s (s.onSegment id segment src draw now).2 (s.toTables.segment s.ip id segment src draw now) := by
  unfold Stack.onSegment Tables.segment
  cases hslot : s.slots[id]? with
  | none => exact ⟨rfl, .refl s⟩
  | some slot =>
    obtain ⟨hok, hcall⟩ := h.call id (.segment segment (some src) draw now) now
    dsimp only
    generalize s.call id (.segment segment (some src) draw now) now = r at hok hcall
    obtain ⟨result, s'⟩ := r
    obtain rfl := hok
    dsimp only at hcall ⊢
    cases hchild : (slot.ep.conn.onSegment segment (some src) draw now).2 with
    | none => exact ⟨rfl, hcall⟩
    | some child =>
      have hslot := h.tables.slots slot (List.mem_of_getElem? hslot)
      have hsound := h.after hcall (h.tables.called id _)
      obtain ⟨hok, hadopt⟩ := hsound.adopt slot.role.onAccept (Tables.sound_child hslot hsrc hport hchild) now
      refine ⟨hok, ?_, hcall.onward.trans hadopt.onward, fun hl => hadopt.labelled (hcall.labelled hl)⟩
      rw [hadopt.tables, hcall.tables, hcall.onward.ip]

end Stack

end MiniTcp
