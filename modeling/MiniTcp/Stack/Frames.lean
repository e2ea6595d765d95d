import MiniTcp.Stack.Sound

/-!
# Frames that arrive

`attempt` is `handle_frame` without its `except ValueError`, and `handleFrame_eq` puts the handlers back. What
can go wrong on the way is a `ValueError`, with one exception: the checksum of a reassembled TCP segment that is
longer than 65535 bytes has no pseudo-header (`Overlong`), and `struct.error` is not a `ValueError`.

`view` is what an event means for the tables: in a sound stack `Stack.step` does to them what `Tables.step` does
with it (`Sound.step`).
-/

namespace MiniTcp

open Interface (Onward)

/-- A TCP segment with a checksum to verify that is longer than the pseudo-header can say. -/
def IPv4Packet.Overlong (p : IPv4Packet) : Prop :=
  p.protocol = PROTO_TCP ∧ 0xFFFF < p.payload.length ∧ 5 ≤ (byteAt p.payload 12).toNat >>> 4 ∧
    u16At p.payload 16 ≠ 0

namespace Stack

variable (s : Stack) {s' : Stack} {t : Tables} {packet : IPv4Packet} {draw : SeqNo} {now : Time}

/-! ### The inbound path without its handlers -/

/-- The protocol handlers of `_dispatch_ipv4`. -/
def dispatch (packet : IPv4Packet) (draw : SeqNo) (now : Time) : Except PyError Unit × Stack :=
  if packet.protocol = PROTO_ICMP then s.handleIcmp packet now
  else if packet.protocol = PROTO_TCP then s.handleTcp packet draw now
  else if packet.protocol = PROTO_UDP then s.handleUdp packet
  else (.ok (), s)

def attemptIpv4 (frame : EthernetFrame) (draw : SeqNo) (now : Time) : Except PyError Unit × Stack :=
  match IPv4Packet.parse frame.payload with
  | .error e => (.error e, s)
  | .ok packet =>
    let s := { s with stats := { s.stats with ipv4In := s.stats.ipv4In + 1 } }
    match s.reassemble packet now with
    | (none, s) => (.ok (), s)
    | (some packet, s) =>
      if packet.dst ≠ s.ip ∧ packet.dst ≠ IP_BROADCAST then (.ok (), s.dropped)
      else s.dispatch packet draw now

def attempt (raw : Bytes) (draw : SeqNo) (now : Time) : Except PyError Unit × Stack :=
  match EthernetFrame.parse raw with
  | .error e => (.error e, s)
  | .ok frame =>
    if !s.promiscuous && !frame.acceptedBy s.mac then (.ok (), s.dropped)
    else if frame.ethertype = ETHERTYPE_ARP then s.onLink (s.toInterface.handleArp frame now)
    else if frame.ethertype = ETHERTYPE_IPV4 then s.attemptIpv4 frame draw now
    else (.ok (), s.dropped)

theorem caught_caught (r : Except PyError Unit × Stack) : caught (caught r) = caught r := by
  obtain ⟨result, s⟩ := r
  match result with
  | .error (.valueError _) => rfl
  | .error .structError => rfl
  | .ok () => rfl

theorem handleIpv4Frame_eq (frame : EthernetFrame) (draw : SeqNo) (now : Time) :
    s.handleIpv4Frame frame draw now = caught (s.attemptIpv4 frame draw now) := by
  unfold handleIpv4Frame attemptIpv4
  cases IPv4Packet.parse frame.payload with
  | error e => rfl
  | ok packet =>
    dsimp only
    generalize Stack.reassemble _ packet now = r
    obtain ⟨packet, s⟩ := r
    cases packet with
    | none => rfl
    | some packet =>
      dsimp only
      split_ifs <;> rfl

theorem handleFrame_eq (raw : Bytes) (draw : SeqNo) (now : Time) :
    s.handleFrame raw draw now = caught (s.attempt raw draw now) := by
  unfold handleFrame attempt
  cases EthernetFrame.parse raw with
  | error e => rfl
  | ok frame =>
    dsimp only
    rw [handleIpv4Frame_eq]
    split_ifs
    · rfl
    · rfl
    · exact caught_caught _
    · rfl

theorem caught_error {r : Except PyError Unit × Stack} (h : r.1 = .error .structError) :
    (caught r).1 = .error .structError := by
  obtain ⟨result, s⟩ := r
  obtain rfl := h
  rfl

theorem caught_ok_iff {r : Except PyError Unit × Stack} : (caught r).1 = .ok () ↔ r.1 ≠ .error .structError := by
  obtain ⟨result, s⟩ := r
  match result with
  | .error (.valueError _) => exact iff_of_true rfl nofun
  | .error .structError => exact iff_of_false nofun fun h => h rfl
  | .ok () => exact iff_of_true rfl nofun

/-! ### What a frame brings -/

/-- The datagram for this stack that an IPv4 frame completes. -/
def completed (frame : EthernetFrame) (now : Time) : Option IPv4Packet :=
  match IPv4Packet.parse frame.payload with
  | .error _ => none
  | .ok packet =>
    (s.reassemble packet now).1.filter fun packet => packet.dst = s.ip ∨ packet.dst = IP_BROADCAST

/-- The datagram for this stack that a frame completes. -/
def datagram (raw : Bytes) (now : Time) : Option IPv4Packet :=
  match EthernetFrame.parse raw with
  | .error _ => none
  | .ok frame =>
    if !s.promiscuous && !frame.acceptedBy s.mac then none
    else if frame.ethertype = ETHERTYPE_IPV4 then s.completed frame now
    else none

/-- What a datagram does to the tables. -/
def delivery (packet : IPv4Packet) (draw : SeqNo) (now : Time) : TableEvent :=
  if packet.protocol = PROTO_TCP then
    match TCPSegment.parse packet.payload (some packet.src) (some packet.dst) with
    | .error _ => .quiet
    | .ok segment =>
      match s.lookup packet segment with
      | none => .quiet
      | some id => .segment id segment packet.src draw now
  else .quiet

/-- What a frame does to the tables. -/
def arrival (raw : Bytes) (draw : SeqNo) (now : Time) : TableEvent :=
  match s.datagram raw now with
  | none => .quiet
  | some packet => s.delivery packet draw now

variable {s}

/-! ### Handlers -/

theorem After.dropped (s : Stack) : After s s.dropped s.toTables := .link (.of_eq rfl rfl rfl rfl rfl rfl)

theorem After.caught {r : Except PyError Unit × Stack} (h : After s r.2 t) : After s (caught r).2 t := by
  obtain ⟨result, s'⟩ := r
  have hcount : After s' s'.malformed s'.toTables := .link (.of_eq rfl rfl rfl rfl rfl rfl)
  match result with
  | .error (.valueError _) =>
    exact ⟨hcount.tables.trans h.tables, h.onward.trans hcount.onward, fun hl => hcount.labelled (h.labelled hl)⟩
  | .error .structError => exact h
  | .ok () => exact h

/-- A datagram of our own raises nothing but `ValueError`, and nothing at all when it is short. -/
theorem after_sendOwn (s : Stack) {protocol : Nat} (hprotocol : protocol ≤ 0xFF) (dst payload : Bytes) (now : Time) :
    (s.sendOwn protocol dst payload now).1 ≠ .error .structError ∧
      After s (s.sendOwn protocol dst payload now).2 s.toTables := by
  obtain ⟨result, j, hsend, hne, honward, -⟩ := sendOwn_spec s dst payload now hprotocol
  rw [hsend]
  exact ⟨hne, .link honward⟩

theorem map_ne {r : Except PyError Bool} (h : r ≠ .error .structError) :
    r.map (fun _ => ()) ≠ .error .structError := by
  cases r with
  | error e =>
    intro heq
    cases heq
    exact h rfl
  | ok _ => exact nofun

theorem passed_ne {α β : Type} {r : Except PyError α} {e : PyError} (h : r ≠ .error .structError)
    (he : r = .error e) : (Except.error e : Except PyError β) ≠ .error .structError := by
  intro heq
  cases heq
  exact h he

theorem handleIcmp_spec (s : Stack) (packet : IPv4Packet) (now : Time) :
    (s.handleIcmp packet now).1 ≠ .error .structError ∧ After s (s.handleIcmp packet now).2 s.toTables := by
  have hparse := ICMPMessage.parse_ne packet.payload
  unfold handleIcmp
  cases hmessage : ICMPMessage.parse packet.payload with
  | error e => exact ⟨passed_ne hparse hmessage, .refl s⟩
  | ok message =>
    have hecho := EchoMessage.fromIcmp_ne message
    dsimp only
    split_ifs
    · exact ⟨nofun, .refl s⟩
    · cases hfrom : EchoMessage.fromIcmp message with
      | error e => exact ⟨passed_ne hecho hfrom, .refl s⟩
      | ok echo =>
        have hbytes : (echo.toIcmp ECHO_REPLY).toBytes = .ok _ :=
          ICMPMessage.toBytes_eq (show ECHO_REPLY ≤ 0xFF by decide) (Nat.zero_le _)
        dsimp only
        rw [hbytes]
        obtain ⟨hne, hafter⟩ := after_sendOwn
          { s with stats := { s.stats with icmpEchoReplied := s.stats.icmpEchoReplied + 1 } }
          (show PROTO_ICMP ≤ 0xFF by decide) packet.src _ now
        exact ⟨map_ne hne, (After.count s _).trans hafter⟩

theorem handleUdp_spec (s : Stack) (packet : IPv4Packet) :
    (s.handleUdp packet).1 ≠ .error .structError ∧ After s (s.handleUdp packet).2 s.toTables := by
  have hparse := UDPSegment.parse_ne packet.payload packet.src packet.dst
  unfold handleUdp
  cases hsegment : UDPSegment.parse packet.payload packet.src packet.dst with
  | error e => exact ⟨passed_ne hparse hsegment, .refl s⟩
  | ok segment =>
    dsimp only
    split
    · exact ⟨nofun, .count s _⟩
    · exact ⟨nofun, rfl, (After.count s _).onward, fun hl => hl⟩

theorem Sound.sendReset (h : s.Sound) {segment : TCPSegment} (hsrc : packet.src.length = 4)
    (hports : segment.srcPort ≤ 0xFFFF ∧ segment.dstPort ≤ 0xFFFF) (now : Time) :
    (s.sendReset packet segment now).1 = .ok () ∧ After s (s.sendReset packet segment now).2 s.toTables := by
  have hrange : (resetFor segment).InWireRange :=
    ⟨hports.2, hports.1, Nat.zero_le _, Nat.zero_le _, ⟨nofun, nofun, rfl, nofun, Nat.zero_le _⟩⟩
  have hoptions : ({} : TCPOptions).toBytes = .ok [] := rfl
  obtain ⟨csum, -, hbytes, -⟩ := hrange.toBytes_eq h.ready.ip hsrc hoptions (by
    rw [TCPSegment.HEADER_LEN, show (resetFor segment).payload = [] from rfl, List.length_nil]
    decide)
  unfold Stack.sendReset
  split_ifs
  · exact ⟨rfl, .refl s⟩
  · rw [hbytes]
    obtain ⟨result, j, hsend, -, honward, hok⟩ :=
      sendOwn_spec s packet.src _ now (show PROTO_TCP ≤ 0xFF by decide)
    dsimp only
    rw [hsend]
    obtain ⟨sent, rfl⟩ := hok h.ready hsrc (by
      rw [TCPSegment.length_bytes, TCPSegment.HEADER_LEN, show (resetFor segment).payload = [] from rfl]
      decide)
    exact ⟨rfl, .link honward⟩

theorem Sound.handleTcp (h : s.Sound) (hsrc : packet.src.length = 4) (hprotocol : packet.protocol = PROTO_TCP)
    (draw : SeqNo) (now : Time) :
    ((s.handleTcp packet draw now).1 = .error .structError ↔ packet.Overlong) ∧
      After s (s.handleTcp packet draw now).2 (s.toTables.step s.ip (s.delivery packet draw now)) := by
  have hparse := @TCPSegment.parse_error_iff packet.payload packet.src packet.dst
  rw [IPv4Packet.Overlong, and_iff_right hprotocol, ← hparse]
  unfold Stack.handleTcp delivery
  rw [if_pos hprotocol]
  cases hsegment : TCPSegment.parse packet.payload (some packet.src) (some packet.dst) with
  | error e =>
    refine ⟨?_, .refl s⟩
    simp
  | ok segment =>
    obtain ⟨hsrcPort, hdstPort⟩ := TCPSegment.ports_of_parse hsegment
    have hcount := After.count s { s.stats with tcpIn := s.stats.tcpIn + 1 }
    have hlookup : ({ s with stats := { s.stats with tcpIn := s.stats.tcpIn + 1 } } : Stack).lookup packet segment =
        s.lookup packet segment := rfl
    generalize ({ s with stats := { s.stats with tcpIn := s.stats.tcpIn + 1 } } : Stack) = s' at hcount hlookup
    have hsound := h.after hcount h.tables
    dsimp only
    rw [hlookup]
    cases s.lookup packet segment with
    | none =>
      obtain ⟨hok, hafter⟩ := hsound.sendReset hsrc ⟨hsrcPort, hdstPort⟩ now
      rw [hcount.tables] at hafter
      exact ⟨by simp [hok], hcount.trans hafter⟩
    | some id =>
      obtain ⟨hok, hafter⟩ := hsound.onSegment id draw now hsrc hsrcPort
      rw [hcount.tables, hcount.onward.ip] at hafter
      exact ⟨by simp [hok], hcount.trans hafter⟩

theorem Sound.dispatch (h : s.Sound) (hsrc : packet.src.length = 4) (draw : SeqNo) (now : Time) :
    ((s.dispatch packet draw now).1 = .error .structError ↔ packet.Overlong) ∧
      After s (s.dispatch packet draw now).2 (s.toTables.step s.ip (s.delivery packet draw now)) := by
  by_cases htcp : packet.protocol = PROTO_TCP
  · have hicmp : packet.protocol ≠ PROTO_ICMP := by
      rw [htcp]
      decide
    rw [Stack.dispatch, if_neg hicmp, if_pos htcp]
    exact h.handleTcp hsrc htcp draw now
  · have hnot : ¬ packet.Overlong := fun ho => htcp ho.1
    have hquiet : s.toTables.step s.ip (s.delivery packet draw now) = s.toTables := by
      rw [delivery, if_neg htcp]
      rfl
    rw [hquiet, iff_false_right hnot]
    unfold Stack.dispatch
    split_ifs
    · exact handleIcmp_spec s packet now
    · exact handleUdp_spec s packet
    · exact ⟨nofun, .refl s⟩

theorem after_reassemble (s : Stack) (packet : IPv4Packet) (now : Time) :
    After s (s.reassemble packet now).2 s.toTables ∧
      (s.reassembler.Labelled → ∀ p, (s.reassemble packet now).1 = some p → p.src = packet.src) := by
  unfold reassemble
  split_ifs
  · refine ⟨⟨rfl, .refl _, fun hl => (hl.add packet now).1⟩, fun hl p hp => ?_⟩
    exact (Prod.mk.inj ((hl.add packet now).2 p hp)).1
  · refine ⟨.refl s, fun _ p hp => ?_⟩
    rw [Option.some.inj hp]

theorem Sound.attemptIpv4_cases (h : s.Sound) (frame : EthernetFrame) (draw : SeqNo) (now : Time) :
    (s.completed frame now = none ∧ (s.attemptIpv4 frame draw now).1 ≠ .error .structError ∧
      After s (s.attemptIpv4 frame draw now).2 s.toTables) ∨
    ∃ packet s', s.completed frame now = some packet ∧ packet.src.length = 4 ∧ After s s' s.toTables ∧
      s.attemptIpv4 frame draw now = s'.dispatch packet draw now := by
  have hparse := IPv4Packet.parse_ne frame.payload
  unfold attemptIpv4 completed
  cases hpacket : IPv4Packet.parse frame.payload with
  | error e => exact .inl ⟨rfl, passed_ne hparse hpacket, .refl s⟩
  | ok fragment =>
    have hcount := After.count s { s.stats with ipv4In := s.stats.ipv4In + 1 }
    have hsame : (({ s with stats := { s.stats with ipv4In := s.stats.ipv4In + 1 } } : Stack).reassemble
        fragment now).1 = (s.reassemble fragment now).1 := by
      unfold reassemble
      split_ifs <;> rfl
    dsimp only
    rw [← hsame]
    generalize ({ s with stats := { s.stats with ipv4In := s.stats.ipv4In + 1 } } : Stack) = s₁ at hcount
    obtain ⟨hafter, hsrc⟩ := after_reassemble s₁ fragment now
    have hsource := hsrc (hcount.labelled h.labelled)
    rw [hcount.tables] at hafter
    generalize s₁.reassemble fragment now = r at hafter hsource
    obtain ⟨whole, s₂⟩ := r
    have htrans := hcount.trans hafter
    cases whole with
    | none => exact .inl ⟨rfl, nofun, htrans⟩
    | some packet =>
      have hlength : packet.src.length = 4 := by
        rw [hsource packet rfl]
        exact IPv4Packet.length_src_of_parse hpacket
      have hip : s₂.ip = s.ip := htrans.onward.ip
      dsimp only
      rw [hip]
      by_cases hdst : packet.dst = s.ip ∨ packet.dst = IP_BROADCAST
      · right
        refine ⟨packet, s₂, ?_, hlength, htrans, ?_⟩
        · rw [Option.filter_some, if_pos (by simpa using hdst)]
        · rw [if_neg (by rwa [not_and_or, not_not, not_not])]
      · left
        rw [Option.filter_some, if_neg (by simpa using hdst), if_pos (not_or.mp hdst)]
        have hdropped := After.dropped s₂
        rw [htrans.tables] at hdropped
        exact ⟨rfl, nofun, htrans.trans hdropped⟩

/-- A frame either brings no datagram for this stack and raises nothing but `ValueError`, or what it brings is
dispatched. -/
theorem Sound.attempt_cases (h : s.Sound) (raw : Bytes) (draw : SeqNo) (now : Time) :
    (s.datagram raw now = none ∧ (s.attempt raw draw now).1 ≠ .error .structError ∧
      After s (s.attempt raw draw now).2 s.toTables) ∨
    ∃ packet s', s.datagram raw now = some packet ∧ packet.src.length = 4 ∧ After s s' s.toTables ∧
      s.attempt raw draw now = s'.dispatch packet draw now := by
  unfold attempt datagram
  cases hframe : EthernetFrame.parse raw with
  | error e =>
    refine .inl ⟨rfl, ?_, .refl s⟩
    unfold EthernetFrame.parse at hframe
    split_ifs at hframe
    cases hframe
    exact nofun
  | ok frame =>
    dsimp only
    split_ifs with haccepted hip harp harp
    · exact .inl ⟨rfl, nofun, .dropped s⟩
    · rw [harp] at hip
      exact absurd hip (by decide)
    · exact h.attemptIpv4_cases frame draw now
    · exact .inl ⟨rfl, h.ready.handleArp_ne frame now, .link (Interface.onward_handleArp _ frame now)⟩
    · exact .inl ⟨rfl, nofun, .dropped s⟩

theorem Sound.attempt (h : s.Sound) (raw : Bytes) (draw : SeqNo) (now : Time) :
    ((s.attempt raw draw now).1 = .error .structError ↔ ∃ packet ∈ s.datagram raw now, packet.Overlong) ∧
      After s (s.attempt raw draw now).2 (s.toTables.step s.ip (s.arrival raw draw now)) := by
  rw [arrival]
  rcases h.attempt_cases raw draw now with ⟨hnone, hne, hafter⟩ | ⟨packet, s', hsome, hsrc, hafter, hattempt⟩
  · rw [hnone]
    exact ⟨iff_of_false hne nofun, hafter⟩
  · obtain ⟨herror, hdispatch⟩ := (h.after hafter h.tables).dispatch hsrc draw now
    rw [hafter.tables, hafter.onward.ip] at hdispatch
    rw [hattempt, hsome, herror]
    refine ⟨by simp, ?_⟩
    have hdelivery : s'.delivery packet draw now = s.delivery packet draw now := by
      have hlookup : ∀ segment, s'.lookup packet segment = s.lookup packet segment := by
        intro segment
        rw [lookup, lookup, hafter.tables]
      rw [delivery, delivery]
      simp only [hlookup]
    rw [hdelivery] at hdispatch
    exact hafter.trans hdispatch

theorem Sound.handleFrame (h : s.Sound) (raw : Bytes) (draw : SeqNo) (now : Time) :
    ((s.handleFrame raw draw now).1 = .ok () ↔ ∀ packet ∈ s.datagram raw now, ¬ packet.Overlong) ∧
      After s (s.handleFrame raw draw now).2 (s.toTables.step s.ip (s.arrival raw draw now)) := by
  obtain ⟨herror, hafter⟩ := h.attempt raw draw now
  rw [handleFrame_eq]
  refine ⟨?_, hafter.caught⟩
  rw [caught_ok_iff, Ne, herror]
  simp

/-! ### Other events -/

theorem Sound.tickAll (h : s.Sound) (now : Time) (ids : List ConnId) :
    After s (tickAll now ids s) (ids.foldl (fun t id => t.called id (.tick now)) s.toTables) := by
  induction ids generalizing s with
  | nil => exact .refl s
  | cons id ids ih =>
    obtain ⟨hok, hcall⟩ := h.call id (.tick now) now
    have hrest := ih (h.after hcall (h.tables.called id _))
    rw [Stack.tickAll]
    generalize s.call id (.tick now) now = r at hok hcall hrest
    obtain ⟨result, s'⟩ := r
    obtain rfl := hok
    rw [hcall.tables] at hrest
    exact ⟨hrest.tables, hcall.onward.trans hrest.onward, fun hl => hrest.labelled (hcall.labelled hl)⟩

theorem Sound.tick (h : s.Sound) (now : Time) : After s (s.tick now) (s.toTables.tick now) := by
  have hall := h.tickAll now s.connections.values
  exact ⟨hall.tables, hall.onward.trans (.of_eq rfl rfl rfl rfl rfl rfl), hall.labelled⟩

theorem after_tables (s : Stack) (t : Tables) : After s { s with toTables := t } t := ⟨rfl, .refl _, id⟩

theorem Sound.tcpConnect (h : s.Sound) {remoteIp : Bytes} {remotePort port : Nat} (hip : remoteIp.length = 4)
    (hremote : remotePort ≤ 0xFFFF) (hport : port ≤ 0xFFFF) (draw : SeqNo) (now : Time) :
    After s (s.tcpConnect remoteIp remotePort port draw now).2
      (s.toTables.tcpConnect s.ip remoteIp remotePort port draw now) := by
  have hlocal := h.tables.localPort hport
  unfold Stack.tcpConnect onTables Tables.tcpConnect
  generalize s.localPort port = r at hlocal
  obtain ⟨found, t⟩ := r
  cases found with
  | error e => exact after_tables s t
  | ok found =>
    have hregister : (t.register s.ip found remoteIp remotePort).Sound :=
      hlocal.1.register (hlocal.2 found rfl) hip hremote
    have hafter := after_tables s (t.register s.ip found remoteIp remotePort)
    obtain ⟨hok, hcall⟩ := (h.after hafter hregister).call t.slots.length (.connect draw now) now
    dsimp only at hok hcall ⊢
    generalize Stack.call _ t.slots.length (.connect draw now) now = r at hok hcall
    obtain ⟨result, s'⟩ := r
    obtain rfl := hok
    exact ⟨hcall.tables, hcall.onward, hcall.labelled⟩

theorem Sound.connectWait (h : s.Sound) (id : ConnId) (expired : Bool) (now : Time) :
    After s (s.connectWait id expired now).2 (s.toTables.connectWait id expired now) := by
  unfold Stack.connectWait Tables.connectWait
  cases hslot : s.slots[id]? with
  | none => exact .refl s
  | some slot =>
    dsimp only
    split_ifs
    · exact .refl s
    · exact after_tables s _
    · exact after_tables s _
    · obtain ⟨hok, hcall⟩ := h.call id (.abort now) now
      generalize s.call id (.abort now) now = r at hok hcall
      obtain ⟨result, s'⟩ := r
      obtain rfl := hok
      refine ⟨?_, hcall.onward, hcall.labelled⟩
      change s'.toTables.refused id = _
      rw [hcall.tables]
    · exact .refl s

theorem Sound.tcpClose (h : s.Sound) (id : ConnId) (now : Time) :
    After s (s.tcpClose id now).2 (s.toTables.tcpClose id now) := by
  have hmark := after_tables s (s.markShut id)
  obtain ⟨-, hcall⟩ := (h.after hmark (h.tables.markShut id)).call id (.close now) now
  exact ⟨hcall.tables, hcall.onward, hcall.labelled⟩

theorem Sound.closeSocket (h : s.Sound) (id : ConnId) (now : Time) :
    After s (s.closeSocket id now).2 (s.toTables.closeSocket id now) := by
  unfold Stack.closeSocket Tables.closeSocket
  split_ifs
  · exact after_tables s _
  · exact h.tcpClose id now

theorem after_udpSend (s : Stack) (payload remoteIp : Bytes) (remotePort port : Nat) (now : Time) :
    After s (s.udpSend payload remoteIp remotePort port now).2 (s.localPort port).2 := by
  unfold udpSend onTables
  generalize s.localPort port = r
  obtain ⟨found, t⟩ := r
  cases found with
  | error e => exact after_tables s t
  | ok found =>
    have htables := after_tables s t
    have hcount := After.count { s with toTables := t } { s.stats with udpOut := s.stats.udpOut + 1 }
    dsimp only
    cases UDPSegment.toBytes _ _ _ _ with
    | error e => exact ⟨hcount.tables, htables.onward.trans hcount.onward, fun hl => hl⟩
    | ok data =>
      obtain ⟨-, hafter⟩ := after_sendOwn
        { s with toTables := t, stats := { s.stats with udpOut := s.stats.udpOut + 1 } }
        (show PROTO_UDP ≤ 0xFF by decide) remoteIp data now
      exact ⟨hafter.tables, hcount.onward.trans hafter.onward, hafter.labelled⟩

variable (s) in
/-- What an event is for the tables. -/
def view : StackEvent → TableEvent
  | .frame raw draw now => s.arrival raw draw now
  | .tick now => .tick now
  | .tcpListen port backlog => .tcpListen port backlog
  | .tcpAccept port expired => .tcpAccept port expired
  | .tcpConnect remote port draw now => .tcpConnect remote.ip remote.port port draw now
  | .connectWait id expired now => .connectWait id expired now
  | .send id data now => .send id data now
  | .recv id maxBytes now => .recv id maxBytes now
  | .abort id now => .abort id now
  | .tcpClose id now => .tcpClose id now
  | .closeSocket id now => .closeSocket id now
  | .udpBind _ _ => .quiet
  | .udpUnbind _ => .quiet
  | .udpSend _ _ port _ => .allocate port

theorem port_le (port : Port) : (port : Nat) ≤ 0xFFFF := Nat.le_of_lt_succ port.isLt

theorem Sound.onWire_arrival (h : s.Sound) (raw : Bytes) (draw : SeqNo) (now : Time) :
    (s.arrival raw draw now).OnWire := by
  unfold arrival
  rcases h.attempt_cases raw draw now with ⟨hnone, -⟩ | ⟨packet, -, hsome, hsrc, -⟩
  · rw [hnone]
    trivial
  · rw [hsome]
    dsimp only
    unfold delivery
    split_ifs
    · split
      · trivial
      · rename_i segment hsegment
        split
        · trivial
        · exact ⟨hsrc, (TCPSegment.ports_of_parse hsegment).1⟩
    · trivial

theorem Sound.onWire_view (h : s.Sound) (e : StackEvent) : (s.view e).OnWire := by
  cases e with
  | frame raw draw now => exact h.onWire_arrival raw draw now
  | tcpListen port backlog => exact port_le port
  | tcpConnect remote port draw now => exact ⟨remote.ip_length, port_le remote.port, port_le port⟩
  | udpSend payload remote port now => exact port_le port
  | _ => trivial

/-- What an event does to the tables of a sound stack is what `Tables.step` does with its view. -/
theorem Sound.after_step (h : s.Sound) (e : StackEvent) :
    After s (s.step e) (s.toTables.step s.ip (s.view e)) := by
  cases e with
  | frame raw draw now => exact (h.handleFrame raw draw now).2
  | tick now => exact h.tick now
  | tcpListen port backlog => exact after_tables s _
  | tcpAccept port expired => exact after_tables s _
  | tcpConnect remote port draw now =>
    exact h.tcpConnect remote.ip_length (port_le remote.port) (port_le port) draw now
  | connectWait id expired now => exact h.connectWait id expired now
  | send id data now => exact (h.call id _ now).2
  | recv id maxBytes now => exact (h.call id _ now).2
  | abort id now => exact (h.call id _ now).2
  | tcpClose id now => exact h.tcpClose id now
  | closeSocket id now => exact h.closeSocket id now
  | udpBind port handler => exact ⟨rfl, .refl _, id⟩
  | udpUnbind port => exact ⟨rfl, .refl _, id⟩
  | udpSend payload remote port now => exact after_udpSend s payload remote.ip remote.port port now

theorem Sound.tables_step (h : s.Sound) (e : StackEvent) :
    (s.step e).toTables = s.toTables.step s.ip (s.view e) := (h.after_step e).tables

theorem Sound.step (h : s.Sound) (e : StackEvent) : (s.step e).Sound :=
  h.after (h.after_step e) (h.tables.step (h.onWire_view e))

theorem sound_new (cfg : StackConfig) : (Stack.new cfg).Sound where
  ready :=
    { mac := cfg.mac_length
      ip := cfg.ip_length
      netmask := cfg.netmask_length
      gateway := cfg.gateway_length
      nextId := show 1 ≤ 0xFFFF by decide
      parked := fun _ h => absurd h List.not_mem_nil }
  labelled := fun _ _ h => by cases h
  tables :=
    { slots := fun _ h => absurd h List.not_mem_nil
      nextPort := show FIRST_EPHEMERAL_PORT ≤ LAST_EPHEMERAL_PORT by decide }

/-- Every reachable stack is sound. -/
theorem sound (h : stack.Reachable s) : s.Sound := by
  refine Machine.ReachableBy.induction stack (fun s hs => ?_) (fun s e _ hs _ => hs.step e) h
  obtain ⟨cfg, rfl⟩ := hs
  exact sound_new cfg

end Stack

end MiniTcp
