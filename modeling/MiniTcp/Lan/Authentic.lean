import MiniTcp.Lan

/-!
# What the stacks of a network believe

On a wire that corrupts nothing, every frame that a stack is given is one of another stack's own (`authentic`). So the
caches hold nothing but the addresses of other stacks (`truthful`), and a handler of a UDP port is called only with
what another stack was asked to send to it (`delivered`).
-/

namespace MiniTcp

theorem UDPSegment.inWireRange_of_toBytes {seg : UDPSegment} {src dst : Option Bytes} {data : Bytes}
    (h : seg.toBytes src dst = .ok data) : seg.InWireRange := by
  unfold toBytes at h
  split_ifs at h with hsrc hdst htotal
  exact ⟨hsrc, hdst, Nat.not_lt.mp htotal⟩

/-! ### Caches -/

namespace Interface

variable {i : Interface} {entry : Bytes × Bytes × Time}

theorem mem_cache_perform {e : LinkEvent} (h : entry ∈ (i.perform e).arpCache.entries.items) :
    entry ∈ i.arpCache.entries.items ∨ ∃ frame now packet, e = .arp frame now ∧
      ARPPacket.parse frame.payload = .ok packet ∧ entry.1 = packet.senderIp ∧ entry.2.1 = packet.senderMac := by
  cases e with
  | send packet now =>
    left
    rw [perform] at h
    cases htarget : i.hopOf packet with
    | error e =>
      unfold sendIpv4 at h
      rw [htarget] at h
      exact h
    | ok hop =>
      rcases sendIpv4_spec now htarget with ⟨out, -, -, hsends⟩ | ⟨a, queue, -, -, -, hsends⟩
      · rw [hsends.arpCache] at h
        exact h
      · rw [hsends.arpCache] at h
        exact ARPCache.mem_of_mem_lookup h
  | arp frame now =>
    rw [perform] at h
    cases hparse : ARPPacket.parse frame.payload with
    | error e =>
      unfold handleArp at h
      rw [hparse] at h
      exact .inl h
    | ok packet =>
      obtain ⟨gone, -, hsends⟩ := handleArp_spec (i := i) now hparse
      rw [hsends.arpCache] at h
      refine (ARPCache.mem_of_mem_store h).imp_right fun heq => ?_
      exact ⟨frame, now, packet, rfl, hparse, heq⟩
  | expire now => exact .inl (Dict.mem_filter.mp h).1
  | allocate => exact .inl h
  | count stats => exact .inl h

end Interface

namespace Stack

variable {s : Stack} {P : IPv4Packet → Prop} {mac ip raw : Bytes} {now : Time} {packet : IPv4Packet}

theorem arpFrame_parse {frame : EthernetFrame} (h : s.arpFrame raw = some frame) :
    EthernetFrame.parse raw = .ok frame ∧ frame.ethertype = ETHERTYPE_ARP := by
  unfold arpFrame at h
  split at h
  · cases h
  · rename_i found hparse
    split_ifs at h with _ htype
    obtain rfl := Option.some.inj h
    exact ⟨hparse, htype⟩

theorem mem_cache_step {e : StackEvent} {entry : Bytes × Bytes × Time}
    (h : entry ∈ (s.step e).arpCache.entries.items) : entry ∈ s.arpCache.entries.items ∨
      ∃ raw draw now frame packet, e = .frame raw draw now ∧ EthernetFrame.parse raw = .ok frame ∧
        frame.ethertype = ETHERTYPE_ARP ∧ ARPPacket.parse frame.payload = .ok packet ∧
        entry.1 = packet.senderIp ∧ entry.2.1 = packet.senderMac := by
  cases harp : s.arpOf e with
  | none =>
    left
    refine (s.performsQuietly_step harp).induction
      (P := fun j => entry ∈ j.arpCache.entries.items → entry ∈ s.arpCache.entries.items) ?_ id h
    intro j e he hj hmem
    rcases Interface.mem_cache_perform hmem with hold | ⟨frame, now, packet, rfl, -⟩
    · exact hj hold
    · cases he
  | some frame =>
    obtain ⟨now, stats, heq⟩ := s.step_of_arp harp
    have hmem : entry ∈ (s.toInterface.perform (.arp frame now)).arpCache.entries.items := by
      rw [heq] at h
      exact h
    refine (Interface.mem_cache_perform hmem).imp_right ?_
    rintro ⟨frame', now', packet, hevent, hparse, hentry⟩
    cases hevent
    cases e with
    | frame raw draw now =>
      obtain ⟨hframe, htype⟩ := arpFrame_parse harp
      exact ⟨raw, draw, now, frame, packet, rfl, hframe, htype, hparse, hentry⟩
    | _ => cases harp

theorem sender_of_carries (h : Interface.Carries P mac ip raw) {frame : EthernetFrame} {packet : ARPPacket}
    (hframe : EthernetFrame.parse raw = .ok frame) (htype : frame.ethertype = ETHERTYPE_ARP)
    (hparse : ARPPacket.parse frame.payload = .ok packet) : packet.senderIp = ip ∧ packet.senderMac = mac := by
  cases h with
  | arp found packet' hfound _ _ hpacket hmac hip =>
    obtain rfl := Except.ok.inj (hframe.symm.trans hfound)
    obtain rfl := Except.ok.inj (hparse.symm.trans hpacket)
    exact ⟨hip, hmac⟩
  | ipv4 found packet' hfound _ hip _ _ =>
    obtain rfl := Except.ok.inj (hframe.symm.trans hfound)
    rw [htype] at hip
    cases hip

/-! ### Datagrams -/

theorem packet_of_carries (h : Interface.Carries P mac ip raw) (hplain : ∀ p, P p → p.Plain)
    (hdatagram : s.datagram raw now = some packet) :
    P packet ∧ (packet.dst = s.ip ∨ packet.dst = IP_BROADCAST) := by
  unfold datagram at hdatagram
  cases h with
  | arp frame _ hframe _ htype _ _ _ =>
    rw [hframe] at hdatagram
    dsimp only at hdatagram
    rw [htype] at hdatagram
    split_ifs at hdatagram with _ hip
    cases hip
  | ipv4 frame found hframe _ _ hpacket hp =>
    rw [hframe] at hdatagram
    dsimp only at hdatagram
    split_ifs at hdatagram
    have hwhole : found.isFragmented = false := by
      rw [IPv4Packet.isFragmented, (hplain found hp).flags, (hplain found hp).fragmentOffset]
      rfl
    unfold completed reassemble at hdatagram
    rw [hpacket] at hdatagram
    dsimp only at hdatagram
    rw [hwhole, if_neg Bool.false_ne_true, Option.filter_some] at hdatagram
    split_ifs at hdatagram with hdst
    obtain rfl := Option.some.inj hdatagram
    exact ⟨hp, by simpa using hdst⟩

/-- The handlers stay, and nothing was handed to one. -/
def Unheard (s s' : Stack) : Prop := s'.handled = s.handled ∧ s'.udpHandlers = s.udpHandlers

namespace Unheard

variable {s' s'' : Stack}

theorem refl (s : Stack) : Unheard s s := ⟨rfl, rfl⟩

theorem trans (h : Unheard s s') (h' : Unheard s' s'') : Unheard s s'' :=
  ⟨h'.1.trans h.1, h'.2.trans h.2⟩

theorem transmitSegment (s : Stack) (x : TCPSegment) (remoteIp : Bytes) (now : Time) :
    Unheard s (s.transmitSegment x remoteIp now).2 := by
  unfold Stack.transmitSegment
  dsimp only
  split <;> exact ⟨rfl, rfl⟩

theorem transmitAll (remoteIp : Bytes) (now : Time) (segments : List TCPSegment) (s : Stack) :
    Unheard s (Stack.transmitAll remoteIp now segments s).2 := by
  induction segments generalizing s with
  | nil => exact refl s
  | cons x rest ih =>
    have hfirst := transmitSegment s x remoteIp now
    rw [Stack.transmitAll]
    generalize s.transmitSegment x remoteIp now = r at hfirst
    obtain ⟨result, s'⟩ := r
    cases result with
    | error e => exact hfirst
    | ok _ => exact hfirst.trans (ih s')

theorem call (s : Stack) (id : ConnId) (e : Event) (now : Time) : Unheard s (s.call id e now).2 := by
  unfold Stack.call
  split
  · exact refl s
  · rename_i slot _
    have hall := transmitAll (slot.ep.step e).conn.cfg.remoteIp now
      ((slot.ep.step e).conn.sent.drop slot.ep.conn.sent.length)
      { s with toTables := s.modifySlot id fun slot => { slot with ep := slot.ep.step e } }
    dsimp only
    split <;> rename_i heq <;> rw [heq] at hall <;> exact hall

theorem adopt (s : Stack) (onAccept : Option Nat) (child : TCPConnection) (now : Time) :
    Unheard s (s.adopt onAccept child now).2 := by
  have hall := transmitAll child.cfg.remoteIp now child.sent
    { s with toTables := s.add (Tables.childSlot onAccept child) }
  unfold Stack.adopt
  dsimp only
  split
  · rename_i heq
    rw [heq] at hall
    exact hall
  · rename_i heq
    rw [heq] at hall
    cases onAccept <;> exact hall

theorem onSegment (s : Stack) (id : ConnId) (seg : TCPSegment) (src : Bytes) (draw : SeqNo) (now : Time) :
    Unheard s (s.onSegment id seg src draw now).2 := by
  unfold Stack.onSegment
  split
  · exact refl s
  · have hcall := call s id (.segment seg (some src) draw now) now
    split
    · rename_i heq
      rw [heq] at hcall
      exact hcall
    · rename_i heq
      rw [heq] at hcall
      split
      · exact hcall
      · exact hcall.trans (adopt _ _ _ _)

theorem handleIcmp (s : Stack) (packet : IPv4Packet) (now : Time) : Unheard s (s.handleIcmp packet now).2 := by
  unfold Stack.handleIcmp
  split
  · exact refl s
  · split_ifs
    · exact refl s
    · split
      · exact refl s
      · dsimp only
        split <;> exact ⟨rfl, rfl⟩

theorem handleTcp (s : Stack) (packet : IPv4Packet) (draw : SeqNo) (now : Time) :
    Unheard s (s.handleTcp packet draw now).2 := by
  have hcount : Unheard s { s with stats := { s.stats with tcpIn := s.stats.tcpIn + 1 } } := ⟨rfl, rfl⟩
  unfold Stack.handleTcp
  generalize ({ s with stats := { s.stats with tcpIn := s.stats.tcpIn + 1 } } : Stack) = s' at hcount ⊢
  split
  · exact refl s
  · dsimp only
    split
    · exact hcount.trans (onSegment _ _ _ _ _ _)
    · refine hcount.trans ?_
      unfold sendReset
      split_ifs
      · exact refl s'
      · split <;> exact ⟨rfl, rfl⟩

theorem tickAll (now : Time) (ids : List ConnId) (s : Stack) : Unheard s (Stack.tickAll now ids s) := by
  induction ids generalizing s with
  | nil => exact refl s
  | cons id ids ih =>
    have hcall := call s id (.tick now) now
    rw [Stack.tickAll]
    generalize s.call id (.tick now) now = r at hcall
    obtain ⟨result, s'⟩ := r
    cases result with
    | error e =>
      have hcount : Unheard s' { s' with stats := { s'.stats with errors := s'.stats.errors + 1 } } := ⟨rfl, rfl⟩
      exact (hcall.trans hcount).trans (ih _)
    | ok _ => exact hcall.trans (ih s')

theorem tcpConnect (s : Stack) (remoteIp : Bytes) (remotePort port : Nat) (draw : SeqNo) (now : Time) :
    Unheard s (s.tcpConnect remoteIp remotePort port draw now).2 := by
  unfold Stack.tcpConnect onTables
  generalize s.localPort port = r
  obtain ⟨found, t⟩ := r
  cases found with
  | error e => exact ⟨rfl, rfl⟩
  | ok found =>
    have hcall := call { s with toTables := t.register s.ip found remoteIp remotePort } t.slots.length
      (.connect draw now) now
    dsimp only at hcall ⊢
    split <;> rename_i heq <;> rw [heq] at hcall <;> exact hcall

theorem connectWait (s : Stack) (id : ConnId) (expired : Bool) (now : Time) :
    Unheard s (s.connectWait id expired now).2 := by
  have habort := call s id (.abort now) now
  unfold Stack.connectWait
  split
  · exact refl s
  · dsimp only
    split_ifs
    · exact refl s
    · exact ⟨rfl, rfl⟩
    · exact ⟨rfl, rfl⟩
    · split <;> rename_i heq <;> rw [heq] at habort <;> exact habort
    · exact refl s

theorem tcpClose (s : Stack) (id : ConnId) (now : Time) : Unheard s (s.tcpClose id now).2 :=
  call { s with toTables := s.markShut id } id (.close now) now

theorem closeSocket (s : Stack) (id : ConnId) (now : Time) : Unheard s (s.closeSocket id now).2 := by
  unfold Stack.closeSocket
  split_ifs
  · exact ⟨rfl, rfl⟩
  · exact tcpClose s id now

theorem udpSend (s : Stack) (payload remoteIp : Bytes) (remotePort port : Nat) (now : Time) :
    Unheard s (s.udpSend payload remoteIp remotePort port now).2 := by
  unfold Stack.udpSend onTables
  generalize s.localPort port = r
  obtain ⟨found, t⟩ := r
  cases found with
  | error e => exact ⟨rfl, rfl⟩
  | ok found =>
    dsimp only
    split <;> exact ⟨rfl, rfl⟩

end Unheard

/-- What a datagram hands to a handler. -/
def Hands (s : Stack) (packet : IPv4Packet) (seg : UDPSegment) (handler : Nat) : Prop :=
  packet.protocol = PROTO_UDP ∧ UDPSegment.parse packet.payload packet.src packet.dst = .ok seg ∧
    s.udpHandlers.get? seg.dstPort = some handler

theorem handled_dispatch (s : Stack) (packet : IPv4Packet) (draw : SeqNo) (now : Time) :
    Unheard s (s.dispatch packet draw now).2 ∨ ∃ seg handler, s.Hands packet seg handler ∧
      (s.dispatch packet draw now).2.handled = s.handled ++ [(handler, seg.payload, packet.src, seg.srcPort)] := by
  unfold dispatch
  split_ifs with hicmp htcp hudp
  · exact .inl (.handleIcmp s packet now)
  · exact .inl (.handleTcp s packet draw now)
  · unfold handleUdp
    cases hparse : UDPSegment.parse packet.payload packet.src packet.dst with
    | error e => exact .inl (.refl s)
    | ok seg =>
      dsimp only
      cases hhandler : s.udpHandlers.get? seg.dstPort with
      | none => exact .inl ⟨rfl, rfl⟩
      | some handler => exact .inr ⟨seg, handler, ⟨hudp, hparse, hhandler⟩, rfl⟩
  · exact .inl (.refl s)

theorem handled_attemptIpv4 (s : Stack) (frame : EthernetFrame) (draw : SeqNo) (now : Time) :
    (s.attemptIpv4 frame draw now).2.handled = s.handled ∨ ∃ packet seg handler, s.completed frame now = some packet ∧
      s.Hands packet seg handler ∧ (s.attemptIpv4 frame draw now).2.handled =
        s.handled ++ [(handler, seg.payload, packet.src, seg.srcPort)] := by
  unfold attemptIpv4 completed
  cases hpacket : IPv4Packet.parse frame.payload with
  | error e => exact .inl rfl
  | ok fragment =>
    have hcount : Unheard s { s with stats := { s.stats with ipv4In := s.stats.ipv4In + 1 } } := ⟨rfl, rfl⟩
    have hip : ({ s with stats := { s.stats with ipv4In := s.stats.ipv4In + 1 } } : Stack).ip = s.ip := rfl
    have hsame : (({ s with stats := { s.stats with ipv4In := s.stats.ipv4In + 1 } } : Stack).reassemble
        fragment now).1 = (s.reassemble fragment now).1 := by
      unfold reassemble
      split_ifs <;> rfl
    dsimp only
    rw [← hsame]
    generalize ({ s with stats := { s.stats with ipv4In := s.stats.ipv4In + 1 } } : Stack) = s₁ at hcount hip
    have hkeep : Unheard s₁ (s₁.reassemble fragment now).2 ∧ (s₁.reassemble fragment now).2.ip = s₁.ip := by
      unfold reassemble
      split_ifs <;> exact ⟨⟨rfl, rfl⟩, rfl⟩
    generalize s₁.reassemble fragment now = r at hkeep
    obtain ⟨whole, s₂⟩ := r
    have hunheard := hcount.trans hkeep.1
    have hip₂ : s₂.ip = s.ip := hkeep.2.trans hip
    cases whole with
    | none => exact .inl hunheard.1
    | some packet =>
      dsimp only
      rw [hip₂]
      by_cases hdst : packet.dst = s.ip ∨ packet.dst = IP_BROADCAST
      · rw [if_neg (by rwa [not_and_or, not_not, not_not])]
        rcases handled_dispatch s₂ packet draw now with hsame | ⟨seg, handler, hhands, heq⟩
        · exact .inl (hunheard.trans hsame).1
        · refine .inr ⟨packet, seg, handler, ?_, ?_, heq.trans (by rw [hunheard.1])⟩
          · rw [Option.filter_some, if_pos (by simpa using hdst)]
          · rw [Hands, ← hunheard.2]
            exact hhands
      · rw [if_pos (not_or.mp hdst)]
        exact .inl hunheard.1

theorem handled_caught (r : Except PyError Unit × Stack) : (caught r).2.handled = r.2.handled := by
  obtain ⟨result, s⟩ := r
  match result with
  | .error (.valueError _) => rfl
  | .error .structError => rfl
  | .ok () => rfl

theorem handled_attempt (s : Stack) (raw : Bytes) (draw : SeqNo) (now : Time) :
    (s.attempt raw draw now).2.handled = s.handled ∨ ∃ packet seg handler, s.datagram raw now = some packet ∧
      s.Hands packet seg handler ∧ (s.attempt raw draw now).2.handled =
        s.handled ++ [(handler, seg.payload, packet.src, seg.srcPort)] := by
  unfold attempt datagram
  cases hframe : EthernetFrame.parse raw with
  | error e => exact .inl rfl
  | ok frame =>
    dsimp only
    by_cases haccepted : (!s.promiscuous && !frame.acceptedBy s.mac) = true
    · rw [if_pos haccepted]
      exact .inl rfl
    · rw [if_neg haccepted, if_neg haccepted]
      split_ifs with harp hip
      · exact .inl rfl
      · exact .inl rfl
      · exact handled_attemptIpv4 s frame draw now
      · exact .inl rfl

theorem handled_step (s : Stack) (e : StackEvent) : (s.step e).handled = s.handled ∨
    ∃ raw draw now packet seg handler, e = .frame raw draw now ∧ s.datagram raw now = some packet ∧
      s.Hands packet seg handler ∧
      (s.step e).handled = s.handled ++ [(handler, seg.payload, packet.src, seg.srcPort)] := by
  cases e with
  | frame raw draw now =>
    change (s.handleFrame raw draw now).2.handled = _ ∨ _
    rw [handleFrame_eq, handled_caught]
    rcases handled_attempt s raw draw now with hsame | ⟨packet, seg, handler, hdatagram, hhands, heq⟩
    · exact .inl hsame
    · refine .inr ⟨raw, draw, now, packet, seg, handler, rfl, hdatagram, hhands, ?_⟩
      change (s.handleFrame raw draw now).2.handled = _
      rw [handleFrame_eq, handled_caught, heq]
  | tick now => exact .inl (Unheard.tickAll now _ s).1
  | tcpConnect remote port draw now => exact .inl (Unheard.tcpConnect s _ _ _ _ _).1
  | connectWait id expired now => exact .inl (Unheard.connectWait s id expired now).1
  | send id data now => exact .inl (Unheard.call s id _ now).1
  | recv id maxBytes now => exact .inl (Unheard.call s id _ now).1
  | abort id now => exact .inl (Unheard.call s id _ now).1
  | tcpClose id now => exact .inl (Unheard.tcpClose s id now).1
  | closeSocket id now => exact .inl (Unheard.closeSocket s id now).1
  | udpSend payload remote port now => exact .inl (Unheard.udpSend s _ _ _ _ now).1
  | tcpListen | tcpAccept | udpBind | udpUnbind => exact .inl rfl

end Stack

namespace Lan

open Stack (Origin)

variable {n : Nat} {cfg : Fin n → StackConfig} {fault : FaultProfile} {L : Lan n} {i : Fin n} {raw : Bytes}

theorem carried_of_clean (h : fault.corrupt.1 = 0) (draws : Draws) (frame : Bytes) :
    fault.carried draws frame = frame := by
  have hnone : fault.corrupt.strikes draws.corrupt = false := by
    rw [Probability.strikes, h]
    simp
  rw [FaultProfile.carried, hnone, if_neg Bool.false_ne_true]

/-- On a wire that corrupts nothing, what a link has or will have is what another stack has sent. -/
theorem Good.own (h : L.Good cfg fault) (hclean : fault.corrupt.1 = 0)
    (hraw : raw ∈ L.wire.held i ++ L.wire.inFlight i) :
    ∃ j ≠ i, Interface.Carries (Origin (L.host j) (L.said j)) (cfg j).mac (cfg j).ip raw := by
  obtain ⟨j, hj, frame, hframe, draws, rfl⟩ := h.heard hraw
  rw [carried_of_clean hclean]
  have hcarries := (h.genuine j).link frame hframe
  rw [(h.addresses j).1, (h.addresses j).2] at hcarries
  exact ⟨j, hj, hcarries⟩

/-- The caches hold the addresses of other stacks. -/
def Truthful (cfg : Fin n → StackConfig) (L : Lan n) : Prop :=
  ∀ i, ∀ entry ∈ (L.host i).arpCache.entries.items, ∃ j ≠ i, entry.1 = (cfg j).ip ∧ entry.2.1 = (cfg j).mac

/-- Every call of a handler is for a datagram that another stack was asked to send to this one. -/
def Delivered (cfg : Fin n → StackConfig) (L : Lan n) : Prop :=
  ∀ i, ∀ call ∈ (L.host i).handled, ∃ j ≠ i, ∃ d ∈ L.said j,
    call.2 = (d.1.payload, (cfg j).ip, d.1.srcPort) ∧ (d.2 = (cfg i).ip ∨ d.2 = IP_BROADCAST)

theorem said_subset_act (L : Lan n) (i j : Fin n) (e : StackEvent) (draws : Nat → Draws) :
    L.said j ⊆ (L.act i e draws).said j := by
  by_cases hj : j = i
  · subst hj
    rw [said_act]
    exact List.subset_append_left _ _
  · rw [L.said_act_of_ne hj]
    exact List.Subset.refl _

theorem Truthful.act (h : L.Truthful cfg) (hgood : L.Good cfg fault) (hclean : fault.corrupt.1 = 0) {e : StackEvent}
    (he : ∀ raw draw now, e = .frame raw draw now → raw ∈ L.wire.held i) (draws : Nat → Draws) :
    (L.act i e draws).Truthful cfg := by
  intro k entry hentry
  by_cases hk : k = i
  · subst hk
    rw [host_act] at hentry
    rcases Stack.mem_cache_step hentry with hold |
      ⟨raw, draw, now, frame, packet, rfl, hframe, htype, hparse, hip, hmac⟩
    · exact h k entry hold
    · obtain ⟨j, hj, hcarries⟩ := hgood.own hclean (List.mem_append_left _ (he raw draw now rfl))
      obtain ⟨hsenderIp, hsenderMac⟩ := Stack.sender_of_carries hcarries hframe htype hparse
      exact ⟨j, hj, hip.trans hsenderIp, hmac.trans hsenderMac⟩
  · rw [L.host_act_of_ne hk] at hentry
    exact h k entry hentry

theorem said_of_hands (hgood : L.Good cfg fault) (hclean : fault.corrupt.1 = 0) (hraw : raw ∈ L.wire.held i)
    {now : Time} {packet : IPv4Packet} (hdatagram : (L.host i).datagram raw now = some packet) {seg : UDPSegment}
    {handler : Nat} (hhands : (L.host i).Hands packet seg handler) :
    ∃ j ≠ i, ∃ d ∈ L.said j, (seg.payload, packet.src, seg.srcPort) = (d.1.payload, (cfg j).ip, d.1.srcPort) ∧
      (d.2 = (cfg i).ip ∨ d.2 = IP_BROADCAST) := by
  obtain ⟨j, hj, hcarries⟩ := hgood.own hclean (List.mem_append_left _ hraw)
  obtain ⟨horigin, hdst⟩ := Stack.packet_of_carries hcarries (fun _ hp => hp.plain) hdatagram
  obtain ⟨hprotocol, hparse, -⟩ := hhands
  cases horigin with
  | segment => cases hprotocol
  | reset => cases hprotocol
  | echo => cases hprotocol
  | @datagram d dst payload id hid hsaid hbytes =>
    have hlength : dst.length = 4 := by
      rcases hdst with heq | heq
      · exact (congrArg List.length heq).trans (Stack.sound (hgood.host i)).ready.ip
      · exact congrArg List.length heq
    obtain ⟨data, csum, hdata, -, hparsed⟩ :=
      (UDPSegment.inWireRange_of_toBytes hbytes).parse_toBytes (Stack.sound (hgood.host j)).ready.ip hlength []
    obtain rfl := Except.ok.inj (hbytes.symm.trans hdata)
    rw [List.append_nil] at hparsed
    obtain rfl := Except.ok.inj (hparse.symm.trans hparsed)
    refine ⟨j, hj, (d, dst), hsaid, ?_, ?_⟩
    · rw [← (hgood.addresses j).2]
      rfl
    · rw [← (hgood.addresses i).2]
      exact hdst

theorem Delivered.act (h : L.Delivered cfg) (hgood : L.Good cfg fault) (hclean : fault.corrupt.1 = 0) {e : StackEvent}
    (he : ∀ raw draw now, e = .frame raw draw now → raw ∈ L.wire.held i) (draws : Nat → Draws) :
    (L.act i e draws).Delivered cfg := by
  intro k call hcall
  have hlater : ∀ {j : Fin n} {d : UDPSegment × Bytes}, d ∈ L.said j → d ∈ (L.act i e draws).said j :=
    fun {j d} hd => L.said_subset_act i j e draws hd
  by_cases hk : k = i
  · subst hk
    rw [host_act] at hcall
    rcases (L.host k).handled_step e with hsame |
      ⟨raw, draw, now, packet, seg, handler, rfl, hdatagram, hhands, heq⟩
    · rw [hsame] at hcall
      obtain ⟨j, hj, d, hd, hrest⟩ := h k call hcall
      exact ⟨j, hj, d, hlater hd, hrest⟩
    · rw [heq] at hcall
      rcases List.mem_append.mp hcall with hold | hnew
      · obtain ⟨j, hj, d, hd, hrest⟩ := h k call hold
        exact ⟨j, hj, d, hlater hd, hrest⟩
      · rw [List.mem_singleton.mp hnew]
        obtain ⟨j, hj, d, hd, hrest⟩ := said_of_hands hgood hclean (he raw draw now rfl) hdatagram hhands
        exact ⟨j, hj, d, hlater hd, hrest⟩
  · rw [L.host_act_of_ne hk] at hcall
    obtain ⟨j, hj, d, hd, hrest⟩ := h k call hcall
    exact ⟨j, hj, d, hlater hd, hrest⟩

/-- What every event at a stack keeps, when its frames come from its link, every step of the network keeps. -/
theorem reachable_induction {P : Lan n → Prop} (hstart : ∀ L, Started cfg fault L → P L)
    (hsame : ∀ L M : Lan n, M.host = L.host → M.said = L.said → P L → P M)
    (hact : ∀ (L : Lan n) (i : Fin n) (e : StackEvent) (draws : Nat → Draws), L.Good cfg fault → P L →
      (∀ raw draw now, e = .frame raw draw now → raw ∈ L.wire.held i) → P (L.act i e draws))
    (h : (lan cfg fault).Reachable L) : P L := by
  refine Machine.ReachableBy.induction (lan cfg fault) hstart (fun L e hreach hL _ => ?_) h
  rcases (good hreach).step_cases e with ⟨-, hhost, hsaid⟩ | ⟨M, i, e', draws, hgood, hhost, hsaid, heq, hfrom, -⟩
  · exact hsame L _ hhost hsaid hL
  · rw [lan_next, heq]
    exact hact M i e' draws hgood (hsame L M hhost hsaid hL) hfrom

instance hostsNeZero : NeZero 2 := ⟨by decide⟩

theorem secondHost_length : ([10, 0, 0, 2] : Bytes).length = 4 := rfl

/-- Stacks at 10.0.0.1 and 10.0.0.2. -/
def pair (i : Fin 2) : StackConfig :=
  { Stack.host with
    mac := [2, 0, 0, 0, 0, UInt8.ofNat (i + 1)]
    ip := [10, 0, 0, UInt8.ofNat (i + 1)]
    mac_length := rfl
    ip_length := rfl }

/-- A datagram that has to wait for the answer to an ARP request. -/
def greeting : List (LanEvent 2) :=
  [.call 1 ⟨.udpBind 9 7, rfl⟩ fun _ => {},
    .call 0 ⟨.udpSend [1, 2, 3] ⟨[10, 0, 0, 2], 9, secondHost_length⟩ 5000 0, rfl⟩ fun _ => {},
    .poll 1 0 0 fun _ => {}, .poll 0 0 0 fun _ => {}, .poll 1 0 0 fun _ => {}]

def greeted : Lan 2 := (lan pair {}).run (start pair {}) greeting

theorem reachable_greeted : (lan pair {}).Reachable greeted :=
  (Machine.ReachableBy.init (lan pair {}) (started_start pair {})).run (lan pair {}) ((lan pair {}).meets_true _ _)

/-- No frame that a stack sends is refused. What a link has, or what is under way to it, is one of another stack's own
frames or differs from it in one bit. -/
theorem frames_authentic (h : (lan cfg fault).Reachable L) (i : Fin n) :
    (∀ frame draws, ∃ w, L.wire.sendFrame i frame draws = .ok w) ∧
      ∀ raw ∈ L.wire.held i ++ L.wire.inFlight i, ∃ j ≠ i, ∃ frame ∈ (L.host j).link,
        VirtualWire.Resembles frame raw ∧
          Interface.Carries (Origin (L.host j) (L.said j)) (cfg j).mac (cfg j).ip frame := by
  have hgood := good h
  refine ⟨fun frame draws => ⟨_, (hgood.online i).sendFrame frame draws⟩, fun raw hraw => ?_⟩
  obtain ⟨j, hj, frame, hframe, draws, rfl⟩ := hgood.heard hraw
  have hcarries := (hgood.genuine j).link frame hframe
  rw [(hgood.addresses j).1, (hgood.addresses j).2] at hcarries
  exact ⟨j, hj, frame, hframe, VirtualWire.resembles_carried _ _ _, hcarries⟩

theorem frames_authentic_greeted : (greeted.wire.held 1).length = 2 ∧ ∀ raw ∈ greeted.wire.held 1,
    ∃ j ≠ (1 : Fin 2), ∃ frame ∈ (greeted.host j).link, VirtualWire.Resembles frame raw ∧
      Interface.Carries (Origin (greeted.host j) (greeted.said j)) (pair j).mac (pair j).ip frame :=
  ⟨by decide +kernel, fun raw hraw =>
    (frames_authentic reachable_greeted 1).2 raw (List.mem_append_left _ hraw)⟩

/-- On a wire that corrupts nothing no cache ever lies: every address in it is that of another stack, with the MAC of
this stack. -/
theorem caches_truthful (h : (lan cfg fault).Reachable L) (hclean : fault.corrupt.1 = 0) : L.Truthful cfg := by
  refine reachable_induction (P := fun L => L.Truthful cfg) ?_ ?_ ?_ h
  · rintro _ ⟨names, rfl⟩ i entry hentry
    exact absurd hentry List.not_mem_nil
  · intro L M hhost _ hL
    rw [Truthful, hhost]
    exact hL
  · intro L i e draws hgood hL he
    exact hL.act hgood hclean he draws

theorem caches_truthful_greeted : greeted.Truthful pair ∧
    ((greeted.host 1).arpCache.entries.items.map fun entry => (entry.1, entry.2.1)) =
      [([10, 0, 0, 1], [2, 0, 0, 0, 0, 1])] :=
  ⟨caches_truthful reachable_greeted (by decide), by decide +kernel⟩

theorem delivered (h : (lan cfg fault).Reachable L) (hclean : fault.corrupt.1 = 0) : L.Delivered cfg := by
  refine reachable_induction (P := fun L => L.Delivered cfg) ?_ ?_ ?_ h
  · rintro _ ⟨names, rfl⟩ i call hcall
    exact absurd hcall List.not_mem_nil
  · intro L M hhost hsaid hL
    rw [Delivered, hhost, hsaid]
    exact hL
  · intro L i e draws hgood hL he
    exact hL.act hgood hclean he draws

/-- On a wire that corrupts nothing, what a handler of a UDP port is given is what another stack was asked to send to
this one or to everyone, with the payload, the address and the port of the sender. -/
theorem datagrams_delivered (h : (lan cfg fault).Reachable L) (hclean : fault.corrupt.1 = 0) (i : Fin n)
    {handler : Nat} {payload src : Bytes} {port : Nat} (hcall : (handler, payload, src, port) ∈ (L.host i).handled) :
    ∃ j ≠ i, src = (cfg j).ip ∧ ∃ segment dst, (segment, dst) ∈ L.said j ∧ payload = segment.payload ∧
      port = segment.srcPort ∧ (dst = (cfg i).ip ∨ dst = IP_BROADCAST) := by
  obtain ⟨j, hj, ⟨segment, dst⟩, hsaid, heq, hdst⟩ := delivered h hclean i _ hcall
  obtain ⟨hpayload, hsrc, hport⟩ : _ ∧ _ ∧ _ := by simpa using heq
  exact ⟨j, hj, hsrc, segment, dst, hsaid, hpayload, hport, hdst⟩

theorem datagrams_delivered_greeted : (greeted.host 1).handled = [(7, [1, 2, 3], [10, 0, 0, 1], 5000)] ∧
    ∃ j ≠ 1, [10, 0, 0, 1] = (pair j).ip ∧ ∃ segment dst, (segment, dst) ∈ greeted.said j ∧
      [1, 2, 3] = segment.payload ∧ 5000 = segment.srcPort ∧ (dst = (pair 1).ip ∨ dst = IP_BROADCAST) :=
  have hhandled : (greeted.host 1).handled = [(7, [1, 2, 3], [10, 0, 0, 1], 5000)] := by decide +kernel
  ⟨hhandled, datagrams_delivered reachable_greeted (by decide) 1 (hhandled ▸ List.mem_cons_self)⟩

end Lan

end MiniTcp
