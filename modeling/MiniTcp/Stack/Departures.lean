import MiniTcp.Stack.Isolation
import MiniTcp.Stack.Operations
import MiniTcp.Stack.Waiting

/-!
# What leaves a stack

Every frame that a stack puts on its link can be decoded, and says who it is from: it is an ARP packet with the
addresses of the stack, or a datagram that was handed to `send_ipv4` (`Genuine`). And what is handed to `send_ipv4`
in a run has one of four origins (`Origin`): a segment that one of the connections has sent, a reset for a segment
that nothing is there for, the reply to an echo request, or a datagram of the application.
-/

namespace MiniTcp

/-- A datagram as `_send_own` and the like make it: `IPv4Packet(self.ip, dst, protocol, payload, ...)`. -/
def IPv4Packet.ofStack (ip : Bytes) (protocol : Nat) (dst payload : Bytes) (id : Nat) : IPv4Packet :=
  { src := ip, dst := dst, protocol := protocol, payload := payload, ttl := 64, identification := id }

/-- Not a fragment, and the numbers that `to_bytes` does not check fit. -/
structure IPv4Packet.Plain (p : IPv4Packet) : Prop where
  ordinary : p.Ordinary
  flags : p.flags = 0
  fragmentOffset : p.fragmentOffset = 0
  identification : p.identification ≤ 0xFFFF

theorem IPv4Packet.Plain.parse_toBytes {p : IPv4Packet} (h : p.Plain) {data : Bytes} (hdata : p.toBytes = .ok data)
    (rest : Bytes) : IPv4Packet.parse (data ++ rest) = .ok p := by
  have hencodes : p.encodes = true := by
    rw [encodes, hdata]
    rfl
  obtain ⟨hsrc, hdst, hpad, hoptions, htotal, hoffset, httl, hprotocol, hdscp⟩ := encodes_iff.mp hencodes
  have hrange : p.InWireRange :=
    ⟨hsrc, hdst, hprotocol, httl, h.identification, by rw [h.flags]; rfl, hoffset, hdscp, hpad, hoptions, htotal⟩
  obtain ⟨data', hdata', -, hparse⟩ := hrange.parse_toBytes rest
  obtain rfl := Except.ok.inj (hdata.symm.trans hdata')
  exact hparse

namespace ARPCache

variable {c : ARPCache} {ip mac : Bytes} {now : Time} {entry : Bytes × Bytes × Time}

theorem mem_of_mem_lookup (h : entry ∈ (c.lookup ip now).2.entries.items) : entry ∈ c.entries.items := by
  unfold lookup at h
  split at h
  · exact h
  · split_ifs at h
    · exact (Dict.mem_erase.mp h).1
    · exact h

theorem mem_of_lookup (h : (c.lookup ip now).1 = some mac) : ∃ time, (ip, mac, time) ∈ c.entries.items := by
  unfold lookup at h
  split at h
  · cases h
  · rename_i found expiresAt hfound
    split_ifs at h
    obtain rfl := Option.some.inj h
    exact ⟨expiresAt, Dict.get?_eq_some_iff.mp hfound⟩

theorem mem_of_mem_store (h : entry ∈ (c.store ip mac now).entries.items) :
    entry ∈ c.entries.items ∨ entry.1 = ip ∧ entry.2.1 = mac := by
  rcases Dict.mem_set.mp h with rfl | ⟨-, hold⟩
  · exact .inr ⟨rfl, rfl⟩
  · split_ifs at hold
    · split at hold
      · exact .inl (Dict.mem_erase.mp hold).1
      · exact .inl hold
    · exact .inl hold

end ARPCache

namespace Interface

variable {P Q : IPv4Packet → Prop} {i j k : Interface} {mac ip raw : Bytes}

/-! ### Frames on the link -/

/-- What a frame of the interface with these addresses is found to be. -/
inductive Carries (P : IPv4Packet → Prop) (mac ip raw : Bytes) : Prop
  | arp (frame : EthernetFrame) (packet : ARPPacket) (hframe : EthernetFrame.parse raw = .ok frame)
      (hsrc : frame.src = mac) (htype : frame.ethertype = ETHERTYPE_ARP)
      (hpacket : ARPPacket.parse frame.payload = .ok packet) (hmac : packet.senderMac = mac)
      (hip : packet.senderIp = ip)
  | ipv4 (frame : EthernetFrame) (packet : IPv4Packet) (hframe : EthernetFrame.parse raw = .ok frame)
      (hsrc : frame.src = mac) (htype : frame.ethertype = ETHERTYPE_IPV4)
      (hpacket : IPv4Packet.parse frame.payload = .ok packet) (hp : P packet)

theorem Carries.mono (h : Carries P mac ip raw) (hPQ : ∀ p, P p → Q p) : Carries Q mac ip raw := by
  cases h with
  | arp frame packet hframe hsrc htype hpacket hmac hip => exact .arp frame packet hframe hsrc htype hpacket hmac hip
  | ipv4 frame packet hframe hsrc htype hpacket hp => exact .ipv4 frame packet hframe hsrc htype hpacket (hPQ _ hp)

/-- Cached addresses have their length, what is parked satisfies `P`, and so does what was sent. -/
structure Genuine (P : IPv4Packet → Prop) (i : Interface) : Prop where
  mac : i.mac.length = 6
  ip : i.ip.length = 4
  cache : ∀ entry ∈ i.arpCache.entries.items, entry.2.1.length = 6
  parked : ∀ hop, ∀ p ∈ i.parked hop, P p
  link : ∀ raw ∈ i.link, Carries P i.mac i.ip raw

theorem Genuine.mono (h : i.Genuine P) (hPQ : ∀ p, P p → Q p) : i.Genuine Q :=
  ⟨h.mac, h.ip, h.cache, fun hop p hp => hPQ p (h.parked hop p hp), fun raw hraw => (h.link raw hraw).mono hPQ⟩

theorem Genuine.of_eq (h : i.Genuine P) (hmac : j.mac = i.mac) (hip : j.ip = i.ip) (hcache : j.arpCache = i.arpCache)
    (hpending : j.arpPending = i.arpPending) (hlink : j.link = i.link) : j.Genuine P := by
  refine ⟨hmac ▸ h.mac, hip ▸ h.ip, hcache ▸ h.cache, ?_, ?_⟩
  · intro hop
    rw [Interface.parked, hpending]
    exact h.parked hop
  · rw [hlink, hmac, hip]
    exact h.link

theorem Genuine.emit (h : i.Genuine P) {dstMac : Bytes} {ethertype : Nat} {payload : Bytes} (htype : ethertype < 65536)
    (hdst : dstMac.length = 6)
    (hcarries : ∀ n raw, EthernetFrame.parse raw = .ok
      { dst := dstMac, src := i.mac, ethertype := ethertype, payload := payload ++ List.replicate n 0 } →
      Carries P i.mac i.ip raw) : (i.emit dstMac ethertype payload).2.Genuine P := by
  obtain ⟨raw, n, hraw, -, hparse⟩ := EthernetFrame.parse_toBytes
    (f := { dst := dstMac, src := i.mac, ethertype := ethertype, payload := payload }) hdst h.mac htype
  unfold Interface.emit
  dsimp only
  rw [hraw]
  refine ⟨h.mac, h.ip, h.cache, h.parked, fun raw' hmem => ?_⟩
  rcases List.mem_append.mp hmem with hold | hnew
  · exact h.link raw' hold
  · rw [List.mem_singleton.mp hnew]
    exact hcarries n raw hparse

theorem Genuine.emitPacket (h : i.Genuine P) (hop : Option Bytes) {mac : Bytes} {packet : IPv4Packet}
    (hmac : mac.length = 6) (hplain : packet.Plain) (hp : P packet) : (i.emitPacket hop mac packet).2.Genuine P := by
  unfold Interface.emitPacket
  cases hdata : packet.toBytes with
  | error e => exact h
  | ok data =>
    have hemit : (i.emit mac ETHERTYPE_IPV4 data).2.Genuine P := h.emit (by decide) hmac fun n raw hraw =>
      .ipv4 _ packet hraw rfl rfl (hplain.parse_toBytes hdata _) hp
    exact hemit.of_eq rfl rfl rfl rfl rfl

theorem Genuine.emitArp (h : i.Genuine P) {operation : Nat} {targetMac targetIp data dstMac : Bytes}
    (hoperation : operation ≤ 0xFFFF) (hmac : targetMac.length = 6) (hdst : dstMac.length = 6)
    (hdata : (ARPPacket.own operation i.mac i.ip targetMac targetIp).toBytes = .ok data) :
    (i.emit dstMac ETHERTYPE_ARP data).2.Genuine P := by
  have hip : targetIp.length = 4 := by
    unfold ARPPacket.toBytes at hdata
    split_ifs at hdata with h1 h2 h3 h4
    exact not_not.mp h4
  obtain ⟨data', hdata', hparse⟩ := ARPPacket.own_parse_toBytes hoperation h.mac h.ip hmac hip
  obtain rfl := Except.ok.inj (hdata.symm.trans hdata')
  exact h.emit (by decide) hdst fun n raw hraw => .arp _ _ hraw rfl rfl (hparse _) rfl rfl

theorem Genuine.sendArpRequest (h : i.Genuine P) (targetIp : Bytes) : (i.sendArpRequest targetIp).2.Genuine P := by
  have hcount : ({ i with stats := i.stats.arpRequestSent } : Interface).Genuine P := h.of_eq rfl rfl rfl rfl rfl
  unfold Interface.sendArpRequest
  dsimp only
  split
  · exact hcount
  · rename_i data hdata
    exact hcount.emitArp (show ARP_REQUEST ≤ 0xFFFF by decide) (List.length_replicate ..) (by decide) hdata

theorem Genuine.set (h : i.Genuine P) (hop : Bytes) {queue : List IPv4Packet} (hqueue : ∀ p ∈ queue, P p)
    (hpending : j.arpPending = i.arpPending.set hop queue) (hmac : j.mac = i.mac) (hip : j.ip = i.ip)
    (hcache : j.arpCache = i.arpCache) (hlink : j.link = i.link) : j.Genuine P := by
  refine ⟨hmac ▸ h.mac, hip ▸ h.ip, hcache ▸ h.cache, fun a p hp => ?_, ?_⟩
  · rw [parked_set hpending] at hp
    split_ifs at hp
    · exact hqueue p hp
    · exact h.parked a p hp
  · rw [hlink, hmac, hip]
    exact h.link

theorem Genuine.parkPending (h : i.Genuine P) (ip : Bytes) {packet : IPv4Packet} (hp : P packet) :
    (i.parkPending ip packet).2.Genuine P := by
  unfold Interface.parkPending
  dsimp only
  split_ifs
  · exact h.set ip (h.parked ip) rfl rfl rfl rfl rfl
  · have hset : ({ i with arpPending := i.arpPending.set ip (i.parked ip ++ [packet]) } : Interface).Genuine P := by
      refine h.set ip (fun p hmem => ?_) rfl rfl rfl rfl rfl
      rcases List.mem_append.mp hmem with hold | hnew
      · exact h.parked ip p hold
      · rw [List.mem_singleton.mp hnew]
        exact hp
    exact hset.sendArpRequest ip

theorem Genuine.emitAll (ip : Bytes) {mac : Bytes} (hmac : mac.length = 6) {queue : List IPv4Packet}
    (hqueue : ∀ p ∈ queue, p.Plain ∧ P p) (h : i.Genuine P) : (emitAll ip mac queue i).2.Genuine P := by
  induction queue generalizing i with
  | nil => exact h
  | cons packet queue ih =>
    have hfirst := hqueue packet List.mem_cons_self
    have hemit := h.emitPacket (some ip) hmac hfirst.1 hfirst.2
    rw [Interface.emitAll]
    generalize i.emitPacket (some ip) mac packet = r at hemit
    obtain ⟨result, k⟩ := r
    cases result with
    | error e => exact hemit
    | ok _ => exact ih (fun p hp => hqueue p (List.mem_cons_of_mem _ hp)) hemit

theorem Genuine.lookup (h : i.Genuine P) (hop : Bytes) (now : Time) :
    ({ i with arpCache := (i.arpCache.lookup hop now).2 } : Interface).Genuine P ∧
      ∀ mac, (i.arpCache.lookup hop now).1 = some mac → mac.length = 6 := by
  refine ⟨⟨h.mac, h.ip, fun entry hentry => h.cache entry (ARPCache.mem_of_mem_lookup hentry), h.parked, h.link⟩, ?_⟩
  intro mac hmac
  obtain ⟨time, hmem⟩ := ARPCache.mem_of_lookup hmac
  exact h.cache _ hmem

theorem Genuine.sendIpv4 (h : i.Genuine P) {packet : IPv4Packet} (hplain : packet.Plain) (hp : P packet)
    (now : Time) : (i.sendIpv4 packet now).2.Genuine P := by
  unfold Interface.sendIpv4
  split
  · exact h
  · exact h.emitPacket none (by decide) hplain hp
  · rename_i hop _
    obtain ⟨hlooked, hlength⟩ := h.lookup hop now
    dsimp only
    cases hmac : (i.arpCache.lookup hop now).1 with
    | none => exact hlooked.parkPending hop hp
    | some mac => exact hlooked.emitPacket (some hop) (hlength mac hmac) hplain hp

theorem Genuine.store (h : i.Genuine P) (ip : Bytes) {mac : Bytes} (hmac : mac.length = 6) (now : Time) :
    ({ i with arpCache := i.arpCache.store ip mac now } : Interface).Genuine P := by
  refine ⟨h.mac, h.ip, fun entry hentry => ?_, h.parked, h.link⟩
  rcases ARPCache.mem_of_mem_store hentry with hold | ⟨-, heq⟩
  · exact h.cache entry hold
  · rw [heq]
    exact hmac

theorem Genuine.handleArp (h : i.Genuine P) (hplain : ∀ p, P p → p.Plain) (frame : EthernetFrame) (now : Time) :
    (i.handleArp frame now).2.Genuine P := by
  unfold Interface.handleArp
  cases hparse : ARPPacket.parse frame.payload with
  | error e => exact h
  | ok packet =>
    obtain ⟨hmac, -⟩ := ARPPacket.length_of_parse hparse
    have hstore := h.store packet.senderIp hmac now
    dsimp only
    split_ifs
    · have hcount : ({ i with
          arpCache := i.arpCache.store packet.senderIp packet.senderMac now
          stats := i.stats.arpReplySent } : Interface).Genuine P := hstore.of_eq rfl rfl rfl rfl rfl
      split
      · exact hcount
      · rename_i data hdata
        exact hcount.emitArp (show ARP_REPLY ≤ 0xFFFF by decide) hmac hmac hdata
    · unfold Interface.flushPending
      refine Genuine.emitAll _ hmac (fun p hp => ⟨hplain p (hstore.parked _ p hp), hstore.parked _ p hp⟩) ?_
      refine ⟨hstore.mac, hstore.ip, hstore.cache, fun hop p hp => hstore.parked hop p ?_, hstore.link⟩
      by_cases hhop : hop = packet.senderIp
      · rw [hhop, Interface.parked, Dict.get?_erase_self] at hp
        exact absurd hp List.not_mem_nil
      · rw [Interface.parked, Dict.get?_erase_of_ne hhop] at hp
        exact hp
    · exact hstore

theorem Genuine.perform (h : i.Genuine P) (hplain : ∀ p, P p → p.Plain) (e : LinkEvent)
    (he : ∀ p now, e = .send p now → P p) : (i.perform e).Genuine P := by
  cases e with
  | send packet now => exact h.sendIpv4 (hplain packet (he packet now rfl)) (he packet now rfl) now
  | arp frame now => exact h.handleArp hplain frame now
  | expire now =>
    refine ⟨h.mac, h.ip, fun entry hentry => h.cache entry ?_, h.parked, h.link⟩
    exact (Dict.mem_filter.mp hentry).1
  | allocate => exact h.of_eq rfl rfl rfl rfl rfl
  | count stats => exact h.of_eq rfl rfl rfl rfl rfl

end Interface

/-! ### What is handed to `send_ipv4` -/

/-- Some operations lead from `i` to `j`, and all packets to send satisfy `P`. -/
def Speaks (P : IPv4Packet → Prop) (i j : Interface) : Prop :=
  ∃ es, (∀ packet now, LinkEvent.send packet now ∈ es → P packet) ∧ link.run i es = j

namespace Speaks

variable {P : IPv4Packet → Prop} {i j k : Interface}

theorem refl (i : Interface) : Speaks P i i := ⟨[], by simp, rfl⟩

theorem trans (h : Speaks P i j) (h' : Speaks P j k) : Speaks P i k := by
  obtain ⟨es, hes, rfl⟩ := h
  obtain ⟨es', hes', rfl⟩ := h'
  refine ⟨es ++ es', fun packet now hmem => ?_, link.run_append i es es'⟩
  exact (List.mem_append.mp hmem).elim (hes packet now) (hes' packet now)

theorem one (i : Interface) {e : LinkEvent} (he : ∀ packet now, e = .send packet now → P packet) :
    Speaks P i (i.perform e) := by
  refine ⟨[e], fun packet now hmem => ?_, rfl⟩
  exact he packet now (List.mem_singleton.mp hmem).symm

theorem count (i : Interface) (stats : Stats) : Speaks P i { i with stats := stats } :=
  one (e := .count stats) i (by simp)

theorem addresses (h : Speaks P i j) : j.addresses = i.addresses := by
  obtain ⟨es, -, rfl⟩ := h
  exact link.run_induction (P := fun j => j.addresses = i.addresses)
    (fun j e hj _ => (Interface.addresses_perform j e).trans hj) rfl (link.meets_true i es)

theorem ip (h : Speaks P i j) : j.ip = i.ip := congrArg (·.2.1) h.addresses

theorem ready (h : Speaks P i j) (hplain : ∀ p, P p → p.Plain) (hi : i.Ready) : j.Ready := by
  obtain ⟨es, hes, rfl⟩ := h
  have hmeets : link.Meets (fun _ e => ∀ packet now, e = .send packet now → P packet) i es :=
    (link.meets_const i es).mpr fun e he packet now heq => hes packet now (heq ▸ he)
  refine link.run_induction (fun j e hj he => ?_) hi hmeets
  cases e with
  | send packet now => exact (Interface.onward_sendIpv4 j (hplain _ (he packet now rfl)).ordinary now).ready hj
  | arp frame now => exact (Interface.onward_handleArp j frame now).ready hj
  | expire now => exact (Interface.Onward.of_eq (i := j) (j := j.expireArp now) rfl rfl rfl rfl rfl rfl).ready hj
  | allocate => exact (Interface.onward_allocateId j).ready hj
  | count stats =>
    exact (Interface.Onward.of_eq (i := j) (j := { j with stats := stats }) rfl rfl rfl rfl rfl rfl).ready hj

theorem genuine (h : Speaks P i j) (hplain : ∀ p, P p → p.Plain) (hi : i.Genuine P) : j.Genuine P := by
  obtain ⟨es, hes, rfl⟩ := h
  have hmeets : link.Meets (fun _ e => ∀ packet now, e = .send packet now → P packet) i es :=
    (link.meets_const i es).mpr fun e he packet now heq => hes packet now (heq ▸ he)
  exact link.run_induction (fun j e hj he => hj.perform hplain e he) hi hmeets

end Speaks

namespace Stack

variable {P : IPv4Packet → Prop} {s : Stack} {t u : Tables} {ip : Bytes} {packet : IPv4Packet} {now : Time}

/-- Every datagram with these bytes for `dst` satisfies `P`. -/
def Admits (P : IPv4Packet → Prop) (ip : Bytes) (protocol : Nat) (dst payload : Bytes) : Prop :=
  ∀ id ≤ 0xFFFF, P (.ofStack ip protocol dst payload id)

/-- Every datagram with the segment satisfies `P`. -/
def AdmitsSegment (P : IPv4Packet → Prop) (ip remoteIp : Bytes) (x : TCPSegment) : Prop :=
  ∀ payload, x.toBytes (some ip) (some remoteIp) = .ok payload → Admits P ip PROTO_TCP remoteIp payload

/-- Every datagram with a segment that a connection of the tables has sent satisfies `P`. -/
def AdmitsSent (P : IPv4Packet → Prop) (ip : Bytes) (t : Tables) : Prop :=
  ∀ slot ∈ t.slots, ∀ x ∈ slot.ep.conn.sent, AdmitsSegment P ip slot.ep.conn.cfg.remoteIp x

/-- The packets in question can be decoded, and the answers that need no connection are among them. -/
structure Answers (P : IPv4Packet → Prop) (ip : Bytes) : Prop where
  plain : ∀ p, P p → p.Plain
  reset : ∀ {segment : TCPSegment} {dst : Bytes}, segment.isRst = false → AdmitsSegment P ip dst (resetFor segment)
  echo : ∀ {echo : EchoMessage} {dst payload : Bytes}, (echo.toIcmp ECHO_REPLY).toBytes = .ok payload →
    Admits P ip PROTO_ICMP dst payload

theorem sent_run (p : Endpoint) (es : List Event) : p.conn.sent <+: (endpoint.run p es).conn.sent := by
  induction es generalizing p with
  | nil => exact List.prefix_refl _
  | cons e es ih => exact (TCPConnection.outputs_step p e).sent.trans (ih _)

theorem AdmitsSent.of_moves {A : ConnId → Event → Prop} (h : AdmitsSent P ip u) (hmoves : Tables.Moves A t u) :
    AdmitsSent P ip t := by
  intro slot hmem x hx
  obtain ⟨i, hi⟩ := List.mem_iff_getElem?.mp hmem
  obtain ⟨slot', es, hslot', -, hep, -⟩ := hmoves i slot hi
  have hcfg : slot'.ep.conn.cfg = slot.ep.conn.cfg := by rw [hep, Tables.cfg_run]
  rw [← hcfg]
  refine h slot' (List.mem_of_getElem? hslot') x ?_
  rw [hep]
  exact (sent_run slot.ep es).subset hx

/-! ### Calls into a connection -/

theorem speaks_sendOwn (hid : s.nextId ≤ 0xFFFF) {protocol : Nat} {dst payload : Bytes}
    (h : Admits P s.ip protocol dst payload) (now : Time) :
    Speaks P s.toInterface (s.sendOwn protocol dst payload now).2.toInterface := by
  refine (Speaks.one s.toInterface (e := .allocate) (by simp)).trans (Speaks.one _ (e := .send _ now) ?_)
  rintro packet now' heq
  cases heq
  exact h _ hid

theorem speaks_transmitSegment (hid : s.nextId ≤ 0xFFFF) {x : TCPSegment} {remoteIp : Bytes}
    (h : AdmitsSegment P s.ip remoteIp x) (now : Time) :
    Speaks P s.toInterface (s.transmitSegment x remoteIp now).2.toInterface := by
  have hcount : Speaks P s.toInterface
      ({ s with stats := { s.stats with tcpOut := s.stats.tcpOut + 1 } } : Stack).toInterface := .count _ _
  unfold transmitSegment
  dsimp only
  cases hbytes : x.toBytes (some s.ip) (some remoteIp) with
  | error e => exact hcount
  | ok payload =>
    refine hcount.trans ?_
    exact speaks_sendOwn (s := { s with stats := { s.stats with tcpOut := s.stats.tcpOut + 1 } }) hid
      (h payload hbytes) now

theorem speaks_transmitAll (hplain : ∀ p, P p → p.Plain) (hready : s.toInterface.Ready) {remoteIp : Bytes}
    {segments : List TCPSegment} (h : ∀ x ∈ segments, AdmitsSegment P s.ip remoteIp x) (now : Time) :
    Speaks P s.toInterface (transmitAll remoteIp now segments s).2.toInterface := by
  induction segments generalizing s with
  | nil => exact .refl _
  | cons x rest ih =>
    have hfirst := speaks_transmitSegment hready.nextId (h x List.mem_cons_self) now
    rw [transmitAll]
    generalize s.transmitSegment x remoteIp now = r at hfirst
    obtain ⟨result, s'⟩ := r
    cases result with
    | error e => exact hfirst
    | ok _ =>
      refine hfirst.trans (ih (hfirst.ready hplain hready) fun y hy => ?_)
      exact hfirst.ip ▸ h y (List.mem_cons_of_mem _ hy)

theorem speaks_call (hplain : ∀ p, P p → p.Plain) (h : s.Sound) {id : ConnId} {e : Event}
    (hsent : AdmitsSent P s.ip (s.called id e)) (now : Time) :
    Speaks P s.toInterface (s.call id e now).2.toInterface := by
  unfold call
  cases hslot : s.slots[id]? with
  | none => exact .refl _
  | some slot =>
    obtain ⟨slot', hslot', hep, -⟩ := Tables.slot_called hslot e
    have hall : Speaks P s.toInterface (transmitAll (slot.ep.step e).conn.cfg.remoteIp now
        ((slot.ep.step e).conn.sent.drop slot.ep.conn.sent.length)
        { s with toTables := s.modifySlot id fun slot => { slot with ep := slot.ep.step e } }).2.toInterface := by
      refine speaks_transmitAll (s := { s with
        toTables := s.modifySlot id fun slot => { slot with ep := slot.ep.step e } }) hplain h.ready
        (fun x hx => ?_) now
      have hx' := hsent slot' (List.mem_of_getElem? hslot') x (hep ▸ List.mem_of_mem_drop hx)
      rw [hep] at hx'
      exact hx'
    dsimp only
    split <;> rename_i heq <;> rw [heq] at hall <;> exact hall

theorem speaks_adopt (hplain : ∀ p, P p → p.Plain) (hready : s.toInterface.Ready) {onAccept : Option Nat}
    {child : TCPConnection} (hsent : ∀ x ∈ child.sent, AdmitsSegment P s.ip child.cfg.remoteIp x) (now : Time) :
    Speaks P s.toInterface (s.adopt onAccept child now).2.toInterface := by
  have hall := speaks_transmitAll (s := { s with toTables := s.add (Tables.childSlot onAccept child) }) hplain hready
    hsent now
  unfold adopt
  dsimp only
  split
  · rename_i heq
    rw [heq] at hall
    exact hall
  · rename_i heq
    rw [heq] at hall
    cases onAccept <;> exact hall

theorem speaks_onSegment (hplain : ∀ p, P p → p.Plain) (h : s.Sound) {id : ConnId} {seg : TCPSegment} {src : Bytes}
    {draw : SeqNo} (hsent : AdmitsSent P s.ip (s.toTables.segment s.ip id seg src draw now)) :
    Speaks P s.toInterface (s.onSegment id seg src draw now).2.toInterface := by
  unfold Tables.segment at hsent
  unfold onSegment
  cases hslot : s.slots[id]? with
  | none => exact .refl _
  | some slot =>
    rw [hslot] at hsent
    obtain ⟨hok, -⟩ := h.call id (.segment seg (some src) draw now) now
    dsimp only at hsent ⊢
    cases hchild : (slot.ep.conn.onSegment seg (some src) draw now).2 with
    | none =>
      rw [hchild] at hsent
      have hcall := speaks_call hplain h hsent now
      split <;> rename_i heq <;> rw [heq] at hcall <;> exact hcall
    | some child =>
      rw [hchild] at hsent
      have hcall := speaks_call hplain h (hsent.of_moves (A := fun _ _ => True) (.adopted _ s.ip _ _)) now
      generalize s.call id (.segment seg (some src) draw now) now = r at hok hcall
      obtain ⟨result, s'⟩ := r
      obtain rfl := hok
      dsimp only at hcall ⊢
      refine hcall.trans (speaks_adopt hplain (hcall.ready hplain h.ready) (fun x hx => ?_) now)
      rw [hcall.ip]
      refine hsent (Tables.childSlot slot.role.onAccept child) ?_ x hx
      rw [Tables.slots_adopted]
      exact List.mem_append_right _ List.mem_cons_self

/-! ### Frames that arrive -/

theorem speaks_caught {i : Interface} {r : Except PyError Unit × Stack} (h : Speaks P i r.2.toInterface) :
    Speaks P i (caught r).2.toInterface := by
  obtain ⟨result, s'⟩ := r
  match result with
  | .error (.valueError _) => exact h.trans (.count _ _)
  | .error .structError => exact h
  | .ok () => exact h

theorem speaks_handleIcmp (ha : Answers P s.ip) (hid : s.nextId ≤ 0xFFFF) (packet : IPv4Packet) (now : Time) :
    Speaks P s.toInterface (s.handleIcmp packet now).2.toInterface := by
  have hcount : Speaks P s.toInterface
      ({ s with stats := { s.stats with icmpEchoReplied := s.stats.icmpEchoReplied + 1 } } : Stack).toInterface :=
    .count _ _
  unfold handleIcmp
  split
  · exact .refl _
  · split_ifs
    · exact .refl _
    · split
      · exact .refl _
      · dsimp only
        split
        · exact hcount
        · rename_i payload hpayload
          exact hcount.trans (speaks_sendOwn
            (s := { s with stats := { s.stats with icmpEchoReplied := s.stats.icmpEchoReplied + 1 } }) hid
            (ha.echo hpayload) now)

theorem speaks_sendReset (ha : Answers P s.ip) (hid : s.nextId ≤ 0xFFFF) (packet : IPv4Packet) (segment : TCPSegment)
    (now : Time) : Speaks P s.toInterface (s.sendReset packet segment now).2.toInterface := by
  unfold sendReset
  split_ifs with hrst
  · exact .refl _
  · split
    · exact .refl _
    · rename_i payload hpayload
      exact speaks_sendOwn hid (ha.reset (Bool.not_eq_true _ ▸ hrst) payload hpayload) now

theorem speaks_handleTcp (ha : Answers P s.ip) (h : s.Sound) (hprotocol : packet.protocol = PROTO_TCP) {draw : SeqNo}
    (hsent : AdmitsSent P s.ip (s.toTables.step s.ip (s.delivery packet draw now))) :
    Speaks P s.toInterface (s.handleTcp packet draw now).2.toInterface := by
  unfold delivery at hsent
  rw [if_pos hprotocol] at hsent
  unfold handleTcp
  cases hsegment : TCPSegment.parse packet.payload (some packet.src) (some packet.dst) with
  | error e => exact .refl _
  | ok segment =>
    rw [hsegment] at hsent
    have hcount : Speaks P s.toInterface
        ({ s with stats := { s.stats with tcpIn := s.stats.tcpIn + 1 } } : Stack).toInterface := .count _ _
    have hafter := After.count s { s.stats with tcpIn := s.stats.tcpIn + 1 }
    have hlookup : ({ s with stats := { s.stats with tcpIn := s.stats.tcpIn + 1 } } : Stack).lookup packet segment =
        s.lookup packet segment := rfl
    generalize ({ s with stats := { s.stats with tcpIn := s.stats.tcpIn + 1 } } : Stack) = s' at hcount hafter hlookup
    have hsound := h.after hafter h.tables
    dsimp only at hsent ⊢
    refine hcount.trans ?_
    rw [← hafter.tables, ← hcount.ip] at hsent
    rw [← hcount.ip] at ha
    rw [hlookup]
    cases hfound : s.lookup packet segment with
    | none => exact speaks_sendReset ha hsound.ready.nextId packet segment now
    | some id =>
      rw [hfound] at hsent
      exact speaks_onSegment ha.plain hsound hsent

theorem speaks_handleUdp (s : Stack) (packet : IPv4Packet) :
    Speaks P s.toInterface (s.handleUdp packet).2.toInterface := by
  unfold handleUdp
  split
  · exact .refl _
  · dsimp only
    split <;> exact .count _ _

theorem speaks_dispatchIpv4 (ha : Answers P s.ip) (h : s.Sound) {draw : SeqNo}
    (hsent : AdmitsSent P s.ip (s.toTables.step s.ip (s.delivery packet draw now))) :
    Speaks P s.toInterface (s.dispatchIpv4 packet draw now).2.toInterface := by
  apply speaks_caught
  split_ifs with hicmp htcp hudp
  · exact speaks_handleIcmp ha h.ready.nextId packet now
  · exact speaks_handleTcp ha h htcp hsent
  · exact speaks_handleUdp s packet
  · exact .refl _

theorem delivery_congr {s' : Stack} (h : s'.toTables = s.toTables) (packet : IPv4Packet) (draw : SeqNo) (now : Time) :
    s'.delivery packet draw now = s.delivery packet draw now := by
  have hlookup : ∀ segment, s'.lookup packet segment = s.lookup packet segment := by
    intro segment
    rw [lookup, lookup, h]
  rw [delivery, delivery]
  simp only [hlookup]

theorem speaks_handleIpv4Frame (ha : Answers P s.ip) (h : s.Sound) {frame : EthernetFrame} {draw : SeqNo}
    (hsent : ∀ packet, s.completed frame now = some packet →
      AdmitsSent P s.ip (s.toTables.step s.ip (s.delivery packet draw now))) :
    Speaks P s.toInterface (s.handleIpv4Frame frame draw now).2.toInterface := by
  unfold completed at hsent
  unfold handleIpv4Frame
  cases hpacket : IPv4Packet.parse frame.payload with
  | error e => exact speaks_caught (.refl _)
  | ok fragment =>
    rw [hpacket] at hsent
    have hspeaks : Speaks P s.toInterface
        ({ s with stats := { s.stats with ipv4In := s.stats.ipv4In + 1 } } : Stack).toInterface := .count _ _
    have hcount := After.count s { s.stats with ipv4In := s.stats.ipv4In + 1 }
    have hsame : (({ s with stats := { s.stats with ipv4In := s.stats.ipv4In + 1 } } : Stack).reassemble
        fragment now).1 = (s.reassemble fragment now).1 := by
      unfold reassemble
      split_ifs <;> rfl
    dsimp only at hsent ⊢
    rw [← hsame] at hsent
    generalize ({ s with stats := { s.stats with ipv4In := s.stats.ipv4In + 1 } } : Stack) = s₁ at *
    obtain ⟨hafter, -⟩ := after_reassemble s₁ fragment now
    have hlink : (s₁.reassemble fragment now).2.toInterface = s₁.toInterface := by
      unfold reassemble
      split_ifs <;> rfl
    rw [hcount.tables] at hafter
    generalize s₁.reassemble fragment now = r at hafter hlink hsent
    obtain ⟨whole, s₂⟩ := r
    have htrans := hcount.trans hafter
    rw [← hlink] at hspeaks
    cases whole with
    | none => exact hspeaks
    | some packet =>
      dsimp only at hspeaks hsent ⊢
      split_ifs with hdst
      · exact hspeaks.trans (.count _ _)
      · refine hspeaks.trans (speaks_dispatchIpv4 (hspeaks.ip ▸ ha) (h.after htrans h.tables) ?_)
        rw [htrans.tables, hspeaks.ip, delivery_congr htrans.tables]
        refine hsent packet ?_
        rw [Option.filter_some, if_pos]
        rw [hspeaks.ip, not_and_or, not_not, not_not] at hdst
        simpa using hdst

theorem speaks_handleFrame (ha : Answers P s.ip) (h : s.Sound) {raw : Bytes} {draw : SeqNo}
    (hsent : AdmitsSent P s.ip (s.toTables.step s.ip (s.arrival raw draw now))) :
    Speaks P s.toInterface (s.handleFrame raw draw now).2.toInterface := by
  unfold arrival datagram at hsent
  apply speaks_caught
  cases hframe : EthernetFrame.parse raw with
  | error e => exact .refl _
  | ok frame =>
    rw [hframe] at hsent
    dsimp only at hsent ⊢
    split_ifs with haccepted harp hip
    · exact .count _ _
    · exact .one _ (e := .arp frame now) nofun
    · rw [if_neg haccepted, if_pos hip] at hsent
      refine speaks_handleIpv4Frame ha h fun packet hpacket => ?_
      rw [hpacket] at hsent
      exact hsent
    · exact .count _ _

/-! ### Timers and calls -/

theorem speaks_tickAll (hplain : ∀ p, P p → p.Plain) (h : s.Sound) (ids : List ConnId)
    (hsent : AdmitsSent P s.ip (ids.foldl (fun t id => t.called id (.tick now)) s.toTables)) :
    Speaks P s.toInterface (tickAll now ids s).toInterface := by
  induction ids generalizing s with
  | nil => exact .refl _
  | cons id ids ih =>
    have hmoves : Tables.Moves (fun _ _ => True) (s.called id (.tick now))
        (ids.foldl (fun t id => t.called id (.tick now)) (s.called id (.tick now))) :=
      .foldl_called ids (fun _ => trivial) _
    have hcall := speaks_call hplain h (hsent.of_moves hmoves) now
    obtain ⟨hok, hafter⟩ := h.call id (.tick now) now
    have hsound := h.after hafter (h.tables.called id _)
    rw [tickAll]
    generalize s.call id (.tick now) now = r at hok hcall hafter hsound
    obtain ⟨result, s'⟩ := r
    obtain rfl := hok
    refine hcall.trans (ih hsound ?_)
    rw [hcall.ip, hafter.tables]
    exact hsent

theorem speaks_tcpConnect (hplain : ∀ p, P p → p.Plain) (h : s.Sound) {remoteIp : Bytes} {remotePort port : Nat}
    {draw : SeqNo} (hip : remoteIp.length = 4) (hremote : remotePort ≤ 0xFFFF) (hport : port ≤ 0xFFFF)
    (hsent : AdmitsSent P s.ip (s.toTables.tcpConnect s.ip remoteIp remotePort port draw now)) :
    Speaks P s.toInterface (s.tcpConnect remoteIp remotePort port draw now).2.toInterface := by
  have hlocal := h.tables.localPort hport
  unfold Tables.tcpConnect at hsent
  unfold tcpConnect onTables
  generalize s.localPort port = r at hlocal hsent
  obtain ⟨found, t⟩ := r
  cases found with
  | error e => exact .refl _
  | ok found =>
    have hregister : (t.register s.ip found remoteIp remotePort).Sound :=
      hlocal.1.register (hlocal.2 found rfl) hip hremote
    have hcall := speaks_call (s := { s with toTables := t.register s.ip found remoteIp remotePort }) hplain
      ⟨h.ready, h.labelled, hregister⟩ hsent now
    dsimp only at hcall ⊢
    split <;> rename_i heq <;> rw [heq] at hcall <;> exact hcall

theorem speaks_connectWait (hplain : ∀ p, P p → p.Plain) (h : s.Sound) {id : ConnId} {expired : Bool}
    (hsent : AdmitsSent P s.ip (s.toTables.connectWait id expired now)) :
    Speaks P s.toInterface (s.connectWait id expired now).2.toInterface := by
  unfold Tables.connectWait at hsent
  unfold connectWait
  cases hslot : s.slots[id]? with
  | none => exact .refl _
  | some slot =>
    rw [hslot] at hsent
    dsimp only at hsent ⊢
    split_ifs at hsent ⊢
    · exact .refl _
    · exact .refl _
    · exact .refl _
    · have habort := speaks_call hplain h (hsent.of_moves (A := fun _ _ => True) (.refused _ id)) now
      split <;> rename_i heq <;> rw [heq] at habort <;> exact habort
    · exact .refl _

theorem speaks_tcpClose (hplain : ∀ p, P p → p.Plain) (h : s.Sound) {id : ConnId}
    (hsent : AdmitsSent P s.ip (s.toTables.tcpClose id now)) :
    Speaks P s.toInterface (s.tcpClose id now).2.toInterface :=
  speaks_call (s := { s with toTables := s.markShut id }) hplain ⟨h.ready, h.labelled, h.tables.markShut id⟩ hsent now

/-- The datagrams that an event hands to `udp_send`, with where they go. -/
def posted (s : Stack) : StackEvent → List (UDPSegment × Bytes)
  | .udpSend payload remote port _ =>
    match (s.localPort port).1 with
    | .error _ => []
    | .ok found => [({ srcPort := found, dstPort := remote.port, payload := payload }, remote.ip)]
  | _ => []

/-- Every packet with one of these datagrams satisfies `P`. -/
def AdmitsSaid (P : IPv4Packet → Prop) (ip : Bytes) (said : List (UDPSegment × Bytes)) : Prop :=
  ∀ d ∈ said, ∀ payload, d.1.toBytes (some ip) (some d.2) = .ok payload → Admits P ip PROTO_UDP d.2 payload

theorem speaks_udpSend (h : s.Sound) {payload : Bytes} {remote : Address} {port : Port}
    (hsaid : AdmitsSaid P s.ip (s.posted (.udpSend payload remote port now))) :
    Speaks P s.toInterface (s.udpSend payload remote.ip remote.port port now).2.toInterface := by
  unfold posted at hsaid
  dsimp only at hsaid
  unfold udpSend onTables
  generalize s.localPort port = r at hsaid ⊢
  obtain ⟨found, t⟩ := r
  cases found with
  | error e => exact .refl _
  | ok found =>
    have hcount : Speaks P s.toInterface
        ({ s with toTables := t, stats := { s.stats with udpOut := s.stats.udpOut + 1 } } : Stack).toInterface :=
      .count _ _
    dsimp only at hsaid ⊢
    split
    · exact hcount
    · rename_i data hdata
      have hadmits : Admits P s.ip PROTO_UDP remote.ip data := hsaid _ List.mem_cons_self data hdata
      exact hcount.trans (speaks_sendOwn
        (s := { s with toTables := t, stats := { s.stats with udpOut := s.stats.udpOut + 1 } }) h.ready.nextId
        hadmits now)

/-- What an event hands to `send_ipv4`: segments of the connections as they are afterwards, answers, and what the
application asked for. -/
theorem speaks_step (ha : Answers P s.ip) (h : s.Sound) {e : StackEvent} (hsent : AdmitsSent P s.ip (s.step e).toTables)
    (hsaid : AdmitsSaid P s.ip (s.posted e)) : Speaks P s.toInterface (s.step e).toInterface := by
  rw [h.tables_step] at hsent
  cases e with
  | frame raw draw now => exact speaks_handleFrame ha h hsent
  | tick now => exact (speaks_tickAll ha.plain h _ hsent).trans (.one _ (e := .expire now) nofun)
  | tcpListen port backlog => exact .refl _
  | tcpAccept port expired => exact .refl _
  | tcpConnect remote port draw now =>
    exact speaks_tcpConnect ha.plain h remote.ip_length (port_le remote.port) (port_le port) hsent
  | connectWait id expired now => exact speaks_connectWait ha.plain h hsent
  | send id data now => exact speaks_call ha.plain h hsent now
  | recv id maxBytes now => exact speaks_call ha.plain h hsent now
  | abort id now => exact speaks_call ha.plain h hsent now
  | tcpClose id now => exact speaks_tcpClose ha.plain h hsent
  | closeSocket id now =>
    change AdmitsSent P s.ip (s.toTables.closeSocket id now) at hsent
    change Speaks P s.toInterface (s.closeSocket id now).2.toInterface
    unfold Tables.closeSocket at hsent
    unfold closeSocket
    split_ifs at hsent ⊢
    · exact .refl _
    · exact speaks_tcpClose ha.plain h hsent
  | udpBind port handler => exact .refl _
  | udpUnbind port => exact .refl _
  | udpSend payload remote port now => exact speaks_udpSend h hsaid

/-! ### Runs -/

/-- Where a datagram comes from that a stack has sent when these datagrams were handed to `udp_send`. -/
inductive Origin (s : Stack) (said : List (UDPSegment × Bytes)) : IPv4Packet → Prop
  | segment {i : ConnId} {slot : Slot} {x : TCPSegment} {payload : Bytes} {id : Nat} (hid : id ≤ 0xFFFF)
      (hslot : s.slots[i]? = some slot) (hx : x ∈ slot.ep.conn.sent)
      (hbytes : x.toBytes (some s.ip) (some slot.ep.conn.cfg.remoteIp) = .ok payload) :
    Origin s said (.ofStack s.ip PROTO_TCP slot.ep.conn.cfg.remoteIp payload id)
  | reset {segment : TCPSegment} {dst payload : Bytes} {id : Nat} (hid : id ≤ 0xFFFF) (hrst : segment.isRst = false)
      (hbytes : (resetFor segment).toBytes (some s.ip) (some dst) = .ok payload) :
    Origin s said (.ofStack s.ip PROTO_TCP dst payload id)
  | echo {echo : EchoMessage} {dst payload : Bytes} {id : Nat} (hid : id ≤ 0xFFFF)
      (hbytes : (echo.toIcmp ECHO_REPLY).toBytes = .ok payload) :
    Origin s said (.ofStack s.ip PROTO_ICMP dst payload id)
  | datagram {seg : UDPSegment} {dst payload : Bytes} {id : Nat} (hid : id ≤ 0xFFFF) (hsaid : (seg, dst) ∈ said)
      (hbytes : seg.toBytes (some s.ip) (some dst) = .ok payload) :
    Origin s said (.ofStack s.ip PROTO_UDP dst payload id)

theorem plain_ofStack (ip : Bytes) {protocol : Nat} (hprotocol : protocol ≤ 0xFF) (dst payload : Bytes) {id : Nat}
    (hid : id ≤ 0xFFFF) : (IPv4Packet.ofStack ip protocol dst payload id).Plain :=
  ⟨⟨hprotocol, Nat.zero_le _⟩, rfl, rfl, hid⟩

variable {said said' : List (UDPSegment × Bytes)}

theorem Origin.plain {p : IPv4Packet} (h : Origin s said p) : p.Plain := by
  cases h with
  | segment hid _ _ _ => exact plain_ofStack _ (by decide) _ _ hid
  | reset hid _ _ => exact plain_ofStack _ (by decide) _ _ hid
  | echo hid _ => exact plain_ofStack _ (by decide) _ _ hid
  | datagram hid _ _ => exact plain_ofStack _ (by decide) _ _ hid

theorem Origin.mono {s' : Stack} {p : IPv4Packet} (h : Origin s said p) (hip : s'.ip = s.ip)
    {A : ConnId → Event → Prop} (hmoves : Tables.Moves A s.toTables s'.toTables) (hsaid : said ⊆ said') :
    Origin s' said' p := by
  cases h with
  | @segment i slot x payload id hid hslot hx hbytes =>
    obtain ⟨slot', es, hslot', -, hep, -⟩ := hmoves i slot hslot
    have hcfg : slot'.ep.conn.cfg = slot.ep.conn.cfg := by rw [hep, Tables.cfg_run]
    have hx' : x ∈ slot'.ep.conn.sent := by
      rw [hep]
      exact (sent_run slot.ep es).subset hx
    rw [← hip, ← hcfg]
    rw [← hip, ← hcfg] at hbytes
    exact .segment hid hslot' hx' hbytes
  | reset hid hrst hbytes =>
    rw [← hip]
    rw [← hip] at hbytes
    exact .reset hid hrst hbytes
  | echo hid hbytes =>
    rw [← hip]
    exact .echo hid hbytes
  | datagram hid hmem hbytes =>
    rw [← hip]
    rw [← hip] at hbytes
    exact .datagram hid (hsaid hmem) hbytes

theorem Sound.genuine_step (h : s.Sound) (hs : s.toInterface.Genuine (Origin s said)) (e : StackEvent) :
    (s.step e).toInterface.Genuine (Origin (s.step e) (said ++ s.posted e)) := by
  have hip : (s.step e).ip = s.ip := (h.after_step e).onward.ip
  have hplain : ∀ p, Origin (s.step e) (said ++ s.posted e) p → p.Plain := fun p hp => hp.plain
  have hspeaks : Speaks (Origin (s.step e) (said ++ s.posted e)) s.toInterface (s.step e).toInterface := by
    refine speaks_step ⟨hplain, ?_, ?_⟩ h ?_ ?_
    · intro segment dst hrst payload hbytes id hid
      rw [← hip] at hbytes ⊢
      exact .reset hid hrst hbytes
    · intro echo dst payload hbytes id hid
      rw [← hip]
      exact .echo hid hbytes
    · intro slot hmem x hx payload hbytes id hid
      obtain ⟨i, hi⟩ := List.mem_iff_getElem?.mp hmem
      rw [← hip] at hbytes ⊢
      exact .segment hid hi hx hbytes
    · intro d hd payload hbytes id hid
      rw [← hip] at hbytes ⊢
      exact .datagram hid (List.mem_append_right said hd) hbytes
  exact hspeaks.genuine hplain (hs.mono fun p hp => hp.mono hip (h.follows e).moves (List.subset_append_left _ _))

/-- The datagrams that a run hands to `udp_send`. -/
def postedBy : Stack → List StackEvent → List (UDPSegment × Bytes)
  | _, [] => []
  | s, e :: es => s.posted e ++ postedBy (s.step e) es

theorem genuine_run (h : s.Sound) (hs : s.toInterface.Genuine (Origin s said)) (es : List StackEvent) :
    (stack.run s es).toInterface.Genuine (Origin (stack.run s es) (said ++ s.postedBy es)) := by
  induction es generalizing s said with
  | nil =>
    rw [postedBy, List.append_nil]
    exact hs
  | cons e es ih =>
    have hrest := ih (h.step e) (h.genuine_step hs e)
    rw [List.append_assoc] at hrest
    exact hrest

theorem genuine_new (cfg : StackConfig) : (Stack.new cfg).toInterface.Genuine (Origin (.new cfg) []) where
  mac := cfg.mac_length
  ip := cfg.ip_length
  cache := fun _ h => absurd h List.not_mem_nil
  parked := fun _ _ h => absurd h List.not_mem_nil
  link := fun _ h => absurd h List.not_mem_nil

theorem addresses_run (h : s.Sound) (es : List StackEvent) : (stack.run s es).addresses = s.addresses := by
  induction es generalizing s with
  | nil => rfl
  | cons e es ih =>
    refine (ih (h.step e)).trans ?_
    exact (s.performs_step e).induction (P := fun j => j.addresses = s.addresses)
      (fun j e hj => (j.addresses_perform e).trans hj) rfl

/-- Every frame that a run puts on the link can be decoded and has the addresses of the stack. It is an ARP packet, or
a datagram with a segment that one of the connections has sent to its peer, with a reset for a segment that is not one,
with an echo reply, or with what was handed to `udp_send`. -/
theorem departures (cfg : StackConfig) (es : List StackEvent) :
    ∀ raw ∈ (stack.run (.new cfg) es).link,
      Interface.Carries (Origin (stack.run (.new cfg) es) ((Stack.new cfg).postedBy es)) cfg.mac cfg.ip raw := by
  have hgenuine := genuine_run (sound_new cfg) (genuine_new cfg) es
  have haddresses := addresses_run (sound_new cfg) es
  have hmac : (stack.run (.new cfg) es).mac = cfg.mac := congrArg (·.1) haddresses
  have hip : (stack.run (.new cfg) es).ip = cfg.ip := congrArg (·.2.1) haddresses
  rw [List.nil_append] at hgenuine
  rw [← hmac, ← hip]
  exact hgenuine.link

/-- A datagram to everyone on the link. -/
theorem departures_broadcast : ∃ raw,
    (stack.run (.new host) [.udpSend [7] ⟨[255, 255, 255, 255], 68, rfl⟩ 67 0]).link[0]? = some raw ∧
      Interface.Carries (Origin (stack.run (.new host) [.udpSend [7] ⟨[255, 255, 255, 255], 68, rfl⟩ 67 0])
        ((Stack.new host).postedBy [.udpSend [7] ⟨[255, 255, 255, 255], 68, rfl⟩ 67 0])) host.mac host.ip raw := by
  have hsent : ((stack.run (.new host)
      [.udpSend [7] ⟨[255, 255, 255, 255], 68, rfl⟩ 67 0]).link[0]?).isSome = true := by decide +kernel
  obtain ⟨raw, hraw⟩ := Option.isSome_iff_exists.mp hsent
  exact ⟨raw, hraw, departures host _ raw (List.mem_of_getElem? hraw)⟩

end Stack

end MiniTcp
