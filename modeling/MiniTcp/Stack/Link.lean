import MiniTcp.Net.Ipv4.Wire
import MiniTcp.Stack.Resolution

/-!
# What the link part raises

Whatever is sent, parked or released: an interface whose addresses have their lengths raises nothing but
`ValueError` (`Ready`), and a datagram that fits the wire raises nothing (`sendIpv4_fits`).
-/

namespace MiniTcp

/-- The two fields that `to_bytes` does not check fit their bytes. -/
def IPv4Packet.Ordinary (p : IPv4Packet) : Prop := p.protocol ≤ 0xFF ∧ p.dscp ≤ 0xFF

theorem IPv4Packet.Ordinary.toBytes_ne {p : IPv4Packet} (h : p.Ordinary) : p.toBytes ≠ .error .structError := by
  unfold toBytes
  split_ifs with h1 h2 h3 h4 h5 h6
  · simp
  · simp
  · simp
  · simp
  · change (p.packHeader ((4 <<< 4) ||| p.ihl) p.flagsFrag >>= _) ≠ _
    rw [packHeader_eq (Nat.not_lt.mp h3) (Nat.not_lt.mp h4) h5 h6, if_pos ⟨h.2, h.1⟩]
    intro h
    cases h
  · simp
  · simp

theorem sameSubnet_of_length {a b mask : Bytes} (hb : b.length = a.length) (hmask : mask.length = a.length) :
    ∃ same, sameSubnet a b mask = .ok same := by
  induction a generalizing b mask with
  | nil =>
    obtain rfl := List.length_eq_zero_iff.mp hb
    obtain rfl := List.length_eq_zero_iff.mp hmask
    exact ⟨true, rfl⟩
  | cons x a ih =>
    match b, mask, hb, hmask with
    | y :: b, m :: mask, hb, hmask =>
      rw [sameSubnet]
      split_ifs
      · exact ih (Nat.succ.inj hb) (Nat.succ.inj hmask)
      · exact ⟨false, rfl⟩

namespace ARPPacket

/-- A packet as the stack makes it. -/
def own (operation : Nat) (senderMac senderIp targetMac targetIp : Bytes) : ARPPacket :=
  { operation := operation
    senderMac := senderMac
    senderIp := senderIp
    targetMac := targetMac
    targetIp := targetIp }

variable {operation : Nat} {senderMac senderIp targetMac targetIp : Bytes}

theorem own_numbers {p : ARPPacket} (hp : p = own operation senderMac senderIp targetMac targetIp)
    (h : operation ≤ 0xFFFF) : p.hardwareType ≤ 0xFFFF ∧ p.protocolType ≤ 0xFFFF ∧ p.hardwareLen ≤ 0xFF ∧
      p.protocolLen ≤ 0xFF ∧ p.operation ≤ 0xFFFF := by
  subst hp
  exact ⟨show HARDWARE_ETHERNET ≤ 0xFFFF by decide, show ETHERTYPE_IPV4 ≤ 0xFFFF by decide,
    show 6 ≤ 0xFF by decide, show 4 ≤ 0xFF by decide, h⟩

theorem own_toBytes_ne (h : operation ≤ 0xFFFF) :
    (own operation senderMac senderIp targetMac targetIp).toBytes ≠ .error .structError := by
  unfold toBytes
  rw [if_pos (own_numbers rfl h)]
  split_ifs <;> exact nofun

theorem own_toBytes (h : operation ≤ 0xFFFF) (h1 : senderMac.length = 6) (h2 : senderIp.length = 4)
    (h3 : targetMac.length = 6) (h4 : targetIp.length = 4) :
    ∃ data, (own operation senderMac senderIp targetMac targetIp).toBytes = .ok data := by
  unfold toBytes
  rw [if_pos (own_numbers rfl h)]
  split_ifs with g1 g2 g3 g4
  · exact absurd h1 g1
  · exact absurd h3 g2
  · exact absurd h2 g3
  · exact absurd h4 g4
  · exact ⟨_, rfl⟩

end ARPPacket

namespace Interface

variable {i j k : Interface} {packet : IPv4Packet} {now : Time}

/-- The addresses have their lengths, and what is parked can only fail with a `ValueError`. -/
structure Ready (i : Interface) : Prop where
  mac : i.mac.length = 6
  ip : i.ip.length = 4
  netmask : i.netmask.length = 4
  gateway : ∀ hop ∈ i.gateway, hop.length = 4
  nextId : i.nextId ≤ 0xFFFF
  parked : ∀ entry ∈ i.arpPending.items, ∀ p ∈ entry.2, p.Ordinary

/-- The address stays, and so does readiness. -/
structure Onward (i j : Interface) : Prop where
  ip : j.ip = i.ip
  ready : i.Ready → j.Ready

namespace Onward

theorem refl (i : Interface) : Onward i i := ⟨rfl, id⟩

theorem trans (h : Onward i j) (h' : Onward j k) : Onward i k :=
  ⟨h'.ip.trans h.ip, fun hi => h'.ready (h.ready hi)⟩

theorem of_eq (hmac : j.mac = i.mac) (hip : j.ip = i.ip) (hmask : j.netmask = i.netmask)
    (hgateway : j.gateway = i.gateway) (hid : j.nextId = i.nextId) (hpending : j.arpPending = i.arpPending) :
    Onward i j := by
  refine ⟨hip, fun h => ?_⟩
  obtain ⟨h1, h2, h3, h4, h5, h6⟩ := h
  rw [← hmac] at h1
  rw [← hip] at h2
  rw [← hmask] at h3
  rw [← hgateway] at h4
  rw [← hid] at h5
  rw [← hpending] at h6
  exact ⟨h1, h2, h3, h4, h5, h6⟩

theorem emit (i : Interface) (dstMac : Bytes) (ethertype : Nat) (payload : Bytes) :
    Onward i (i.emit dstMac ethertype payload).2 := by
  unfold Interface.emit
  dsimp only
  split <;> exact of_eq rfl rfl rfl rfl rfl rfl

theorem emitPacket (i : Interface) (hop : Option Bytes) (mac : Bytes) (packet : IPv4Packet) :
    Onward i (i.emitPacket hop mac packet).2 := by
  unfold Interface.emitPacket
  split
  · exact refl i
  · rename_i data _
    apply (emit i mac ETHERTYPE_IPV4 data).trans
    exact of_eq rfl rfl rfl rfl rfl rfl

theorem sendArpRequest (i : Interface) (targetIp : Bytes) : Onward i (i.sendArpRequest targetIp).2 := by
  unfold Interface.sendArpRequest
  dsimp only
  split
  · exact of_eq rfl rfl rfl rfl rfl rfl
  · refine Onward.trans ?_ (emit _ _ _ _)
    exact of_eq rfl rfl rfl rfl rfl rfl

theorem emitAll (ip mac : Bytes) (queue : List IPv4Packet) (i : Interface) :
    Onward i (emitAll ip mac queue i).2 := by
  induction queue generalizing i with
  | nil => exact refl i
  | cons packet queue ih =>
    have hemit := emitPacket i (some ip) mac packet
    rw [Interface.emitAll]
    generalize i.emitPacket (some ip) mac packet = r at hemit
    obtain ⟨result, j⟩ := r
    cases result with
    | error e => exact hemit
    | ok _ => exact hemit.trans (ih j)

end Onward

/-! ### Parked packets -/

theorem Ready.mem_parked (h : i.Ready) {hop : Bytes} (hp : packet ∈ i.parked hop) : packet.Ordinary := by
  unfold Interface.parked at hp
  cases hget : i.arpPending.get? hop with
  | none =>
    rw [hget] at hp
    cases hp
  | some queue =>
    rw [hget] at hp
    exact h.parked _ (Dict.get?_eq_some_iff.mp hget) _ hp

theorem Ready.set (h : i.Ready) (hop : Bytes) {queue : List IPv4Packet} (hqueue : ∀ p ∈ queue, p.Ordinary) :
    ({ i with arpPending := i.arpPending.set hop queue } : Interface).Ready := by
  refine ⟨h.mac, h.ip, h.netmask, h.gateway, h.nextId, ?_⟩
  intro entry hentry
  rcases Dict.mem_set.mp hentry with rfl | ⟨-, hold⟩
  · exact hqueue
  · exact h.parked entry hold

theorem onward_parkPending (i : Interface) (ip : Bytes) (hp : packet.Ordinary) :
    Onward i (i.parkPending ip packet).2 := by
  have hset : ∀ queue, (∀ p ∈ queue, p ∈ i.parked ip ∨ p = packet) →
      Onward i { i with arpPending := i.arpPending.set ip queue } := by
    intro queue hqueue
    refine ⟨rfl, fun h => h.set ip fun p hmem => ?_⟩
    rcases hqueue p hmem with hold | rfl
    · exact h.mem_parked hold
    · exact hp
  unfold parkPending
  dsimp only
  split_ifs
  · apply (hset (i.parked ip) fun _ => Or.inl).trans
    exact .of_eq rfl rfl rfl rfl rfl rfl
  · refine Onward.trans ?_ (.sendArpRequest _ ip)
    apply hset
    intro p hmem
    exact (List.mem_append.mp hmem).imp_right List.mem_singleton.mp

theorem onward_flushPending (i : Interface) (ip mac : Bytes) : Onward i (i.flushPending ip mac).2 := by
  refine Onward.trans ?_ (.emitAll ip mac _ _)
  exact ⟨rfl, fun h => ⟨h.mac, h.ip, h.netmask, h.gateway, h.nextId,
    fun entry hentry => h.parked entry (Dict.mem_erase.mp hentry).1⟩⟩

theorem onward_allocateId (i : Interface) : Onward i i.allocateId.2 := by
  refine ⟨rfl, fun h => ⟨h.mac, h.ip, h.netmask, h.gateway, ?_, h.parked⟩⟩
  have hmask : (i.nextId + 1) &&& 0xFFFF ≤ 0xFFFF := Nat.and_le_right
  unfold allocateId
  dsimp only
  split_ifs
  · decide
  · exact hmask

theorem onward_sendIpv4 (i : Interface) (hp : packet.Ordinary) (now : Time) :
    Onward i (i.sendIpv4 packet now).2 := by
  unfold sendIpv4
  split
  · exact .refl i
  · exact .emitPacket i none BROADCAST_MAC packet
  · rename_i hop _
    have hlookup : Onward i { i with arpCache := (i.arpCache.lookup hop now).2 } :=
      .of_eq rfl rfl rfl rfl rfl rfl
    dsimp only
    split
    · exact hlookup.trans (onward_parkPending _ hop hp)
    · exact hlookup.trans (.emitPacket _ (some hop) _ packet)

theorem onward_handleArp (i : Interface) (frame : EthernetFrame) (now : Time) :
    Onward i (i.handleArp frame now).2 := by
  unfold handleArp
  split
  · exact .refl i
  · rename_i arp _
    have hstore : Onward i { i with arpCache := i.arpCache.store arp.senderIp arp.senderMac now } :=
      .of_eq rfl rfl rfl rfl rfl rfl
    dsimp only
    split_ifs
    · split
      · exact .of_eq rfl rfl rfl rfl rfl rfl
      · refine Onward.trans ?_ (.emit _ _ _ _)
        exact .of_eq rfl rfl rfl rfl rfl rfl
    · exact hstore.trans (onward_flushPending _ _ _)
    · exact hstore

/-! ### Errors -/

theorem emitPacket_ne (i : Interface) (hop : Option Bytes) (mac : Bytes) (hp : packet.Ordinary) :
    (i.emitPacket hop mac packet).1 ≠ .error .structError := by
  have hbytes := hp.toBytes_ne
  unfold emitPacket
  split
  · rename_i e he
    rw [he] at hbytes
    intro h
    cases h
    exact hbytes rfl
  · rename_i data _
    rw [emit_fst i mac data (by decide)]
    exact nofun

theorem emitAll_ne (ip mac : Bytes) {queue : List IPv4Packet} (hqueue : ∀ p ∈ queue, p.Ordinary)
    (i : Interface) : (emitAll ip mac queue i).1 ≠ .error .structError := by
  induction queue generalizing i with
  | nil => exact nofun
  | cons packet queue ih =>
    have hemit := emitPacket_ne i (some ip) mac (hqueue packet List.mem_cons_self)
    rw [emitAll]
    generalize i.emitPacket (some ip) mac packet = r at hemit
    obtain ⟨result, j⟩ := r
    cases result with
    | error e => exact hemit
    | ok _ => exact ih (fun p hp => hqueue p (List.mem_cons_of_mem _ hp)) j

theorem sendArpRequest_fst (hmac : i.mac.length = 6) (hip : i.ip.length = 4) {targetIp : Bytes}
    (hlen : targetIp.length = 4) : (i.sendArpRequest targetIp).1 = .ok () := by
  obtain ⟨data, hdata⟩ := ARPPacket.own_toBytes (show ARP_REQUEST ≤ 0xFFFF by decide) hmac hip
    (show (List.replicate 6 0).length = 6 from List.length_replicate) hlen
  unfold ARPPacket.own at hdata
  unfold sendArpRequest
  dsimp only
  rw [hdata]
  exact emit_fst _ _ _ (by decide)

theorem sendArpRequest_ne (i : Interface) (targetIp : Bytes) :
    (i.sendArpRequest targetIp).1 ≠ .error .structError := by
  have hbytes := @ARPPacket.own_toBytes_ne ARP_REQUEST i.mac i.ip (List.replicate 6 0) targetIp (by decide)
  unfold ARPPacket.own at hbytes
  unfold sendArpRequest
  dsimp only
  split
  · rename_i e he
    intro h
    cases h
    exact hbytes he
  · rw [emit_fst _ _ _ (by decide)]
    exact nofun

theorem parkPending_ne (i : Interface) (ip : Bytes) (packet : IPv4Packet) :
    (i.parkPending ip packet).1 ≠ .error .structError := by
  unfold parkPending
  dsimp only
  split_ifs
  · exact nofun
  · exact sendArpRequest_ne _ ip

theorem sameSubnet_ne (a b mask : Bytes) : sameSubnet a b mask ≠ .error .structError := by
  induction a generalizing b mask with
  | nil => cases b <;> cases mask <;> exact nofun
  | cons x a ih =>
    cases b with
    | nil => exact nofun
    | cons y b =>
      cases mask with
      | nil => exact nofun
      | cons m mask =>
        rw [sameSubnet]
        split_ifs
        · exact ih b mask
        · exact nofun

theorem hopOf_ne (i : Interface) (packet : IPv4Packet) : i.hopOf packet ≠ .error .structError := by
  have hsubnet := sameSubnet_ne packet.dst i.ip i.netmask
  unfold hopOf nextHop
  split_ifs
  · exact nofun
  · cases hsame : sameSubnet packet.dst i.ip i.netmask with
    | error e =>
      rw [hsame] at hsubnet
      intro h
      cases h
      exact hsubnet rfl
    | ok same => cases same <;> exact nofun

theorem sendIpv4_ne (i : Interface) (hp : packet.Ordinary) (now : Time) :
    (i.sendIpv4 packet now).1 ≠ .error .structError := by
  have hmap : ∀ {r : Except PyError Unit} {b : Bool}, r ≠ .error .structError →
      r.map (fun _ => b) ≠ .error .structError := by
    intro r b hr h
    cases r with
    | error e =>
      cases h
      exact hr rfl
    | ok _ => cases h
  have hhop := i.hopOf_ne packet
  unfold sendIpv4
  split
  · rename_i e he
    intro h
    cases h
    exact hhop he
  · exact hmap (emitPacket_ne i none BROADCAST_MAC hp)
  · dsimp only
    split
    · exact hmap (parkPending_ne _ _ packet)
    · exact hmap (emitPacket_ne _ _ _ hp)

theorem Ready.handleArp_ne (h : i.Ready) (frame : EthernetFrame) (now : Time) :
    (i.handleArp frame now).1 ≠ .error .structError := by
  unfold handleArp
  cases hparse : ARPPacket.parse frame.payload with
  | error e =>
    unfold ARPPacket.parse at hparse
    dsimp only at hparse
    split_ifs at hparse <;> cases hparse <;> exact nofun
  | ok arp =>
    obtain ⟨hmac, hip, -, -⟩ := ARPPacket.length_of_parse hparse
    dsimp only
    split_ifs
    · obtain ⟨data, hdata⟩ := ARPPacket.own_toBytes (show ARP_REPLY ≤ 0xFFFF by decide) h.mac h.ip hmac hip
      unfold ARPPacket.own at hdata
      rw [hdata]
      dsimp only
      rw [emit_fst _ _ _ (by decide)]
      exact nofun
    · exact emitAll_ne _ _ (fun p hp => h.mem_parked hp) _
    · exact nofun

theorem Ready.sendIpv4_fits (h : i.Ready) (hp : packet.InWireRange) (now : Time) :
    ∃ sent, (i.sendIpv4 packet now).1 = .ok sent := by
  have hbytes := hp.toBytes_eq
  have hemit : ∀ (j : Interface) hop mac, (j.emitPacket hop mac packet).1 = .ok () := by
    intro j hop mac
    unfold emitPacket
    rw [hbytes]
    exact emit_fst j mac _ (by decide)
  have hhop : ∃ hop, i.hopOf packet = .ok hop ∧ ∀ a ∈ hop, a.length = 4 := by
    obtain ⟨same, hsame⟩ : ∃ same, sameSubnet packet.dst i.ip i.netmask = .ok same := sameSubnet_of_length
      (h.ip.trans hp.dst.symm) (h.netmask.trans hp.dst.symm)
    unfold hopOf nextHop
    rw [hsame]
    split_ifs
    · exact ⟨none, rfl, nofun⟩
    · cases same with
      | true =>
        refine ⟨some packet.dst, rfl, ?_⟩
        rintro _ ⟨⟩
        exact hp.dst
      | false =>
        refine ⟨some (i.gateway.getD packet.dst), rfl, ?_⟩
        rintro _ ⟨⟩
        cases hgateway : i.gateway with
        | none => exact hp.dst
        | some gateway => exact h.gateway gateway hgateway
  obtain ⟨hop, hhop, hlen⟩ := hhop
  unfold sendIpv4
  rw [hhop]
  cases hop with
  | none =>
    dsimp only
    rw [hemit]
    exact ⟨true, rfl⟩
  | some a =>
    dsimp only
    cases (i.arpCache.lookup a now).1 with
    | some mac =>
      dsimp only
      rw [hemit]
      exact ⟨true, rfl⟩
    | none =>
      dsimp only
      unfold parkPending
      dsimp only
      split_ifs
      · exact ⟨false, rfl⟩
      · rw [sendArpRequest_fst]
        · exact ⟨false, rfl⟩
        · exact h.mac
        · exact h.ip
        · exact hlen a rfl

end Interface

end MiniTcp
