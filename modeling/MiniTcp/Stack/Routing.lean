import MiniTcp.Net.Ipv4.Netmask
import MiniTcp.Stack.Departures

/-!
# Where a stack sends its packets

A packet leaves to the next hop that `_next_hop` chose for it, at once or after it has waited for the address of
that hop (`Routed`). With the netmask of a prefix length this is the destination itself when it has the prefix of
the stack, and the gateway otherwise (`routed`).
-/

namespace MiniTcp

namespace Interface

variable {i j : Interface} {n : Nat}

/-- What has the prefix of the interface is reached directly, and everything else through the gateway. -/
theorem nextHop_of_prefixToMask {dst : Bytes} (hmask : prefixToMask n = .ok i.netmask) (hip : i.ip.length = 4)
    (hdst : dst.length = 4) :
    i.nextHop dst = .ok (if u32At dst 0 / 2 ^ (32 - n) = u32At i.ip 0 / 2 ^ (32 - n) then dst
      else i.gateway.getD dst) := by
  unfold nextHop
  rw [sameSubnet_of_prefixToMask hmask hdst hip, ok_bind]
  simp only [decide_eq_true_eq]
  split_ifs <;> rfl

theorem hopOf_congr (h : j.addresses = i.addresses) (packet : IPv4Packet) : j.hopOf packet = i.hopOf packet := by
  obtain ⟨-, hip, hmask, hgateway, -⟩ : j.mac = i.mac ∧ j.ip = i.ip ∧ j.netmask = i.netmask ∧
      j.gateway = i.gateway ∧ j.maxArpPending = i.maxArpPending := by
    simpa only [addresses, Prod.mk.injEq] using h
  rw [hopOf, hopOf, nextHop, nextHop, hip, hmask, hgateway]

/-- What has left went to its next hop, and what is parked waits for it. -/
structure Routed (i : Interface) : Prop where
  departed : ∀ e ∈ i.departed, i.hopOf e.2 = .ok e.1
  parked : ∀ hop, ∀ packet ∈ i.parked hop, i.hopOf packet = .ok (some hop)

namespace Routed

theorem of_subset (h : i.Routed) (haddresses : j.addresses = i.addresses)
    (hdeparted : ∀ e ∈ j.departed, e ∈ i.departed ∨ i.hopOf e.2 = .ok e.1)
    (hparked : ∀ hop, ∀ packet ∈ j.parked hop, packet ∈ i.parked hop ∨ i.hopOf packet = .ok (some hop)) :
    j.Routed := by
  refine ⟨fun e he => ?_, fun hop packet hpacket => ?_⟩
  · rw [hopOf_congr haddresses]
    exact (hdeparted e he).elim (h.departed e) id
  · rw [hopOf_congr haddresses]
    exact (hparked hop packet hpacket).elim (h.parked hop packet) id

theorem sendIpv4 (h : i.Routed) (packet : IPv4Packet) (now : Time) : (i.sendIpv4 packet now).2.Routed := by
  cases htarget : i.hopOf packet with
  | error e =>
    unfold Interface.sendIpv4
    rw [htarget]
    exact h
  | ok target =>
    rcases sendIpv4_spec now htarget with ⟨out, hout, -, hsends⟩ | ⟨a, queue, rfl, hqueue, -, hsends⟩
    · refine h.of_subset (addresses_sendIpv4 i packet now) (fun e he => ?_) fun hop p hp => ?_
      · rw [hsends.departed] at he
        refine (List.mem_append.mp he).imp_right fun hnew => ?_
        obtain rfl := List.mem_singleton.mp (hout.subset hnew)
        exact htarget
      · rw [hsends.parked] at hp
        exact .inl hp
    · refine h.of_subset (addresses_sendIpv4 i packet now) (fun e he => ?_) fun hop p hp => ?_
      · rw [hsends.departed, List.append_nil] at he
        exact .inl he
      · rw [(hsends.parked hop).trans (parked_set rfl hop)] at hp
        split_ifs at hp with hhop
        · rcases hqueue with rfl | rfl
          · exact .inl (hhop ▸ hp)
          · refine (List.mem_append.mp hp).imp (fun hold => hhop ▸ hold) fun hnew => ?_
            rw [List.mem_singleton.mp hnew, hhop]
            exact htarget
        · exact .inl hp

theorem handleArp (h : i.Routed) (frame : EthernetFrame) (now : Time) : (i.handleArp frame now).2.Routed := by
  cases hparse : ARPPacket.parse frame.payload with
  | error e =>
    unfold Interface.handleArp
    rw [hparse]
    exact h
  | ok packet =>
    obtain ⟨gone, hgone, hsends⟩ := handleArp_spec (i := i) now hparse
    refine h.of_subset (addresses_handleArp i frame now) (fun e he => ?_) fun hop p hp => ?_
    · rw [hsends.departed] at he
      refine (List.mem_append.mp he).imp_right fun hnew => ?_
      obtain ⟨p, hp, rfl⟩ := List.mem_map.mp hnew
      have hwaited := hgone.subset hp
      split_ifs at hwaited
      · exact h.parked _ p hwaited
      · cases hwaited
    · rw [hsends.parked] at hp
      unfold Interface.parked at hp
      dsimp only at hp
      split_ifs at hp
      · by_cases hhop : hop = packet.senderIp
        · rw [hhop, Dict.get?_erase_self] at hp
          cases hp
        · rw [Dict.get?_erase_of_ne hhop] at hp
          exact .inl hp
      · exact .inl hp

theorem perform (h : i.Routed) (e : LinkEvent) : (i.perform e).Routed := by
  cases e with
  | send packet now => exact h.sendIpv4 packet now
  | arp frame now => exact h.handleArp frame now
  | expire | allocate | count => exact ⟨h.departed, h.parked⟩

end Routed

/-! ### Only what can be serialised leaves -/

theorem departed_emitPacket (i : Interface) (target : Option Bytes) (mac : Bytes) (packet : IPv4Packet) :
    (i.emitPacket target mac packet).2.departed =
      i.departed ++ if packet.encodes then [(target, packet)] else [] := by
  unfold emitPacket IPv4Packet.encodes
  cases hdata : packet.toBytes with
  | error e => exact (List.append_nil _).symm
  | ok data =>
    have hsends := sends_emit i mac ETHERTYPE_IPV4 data
    change (i.emit mac ETHERTYPE_IPV4 data).2.departed ++ _ = _
    rw [hsends.departed, List.append_nil]
    rfl

theorem encodes_of_emitPacket {target : Option Bytes} {mac : Bytes} {packet : IPv4Packet}
    {e : Option Bytes × IPv4Packet} (he : e ∈ (i.emitPacket target mac packet).2.departed) :
    e ∈ i.departed ∨ e.2.encodes = true := by
  rw [departed_emitPacket] at he
  refine (List.mem_append.mp he).imp_right fun hnew => ?_
  split_ifs at hnew with hencodes
  · rw [List.mem_singleton.mp hnew]
    exact hencodes
  · cases hnew

theorem encodes_of_sendIpv4 {packet : IPv4Packet} {now : Time} {e : Option Bytes × IPv4Packet}
    (he : e ∈ (i.sendIpv4 packet now).2.departed) : e ∈ i.departed ∨ e.2.encodes = true := by
  unfold sendIpv4 at he
  cases htarget : i.hopOf packet with
  | error _ =>
    rw [htarget] at he
    exact .inl he
  | ok target =>
    rw [htarget] at he
    cases target with
    | none => exact encodes_of_emitPacket he
    | some hop =>
      dsimp only at he
      split at he
      · unfold parkPending at he
        dsimp only at he
        split_ifs at he
        · exact .inl he
        · rw [(sends_sendArpRequest _ hop).departed, List.append_nil] at he
          exact .inl he
      · exact encodes_of_emitPacket (i := { i with arpCache := (i.arpCache.lookup hop now).2 }) he

theorem encodes_of_handleArp {frame : EthernetFrame} {now : Time} {e : Option Bytes × IPv4Packet}
    (he : e ∈ (i.handleArp frame now).2.departed) : e ∈ i.departed ∨ e.2.encodes = true := by
  cases hparse : ARPPacket.parse frame.payload with
  | error _ =>
    unfold handleArp at he
    rw [hparse] at he
    exact .inl he
  | ok packet =>
    cases hreply : packet.isReply with
    | true =>
      rw [(gone_handleArp now hparse hreply).departed] at he
      refine (List.mem_append.mp he).imp_right fun hnew => ?_
      obtain ⟨p, hp, rfl⟩ := List.mem_map.mp hnew
      exact List.mem_takeWhile_imp hp
    | false =>
      obtain ⟨gone, hgone, hsends⟩ := handleArp_spec (i := i) now hparse
      rw [hreply, if_neg Bool.false_ne_true] at hgone
      rw [hsends.departed, List.prefix_nil.mp hgone] at he
      exact .inl (List.append_nil i.departed ▸ he)

theorem encodes_of_perform {e : LinkEvent} {x : Option Bytes × IPv4Packet} (hx : x ∈ (i.perform e).departed) :
    x ∈ i.departed ∨ x.2.encodes = true := by
  cases e with
  | send packet now => exact encodes_of_sendIpv4 hx
  | arp frame now => exact encodes_of_handleArp hx
  | expire | allocate | count => exact .inl hx

end Interface

namespace Stack

variable {cfg : StackConfig} {n : Nat}

theorem run_of_perform {P : Interface → Prop} (hP : ∀ i e, P i → P (i.perform e)) (es : List StackEvent)
    (hnew : P (Stack.new cfg).toInterface) : P (stack.run (.new cfg) es).toInterface :=
  stack.run_induction (P := fun s => P s.toInterface) (fun s e hs _ => (s.performs_step e).induction hP hs) hnew
    (stack.meets_true _ es)

theorem routed_run (cfg : StackConfig) (es : List StackEvent) : (stack.run (.new cfg) es).toInterface.Routed :=
  run_of_perform (fun _ e hi => hi.perform e) es
    ⟨fun _ h => absurd h List.not_mem_nil, fun _ _ h => absurd h List.not_mem_nil⟩

theorem length_dst_of_departed (cfg : StackConfig) (es : List StackEvent) :
    ∀ e ∈ (stack.run (.new cfg) es).departed, e.2.dst.length = 4 := by
  intro e he
  have hall : ∀ x ∈ (stack.run (.new cfg) es).departed, x.2.encodes = true :=
    run_of_perform (P := fun i => ∀ x ∈ i.departed, x.2.encodes = true)
      (fun _ _ hi x hx => (Interface.encodes_of_perform hx).elim (hi x) id) es fun _ h => absurd h List.not_mem_nil
  exact (IPv4Packet.encodes_iff.mp (hall e he)).2.1

/-- Every packet that leaves a stack with a prefix length for its netmask goes to everyone, to its destination if
that has the prefix of the stack, or to the gateway if there is one. -/
theorem routed (es : List StackEvent) (hmask : prefixToMask n = .ok cfg.netmask) :
    ∀ e ∈ (stack.run (.new cfg) es).departed,
      e.1 = if e.2.dst = IP_BROADCAST then none
        else if u32At e.2.dst 0 / 2 ^ (32 - n) = u32At cfg.ip 0 / 2 ^ (32 - n) then some e.2.dst
        else some (cfg.gateway.getD e.2.dst) := by
  intro e he
  have hdst := length_dst_of_departed cfg es e he
  have haddresses := addresses_run (sound_new cfg) es
  have hhop := (routed_run cfg es).departed e he
  rw [Interface.hopOf_congr haddresses, Interface.hopOf] at hhop
  split_ifs at hhop with hbroadcast
  · rw [if_pos hbroadcast]
    exact (Except.ok.inj hhop).symm
  · rw [Interface.nextHop_of_prefixToMask (i := (Stack.new cfg).toInterface) hmask cfg.ip_length hdst] at hhop
    rw [if_neg hbroadcast, ← apply_ite some]
    exact (Except.ok.inj hhop).symm

/-- `host`, with a gateway. -/
def routedHost : StackConfig :=
  { host with
    gateway := some [10, 0, 0, 2]
    gateway_length := by rintro _ ⟨⟩; rfl }

/-- A datagram to another network, and the gateway says where it is. -/
def abroad : List StackEvent :=
  [.udpSend [7] ⟨[8, 8, 8, 8], 53, rfl⟩ 5000 0, .frame ((sampleArp 2).toBytes.toOption.getD []) 0 0]

theorem routed_abroad :
    ∃ packet, (stack.run (.new routedHost) abroad).departed = [(some [10, 0, 0, 2], packet)] := by
  have hone : (stack.run (.new routedHost) abroad).departed.length = 1 := by decide +kernel
  obtain ⟨⟨hop, packet⟩, heq⟩ := List.length_eq_one_iff.mp hone
  have hdst : (stack.run (.new routedHost) abroad).departed.map (·.2.dst) = [[8, 8, 8, 8]] := by decide +kernel
  rw [heq] at hdst
  have hdst' : packet.dst = [8, 8, 8, 8] := List.singleton_inj.mp hdst
  have hmask : prefixToMask 24 = .ok routedHost.netmask := by decide +kernel
  have hhop := routed (n := 24) abroad hmask (hop, packet) (heq ▸ List.mem_cons_self)
  rw [hdst', if_neg (by decide), if_neg (by decide +kernel)] at hhop
  obtain rfl : hop = some [10, 0, 0, 2] := hhop
  exact ⟨packet, heq⟩

end Stack

end MiniTcp
