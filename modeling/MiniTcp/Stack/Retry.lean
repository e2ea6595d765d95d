import MiniTcp.Stack.Link
import MiniTcp.Stack.Operations
import MiniTcp.Stack.Survival

/-!
# Whether an unknown address is asked for

`send_ipv4` asks for an address in the step that parks the packet, and a full queue ends that step before it asks
(`asks_iff_hasRoom`). A queue only empties on a reply, so from a full queue on nothing is asked any more.

Every send of a stack, be it a segment of a connection, a datagram, an echo reply or a reset, is a `send_ipv4` of its
link part, and whatever the stack does is a run of `link` (`performs_step`). So `asks_iff_room` speaks of the runs of
`link` from any state that the link part of a stack can have, and says which of their sends ask.
-/

namespace MiniTcp

namespace Interface

variable {i : Interface} {packet : IPv4Packet} {hop : Bytes} {now : Time}

/-! ### What never changes -/

/-- What the constructor was given. -/
def addresses (i : Interface) : Bytes × Bytes × Bytes × Option Bytes × Nat :=
  (i.mac, i.ip, i.netmask, i.gateway, i.maxArpPending)

@[simp] theorem addresses_emit (i : Interface) (mac : Bytes) (ethertype : Nat) (payload : Bytes) :
    (i.emit mac ethertype payload).2.addresses = i.addresses := by
  unfold emit
  dsimp only
  split <;> rfl

@[simp] theorem addresses_emitPacket (i : Interface) (hop : Option Bytes) (mac : Bytes) (packet : IPv4Packet) :
    (i.emitPacket hop mac packet).2.addresses = i.addresses := by
  unfold emitPacket
  split
  · rfl
  · exact addresses_emit i mac ETHERTYPE_IPV4 _

@[simp] theorem addresses_sendArpRequest (i : Interface) (targetIp : Bytes) :
    (i.sendArpRequest targetIp).2.addresses = i.addresses := by
  unfold sendArpRequest
  dsimp only
  split
  · rfl
  · exact addresses_emit _ _ _ _

@[simp] theorem addresses_emitAll (ip mac : Bytes) (queue : List IPv4Packet) (i : Interface) :
    (emitAll ip mac queue i).2.addresses = i.addresses := by
  induction queue generalizing i with
  | nil => rfl
  | cons packet queue ih =>
    have hemit := addresses_emitPacket i (some ip) mac packet
    rw [emitAll]
    generalize i.emitPacket (some ip) mac packet = r at hemit
    obtain ⟨result, j⟩ := r
    cases result with
    | error e => exact hemit
    | ok _ => exact (ih j).trans hemit

@[simp] theorem addresses_sendIpv4 (i : Interface) (packet : IPv4Packet) (now : Time) :
    (i.sendIpv4 packet now).2.addresses = i.addresses := by
  unfold sendIpv4
  split
  · rfl
  · exact addresses_emitPacket i none BROADCAST_MAC packet
  · dsimp only
    split
    · unfold parkPending
      dsimp only
      split_ifs
      · rfl
      · exact addresses_sendArpRequest _ _
    · exact addresses_emitPacket _ _ _ _

@[simp] theorem addresses_handleArp (i : Interface) (frame : EthernetFrame) (now : Time) :
    (i.handleArp frame now).2.addresses = i.addresses := by
  unfold handleArp
  split
  · rfl
  · dsimp only
    split_ifs
    · split
      · rfl
      · exact addresses_emit _ _ _ _
    · exact addresses_emitAll _ _ _ _
    · rfl

theorem addresses_perform (i : Interface) (e : LinkEvent) : (i.perform e).addresses = i.addresses := by
  cases e with
  | send packet now => exact addresses_sendIpv4 i packet now
  | arp frame now => exact addresses_handleArp i frame now
  | expire now => rfl
  | allocate => rfl
  | count stats => rfl

/-! ### One send -/

/-- The frame that asks everyone for the MAC of `targetIp`. -/
def request (i : Interface) (targetIp : Bytes) : Except PyError Bytes := do
  let data ← (ARPPacket.own ARP_REQUEST i.mac i.ip (List.replicate 6 0) targetIp).toBytes
  EthernetFrame.toBytes { dst := BROADCAST_MAC, src := i.mac, ethertype := ETHERTYPE_ARP, payload := data }

/-- The addresses of the interface have their lengths. -/
structure Addressed (i : Interface) : Prop where
  mac : i.mac.length = 6
  ip : i.ip.length = 4
  gateway : ∀ hop ∈ i.gateway, hop.length = 4

theorem Addressed.of_eq {j : Interface} (h : i.Addressed) (heq : j.addresses = i.addresses) : j.Addressed := by
  obtain ⟨hmac, hip, -, hgateway, -⟩ : j.mac = i.mac ∧ j.ip = i.ip ∧ j.netmask = i.netmask ∧
      j.gateway = i.gateway ∧ j.maxArpPending = i.maxArpPending := by
    simpa [addresses] using heq
  exact ⟨hmac ▸ h.mac, hip ▸ h.ip, hgateway ▸ h.gateway⟩

theorem Addressed.length_hop (h : i.Addressed) (hdst : packet.dst.length = 4)
    (hhop : i.hopOf packet = .ok (some hop)) : hop.length = 4 := by
  unfold hopOf nextHop at hhop
  split_ifs at hhop
  · cases hhop
  · cases hsame : sameSubnet packet.dst i.ip i.netmask with
    | error e =>
      rw [hsame] at hhop
      cases hhop
    | ok same =>
      rw [hsame] at hhop
      cases same with
      | true =>
        cases hhop
        exact hdst
      | false =>
        cases hhop
        cases hgateway : i.gateway with
        | none => exact hdst
        | some gateway => exact h.gateway gateway hgateway

theorem sendArpRequest_link (h : i.Addressed) (hlength : hop.length = 4) :
    ∃ frame, i.request hop = .ok frame ∧ (i.sendArpRequest hop).2.link = i.link ++ [frame] := by
  obtain ⟨data, hdata⟩ := ARPPacket.own_toBytes (show ARP_REQUEST ≤ 0xFFFF by decide) h.mac h.ip
    (show (List.replicate 6 0).length = 6 from List.length_replicate) hlength
  obtain ⟨frame, hframe⟩ : ∃ frame, EthernetFrame.toBytes
      { dst := BROADCAST_MAC, src := i.mac, ethertype := ETHERTYPE_ARP, payload := data } = .ok frame :=
    ⟨_, EthernetFrame.toBytes_eq (show ETHERTYPE_ARP < 65536 by decide)⟩
  refine ⟨frame, ?_, ?_⟩
  · rw [request, hdata]
    exact hframe
  · unfold ARPPacket.own at hdata
    unfold sendArpRequest
    dsimp only
    rw [hdata]
    unfold emit
    dsimp only
    rw [hframe]

theorem sendIpv4_link (h : i.Addressed) (hlength : hop.length = 4) (hhop : i.hopOf packet = .ok (some hop))
    (hunknown : i.arpCache.known hop now = none) :
    ∃ frame, i.request hop = .ok frame ∧
      (i.sendIpv4 packet now).2.link = i.link ++ if (i.parked hop).length < i.maxArpPending then [frame] else [] := by
  have hfst : (i.arpCache.lookup hop now).1 = none := ARPCache.lookup_fst.trans hunknown
  obtain ⟨frame, hframe, hasks⟩ := sendArpRequest_link
    (i := { i with
      arpCache := (i.arpCache.lookup hop now).2
      arpPending := i.arpPending.set hop (i.parked hop ++ [packet]) }) (h.of_eq rfl) hlength
  refine ⟨frame, hframe, ?_⟩
  unfold sendIpv4
  rw [hhop]
  dsimp only
  rw [hfst]
  unfold parkPending
  dsimp only
  split_ifs with hfull hroom hroom
  · exact absurd hroom (Nat.not_lt.mpr hfull)
  · rw [List.append_nil]
  · exact hasks
  · exact absurd (Nat.le_of_not_lt hroom) hfull

/-! ### Runs -/

/-- The send is one to an address that is not known. -/
def Unresolved (i : Interface) (packet : IPv4Packet) (now : Time) (hop : Bytes) : Prop :=
  packet.dst.length = 4 ∧ i.hopOf packet = .ok (some hop) ∧ i.arpCache.known hop now = none

/-- A send asks for the next hop, if it is not known. -/
def Asks (i : Interface) : LinkEvent → Prop
  | .send packet now => ∀ hop, i.Unresolved packet now hop →
    ∃ frame, i.request hop = .ok frame ∧ (i.perform (.send packet now)).link = i.link ++ [frame]
  | _ => True

/-- At a send there is room to park another packet for the next hop, if it is not known. -/
def HasRoom (i : Interface) : LinkEvent → Prop
  | .send packet now => ∀ hop, i.Unresolved packet now hop → (i.parked hop).length < i.maxArpPending
  | _ => True

theorem asks_iff_hasRoom (h : i.Addressed) (e : LinkEvent) : i.Asks e ↔ i.HasRoom e := by
  cases e with
  | send packet now =>
    refine forall₂_congr fun hop hunresolved => ?_
    obtain ⟨hdst, hhop, hunknown⟩ := hunresolved
    obtain ⟨frame, hframe, hlink⟩ := sendIpv4_link h (h.length_hop hdst hhop) hhop hunknown
    constructor
    · rintro ⟨frame', -, hasks⟩
      by_contra hfull
      rw [if_neg hfull] at hlink
      have hsame := List.append_cancel_left (hasks.symm.trans hlink)
      cases hsame
    · intro hroom
      rw [if_pos hroom] at hlink
      exact ⟨frame, hframe, hlink⟩
  | _ => exact Iff.rfl

end Interface

variable {i : Interface}

theorem addressed_of_reachable (h : link.Reachable i) : i.Addressed := by
  refine Machine.ReachableBy.induction link (P := fun i => i.Addressed) ?_ ?_ h
  · rintro i ⟨cfg, rfl⟩
    exact ⟨cfg.mac_length, cfg.ip_length, cfg.gateway_length⟩
  · intro i e _ hi _
    exact hi.of_eq (i.addresses_perform e)

/-- From every state that the link part of a stack can have, in every run of its operations: every send to an unknown
address broadcasts a request for it exactly when at every such send there is room for another packet. -/
theorem asks_iff_room (h : link.Reachable i) (es : List LinkEvent) :
    link.Meets Interface.Asks i es ↔ link.Meets Interface.HasRoom i es := by
  apply link.meets_iff_meets (Q := fun i => i.Addressed) (E := fun _ _ => True)
  · intro i e hi _ _
    exact hi.of_eq (i.addresses_perform e)
  · intro i e hi _
    exact Interface.asks_iff_hasRoom hi e
  · exact link.meets_true i es
  · exact addressed_of_reachable h

namespace Stack

/-! ### The black hole -/

theorem neighbour_length : ([10, 0, 0, 2] : Bytes).length = 4 := rfl

/-- A datagram to 10.0.0.2. -/
def sayTo (data : UInt8) (now : Time) : StackEvent :=
  .udpSend [data] ⟨[10, 0, 0, 2], 9, neighbour_length⟩ 5000 now

/-- A stack that has sent so many datagrams to 10.0.0.2, which does not answer. -/
def unanswered (n : Nat) : Stack := stack.run (.new host) (List.replicate n (sayTo 1 0))

theorem reachable_unanswered (n : Nat) : stack.Reachable (unanswered n) :=
  (Machine.ReachableBy.init stack ⟨host, rfl⟩).run stack (stack.meets_true _ _)

/-- With one datagram parked the next send still asks. -/
theorem asks_unanswered :
    (unanswered 1).Unresolved (samplePacket 1) 0 [10, 0, 0, 2] ∧
      link.Meets Interface.Asks (unanswered 1).toInterface [.send (samplePacket 1) 0] := by
  have hhop : (unanswered 1).hopOf (samplePacket 1) = .ok (some [10, 0, 0, 2]) := by decide +kernel
  refine ⟨⟨rfl, hhop, by decide +kernel⟩,
    (asks_iff_room (reachable_link (reachable_unanswered 1)) _).mpr ⟨fun hop h => ?_, trivial⟩⟩
  obtain rfl : [10, 0, 0, 2] = hop := Option.some.inj (Except.ok.inj (hhop.symm.trans h.2.1))
  decide +kernel

/-- An hour after thirty-two datagrams that nobody answered, the next one asks no more. -/
theorem full_queue_never_asks :
    stack.Reachable (unanswered 32) ∧
      (unanswered 32).Unresolved (samplePacket 2) 3600 [10, 0, 0, 2] ∧
      ((unanswered 32).step (sayTo 2 3600)).link = (unanswered 32).link ∧
      ¬ (unanswered 32).Asks (.send (samplePacket 2) 3600) := by
  have hunresolved : (unanswered 32).Unresolved (samplePacket 2) 3600 [10, 0, 0, 2] :=
    ⟨rfl, by decide +kernel, by decide +kernel⟩
  refine ⟨reachable_unanswered 32, hunresolved, by decide +kernel, fun hasks => ?_⟩
  have haddressed := addressed_of_reachable (reachable_link (reachable_unanswered 32))
  have hroom := (Interface.asks_iff_hasRoom haddressed _).mp hasks _ hunresolved
  exact absurd hroom (by decide +kernel)

end Stack

/-! ### Datagrams of the application -/

/-- An event of the stack, or a datagram that the application hands to `send_ipv4` itself. -/
inductive CallEvent where
  | event (e : StackEvent)
  | sendIpv4 (packet : IPv4Packet) (now : Time)

namespace Stack

def callStep (s : Stack) : CallEvent → Stack
  | .event e => s.step e
  | .sendIpv4 packet now => (s.onLink (s.toInterface.sendIpv4 packet now)).2

theorem addressed_new (cfg : StackConfig) : (Stack.new cfg).Addressed :=
  ⟨cfg.mac_length, cfg.ip_length, cfg.gateway_length⟩

end Stack

end MiniTcp
