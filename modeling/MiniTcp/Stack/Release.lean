import MiniTcp.Stack.Resolution

/-!
# What an ARP reply releases

The loop over a queue of parked packets stops at the first one that cannot be serialised (`emitAll_spec`), and the
queue has left the table by then. So everything that can be serialised is sent exactly when nothing that cannot
stands before it (`releases_iff`).
-/

namespace MiniTcp

/-- What comes first in a list are all that there are, when nothing else stands before one of them. -/
theorem takeWhile_eq_filter_iff {α : Type} {p : α → Bool} {xs : List α} :
    xs.takeWhile p = xs.filter p ↔ xs.Pairwise fun x y => p y = true → p x = true := by
  induction xs with
  | nil => simp
  | cons x xs ih =>
    rw [List.takeWhile_cons, List.filter_cons, List.pairwise_cons]
    cases hx : p x with
    | true =>
      simp only [if_true, List.cons.injEq, true_and, ih]
      exact (and_iff_right fun _ _ _ => trivial).symm
    | false =>
      simp only [Bool.false_eq_true, if_false, eq_comm (a := []), List.filter_eq_nil_iff, imp_false]
      exact ⟨fun hnone => ⟨hnone, List.pairwise_of_forall_mem_list fun y _ z hz hpz => absurd hpz (hnone z hz)⟩,
        And.left⟩

/-- Whether `to_bytes` accepts the packet. -/
def IPv4Packet.encodes (p : IPv4Packet) : Bool := p.toBytes.isOk

namespace Interface

variable {i : Interface} {ip mac : Bytes} {queue : List IPv4Packet}

/-- The frame that carries a packet. -/
def frameOf (i : Interface) (mac : Bytes) (packet : IPv4Packet) : Except PyError Bytes := do
  let data ← packet.toBytes
  EthernetFrame.toBytes { dst := mac, src := i.mac, ethertype := ETHERTYPE_IPV4, payload := data }

/-- The frames of those packets that can be serialised, in order. -/
def frames (i : Interface) (mac : Bytes) (queue : List IPv4Packet) : List Bytes :=
  queue.filterMap fun packet => (i.frameOf mac packet).toOption

/-- The packets of `queue` have gone to `ip`, and nothing else. -/
structure Gone (i j : Interface) (ip mac : Bytes) (queue : List IPv4Packet) : Prop where
  link : j.link = i.link ++ i.frames mac queue
  departed : j.departed = i.departed ++ queue.map (some ip, ·)

theorem emitPacket_of_encodes (i : Interface) (ip mac : Bytes) {packet : IPv4Packet} (h : packet.encodes = true) :
    ∃ frame, i.frameOf mac packet = .ok frame ∧ (i.emitPacket (some ip) mac packet).1 = .ok () ∧
      (i.emitPacket (some ip) mac packet).2.mac = i.mac ∧
      (i.emitPacket (some ip) mac packet).2.link = i.link ++ [frame] ∧
      (i.emitPacket (some ip) mac packet).2.departed = i.departed ++ [(some ip, packet)] := by
  rw [IPv4Packet.encodes] at h
  cases hdata : packet.toBytes with
  | error e =>
    rw [hdata] at h
    cases h
  | ok data =>
    have hframe : ∃ frame, EthernetFrame.toBytes
        { dst := mac, src := i.mac, ethertype := ETHERTYPE_IPV4, payload := data } = .ok frame :=
      ⟨_, EthernetFrame.toBytes_eq (show ETHERTYPE_IPV4 < 65536 by decide)⟩
    obtain ⟨frame, hframe⟩ := hframe
    refine ⟨frame, ?_, ?_⟩
    · rw [frameOf, hdata]
      exact hframe
    · simp [emitPacket, emit, hdata, hframe]

theorem emitPacket_of_not_encodes (i : Interface) (ip mac : Bytes) {packet : IPv4Packet} (h : packet.encodes = false) :
    ∃ e, i.emitPacket (some ip) mac packet = (.error e, i) := by
  rw [IPv4Packet.encodes] at h
  cases hdata : packet.toBytes with
  | error e =>
    exact ⟨e, by rw [emitPacket, hdata]⟩
  | ok data =>
    rw [hdata] at h
    cases h

theorem frames_cons_of_ok {packet : IPv4Packet} {frame : Bytes} (h : i.frameOf mac packet = .ok frame)
    (queue : List IPv4Packet) : i.frames mac (packet :: queue) = frame :: i.frames mac queue :=
  List.filterMap_cons_some (by rw [h]; rfl)

theorem emitAll_spec (ip mac : Bytes) (queue : List IPv4Packet) (i : Interface) :
    Gone i (emitAll ip mac queue i).2 ip mac (queue.takeWhile IPv4Packet.encodes) := by
  induction queue generalizing i with
  | nil => exact ⟨(List.append_nil _).symm, (List.append_nil _).symm⟩
  | cons packet queue ih =>
    rw [emitAll]
    cases hencodes : packet.encodes with
    | false =>
      obtain ⟨e, hemit⟩ := emitPacket_of_not_encodes i ip mac hencodes
      rw [hemit, List.takeWhile_cons_of_neg (by simp [hencodes])]
      exact ⟨(List.append_nil _).symm, (List.append_nil _).symm⟩
    | true =>
      obtain ⟨frame, hframe, hok, hmac, hlink, hdeparted⟩ := emitPacket_of_encodes i ip mac hencodes
      rw [List.takeWhile_cons_of_pos hencodes]
      generalize i.emitPacket (some ip) mac packet = r at hok hmac hlink hdeparted
      obtain ⟨result, j⟩ := r
      cases hok
      have hrest := ih j
      have hframes : j.frames mac = i.frames mac := by
        funext queue
        rw [frames, frames]
        simp only [frameOf]
        rw [hmac]
      refine ⟨?_, ?_⟩
      · rw [frames_cons_of_ok hframe, ← hframes]
        exact hrest.link.trans (by rw [hlink, List.append_assoc, List.singleton_append])
      · exact hrest.departed.trans (by rw [hdeparted, List.append_assoc]; rfl)

theorem gone_handleArp {frame : EthernetFrame} {packet : ARPPacket} (now : Time)
    (hparse : ARPPacket.parse frame.payload = .ok packet) (hreply : packet.isReply = true) :
    Gone i (i.handleArp frame now).2 packet.senderIp packet.senderMac
      ((i.parked packet.senderIp).takeWhile IPv4Packet.encodes) := by
  unfold handleArp
  rw [hparse]
  dsimp only
  rw [ARPPacket.isRequest_of_isReply hreply, Bool.false_and, if_neg Bool.false_ne_true, if_pos hreply]
  obtain ⟨hlink, hdeparted⟩ := emitAll_spec packet.senderIp packet.senderMac (i.parked packet.senderIp)
    { i with
      arpCache := i.arpCache.store packet.senderIp packet.senderMac now
      arpPending := i.arpPending.erase packet.senderIp }
  exact ⟨hlink, hdeparted⟩

/-- Everything parked for the sender of a reply that can be serialised is sent, once and in order, exactly when
nothing that cannot be serialised stands before it. -/
theorem releases_iff {frame : EthernetFrame} {packet : ARPPacket} (now : Time)
    (hparse : ARPPacket.parse frame.payload = .ok packet) (hreply : packet.isReply = true) :
    Gone i (i.handleArp frame now).2 packet.senderIp packet.senderMac
        ((i.parked packet.senderIp).filter IPv4Packet.encodes) ↔
      (i.parked packet.senderIp).Pairwise fun p q => q.encodes = true → p.encodes = true := by
  have hsent := gone_handleArp (i := i) now hparse hreply
  rw [← takeWhile_eq_filter_iff]
  constructor
  · intro hall
    have hmap := List.append_cancel_left (hsent.departed.symm.trans hall.departed)
    exact List.map_injective_iff.mpr (fun _ _ h => congrArg Prod.snd h) hmap
  · intro heq
    rw [← heq]
    exact hsent

/-- A datagram that is accepted while the address is unknown, and refused afterwards. -/
def unserialisable : IPv4Packet := { samplePacket 1 with ttl := 300 }

/-- What `sampleArp 2` says. -/
def sampleReply : ARPPacket where
  operation := ARP_REPLY
  senderMac := [2, 0, 0, 0, 0, 2]
  senderIp := [10, 0, 0, 2]
  targetMac := [0, 0, 0, 0, 0, 0]
  targetIp := [10, 0, 0, 1]

def beforeIt : Interface := (traffic.run sampleTraffic [.send (samplePacket 2), .send unserialisable]).iface

def behindIt : Interface := (traffic.run sampleTraffic [.send unserialisable, .send (samplePacket 2)]).iface

theorem releases_before :
    Gone beforeIt (beforeIt.handleArp (sampleArp 2) 0).2 [10, 0, 0, 2] [2, 0, 0, 0, 0, 2]
      ((beforeIt.parked [10, 0, 0, 2]).filter IPv4Packet.encodes) := by
  have hparse : ARPPacket.parse (sampleArp 2).payload = .ok sampleReply := by decide +kernel
  exact (releases_iff 0 hparse rfl).mpr (by decide +kernel)

theorem releases_none_behind :
    ¬ ∀ (i : Interface) (frame : EthernetFrame) (packet : ARPPacket) (now : Time),
      ARPPacket.parse frame.payload = .ok packet → packet.isReply = true →
        Gone i (i.handleArp frame now).2 packet.senderIp packet.senderMac
          ((i.parked packet.senderIp).filter IPv4Packet.encodes) := by
  intro hall
  have hparse : ARPPacket.parse (sampleArp 2).payload = .ok sampleReply := by decide +kernel
  have hgone := (hall behindIt (sampleArp 2) sampleReply 0 hparse rfl).departed
  exact absurd hgone (by decide +kernel)

end Interface

end MiniTcp
