import MiniTcp.Stack.Release
import MiniTcp.Stack.Retry

/-!
# A packet that waits for an address

`send_ipv4` says `False` of a packet that it parks and of one that it drops (`Outcome`). A parked packet keeps
its place in the queue of its next hop, since packets only join the queue at its end (`prefix_parked`), until a
reply takes the whole queue. `Place.after` follows it there: it leaves exactly when it and the packets before it can
be serialised (`Follows`), and a reply can always come (`exists_reply`).
-/

namespace MiniTcp

theorem length_le_takeWhile_iff {α : Type} {p : α → Bool} {front xs : List α} (h : front <+: xs) :
    front.length ≤ (xs.takeWhile p).length ↔ front.all p = true := by
  rw [List.all_eq_true]
  constructor
  · intro hle x hx
    exact List.mem_takeWhile_imp ((List.prefix_of_prefix_length_le h (List.takeWhile_prefix p) hle).subset hx)
  · rintro hall
    obtain ⟨rest, rfl⟩ := h
    rw [List.takeWhile_append_of_pos hall, List.length_append]
    exact Nat.le_add_right _ _

theorem ok_of_map_const {r : Except PyError Unit} {b sent : Bool} (h : r.map (fun _ => b) = .ok sent) :
    sent = b ∧ r = .ok () := by
  cases r with
  | error e => cases h
  | ok _ =>
    cases h
    exact ⟨rfl, rfl⟩

theorem IPv4Packet.encodes_iff {p : IPv4Packet} : p.encodes = true ↔
    p.src.length = 4 ∧ p.dst.length = 4 ∧ p.options.length % 4 = 0 ∧ p.options.length ≤ 40 ∧
      p.totalLength ≤ MAX_PACKET ∧ p.fragmentOffset ≤ FRAG_OFFSET_MASK ∧ p.ttl ≤ 255 ∧ p.protocol ≤ 255 ∧
      p.dscp ≤ 255 := by
  unfold encodes toBytes
  split_ifs with hlength hpad hoptions htotal hoffset httl
  · exact iff_of_false Bool.false_ne_true fun h => hlength.elim (absurd h.1) (absurd h.2.1)
  · exact iff_of_false Bool.false_ne_true fun h => hpad h.2.2.1
  · exact iff_of_false Bool.false_ne_true fun h => Nat.not_lt.mpr h.2.2.2.1 hoptions
  · exact iff_of_false Bool.false_ne_true fun h => Nat.not_lt.mpr h.2.2.2.2.1 htotal
  · -- what is left is `struct.pack`
    rw [not_or, not_not, not_not] at hlength
    rw [Nat.not_lt] at hoptions htotal
    change (p.packHeader ((4 <<< 4) ||| p.ihl) p.flagsFrag >>= _).isOk = true ↔ _
    rw [packHeader_eq hoptions htotal hoffset httl]
    split_ifs with hpack
    · exact iff_of_true rfl ⟨hlength.1, hlength.2, not_not.mp hpad, hoptions, htotal, hoffset, httl, hpack.2, hpack.1⟩
    · refine iff_of_false Bool.false_ne_true fun h => hpack ?_
      obtain ⟨-, -, -, -, -, -, -, hprotocol, hdscp⟩ := h
      exact ⟨hdscp, hprotocol⟩
  · exact iff_of_false Bool.false_ne_true fun h => httl h.2.2.2.2.2.2.1
  · exact iff_of_false Bool.false_ne_true fun h => hoffset h.2.2.2.2.2.1

namespace ARPPacket

variable {operation : Nat} {senderMac senderIp targetMac targetIp : Bytes}

/-- The bytes in front of the addresses. -/
def front (operation : Nat) : Bytes := packH HARDWARE_ETHERNET ++ packH ETHERTYPE_IPV4 ++ [6, 4] ++ packH operation

theorem length_front (operation : Nat) : (front operation).length = 8 := rfl

theorem own_parse_toBytes (h : operation ≤ 0xFFFF) (h1 : senderMac.length = 6) (h2 : senderIp.length = 4)
    (h3 : targetMac.length = 6) (h4 : targetIp.length = 4) :
    ∃ data, (own operation senderMac senderIp targetMac targetIp).toBytes = .ok data ∧
      ∀ rest, parse (data ++ rest) = .ok (own operation senderMac senderIp targetMac targetIp) := by
  refine ⟨front operation ++ senderMac ++ senderIp ++ targetMac ++ targetIp, ?_, fun rest => ?_⟩
  · unfold toBytes
    rw [if_pos (own_numbers rfl h)]
    split_ifs with g1 g2 g3 g4
    · exact absurd h1 g1
    · exact absurd h3 g2
    · exact absurd h2 g3
    · exact absurd h4 g4
    · rfl
  · simp only [List.append_assoc]
    generalize hdata : front operation ++ (senderMac ++ (senderIp ++ (targetMac ++ (targetIp ++ rest)))) = data
    have hmac : data.drop 8 = senderMac ++ (senderIp ++ (targetMac ++ (targetIp ++ rest))) := by
      rw [← hdata, List.drop_left' (length_front operation)]
    have hip : data.drop 14 = senderIp ++ (targetMac ++ (targetIp ++ rest)) := by
      rw [← List.drop_drop (i := 6) (j := 8), hmac, List.drop_left' h1]
    have htargetMac : data.drop 18 = targetMac ++ (targetIp ++ rest) := by
      rw [← List.drop_drop (i := 4) (j := 14), hip, List.drop_left' h2]
    have htargetIp : data.drop 24 = targetIp ++ rest := by
      rw [← List.drop_drop (i := 6) (j := 18), htargetMac, List.drop_left' h3]
    have hlength : data.length = 28 + rest.length := by
      rw [← hdata]
      simp only [List.length_append, length_front, h1, h2, h3, h4]
      omega
    have hnumbers : (byteAt data 4).toNat = 6 ∧ (byteAt data 5).toNat = 4 ∧ u16At data 0 = HARDWARE_ETHERNET ∧
        u16At data 2 = ETHERTYPE_IPV4 ∧ u16At data 6 = operation := by
      rw [← hdata]
      exact ⟨rfl, rfl, unpackH_packH (show HARDWARE_ETHERNET < 65536 by decide),
        unpackH_packH (show ETHERTYPE_IPV4 < 65536 by decide), unpackH_packH (Nat.lt_succ_of_le h)⟩
    obtain ⟨hsix, hfour, htype, hprotocol, hoperation⟩ := hnumbers
    unfold parse
    rw [hsix, hfour, htype, hprotocol, hoperation, hmac, hip, htargetMac, htargetIp, List.take_left' h1,
      List.take_left' h2, List.take_left' h3, List.take_left' h4, if_neg (by rw [PACKET_LEN]; omega)]
    dsimp only
    rw [if_neg (by decide), if_neg (by omega)]
    rfl

end ARPPacket

/-- The sender of an ARP reply. -/
def EthernetFrame.repliedBy (frame : EthernetFrame) : Option Bytes :=
  match ARPPacket.parse frame.payload with
  | .ok packet => if packet.isReply then some packet.senderIp else none
  | .error _ => none

namespace Interface

variable {i j : Interface} {packet : IPv4Packet} {hop dst : Bytes} {now : Time} {frame : EthernetFrame}

/-! ### One send -/

theorem hopOf_eq_some_iff : i.hopOf packet = .ok (some hop) ↔
    packet.dst ≠ IP_BROADCAST ∧ i.nextHop packet.dst = .ok hop := by
  unfold hopOf
  split_ifs with hdst
  · simp [hdst]
  · cases i.nextHop packet.dst <;> simp [hdst, bind, Except.bind, pure, Except.pure]

/-- A packet to `dst` is parked for `hop`. -/
structure Parks (i : Interface) (dst : Bytes) (now : Time) (hop : Bytes) : Prop where
  unicast : dst ≠ IP_BROADCAST
  next : i.nextHop dst = .ok hop
  unknown : i.arpCache.known hop now = none
  room : (i.parked hop).length < i.maxArpPending

theorem length_of_sendArpRequest (h : (i.sendArpRequest hop).1 = .ok ()) : hop.length = 4 := by
  unfold sendArpRequest ARPPacket.toBytes at h
  dsimp only at h
  split_ifs at h with h1 h2 h3 h4
  exact not_not.mp h4

theorem emitPacket_ok {target : Option Bytes} {mac : Bytes} {sent : Bool}
    (h : ((i.emitPacket target mac packet).1.map fun _ => true, (i.emitPacket target mac packet).2) = (.ok sent, j)) :
    sent = true ∧ Sends i j [(target, packet)] := by
  obtain ⟨hresult, rfl⟩ := Prod.mk.inj h
  obtain ⟨rfl, hok⟩ := ok_of_map_const hresult
  rcases emitPacket_spec i target mac packet with ⟨e, hemit⟩ | ⟨-, hsends⟩
  · rw [hemit] at hok
    cases hok
  · exact ⟨rfl, hsends⟩

/-- What a send that returned `sent` has done with its packet. -/
inductive Outcome (i j : Interface) (packet : IPv4Packet) (now : Time) : Bool → Prop
  | left (target : Option Bytes) (hdeparted : j.departed = i.departed ++ [(target, packet)])
      (hparks : ∀ a, ¬ i.Parks packet.dst now a) : Outcome i j packet now true
  | parked (hop : Bytes) (hlength : hop.length = 4) (hparks : i.Parks packet.dst now hop)
      (hdeparted : j.departed = i.departed)
      (hqueue : ∀ a, j.parked a = if a = hop then i.parked hop ++ [packet] else i.parked a) :
    Outcome i j packet now false
  | dropped (hdeparted : j.departed = i.departed) (hqueue : ∀ a, j.parked a = i.parked a)
      (hparks : ∀ a, ¬ i.Parks packet.dst now a) : Outcome i j packet now false

theorem sendIpv4_ok {sent : Bool} (h : i.sendIpv4 packet now = (.ok sent, j)) : Outcome i j packet now sent := by
  unfold sendIpv4 at h
  cases htarget : i.hopOf packet with
  | error e =>
    rw [htarget] at h
    cases h
  | ok target =>
    rw [htarget] at h
    have hparks : ∀ a, i.Parks packet.dst now a → target = some a := by
      intro a ha
      have hhop := hopOf_eq_some_iff.mpr ⟨ha.unicast, ha.next⟩
      rw [htarget] at hhop
      exact Except.ok.inj hhop
    cases target with
    | none =>
      obtain ⟨rfl, hsends⟩ := emitPacket_ok h
      exact .left none hsends.departed fun a ha => absurd (hparks a ha) nofun
    | some hop =>
      dsimp only at h
      cases hknown : i.arpCache.known hop now with
      | some mac =>
        rw [ARPCache.lookup_of_known hknown] at h
        obtain ⟨rfl, hsends⟩ := emitPacket_ok h
        refine .left (some hop) hsends.departed fun a ha => ?_
        obtain rfl := Option.some.inj (hparks a ha)
        rw [ha.unknown] at hknown
        cases hknown
      | none =>
        have hfst : (i.arpCache.lookup hop now).1 = none := ARPCache.lookup_fst.trans hknown
        rw [hfst] at h
        unfold parkPending at h
        dsimp only at h
        split_ifs at h with hfull
        · cases h
          refine .dropped rfl (fun a => ?_) fun a ha => ?_
          · rw [parked_set rfl]
            split_ifs with ha
            · rw [ha]
              rfl
            · rfl
          · obtain rfl := Option.some.inj (hparks a ha)
            exact absurd ha.room (Nat.not_lt.mpr hfull)
        · obtain ⟨hresult, rfl⟩ := Prod.mk.inj h
          obtain ⟨hunicast, hnext⟩ := hopOf_eq_some_iff.mp htarget
          have hsends := sends_sendArpRequest { i with
            arpCache := (i.arpCache.lookup hop now).2
            arpPending := i.arpPending.set hop (i.parked hop ++ [packet]) } hop
          obtain ⟨rfl, hasked⟩ := ok_of_map_const hresult
          exact .parked hop (length_of_sendArpRequest hasked) ⟨hunicast, hnext, hknown, Nat.lt_of_not_le hfull⟩
            (hsends.departed.trans (List.append_nil _)) fun a => (hsends.parked a).trans (parked_set rfl a)

theorem Outcome.of_counted {stats : Stats} {id : Nat} {sent : Bool}
    (h : Outcome { i with stats := stats, nextId := id } j packet now sent) : Outcome i j packet now sent := by
  cases h with
  | left target hdeparted hparks =>
    exact .left target hdeparted fun a ha => hparks a ⟨ha.unicast, ha.next, ha.unknown, ha.room⟩
  | parked hop hlength hparks hdeparted hqueue =>
    exact .parked hop hlength ⟨hparks.unicast, hparks.next, hparks.unknown, hparks.room⟩ hdeparted hqueue
  | dropped hdeparted hqueue hparks =>
    exact .dropped hdeparted hqueue fun a ha => hparks a ⟨ha.unicast, ha.next, ha.unknown, ha.room⟩

/-! ### What happens to a queue -/

theorem prefix_parked (h : PerformsQuietly i j) (hop : Bytes) : i.parked hop <+: j.parked hop := by
  refine h.induction (P := fun j => i.parked hop <+: j.parked hop) ?_ (List.prefix_refl _)
  intro j e he hprefix
  cases e with
  | send packet now =>
    refine hprefix.trans ?_
    rw [perform]
    cases htarget : j.hopOf packet with
    | error e =>
      unfold sendIpv4
      rw [htarget]
    | ok target =>
      rcases sendIpv4_spec now htarget with ⟨_, _, _, hsends⟩ | ⟨a, queue, -, hqueue, -, hsends⟩
      · rw [hsends.parked]
      · have hparked : (j.sendIpv4 packet now).2.parked hop = if hop = a then queue else j.parked hop :=
          (hsends.parked hop).trans (parked_set rfl hop)
        rw [hparked]
        split_ifs with ha
        · rw [ha]
          rcases hqueue with rfl | rfl
          · exact List.prefix_refl _
          · exact List.prefix_append _ _
        · exact List.prefix_refl _
  | arp frame now => cases he
  | expire now => exact hprefix
  | allocate => exact hprefix
  | count stats => exact hprefix

theorem prefix_departed (i : Interface) (e : LinkEvent) : i.departed <+: (i.perform e).departed := by
  cases e with
  | send packet now =>
    rw [perform]
    cases htarget : i.hopOf packet with
    | error e =>
      unfold sendIpv4
      rw [htarget]
    | ok target =>
      rcases sendIpv4_spec now htarget with ⟨out, _, _, hsends⟩ | ⟨_, _, _, _, _, hsends⟩
      · exact ⟨out, hsends.departed.symm⟩
      · exact ⟨[], hsends.departed.symm⟩
  | arp frame now =>
    rw [perform]
    cases hparse : ARPPacket.parse frame.payload with
    | error e =>
      unfold handleArp
      rw [hparse]
    | ok packet =>
      obtain ⟨gone, -, hsends⟩ := handleArp_spec (i := i) now hparse
      exact ⟨gone.map (some packet.senderIp, ·), hsends.departed.symm⟩
  | expire now => exact List.prefix_refl _
  | allocate => exact List.prefix_refl _
  | count stats => exact List.prefix_refl _

theorem parked_of_not_repliedBy (h : frame.repliedBy ≠ some hop) (now : Time) :
    (i.handleArp frame now).2.parked hop = i.parked hop := by
  unfold EthernetFrame.repliedBy at h
  cases hparse : ARPPacket.parse frame.payload with
  | error e =>
    unfold handleArp
    rw [hparse]
  | ok packet =>
    rw [hparse] at h
    rw [parked_handleArp now hparse, if_neg]
    rintro ⟨hreply, rfl⟩
    exact h (if_pos hreply)

theorem departed_of_repliedBy (h : frame.repliedBy = some hop) (now : Time) :
    (i.handleArp frame now).2.departed =
      i.departed ++ ((i.parked hop).takeWhile IPv4Packet.encodes).map (some hop, ·) := by
  unfold EthernetFrame.repliedBy at h
  cases hparse : ARPPacket.parse frame.payload with
  | error e =>
    rw [hparse] at h
    cases h
  | ok packet =>
    rw [hparse] at h
    dsimp only at h
    split_ifs at h with hreply
    obtain rfl := Option.some.inj h
    exact (gone_handleArp now hparse hreply).departed

end Interface

/-! ### One packet -/

/-- Where a packet is that was parked. -/
inductive Place where
  /-- It is number `k` of those that wait for `hop`. -/
  | waiting (hop : Bytes) (k : Nat)
  | sent
  | lost
deriving DecidableEq

/-- A reply of the next hop takes the whole queue; as many as have departed then were sent. -/
def Place.after (i j : Interface) (repliedBy : Option Bytes) : Place → Place
  | .waiting hop k =>
    if repliedBy = some hop then
      if k < j.departed.length - i.departed.length then .sent else .lost
    else .waiting hop k
  | place => place

/-- `front` were the packets up to this one when it was parked. If it was sent it is among what left for `hop`. -/
def Interface.Follows (front : List IPv4Packet) (hop : Bytes) (i : Interface) : Place → Prop
  | .waiting a k => a = hop ∧ k + 1 = front.length ∧ front <+: i.parked hop
  | .sent => front.all IPv4Packet.encodes = true ∧ ∀ packet ∈ front.getLast?, (some hop, packet) ∈ i.departed
  | .lost => front.all IPv4Packet.encodes = false

namespace Interface.Follows

variable {front : List IPv4Packet} {hop : Bytes} {i j : Interface} {place : Place}

theorem sent_mono (h : i.Follows front hop .sent) (hij : i.departed <+: j.departed) : j.Follows front hop .sent :=
  ⟨h.1, fun packet hlast => hij.subset (h.2 packet hlast)⟩

theorem quiet (h : i.Follows front hop place) (hij : PerformsQuietly i j) :
    j.Follows front hop (place.after i j none) := by
  cases place with
  | waiting a k =>
    obtain ⟨rfl, hk, hfront⟩ := h
    exact ⟨rfl, hk, hfront.trans (prefix_parked hij a)⟩
  | sent =>
    exact h.sent_mono (hij.performs.induction (P := fun j => i.departed <+: j.departed)
      (fun j e hj => hj.trans (prefix_departed j e)) (List.prefix_refl _))
  | lost => exact h

theorem arp (h : i.Follows front hop place) {frame : EthernetFrame} {now : Time} {stats : Stats}
    (hij : j = { (i.handleArp frame now).2 with stats := stats }) :
    j.Follows front hop (place.after i j frame.repliedBy) := by
  cases place with
  | waiting a k =>
    obtain ⟨rfl, hk, hfront⟩ := h
    rw [Place.after]
    by_cases hreply : frame.repliedBy = some a
    · rw [if_pos hreply]
      have hdeparted : j.departed =
          i.departed ++ ((i.parked a).takeWhile IPv4Packet.encodes).map (some a, ·) := by
        rw [hij]
        exact departed_of_repliedBy hreply now
      have hiff := length_le_takeWhile_iff (p := IPv4Packet.encodes) hfront
      rw [← hk, Nat.succ_le_iff] at hiff
      rw [hdeparted, List.length_append, List.length_map, Nat.add_sub_cancel_left]
      split_ifs with hsent
      · refine ⟨hiff.mp hsent, fun packet hlast => ?_⟩
        have hgone : front <+: (i.parked a).takeWhile IPv4Packet.encodes :=
          List.prefix_of_prefix_length_le hfront (List.takeWhile_prefix _) (by omega)
        rw [hdeparted]
        exact List.mem_append_right _ (List.mem_map_of_mem (hgone.subset (List.mem_of_getLast? hlast)))
      · exact Bool.eq_false_iff.mpr fun hall => hsent (hiff.mpr hall)
    · rw [if_neg hreply]
      refine ⟨rfl, hk, ?_⟩
      rw [← parked_of_not_repliedBy hreply now] at hfront
      rw [hij]
      exact hfront
  | sent =>
    refine h.sent_mono ?_
    rw [hij]
    exact prefix_departed i (.arp frame now)
  | lost => exact h

end Interface.Follows

namespace Stack

variable {s t : Stack} {hop : Bytes}

theorem sendOwn_ok {protocol : Nat} {dst payload : Bytes} {now : Time} {sent : Bool} (hprotocol : protocol ≤ 255)
    (h : s.sendOwn protocol dst payload now = (.ok sent, t)) :
    ∃ packet, Interface.Outcome s.toInterface t.toInterface packet now sent ∧ packet.src = s.ip ∧ packet.dst = dst ∧
      packet.protocol = protocol ∧ packet.payload = payload ∧
      (packet.encodes = true ↔ s.ip.length = 4 ∧ dst.length = 4 ∧ 20 + payload.length ≤ MAX_PACKET) := by
  obtain ⟨hresult, rfl⟩ := Prod.mk.inj h
  have hsent := Interface.sendIpv4_ok (Prod.ext hresult rfl)
  refine ⟨{ src := s.ip, dst := dst, protocol := protocol, payload := payload, ttl := 64,
            identification := s.toInterface.allocateId.1 }, ?_, rfl, rfl, rfl, rfl, ?_⟩
  · exact hsent.of_counted (i := s.toInterface)
  · rw [IPv4Packet.encodes_iff]
    simp [IPv4Packet.totalLength, IPv4Packet.headerLength, IPv4Packet.ihl, HEADER_LEN, hprotocol]

theorem exists_reply (h : s.Addressed) (hlength : hop.length = 4) :
    ∃ raw frame, s.arpFrame raw = some frame ∧ frame.repliedBy = some hop := by
  have hzeros : (List.replicate 6 (0 : UInt8)).length = 6 := List.length_replicate
  obtain ⟨payload, -, hpayload⟩ := ARPPacket.own_parse_toBytes (show ARP_REPLY ≤ 0xFFFF by decide) hzeros hlength
    h.mac h.ip
  obtain ⟨raw, n, -, -, hparse⟩ := EthernetFrame.parse_toBytes
    (f := { dst := s.mac, src := List.replicate 6 0, ethertype := ETHERTYPE_ARP, payload := payload }) h.mac hzeros
    (show ETHERTYPE_ARP < 65536 by decide)
  refine ⟨raw,
    { dst := s.mac, src := List.replicate 6 0, ethertype := ETHERTYPE_ARP,
      payload := payload ++ List.replicate n 0 }, ?_, ?_⟩
  · unfold arpFrame
    rw [hparse]
    simp [EthernetFrame.acceptedBy]
  · unfold EthernetFrame.repliedBy
    rw [hpayload]
    rfl

end Stack

end MiniTcp
