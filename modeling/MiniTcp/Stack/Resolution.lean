import MiniTcp.Lib.Machine
import MiniTcp.Stack.Interface

/-!
# Who waits for an address

`Traffic` is an interface with its clock and the packets handed to `send_ipv4`; `traffic` is the machine of
all runs of sends, inbound ARP packets, clock advances and ticks. A packet is parked for a next hop only
while its address is unknown, and packets to one next hop leave in the order they were sent, exactly as long
as every ARP packet whose sender has packets parked is a reply (`always_orderly_iff`): the cache learns from
every packet, and only a reply releases what waits.
-/

namespace MiniTcp

namespace Interface

variable {i j k : Interface} {out out' : List (Option Bytes × IPv4Packet)}

/-- `j` is `i` once the packets `out` have left. -/
structure Sends (i j : Interface) (out : List (Option Bytes × IPv4Packet)) : Prop where
  arpCache : j.arpCache = i.arpCache
  arpPending : j.arpPending = i.arpPending
  departed : j.departed = i.departed ++ out

theorem Sends.refl (i : Interface) : Sends i i [] := ⟨rfl, rfl, (List.append_nil _).symm⟩

theorem Sends.trans (h : Sends i j out) (h' : Sends j k out') : Sends i k (out ++ out') :=
  ⟨h'.arpCache.trans h.arpCache, h'.arpPending.trans h.arpPending, by
    rw [h'.departed, h.departed, List.append_assoc]⟩

theorem Sends.parked (h : Sends i j out) (hop : Bytes) : j.parked hop = i.parked hop := by
  rw [Interface.parked, Interface.parked, h.arpPending]

theorem sends_emit (i : Interface) (dstMac : Bytes) (ethertype : Nat) (payload : Bytes) :
    Sends i (i.emit dstMac ethertype payload).2 [] := by
  unfold emit
  dsimp only
  split <;> exact ⟨rfl, rfl, (List.append_nil _).symm⟩

theorem emit_fst (i : Interface) (dstMac : Bytes) {ethertype : Nat} (payload : Bytes) (h : ethertype < 65536) :
    (i.emit dstMac ethertype payload).1 = .ok () := by
  unfold emit
  dsimp only
  rw [EthernetFrame.toBytes_eq h]

theorem sends_sendArpRequest (i : Interface) (targetIp : Bytes) : Sends i (i.sendArpRequest targetIp).2 [] := by
  unfold sendArpRequest
  dsimp only
  split
  · exact ⟨rfl, rfl, (List.append_nil _).symm⟩
  · obtain ⟨hcache, hpending, hdeparted⟩ := sends_emit { i with stats := i.stats.arpRequestSent } BROADCAST_MAC
      ETHERTYPE_ARP _
    exact ⟨hcache, hpending, hdeparted⟩

theorem emitPacket_spec (i : Interface) (hop : Option Bytes) (mac : Bytes) (packet : IPv4Packet) :
    (∃ e, i.emitPacket hop mac packet = (.error e, i)) ∨
      (i.emitPacket hop mac packet).1 = .ok () ∧ Sends i (i.emitPacket hop mac packet).2 [(hop, packet)] := by
  unfold emitPacket
  split
  · rename_i e _
    exact .inl ⟨e, rfl⟩
  · rename_i data _
    obtain ⟨hcache, hpending, hdeparted⟩ := sends_emit i mac ETHERTYPE_IPV4 data
    refine .inr ⟨emit_fst i mac data (by decide), hcache, hpending, ?_⟩
    dsimp only
    rw [hdeparted, List.append_nil]

theorem sends_emitAll (ip mac : Bytes) (queue : List IPv4Packet) (i : Interface) :
    ∃ gone, gone <+: queue ∧ Sends i (emitAll ip mac queue i).2 (gone.map (some ip, ·)) := by
  induction queue generalizing i with
  | nil => exact ⟨[], List.nil_prefix, .refl i⟩
  | cons packet queue ih =>
    rw [emitAll]
    rcases emitPacket_spec i (some ip) mac packet with ⟨e, hemit⟩ | ⟨hok, hsends⟩
    · rw [hemit]
      exact ⟨[], List.nil_prefix, .refl i⟩
    · generalize i.emitPacket (some ip) mac packet = r at hok hsends
      obtain ⟨result, j⟩ := r
      cases hok
      obtain ⟨gone, hgone, hrest⟩ := ih j
      exact ⟨packet :: gone, (List.prefix_cons_inj packet).mpr hgone, hsends.trans hrest⟩

theorem parked_set {a : Bytes} {queue : List IPv4Packet} (h : j.arpPending = i.arpPending.set a queue) (hop : Bytes) :
    j.parked hop = if hop = a then queue else i.parked hop := by
  rw [Interface.parked, h]
  split_ifs with hhop
  · rw [hhop, Dict.get?_set_self]
    rfl
  · rw [Dict.get?_set_of_ne hhop]
    rfl

/-- What waits for `hop`; a broadcast never waits. -/
def waiting (i : Interface) (hop : Option Bytes) : List IPv4Packet := hop.elim [] i.parked

/-- A packet whose next hop is known, and a broadcast, leaves unless it cannot be encoded. Another is parked,
or dropped when too many are. -/
theorem sendIpv4_spec {hop : Option Bytes} {packet : IPv4Packet} (now : Time) (h : i.hopOf packet = .ok hop) :
    (∃ out, out <+: [(hop, packet)] ∧ (∀ a ∈ hop, (i.arpCache.known a now).isSome = true) ∧
      Sends i (i.sendIpv4 packet now).2 out) ∨
    ∃ a queue, hop = some a ∧ (queue = i.parked a ∨ queue = i.parked a ++ [packet]) ∧
      i.arpCache.known a now = none ∧
      Sends { i with arpCache := (i.arpCache.lookup a now).2, arpPending := i.arpPending.set a queue }
        (i.sendIpv4 packet now).2 [] := by
  unfold sendIpv4
  rw [h]
  have hleaves : ∀ mac, ∃ out, out <+: [(hop, packet)] ∧ Sends i (i.emitPacket hop mac packet).2 out := by
    intro mac
    rcases emitPacket_spec i hop mac packet with ⟨e, hemit⟩ | ⟨-, hsends⟩
    · rw [hemit]
      exact ⟨[], List.nil_prefix, .refl i⟩
    · exact ⟨_, List.prefix_refl _, hsends⟩
  cases hop with
  | none =>
    obtain ⟨out, hout, hsends⟩ := hleaves BROADCAST_MAC
    exact .inl ⟨out, hout, by simp, hsends⟩
  | some a =>
    cases hknown : i.arpCache.known a now with
    | some mac =>
      obtain ⟨out, hout, hsends⟩ := hleaves mac
      refine .inl ⟨out, hout, ?_, ?_⟩
      · rintro _ ⟨⟩
        rw [hknown]
        rfl
      · dsimp only
        rw [ARPCache.lookup_of_known hknown]
        exact hsends
    | none =>
      have hfst : (i.arpCache.lookup a now).1 = none := ARPCache.lookup_fst.trans hknown
      dsimp only
      rw [hfst]
      unfold parkPending
      dsimp only
      split_ifs
      · exact .inr ⟨a, _, rfl, .inl rfl, hknown, ⟨rfl, rfl, (List.append_nil _).symm⟩⟩
      · exact .inr ⟨a, _, rfl, .inr rfl, hknown, sends_sendArpRequest _ _⟩

/-- What an ARP packet does: the cache learns its sender, and a reply releases what waits for the sender. -/
theorem handleArp_spec {frame : EthernetFrame} {packet : ARPPacket} (now : Time)
    (h : ARPPacket.parse frame.payload = .ok packet) :
    ∃ gone, gone <+: (if packet.isReply then i.parked packet.senderIp else []) ∧
      Sends { i with
          arpCache := i.arpCache.store packet.senderIp packet.senderMac now
          arpPending := if packet.isReply then i.arpPending.erase packet.senderIp else i.arpPending }
        (i.handleArp frame now).2 (gone.map (some packet.senderIp, ·)) := by
  unfold handleArp
  rw [h]
  dsimp only
  cases hreply : packet.isReply with
  | true =>
    rw [ARPPacket.isRequest_of_isReply hreply, Bool.false_and, if_neg Bool.false_ne_true, if_pos rfl]
    exact sends_emitAll packet.senderIp packet.senderMac _ _
  | false =>
    refine ⟨[], List.nil_prefix, ?_⟩
    rw [if_neg Bool.false_ne_true, if_neg Bool.false_ne_true]
    split_ifs
    · split
      · exact ⟨rfl, rfl, (List.append_nil _).symm⟩
      · obtain ⟨hcache, hpending, hdeparted⟩ := sends_emit
          { i with
            arpCache := i.arpCache.store packet.senderIp packet.senderMac now
            stats := i.stats.arpReplySent } packet.senderMac ETHERTYPE_ARP _
        exact ⟨hcache, hpending, hdeparted⟩
    · exact .refl _

theorem parked_handleArp {frame : EthernetFrame} {packet : ARPPacket} (now : Time)
    (h : ARPPacket.parse frame.payload = .ok packet) (hop : Bytes) :
    (i.handleArp frame now).2.parked hop =
      if packet.isReply = true ∧ hop = packet.senderIp then [] else i.parked hop := by
  obtain ⟨_, _, hsends⟩ := handleArp_spec (i := i) now h
  rw [hsends.parked, Interface.parked]
  by_cases hreply : packet.isReply = true
  · rw [if_pos hreply]
    by_cases hhop : hop = packet.senderIp
    · rw [if_pos ⟨hreply, hhop⟩, hhop, Dict.get?_erase_self]
      rfl
    · rw [if_neg fun hboth => hhop hboth.2, Dict.get?_erase_of_ne hhop]
      rfl
  · rw [if_neg hreply, if_neg fun hboth => hreply hboth.1]
    rfl

end Interface

/-! ### Runs of sends and ARP packets -/

/-- An interface, its clock, and every packet handed to `send_ipv4` with its next hop. -/
structure Traffic where
  iface : Interface
  now : Time := 0
  sent : List (Option Bytes × IPv4Packet) := []

inductive TrafficEvent where
  | send (packet : IPv4Packet)
  | arp (frame : EthernetFrame)
  | advance (time : Time)
  | tick

namespace Traffic

/-- What one event does. The clock never goes back. -/
def step (t : Traffic) : TrafficEvent → Traffic
  | .send packet =>
    { t with
      iface := (t.iface.sendIpv4 packet t.now).2
      sent := match t.iface.hopOf packet with
        | .ok hop => t.sent ++ [(hop, packet)]
        | .error _ => t.sent }
  | .arp frame => { t with iface := (t.iface.handleArp frame t.now).2 }
  | .advance time => { t with now := max t.now time }
  | .tick => { t with iface := t.iface.expireArp t.now }

/-- A new stack with nothing in its cache, on any link with any addresses. -/
def Fresh (t : Traffic) : Prop :=
  t.iface.arpCache = {} ∧ t.iface.arpPending = ∅ ∧ t.iface.departed = [] ∧ t.sent = []

/-- The packets to `hop` in a log. -/
def toHop (hop : Option Bytes) (log : List (Option Bytes × IPv4Packet)) : List IPv4Packet :=
  (log.filter (·.1 = hop)).map Prod.snd

/-- No packet waits for an address that is known. -/
def NoneWaits (t : Traffic) : Prop :=
  ∀ hop, (t.iface.arpCache.known hop t.now).isSome = true → t.iface.parked hop = []

/-- To every next hop, what has left and behind it what still waits are packets in the order they were sent;
some may be missing. -/
def InOrder (t : Traffic) : Prop :=
  ∀ hop, List.Sublist (toHop hop t.iface.departed ++ t.iface.waiting hop) (toHop hop t.sent)

/-- An ARP packet from a sender that has packets parked is a reply. -/
def Releases (t : Traffic) : TrafficEvent → Prop
  | .arp frame =>
    match ARPPacket.parse frame.payload with
    | .ok packet => packet.isReply = true ∨ t.iface.parked packet.senderIp = []
    | .error _ => True
  | _ => True

instance decidableReleases (t : Traffic) : (e : TrafficEvent) → Decidable (t.Releases e)
  | .send _ => .isTrue trivial
  | .arp frame =>
    match h : ARPPacket.parse frame.payload with
    | .ok packet =>
      decidable_of_iff (packet.isReply = true ∨ t.iface.parked packet.senderIp = []) (by simp only [Releases, h])
    | .error _ => .isTrue (by simp only [Releases, h])
  | .advance _ => .isTrue trivial
  | .tick => .isTrue trivial

end Traffic

/-- All runs of one interface. -/
def traffic : Machine Traffic TrafficEvent where
  init := Traffic.Fresh
  next := Traffic.step

namespace Traffic

variable {t : Traffic} {hop : Option Bytes} {log log' : List (Option Bytes × IPv4Packet)}

theorem toHop_append : toHop hop (log ++ log') = toHop hop log ++ toHop hop log' := by
  rw [toHop, List.filter_append, List.map_append]
  rfl

theorem toHop_map (hop hop' : Option Bytes) (packets : List IPv4Packet) :
    toHop hop (packets.map (hop', ·)) = if hop' = hop then packets else [] := by
  induction packets with
  | nil => split_ifs <;> rfl
  | cons packet packets ih =>
    rw [toHop] at ih
    rw [List.map_cons, toHop, List.filter_cons]
    by_cases heq : hop' = hop
    · rw [if_pos heq] at ih
      simp only [heq, decide_true, if_true, List.map_cons]
      rw [heq] at ih
      rw [ih]
    · rw [if_neg heq] at ih
      rw [if_neg (by simpa using heq), if_neg heq]
      exact ih

theorem toHop_sublist (h : List.Sublist log log') : List.Sublist (toHop hop log) (toHop hop log') :=
  (h.filter _).map _

/-! ### What each event preserves -/

/-- The two parts of the claim about the parked packets. -/
structure Orderly (t : Traffic) : Prop where
  none : t.NoneWaits
  order : t.InOrder

theorem Orderly.of_forgets {u : Traffic} (h : t.Orderly)
    (hcache : ∀ a, (u.iface.arpCache.known a u.now).isSome = true → (t.iface.arpCache.known a t.now).isSome = true)
    (hpending : u.iface.arpPending = t.iface.arpPending) (hdeparted : u.iface.departed = t.iface.departed)
    (hsent : u.sent = t.sent) : u.Orderly := by
  have hparked : u.iface.parked = t.iface.parked := by
    funext a
    rw [Interface.parked, Interface.parked, hpending]
  constructor
  · intro a ha
    rw [hparked]
    exact h.none a (hcache a ha)
  · intro hop
    rw [Interface.waiting, hparked, hdeparted, hsent]
    exact h.order hop

theorem Orderly.advance (h : t.Orderly) (time : Time) : (t.step (.advance time)).Orderly := by
  refine h.of_forgets (u := t.step (.advance time)) ?_ rfl rfl rfl
  intro a ha
  obtain ⟨mac, hmac⟩ := Option.isSome_iff_exists.mp ha
  exact Option.isSome_iff_exists.mpr ⟨mac, ARPCache.known_mono (le_max_left _ _) hmac⟩

theorem Orderly.tick (h : t.Orderly) : (t.step .tick).Orderly := by
  refine h.of_forgets (u := t.step .tick) ?_ rfl rfl rfl
  intro a ha
  obtain ⟨mac, hmac⟩ := Option.isSome_iff_exists.mp ha
  exact Option.isSome_iff_exists.mpr ⟨mac, ARPCache.known_of_known_expire hmac⟩

/-- A packet leaves, and nothing waits for its next hop. -/
theorem Orderly.send_out {packet : IPv4Packet} {hop : Option Bytes} {out : List (Option Bytes × IPv4Packet)}
    (h : t.Orderly) (hsent : (t.step (.send packet)).sent = t.sent ++ [(hop, packet)])
    (hout : out <+: [(hop, packet)]) (hknown : ∀ a ∈ hop, (t.iface.arpCache.known a t.now).isSome = true)
    (hsends : t.iface.Sends (t.iface.sendIpv4 packet t.now).2 out) : (t.step (.send packet)).Orderly := by
  constructor
  · intro a ha
    rw [step, hsends.parked]
    rw [step, hsends.arpCache] at ha
    exact h.none a ha
  · intro b
    have hwaits : t.iface.waiting b = [] ∨ toHop b [(hop, packet)] = [] := by
      by_cases hb : hop = b
      · subst hb
        cases hop with
        | none => exact .inl rfl
        | some a => exact .inl (h.none a (hknown a rfl))
      · exact .inr ((toHop_map b hop [packet]).trans (if_neg hb))
    have hwaiting : (t.step (.send packet)).iface.waiting b = t.iface.waiting b := by
      cases b with
      | none => rfl
      | some a => exact hsends.parked a
    have hdeparted : (t.step (.send packet)).iface.departed = t.iface.departed ++ out := hsends.departed
    have hleft : List.Sublist (toHop b out) (toHop b [(hop, packet)]) := toHop_sublist hout.sublist
    rw [hwaiting, hdeparted, hsent, toHop_append, toHop_append]
    have hbefore := h.order b
    rcases hwaits with hnone | hother
    · rw [hnone, List.append_nil] at hbefore ⊢
      exact hbefore.append hleft
    · rw [hother] at hleft ⊢
      rw [List.sublist_nil.mp hleft, List.append_nil, List.append_nil]
      exact hbefore

/-- A packet is parked behind the others for its next hop, or dropped. -/
theorem Orderly.send_parked {packet : IPv4Packet} {a : Bytes} {queue : List IPv4Packet} (h : t.Orderly)
    (hsent : (t.step (.send packet)).sent = t.sent ++ [(some a, packet)])
    (hqueue : queue = t.iface.parked a ∨ queue = t.iface.parked a ++ [packet])
    (hunknown : t.iface.arpCache.known a t.now = Option.none)
    (hsends : Interface.Sends { t.iface with
      arpCache := (t.iface.arpCache.lookup a t.now).2
      arpPending := t.iface.arpPending.set a queue } (t.iface.sendIpv4 packet t.now).2 []) :
    (t.step (.send packet)).Orderly := by
  have hparked : ∀ b, (t.step (.send packet)).iface.parked b = if b = a then queue else t.iface.parked b := by
    intro b
    rw [step, hsends.parked]
    exact Interface.parked_set rfl b
  have hdeparted : (t.step (.send packet)).iface.departed = t.iface.departed :=
    hsends.departed.trans (List.append_nil _)
  constructor
  · intro b hb
    rw [step, hsends.arpCache] at hb
    obtain ⟨mac, hmac⟩ := Option.isSome_iff_exists.mp hb
    have hbefore := ARPCache.known_of_known_lookup hmac
    have hba : b ≠ a := by
      rintro rfl
      rw [hunknown] at hbefore
      cases hbefore
    rw [hparked, if_neg hba]
    apply h.none
    rw [hbefore]
    rfl
  · intro b
    rw [hdeparted, hsent, toHop_append]
    have hbefore := h.order b
    cases b with
    | none => exact hbefore.trans (List.sublist_append_left _ _)
    | some b =>
      have hwaiting : (t.step (.send packet)).iface.waiting (some b) =
          if b = a then queue else t.iface.parked b := hparked b
      rw [hwaiting]
      split_ifs with hb
      · subst hb
        have hself : toHop (some b) [(some b, packet)] = [packet] :=
          (toHop_map (some b) (some b) [packet]).trans (if_pos rfl)
        rw [hself]
        rcases hqueue with rfl | rfl
        · exact hbefore.trans (List.sublist_append_left _ _)
        · rw [← List.append_assoc]
          exact hbefore.append (List.Sublist.refl _)
      · exact hbefore.trans (List.sublist_append_left _ _)

theorem Orderly.send (h : t.Orderly) (packet : IPv4Packet) : (t.step (.send packet)).Orderly := by
  cases hhop : t.iface.hopOf packet with
  | error e =>
    apply h.of_forgets <;> simp [step, Interface.sendIpv4, hhop]
  | ok hop =>
    have hsent : (t.step (.send packet)).sent = t.sent ++ [(hop, packet)] := by
      simp only [step, hhop]
    rcases Interface.sendIpv4_spec t.now hhop with ⟨out, hout, hknown, hsends⟩ |
      ⟨a, queue, rfl, hqueue, hunknown, hsends⟩
    · exact h.send_out hsent hout hknown hsends
    · exact h.send_parked hsent hqueue hunknown hsends

/-- An ARP packet keeps the order and leaves nothing waiting for a known address exactly when it is a reply or
nothing is parked for its sender. -/
theorem orderly_arp (hlasts : t.iface.arpCache.Lasts) (h : t.Orderly) (frame : EthernetFrame) :
    (t.step (.arp frame)).Orderly ↔ t.Releases (.arp frame) := by
  cases hparse : ARPPacket.parse frame.payload with
  | error e =>
    refine iff_of_true ?_ ?_
    · apply h.of_forgets <;> simp [step, Interface.handleArp, hparse]
    · simp only [Releases, hparse]
  | ok packet =>
    obtain ⟨gone, hgone, hsends⟩ := Interface.handleArp_spec (i := t.iface) t.now hparse
    have hparked : ∀ b, (t.step (.arp frame)).iface.parked b =
        if packet.isReply = true ∧ b = packet.senderIp then [] else t.iface.parked b :=
      Interface.parked_handleArp t.now hparse
    have hreleases : t.Releases (.arp frame) ↔ packet.isReply = true ∨ t.iface.parked packet.senderIp = [] := by
      simp only [Releases, hparse]
    rw [hreleases]
    constructor
    · rintro ⟨hnone, -⟩
      have hself : (t.step (.arp frame)).iface.arpCache.known packet.senderIp t.now = some packet.senderMac := by
        rw [step, hsends.arpCache]
        exact ARPCache.known_store hlasts
      have hempty := hnone packet.senderIp (by
        change ((t.step (.arp frame)).iface.arpCache.known packet.senderIp t.now).isSome = true
        rw [hself]
        rfl)
      rw [hparked] at hempty
      by_cases hreply : packet.isReply = true
      · exact .inl hreply
      · rw [if_neg fun hboth => hreply hboth.1] at hempty
        exact .inr hempty
    · intro hrel
      constructor
      · intro b hb
        rw [hparked]
        split_ifs with hboth
        · rfl
        by_cases hbs : b = packet.senderIp
        · rw [hbs]
          exact hrel.resolve_left fun hreply => hboth ⟨hreply, hbs⟩
        · apply h.none
          rw [step, hsends.arpCache] at hb
          obtain ⟨mac, hmac⟩ := Option.isSome_iff_exists.mp hb
          rw [ARPCache.known_of_known_store hbs hmac]
          rfl
      · intro b
        have hbefore := h.order b
        have hdeparted : (t.step (.arp frame)).iface.departed =
            t.iface.departed ++ gone.map (some packet.senderIp, ·) := hsends.departed
        rw [hdeparted, toHop_append, toHop_map]
        have hrest : List.Sublist ((if some packet.senderIp = b then gone else []) ++
            (t.step (.arp frame)).iface.waiting b) (t.iface.waiting b) := by
          cases b with
          | none =>
            rw [if_neg (by simp)]
            exact List.Sublist.refl _
          | some b =>
            change List.Sublist (_ ++ (t.step (.arp frame)).iface.parked b) (t.iface.parked b)
            rw [hparked]
            by_cases hreply : packet.isReply = true
            · rw [if_pos hreply] at hgone
              by_cases hb : b = packet.senderIp
              · rw [if_pos (by rw [hb]), if_pos ⟨hreply, hb⟩, List.append_nil, hb]
                exact hgone.sublist
              · rw [if_neg (by simpa using Ne.symm hb), if_neg fun hboth => hb hboth.2]
                exact List.Sublist.refl _
            · rw [if_neg hreply, List.prefix_nil] at hgone
              rw [hgone, ite_self, if_neg fun hboth => hreply hboth.1]
              exact List.Sublist.refl _
        rw [List.append_assoc]
        exact ((List.Sublist.refl _).append hrest).trans hbefore

theorem expiry_step (e : TrafficEvent) :
    (t.step e).iface.arpCache.expiry = t.iface.arpCache.expiry := by
  cases e with
  | send packet =>
    cases hhop : t.iface.hopOf packet with
    | error e => simp [step, Interface.sendIpv4, hhop]
    | ok hop =>
      rw [step]
      rcases Interface.sendIpv4_spec t.now hhop with ⟨_, _, _, hsends⟩ | ⟨_, _, _, _, _, hsends⟩
      · rw [hsends.arpCache]
      · rw [hsends.arpCache, ARPCache.expiry_lookup]
  | arp frame =>
    cases hparse : ARPPacket.parse frame.payload with
    | error e => simp [step, Interface.handleArp, hparse]
    | ok packet =>
      obtain ⟨_, _, hsends⟩ := Interface.handleArp_spec (i := t.iface) t.now hparse
      rw [step, hsends.arpCache, ARPCache.expiry_store]
  | advance time => rfl
  | tick => rfl

theorem orderly_step (hlasts : t.iface.arpCache.Lasts) (h : t.Orderly) (e : TrafficEvent) :
    (t.step e).Orderly ↔ t.Releases e := by
  cases e with
  | send packet => exact iff_of_true (h.send packet) trivial
  | arp frame => exact orderly_arp hlasts h frame
  | advance time => exact iff_of_true (h.advance time) trivial
  | tick => exact iff_of_true h.tick trivial

theorem orderly_of_fresh (h : t.Fresh) : t.Orderly := by
  obtain ⟨hcache, hpending, hdeparted, hsent⟩ := h
  have hparked : ∀ a, t.iface.parked a = [] := by
    intro a
    rw [Interface.parked, hpending, Dict.get?_empty]
    rfl
  constructor
  · intro a _
    exact hparked a
  · intro hop
    rw [hdeparted]
    cases hop with
    | none => exact List.nil_sublist _
    | some a =>
      change List.Sublist ([] ++ t.iface.parked a) _
      rw [hparked]
      exact List.nil_sublist _

end Traffic

/-- In a run from a new stack no packet ever waits for an address that is known, and packets to one next hop
leave in the order they were sent, exactly when every ARP packet of the run whose sender has packets parked at
that time is a reply. -/
theorem always_orderly_iff {t : Traffic} (h : t.Fresh) (es : List TrafficEvent) :
    traffic.Always Traffic.Orderly t es ↔ traffic.Meets Traffic.Releases t es := by
  apply traffic.always_iff_meets (Q := fun t => t.iface.arpCache.Lasts) (E := fun _ _ => True)
  · intro t e hlasts _ _ _
    change (t.step e).iface.arpCache.Lasts
    rw [ARPCache.Lasts, Traffic.expiry_step]
    exact hlasts
  · intro t e hlasts horderly _
    exact Traffic.orderly_step hlasts horderly e
  · exact traffic.meets_true t es
  · rw [h.1]
    intro stamp
    exact lt_add_of_pos_right stamp (show (0 : ℚ) < 300 by decide)
  · exact Traffic.orderly_of_fresh h

/-! ### A request between two packets -/

def sampleTraffic : Traffic where
  iface :=
    { mac := [2, 0, 0, 0, 0, 1]
      ip := [10, 0, 0, 1]
      netmask := [255, 255, 255, 0] }

/-- A datagram to a host on the link. -/
def samplePacket (identification : Nat) : IPv4Packet :=
  { src := [10, 0, 0, 1]
    dst := [10, 0, 0, 2]
    protocol := PROTO_UDP
    payload := [1]
    identification := identification }

/-- An ARP packet from that host to us, of the kind `operation`. -/
def sampleArp (operation : UInt8) : EthernetFrame :=
  { dst := [2, 0, 0, 0, 0, 1]
    src := [2, 0, 0, 0, 0, 2]
    ethertype := ETHERTYPE_ARP
    payload := [0, 1, 8, 0, 6, 4, 0, operation, 2, 0, 0, 0, 0, 2, 10, 0, 0, 2, 0, 0, 0, 0, 0, 0, 10, 0, 0, 1] }

theorem sampleTraffic_fresh : sampleTraffic.Fresh := ⟨rfl, rfl, rfl, rfl⟩

theorem always_orderly_reply :
    traffic.Always Traffic.Orderly sampleTraffic
      [.send (samplePacket 1), .arp (sampleArp 2), .send (samplePacket 2)] :=
  (always_orderly_iff sampleTraffic_fresh _).mpr (by decide +kernel)

/-- The first packet is parked. The host then asks for our address: its own is known from now on, and still the
first packet waits, while the second leaves. -/
theorem first_packet_is_overtaken :
    sampleTraffic.Fresh ∧
      (traffic.run sampleTraffic
        [.send (samplePacket 1), .arp (sampleArp 1), .send (samplePacket 2)]).iface.departed =
          [(some [10, 0, 0, 2], samplePacket 2)] ∧
      (traffic.run sampleTraffic
        [.send (samplePacket 1), .arp (sampleArp 1), .send (samplePacket 2)]).iface.parked [10, 0, 0, 2] =
          [samplePacket 1] ∧
      ¬ traffic.Always Traffic.Orderly sampleTraffic
        [.send (samplePacket 1), .arp (sampleArp 1), .send (samplePacket 2)] := by
  refine ⟨⟨rfl, rfl, rfl, rfl⟩, by decide +kernel, by decide +kernel, ?_⟩
  rintro ⟨-, -, hknown, -⟩
  exact absurd (hknown.none [10, 0, 0, 2] (by decide +kernel)) (by decide +kernel)

end MiniTcp
