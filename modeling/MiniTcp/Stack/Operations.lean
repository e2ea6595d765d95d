import MiniTcp.Lib.Machine
import MiniTcp.Stack

/-!
# What the stack does to its link part

Whatever happens to a stack, its link part sees a run of five operations (`performs_step`): datagrams to send,
ARP packets, the expiry of cache entries, identifications to give out and counters to set. So what every run of
these keeps holds of every stack. All but the frames with an ARP packet get by without the second
(`performsQuietly_step`).
-/

namespace MiniTcp

/-- An operation on the link part. -/
inductive LinkEvent where
  | send (packet : IPv4Packet) (now : Time)
  | arp (frame : EthernetFrame) (now : Time)
  | expire (now : Time)
  | allocate
  | count (stats : Stats)

def LinkEvent.isArp : LinkEvent → Bool
  | .arp .. => true
  | _ => false

namespace Interface

def perform (i : Interface) : LinkEvent → Interface
  | .send packet now => (i.sendIpv4 packet now).2
  | .arp frame now => (i.handleArp frame now).2
  | .expire now => i.expireArp now
  | .allocate => i.allocateId.2
  | .count stats => { i with stats := stats }

end Interface

/-- The link part alone, with any operations in any order. -/
def link : Machine Interface LinkEvent where
  init i := ∃ cfg, i = (Stack.new cfg).toInterface
  next := Interface.perform

/-- Some operations lead from `i` to `j`. -/
def Performs (i j : Interface) : Prop := ∃ es, link.run i es = j

/-- Some operations lead from `i` to `j`, and none of them is an ARP packet. -/
def PerformsQuietly (i j : Interface) : Prop := ∃ es, (∀ e ∈ es, e.isArp = false) ∧ link.run i es = j

namespace Performs

variable {i j k : Interface}

theorem trans (h : Performs i j) (h' : Performs j k) : Performs i k := by
  obtain ⟨es, rfl⟩ := h
  obtain ⟨es', rfl⟩ := h'
  exact ⟨es ++ es', link.run_append i es es'⟩

theorem one (i : Interface) (e : LinkEvent) : Performs i (i.perform e) := ⟨[e], rfl⟩

theorem count (i : Interface) (stats : Stats) : Performs i { i with stats := stats } := one i (.count stats)

theorem induction {P : Interface → Prop} (hP : ∀ i e, P i → P (i.perform e)) (h : Performs i j) (hi : P i) :
    P j := by
  obtain ⟨es, rfl⟩ := h
  exact link.run_induction (fun i e hi _ => hP i e hi) hi (link.meets_true i es)

theorem reachable (h : Performs i j) (hi : link.Reachable i) : link.Reachable j := by
  obtain ⟨es, rfl⟩ := h
  exact hi.run link (link.meets_true i es)

end Performs

namespace PerformsQuietly

variable {i j k : Interface}

theorem refl (i : Interface) : PerformsQuietly i i := ⟨[], nofun, rfl⟩

theorem trans (h : PerformsQuietly i j) (h' : PerformsQuietly j k) : PerformsQuietly i k := by
  obtain ⟨es, hes, rfl⟩ := h
  obtain ⟨es', hes', rfl⟩ := h'
  exact ⟨es ++ es', fun e he => (List.mem_append.mp he).elim (hes e) (hes' e), link.run_append i es es'⟩

theorem one (i : Interface) {e : LinkEvent} (he : e.isArp = false) : PerformsQuietly i (i.perform e) := by
  refine ⟨[e], fun e' he' => ?_, rfl⟩
  obtain rfl := List.mem_singleton.mp he'
  exact he

theorem count (i : Interface) (stats : Stats) : PerformsQuietly i { i with stats := stats } :=
  one (e := .count stats) i rfl

theorem performs (h : PerformsQuietly i j) : Performs i j := by
  obtain ⟨es, -, hrun⟩ := h
  exact ⟨es, hrun⟩

theorem induction {P : Interface → Prop} (hP : ∀ i e, e.isArp = false → P i → P (i.perform e))
    (h : PerformsQuietly i j) (hi : P i) : P j := by
  obtain ⟨es, hes, rfl⟩ := h
  exact link.run_induction (fun i e hi he => hP i e he hi) hi ((link.meets_const i es).mpr hes)

end PerformsQuietly

namespace Stack

variable (s : Stack)

/-! ### Calls into a connection -/

theorem performsQuietly_count (stats : Stats) :
    PerformsQuietly s.toInterface ({ s with stats := stats } : Stack).toInterface :=
  .count _ stats

theorem performsQuietly_sendOwn (protocol : Nat) (dst payload : Bytes) (now : Time) :
    PerformsQuietly s.toInterface (s.sendOwn protocol dst payload now).2.toInterface :=
  (PerformsQuietly.one _ (e := .allocate) rfl).trans (.one _ (e := .send _ now) rfl)

theorem performsQuietly_transmitSegment (segment : TCPSegment) (remoteIp : Bytes) (now : Time) :
    PerformsQuietly s.toInterface (s.transmitSegment segment remoteIp now).2.toInterface := by
  have hcount := performsQuietly_count s { s.stats with tcpOut := s.stats.tcpOut + 1 }
  unfold transmitSegment
  generalize ({ s with stats := { s.stats with tcpOut := s.stats.tcpOut + 1 } } : Stack) = s' at hcount ⊢
  dsimp only
  split
  · exact hcount
  · exact hcount.trans (performsQuietly_sendOwn s' _ _ _ _)

theorem performsQuietly_transmitAll (remoteIp : Bytes) (now : Time) (segments : List TCPSegment) :
    PerformsQuietly s.toInterface (transmitAll remoteIp now segments s).2.toInterface := by
  induction segments generalizing s with
  | nil => exact .refl _
  | cons segment rest ih =>
    have hsegment := performsQuietly_transmitSegment s segment remoteIp now
    rw [transmitAll]
    generalize s.transmitSegment segment remoteIp now = r at hsegment
    obtain ⟨result, s'⟩ := r
    cases result with
    | error e => exact hsegment
    | ok _ => exact hsegment.trans (ih s')

theorem performsQuietly_call (id : ConnId) (e : Event) (now : Time) :
    PerformsQuietly s.toInterface (s.call id e now).2.toInterface := by
  unfold call
  split
  · exact .refl _
  · rename_i slot _
    have hall := performsQuietly_transmitAll
      { s with toTables := s.modifySlot id fun slot => { slot with ep := slot.ep.step e } }
      (slot.ep.step e).conn.cfg.remoteIp now ((slot.ep.step e).conn.sent.drop slot.ep.conn.sent.length)
    dsimp only
    split <;> rename_i h <;> rw [h] at hall <;> exact hall

theorem performsQuietly_adopt (onAccept : Option Nat) (child : TCPConnection) (now : Time) :
    PerformsQuietly s.toInterface (s.adopt onAccept child now).2.toInterface := by
  have hall := performsQuietly_transmitAll { s with toTables := s.add (Tables.childSlot onAccept child) }
    child.cfg.remoteIp now child.sent
  unfold adopt
  dsimp only
  split
  · rename_i h
    rw [h] at hall
    exact hall
  · rename_i h
    rw [h] at hall
    cases onAccept <;> exact hall

theorem performsQuietly_onSegment (id : ConnId) (segment : TCPSegment) (src : Bytes) (draw : SeqNo) (now : Time) :
    PerformsQuietly s.toInterface (s.onSegment id segment src draw now).2.toInterface := by
  unfold onSegment
  split
  · exact .refl _
  · have hcall := performsQuietly_call s id (.segment segment (some src) draw now) now
    split
    · rename_i h
      rw [h] at hcall
      exact hcall
    · rename_i h
      rw [h] at hcall
      split
      · exact hcall
      · exact hcall.trans (performsQuietly_adopt _ _ _ _)

/-! ### Frames that arrive -/

theorem performsQuietly_caught {r : Except PyError Unit × Stack} (h : PerformsQuietly s.toInterface r.2.toInterface) :
    PerformsQuietly s.toInterface (caught r).2.toInterface := by
  obtain ⟨result, s'⟩ := r
  match result with
  | .error (.valueError _) => exact h.trans (performsQuietly_count s' _)
  | .error .structError => exact h
  | .ok () => exact h

theorem performsQuietly_handleIcmp (packet : IPv4Packet) (now : Time) :
    PerformsQuietly s.toInterface (s.handleIcmp packet now).2.toInterface := by
  have hcount := performsQuietly_count s { s.stats with icmpEchoReplied := s.stats.icmpEchoReplied + 1 }
  unfold handleIcmp
  generalize ({ s with stats := { s.stats with icmpEchoReplied := s.stats.icmpEchoReplied + 1 } } : Stack) = s'
    at hcount ⊢
  split
  · exact .refl _
  · split_ifs
    · exact .refl _
    · split
      · exact .refl _
      · dsimp only
        split
        · exact hcount
        · exact hcount.trans (performsQuietly_sendOwn s' _ _ _ _)

theorem performsQuietly_sendReset (packet : IPv4Packet) (segment : TCPSegment) (now : Time) :
    PerformsQuietly s.toInterface (s.sendReset packet segment now).2.toInterface := by
  unfold sendReset
  split_ifs
  · exact .refl _
  · split
    · exact .refl _
    · exact performsQuietly_sendOwn s _ _ _ _

theorem performsQuietly_handleTcp (packet : IPv4Packet) (draw : SeqNo) (now : Time) :
    PerformsQuietly s.toInterface (s.handleTcp packet draw now).2.toInterface := by
  have hcount := performsQuietly_count s { s.stats with tcpIn := s.stats.tcpIn + 1 }
  unfold handleTcp
  generalize ({ s with stats := { s.stats with tcpIn := s.stats.tcpIn + 1 } } : Stack) = s' at hcount ⊢
  split
  · exact .refl _
  · dsimp only
    split
    · exact hcount.trans (performsQuietly_onSegment s' _ _ _ _ _)
    · exact hcount.trans (performsQuietly_sendReset s' _ _ _)

theorem performsQuietly_handleUdp (packet : IPv4Packet) :
    PerformsQuietly s.toInterface (s.handleUdp packet).2.toInterface := by
  have hcount := performsQuietly_count s { s.stats with udpIn := s.stats.udpIn + 1 }
  unfold handleUdp
  split
  · exact .refl _
  · dsimp only
    split <;> exact hcount

theorem performsQuietly_dispatchIpv4 (packet : IPv4Packet) (draw : SeqNo) (now : Time) :
    PerformsQuietly s.toInterface (s.dispatchIpv4 packet draw now).2.toInterface := by
  apply performsQuietly_caught
  split_ifs
  · exact performsQuietly_handleIcmp s packet now
  · exact performsQuietly_handleTcp s packet draw now
  · exact performsQuietly_handleUdp s packet
  · exact .refl _

theorem performsQuietly_reassemble (packet : IPv4Packet) (now : Time) :
    PerformsQuietly s.toInterface (s.reassemble packet now).2.toInterface := by
  unfold reassemble
  split_ifs <;> exact .refl _

theorem performsQuietly_handleIpv4Frame (frame : EthernetFrame) (draw : SeqNo) (now : Time) :
    PerformsQuietly s.toInterface (s.handleIpv4Frame frame draw now).2.toInterface := by
  unfold handleIpv4Frame
  split
  · exact performsQuietly_caught s (.refl _)
  · rename_i packet _
    have hcount := performsQuietly_count s { s.stats with ipv4In := s.stats.ipv4In + 1 }
    generalize ({ s with stats := { s.stats with ipv4In := s.stats.ipv4In + 1 } } : Stack) = s' at hcount ⊢
    have hwhole := hcount.trans (performsQuietly_reassemble s' packet now)
    dsimp only
    generalize s'.reassemble packet now = r at hwhole
    obtain ⟨whole, t⟩ := r
    cases whole with
    | none => exact hwhole
    | some packet =>
      dsimp only
      split_ifs
      · exact hwhole.trans (performsQuietly_count t _)
      · exact hwhole.trans (performsQuietly_dispatchIpv4 t packet draw now)

/-- The ARP frame in what arrives, if the stack takes it. -/
def arpFrame (raw : Bytes) : Option EthernetFrame :=
  match EthernetFrame.parse raw with
  | .error _ => none
  | .ok frame =>
    if !s.promiscuous && !frame.acceptedBy s.mac then none
    else if frame.ethertype = ETHERTYPE_ARP then some frame
    else none

theorem handleFrame_of_arp {raw : Bytes} {frame : EthernetFrame} (h : s.arpFrame raw = some frame) (draw : SeqNo)
    (now : Time) : s.handleFrame raw draw now = caught (s.onLink (s.toInterface.handleArp frame now)) := by
  unfold arpFrame at h
  unfold handleFrame
  cases hparse : EthernetFrame.parse raw with
  | error e =>
    rw [hparse] at h
    cases h
  | ok found =>
    rw [hparse] at h
    dsimp only at h ⊢
    split_ifs at h ⊢
    obtain rfl := Option.some.inj h
    rfl

theorem performsQuietly_handleFrame {raw : Bytes} (h : s.arpFrame raw = none) (draw : SeqNo) (now : Time) :
    PerformsQuietly s.toInterface (s.handleFrame raw draw now).2.toInterface := by
  unfold arpFrame at h
  apply performsQuietly_caught
  split
  · exact .refl _
  · rename_i frame hparse
    rw [hparse] at h
    dsimp only at h
    split_ifs at h ⊢
    · exact performsQuietly_count s _
    · exact performsQuietly_handleIpv4Frame s frame draw now
    · exact performsQuietly_count s _

/-! ### Timers and calls -/

theorem performsQuietly_tickAll (now : Time) (ids : List ConnId) :
    PerformsQuietly s.toInterface (tickAll now ids s).toInterface := by
  induction ids generalizing s with
  | nil => exact .refl _
  | cons id ids ih =>
    have hcall := performsQuietly_call s id (.tick now) now
    rw [tickAll]
    generalize s.call id (.tick now) now = r at hcall
    obtain ⟨result, s'⟩ := r
    cases result with
    | error e => exact (hcall.trans (performsQuietly_count s' _)).trans (ih _)
    | ok _ => exact hcall.trans (ih s')

theorem performsQuietly_tcpConnect (remoteIp : Bytes) (remotePort port : Nat) (draw : SeqNo) (now : Time) :
    PerformsQuietly s.toInterface (s.tcpConnect remoteIp remotePort port draw now).2.toInterface := by
  unfold tcpConnect onTables
  generalize s.localPort port = r
  obtain ⟨found, t⟩ := r
  cases found with
  | error e => exact .refl _
  | ok found =>
    have hcall := performsQuietly_call { s with toTables := t.register s.ip found remoteIp remotePort } t.slots.length
      (.connect draw now) now
    dsimp only at hcall ⊢
    split <;> rename_i h <;> rw [h] at hcall <;> exact hcall

theorem performsQuietly_connectWait (id : ConnId) (expired : Bool) (now : Time) :
    PerformsQuietly s.toInterface (s.connectWait id expired now).2.toInterface := by
  have habort := performsQuietly_call s id (.abort now) now
  unfold connectWait
  split
  · exact .refl _
  · dsimp only
    split_ifs
    · exact .refl _
    · exact .refl _
    · exact .refl _
    · split <;> rename_i h <;> rw [h] at habort <;> exact habort
    · exact .refl _

theorem performsQuietly_tcpClose (id : ConnId) (now : Time) :
    PerformsQuietly s.toInterface (s.tcpClose id now).2.toInterface :=
  performsQuietly_call { s with toTables := s.markShut id } id (.close now) now

theorem performsQuietly_closeSocket (id : ConnId) (now : Time) :
    PerformsQuietly s.toInterface (s.closeSocket id now).2.toInterface := by
  unfold closeSocket
  split_ifs
  · exact .refl _
  · exact performsQuietly_tcpClose s id now

theorem performsQuietly_udpSend (payload remoteIp : Bytes) (remotePort port : Nat) (now : Time) :
    PerformsQuietly s.toInterface (s.udpSend payload remoteIp remotePort port now).2.toInterface := by
  unfold udpSend onTables
  generalize s.localPort port = r
  obtain ⟨found, t⟩ := r
  cases found with
  | error e => exact .refl _
  | ok found =>
    have hcount := performsQuietly_count { s with toTables := t } { s.stats with udpOut := s.stats.udpOut + 1 }
    dsimp only
    split
    · exact hcount
    · exact hcount.trans (performsQuietly_sendOwn
        { s with toTables := t, stats := { s.stats with udpOut := s.stats.udpOut + 1 } } _ _ _ _)

/-- The ARP frame that an event brings in, if the stack takes it. -/
def arpOf : StackEvent → Option EthernetFrame
  | .frame raw _ _ => s.arpFrame raw
  | _ => none

theorem performsQuietly_step {e : StackEvent} (h : s.arpOf e = none) :
    PerformsQuietly s.toInterface (s.step e).toInterface := by
  cases e with
  | frame raw draw now => exact performsQuietly_handleFrame s h draw now
  | tick now => exact (performsQuietly_tickAll s now _).trans (.one _ (e := .expire now) rfl)
  | tcpListen port backlog => exact .refl _
  | tcpAccept port expired => exact .refl _
  | tcpConnect remote port draw now => exact performsQuietly_tcpConnect s _ _ _ _ _
  | connectWait id expired now => exact performsQuietly_connectWait s id expired now
  | send id data now => exact performsQuietly_call s id _ now
  | recv id maxBytes now => exact performsQuietly_call s id _ now
  | abort id now => exact performsQuietly_call s id _ now
  | tcpClose id now => exact performsQuietly_tcpClose s id now
  | closeSocket id now => exact performsQuietly_closeSocket s id now
  | udpBind port handler => exact .refl _
  | udpUnbind port => exact .refl _
  | udpSend payload remote port now => exact performsQuietly_udpSend s payload _ _ _ now

theorem step_of_arp {e : StackEvent} {frame : EthernetFrame} (h : s.arpOf e = some frame) :
    ∃ now stats, (s.step e).toInterface = { (s.toInterface.handleArp frame now).2 with stats := stats } := by
  cases e with
  | frame raw draw now =>
    refine ⟨now, ?_⟩
    rw [step, s.handleFrame_of_arp h]
    unfold onLink
    generalize s.toInterface.handleArp frame now = r
    obtain ⟨result, i⟩ := r
    match result with
    | .error (.valueError _) => exact ⟨_, rfl⟩
    | .error .structError => exact ⟨_, rfl⟩
    | .ok () => exact ⟨_, rfl⟩
  | _ => cases h

/-- The link part of a stack goes through link operations only. -/
theorem performs_step (e : StackEvent) : Performs s.toInterface (s.step e).toInterface := by
  cases harp : s.arpOf e with
  | none => exact (s.performsQuietly_step harp).performs
  | some frame =>
    obtain ⟨now, stats, heq⟩ := s.step_of_arp harp
    rw [heq]
    exact (Performs.one _ (.arp frame now)).trans (.count _ stats)

variable {s} in
/-- The link part of a reachable stack is reachable on its own. -/
theorem reachable_link (h : stack.Reachable s) : link.Reachable s.toInterface := by
  refine Machine.ReachableBy.induction stack (fun s hs => ?_) (fun s e _ hs _ => (s.performs_step e).reachable hs) h
  obtain ⟨cfg, rfl⟩ := hs
  exact .init link ⟨cfg, rfl⟩

end Stack

end MiniTcp
