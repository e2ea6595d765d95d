import MiniTcp.Link.Delivery
import MiniTcp.Stack.Departures

/-!
# Stacks on one wire

`Lan` is a number of stacks, each with a link of its own on one `VirtualWire`. Between two rounds of its reader a
stack is called by its application and its timer; a round takes a frame from the link and handles it. Whatever a stack
puts on its link meanwhile goes over the wire, frame by frame.

Every link stays on the wire and up, so no frame is refused (`Good.online`), and every frame that a stack is given is
one that another stack has sent, but for what the wire corrupts (`Good.heard`).
-/

namespace MiniTcp

def StackEvent.isFrame : StackEvent → Bool
  | .frame .. => true
  | _ => false

/-- A call of the application or of the timer. -/
abbrev StackCall := {e : StackEvent // e.isFrame = false}

/-- The stacks, the wire between them, and the datagrams that each stack was asked to send. -/
structure Lan (n : Nat) where
  host : Fin n → Stack
  wire : VirtualWire
  said : Fin n → List (UDPSegment × Bytes) := fun _ => []

/-- A call, one round of the reader of a stack, or what else can happen to the wire. The generator gives `draws k`
for the frame number `k` that the stack sends. -/
inductive LanEvent (n : Nat) where
  | call (i : Fin n) (e : StackCall) (draws : Nat → Draws)
  | poll (i : Fin n) (draw : SeqNo) (now : Time) (draws : Nat → Draws)
  | pump
  | advance (time : Time)

/-- `send_frame` for one frame after the other. -/
def sendsOf (id : LinkId) (frames : List Bytes) (draws : Nat → Draws) : List WireEvent :=
  frames.mapIdx fun k frame => .send id frame (draws k)

namespace Lan

variable {n : Nat}

/-- An event at one stack, with the frames that it puts on the link. -/
def act (L : Lan n) (i : Fin n) (e : StackEvent) (draws : Nat → Draws) : Lan n where
  host := Function.update L.host i ((L.host i).step e)
  wire := virtualWire.run L.wire (sendsOf i (((L.host i).step e).link.drop (L.host i).link.length) draws)
  said := Function.update L.said i (L.said i ++ (L.host i).posted e)

def step (L : Lan n) : LanEvent n → Lan n
  | .call i e draws => L.act i e.1 draws
  | .poll i draw now draws =>
    match L.wire.recvFrame i with
    | (none, w) => { L with wire := w }
    | (some raw, w) => { L with wire := w }.act i (.frame raw draw now) draws
  | .pump => { L with wire := L.wire.step .pump }
  | .advance time => { L with wire := L.wire.step (.advance time) }

/-- The links of the stacks are attached to a new wire. -/
def Started (cfg : Fin n → StackConfig) (fault : FaultProfile) (L : Lan n) : Prop :=
  ∃ names : LinkId → String, L =
    { host := fun i => .new (cfg i)
      wire := virtualWire.run { fault := fault, endpoint := fun id => { name := names id } }
        ((List.range n).map .attach) }

end Lan

/-- All runs of stacks with these arguments on a wire with these faults. -/
def lan {n : Nat} (cfg : Fin n → StackConfig) (fault : FaultProfile) : Machine (Lan n) (LanEvent n) where
  init := Lan.Started cfg fault
  next := Lan.step

/-- A network as it starts. -/
def Lan.start {n : Nat} (cfg : Fin n → StackConfig) (fault : FaultProfile) : Lan n where
  host := fun i => .new (cfg i)
  wire := virtualWire.run { fault := fault } ((List.range n).map .attach)

theorem Lan.started_start {n : Nat} (cfg : Fin n → StackConfig) (fault : FaultProfile) :
    Lan.Started cfg fault (.start cfg fault) := ⟨fun _ => "", rfl⟩

@[simp] theorem lan_next {n : Nat} (cfg : Fin n → StackConfig) (fault : FaultProfile) (L : Lan n) (e : LanEvent n) :
    (lan cfg fault).next L e = L.step e := rfl

/-! ### Frames stay on record -/

namespace Interface

variable {i : Interface}

theorem prefix_link_emit (i : Interface) (mac : Bytes) (ethertype : Nat) (payload : Bytes) :
    i.link <+: (i.emit mac ethertype payload).2.link := by
  unfold emit
  dsimp only
  split
  · exact List.prefix_refl _
  · exact List.prefix_append _ _

theorem prefix_link_emitPacket (i : Interface) (hop : Option Bytes) (mac : Bytes) (packet : IPv4Packet) :
    i.link <+: (i.emitPacket hop mac packet).2.link := by
  unfold emitPacket
  split
  · exact List.prefix_refl _
  · exact prefix_link_emit i _ _ _

theorem prefix_link_sendArpRequest (i : Interface) (targetIp : Bytes) :
    i.link <+: (i.sendArpRequest targetIp).2.link := by
  unfold sendArpRequest
  dsimp only
  split
  · exact List.prefix_refl _
  · exact prefix_link_emit { i with stats := i.stats.arpRequestSent } _ _ _

theorem prefix_link_parkPending (i : Interface) (ip : Bytes) (packet : IPv4Packet) :
    i.link <+: (i.parkPending ip packet).2.link := by
  unfold parkPending
  dsimp only
  split_ifs
  · exact List.prefix_refl _
  · exact prefix_link_sendArpRequest { i with arpPending := i.arpPending.set ip (i.parked ip ++ [packet]) } ip

theorem prefix_link_emitAll (ip mac : Bytes) (queue : List IPv4Packet) (i : Interface) :
    i.link <+: (emitAll ip mac queue i).2.link := by
  induction queue generalizing i with
  | nil => exact List.prefix_refl _
  | cons packet queue ih =>
    have hfirst := prefix_link_emitPacket i (some ip) mac packet
    rw [emitAll]
    generalize i.emitPacket (some ip) mac packet = r at hfirst
    obtain ⟨result, j⟩ := r
    cases result with
    | error e => exact hfirst
    | ok _ => exact hfirst.trans (ih j)

theorem prefix_link_sendIpv4 (i : Interface) (packet : IPv4Packet) (now : Time) :
    i.link <+: (i.sendIpv4 packet now).2.link := by
  unfold sendIpv4
  split
  · exact List.prefix_refl _
  · exact prefix_link_emitPacket i none BROADCAST_MAC packet
  · rename_i hop _
    dsimp only
    split
    · exact prefix_link_parkPending { i with arpCache := (i.arpCache.lookup hop now).2 } hop packet
    · exact prefix_link_emitPacket { i with arpCache := (i.arpCache.lookup hop now).2 } _ _ packet

theorem prefix_link_handleArp (i : Interface) (frame : EthernetFrame) (now : Time) :
    i.link <+: (i.handleArp frame now).2.link := by
  unfold handleArp
  split
  · exact List.prefix_refl _
  · rename_i packet _
    dsimp only
    split_ifs
    · split
      · exact List.prefix_refl _
      · exact prefix_link_emit { i with
          arpCache := i.arpCache.store packet.senderIp packet.senderMac now
          stats := i.stats.arpReplySent } _ _ _
    · unfold flushPending
      exact prefix_link_emitAll packet.senderIp packet.senderMac _ { i with
        arpCache := i.arpCache.store packet.senderIp packet.senderMac now
        arpPending := i.arpPending.erase packet.senderIp }
    · exact List.prefix_refl _

theorem prefix_link_perform (i : Interface) (e : LinkEvent) : i.link <+: (i.perform e).link := by
  cases e with
  | send packet now => exact prefix_link_sendIpv4 i packet now
  | arp frame now => exact prefix_link_handleArp i frame now
  | expire now => exact List.prefix_refl _
  | allocate => exact List.prefix_refl _
  | count stats => exact List.prefix_refl _

end Interface

theorem Stack.prefix_link_step (s : Stack) (e : StackEvent) : s.link <+: (s.step e).link :=
  (s.performs_step e).induction (P := fun j => s.link <+: j.link)
    (fun j e hj => hj.trans (j.prefix_link_perform e)) (List.prefix_refl _)

namespace VirtualWire

variable {w w' : VirtualWire} {id peer : LinkId} {t : Transmission}

theorem mem_log_step {e : WireEvent} (ht : t ∈ (w.step e).log) :
    t ∈ w.log ∨ ∃ draws, e = .send t.sender t.frame draws := by
  have hsame : ∀ {w' : VirtualWire}, Quiet w w' → t ∈ w'.log → t ∈ w.log := by
    intro w' hq h
    rwa [hq.log] at h
  cases e with
  | send id frame draws =>
    unfold step sendFrame at ht
    dsimp only at ht
    split_ifs at ht
    · exact .inl ht
    · exact .inl ht
    · change t ∈ (w.transmit id frame draws).log at ht
      by_cases h : w.peersOf id = []
      · rw [transmit_of_alone h] at ht
        exact .inl ht
      · rw [(sends_transmit h frame draws).log] at ht
        rcases List.mem_append.mp ht with hold | hnew
        · exact .inl hold
        · rw [List.mem_singleton.mp hnew]
          exact .inr ⟨draws, rfl⟩
  | pump =>
    rw [step, (pump_spec w).2.1] at ht
    exact .inl ht
  | recv id =>
    unfold step recvFrame at ht
    dsimp only at ht
    split_ifs at ht
    · rw [(quiet_take _ id).log, (pump_spec w).2.1] at ht
      exact .inl ht
    · exact .inl (hsame (quiet_take w id) ht)
  | close id =>
    unfold step close at ht
    dsimp only at ht
    split_ifs at ht <;> exact .inl ht
  | _ => exact .inl ht

theorem mem_log_run {es : List WireEvent} (ht : t ∈ (virtualWire.run w es).log) :
    t ∈ w.log ∨ ∃ draws, .send t.sender t.frame draws ∈ es := by
  induction es generalizing w with
  | nil => exact .inl ht
  | cons e es ih =>
    rcases ih ht with h | ⟨draws, hmem⟩
    · rcases mem_log_step h with hold | ⟨draws, rfl⟩
      · exact .inl hold
      · exact .inr ⟨draws, List.mem_cons_self⟩
    · exact .inr ⟨draws, List.mem_cons_of_mem _ hmem⟩

theorem fault_run (w : VirtualWire) (es : List WireEvent) : (virtualWire.run w es).fault = w.fault := by
  induction es generalizing w with
  | nil => rfl
  | cons e es ih => exact (ih _).trans (fault_step w e)

/-- The link is on the wire and up. -/
def Online (w : VirtualWire) (id : LinkId) : Prop :=
  (w.endpoint id).hasWire = true ∧ (w.endpoint id).isUp = true

theorem Online.carries (h : w.Online id) (hw : Carries w w') : w'.Online id :=
  ⟨(hw.hasWire id).trans h.1, (hw.isUp id).trans h.2⟩

theorem Online.sendFrame (h : w.Online id) (frame : Bytes) (draws : Draws) :
    w.sendFrame id frame draws = .ok (w.transmit id frame draws) := by
  unfold VirtualWire.sendFrame
  dsimp only
  rw [h.1, h.2]
  rfl

theorem carries_transmit (w : VirtualWire) (id : LinkId) (frame : Bytes) (draws : Draws) :
    Carries w (w.transmit id frame draws) := by
  by_cases h : w.peersOf id = []
  · rw [transmit_of_alone h]
    exact ⟨rfl, rfl, rfl, fun _ => rfl, fun _ => rfl, fun _ => rfl⟩
  · exact (sends_transmit h frame draws).carries

theorem Online.send (h : w.Online peer) (frame : Bytes) (draws : Draws) :
    (w.step (.send id frame draws)).Online peer := by
  unfold step VirtualWire.sendFrame
  dsimp only
  split_ifs
  · exact h
  · exact h
  · exact h.carries (carries_transmit w id frame draws)

theorem Online.sends (h : w.Online peer) (frames : List Bytes) (draws : Nat → Draws) :
    (virtualWire.run w (sendsOf id frames draws)).Online peer := by
  have hmeets : virtualWire.Meets (fun _ e => ∃ frame draws, e = .send id frame draws) w (sendsOf id frames draws) := by
    refine (virtualWire.meets_const _ _).mpr fun e he => ?_
    obtain ⟨k, hk, rfl⟩ := List.mem_mapIdx.mp he
    exact ⟨_, _, rfl⟩
  refine virtualWire.run_induction (P := fun w => w.Online peer) (fun w e hw he => ?_) h hmeets
  obtain ⟨frame, draws, rfl⟩ := he
  exact hw.send frame draws

theorem Online.modifyLink (h : w.Online peer) {f : SimulatedLink → SimulatedLink}
    (hf : ∀ link, (f link).hasWire = link.hasWire ∧ (f link).isUp = link.isUp) :
    (w.modifyLink id f).Online peer := by
  by_cases hpeer : peer = id
  · subst hpeer
    rw [Online, endpoint_modifyLink, (hf _).1, (hf _).2]
    exact h
  · rw [Online, endpoint_modifyLink_of_ne w f hpeer]
    exact h

theorem Online.recvFrame (h : w.Online peer) : (w.recvFrame id).2.Online peer := by
  have hpump : (if (w.endpoint id).hasWire then w.pump else w).Online peer := by
    split_ifs
    · exact h.carries (pump_spec w).1
    · exact h
  rw [VirtualWire.recvFrame]
  generalize (if (w.endpoint id).hasWire then w.pump else w) = w' at hpump
  unfold take
  split
  · exact hpump
  · rename_i frame queue _
    exact hpump.modifyLink (f := fun link => { link with queue := queue, received := link.received ++ [frame] })
      fun _ => ⟨rfl, rfl⟩

theorem online_attach (w : VirtualWire) {ids : List LinkId} (hup : ∀ id, (w.endpoint id).isUp = true)
    (h : id ∈ ids) : (virtualWire.run w (ids.map .attach)).Online id := by
  have hkeep : ∀ (ids : List LinkId) (w : VirtualWire), w.Online id →
      (virtualWire.run w (ids.map .attach)).Online id := by
    intro ids
    induction ids with
    | nil => exact fun w hw => hw
    | cons first ids ih =>
      intro w hw
      refine ih _ ?_
      by_cases hid : id = first
      · subst hid
        exact ⟨by simp [step, attach], by simpa [step, attach] using hw.2⟩
      · have hsame : (w.modifyLink first fun link => { link with hasWire := true }).endpoint id = w.endpoint id :=
          endpoint_modifyLink_of_ne w _ hid
        unfold Online virtualWire step attach
        dsimp only
        rw [hsame]
        exact hw
  induction ids generalizing w with
  | nil => exact absurd h List.not_mem_nil
  | cons first ids ih =>
    rcases List.mem_cons.mp h with rfl | hmem
    · refine hkeep ids _ ⟨by simp [step, attach], by simpa [step, attach] using hup id⟩
    · refine ih _ (fun peer => ?_) hmem
      by_cases hpeer : peer = first
      · subst hpeer
        simpa [step, attach] using hup peer
      · have hsame : (w.modifyLink first fun link => { link with hasWire := true }).endpoint peer =
            w.endpoint peer := endpoint_modifyLink_of_ne w _ hpeer
        unfold virtualWire step attach
        dsimp only
        rw [hsame]
        exact hup peer

theorem mem_held_recvFrame {raw : Bytes} (h : (w.recvFrame id).1 = some raw) : raw ∈ (w.recvFrame id).2.held id := by
  rw [recvFrame] at h ⊢
  generalize (if (w.endpoint id).hasWire then w.pump else w) = w' at h ⊢
  unfold take at h ⊢
  cases hqueue : (w'.endpoint id).queue with
  | nil =>
    rw [hqueue] at h
    cases h
  | cons frame queue =>
    rw [hqueue] at h
    obtain rfl := Option.some.inj h
    dsimp only
    rw [held, endpoint_modifyLink]
    simp

end VirtualWire

/-! ### What holds of every reachable network -/

namespace Lan

open Stack (Origin)

variable {n : Nat} {cfg : Fin n → StackConfig} {fault : FaultProfile} {L : Lan n}

/-- The stacks are reachable with their own addresses, their links are on the wire and up, and what went over the wire
is what they have sent, of which they can say where it comes from. -/
structure Good (cfg : Fin n → StackConfig) (fault : FaultProfile) (L : Lan n) : Prop where
  wire : virtualWire.Reachable L.wire
  fault : L.wire.fault = fault
  online : ∀ i : Fin n, L.wire.Online i
  host : ∀ i, stack.Reachable (L.host i)
  addresses : ∀ i, (L.host i).mac = (cfg i).mac ∧ (L.host i).ip = (cfg i).ip
  logged : ∀ t ∈ L.wire.log, ∃ i : Fin n, t.sender = i ∧ t.frame ∈ (L.host i).link
  genuine : ∀ i, (L.host i).toInterface.Genuine (Origin (L.host i) (L.said i))

@[simp] theorem host_act (L : Lan n) (i : Fin n) (e : StackEvent) (draws : Nat → Draws) :
    (L.act i e draws).host i = (L.host i).step e :=
  Function.update_self ..

@[simp] theorem said_act (L : Lan n) (i : Fin n) (e : StackEvent) (draws : Nat → Draws) :
    (L.act i e draws).said i = L.said i ++ (L.host i).posted e :=
  Function.update_self ..

theorem host_act_of_ne (L : Lan n) {i j : Fin n} (h : j ≠ i) (e : StackEvent) (draws : Nat → Draws) :
    (L.act i e draws).host j = L.host j :=
  Function.update_of_ne h ..

theorem said_act_of_ne (L : Lan n) {i j : Fin n} (h : j ≠ i) (e : StackEvent) (draws : Nat → Draws) :
    (L.act i e draws).said j = L.said j :=
  Function.update_of_ne h ..

theorem Good.act (h : L.Good cfg fault) (i : Fin n) (e : StackEvent) (draws : Nat → Draws) :
    (L.act i e draws).Good cfg fault := by
  refine ⟨h.wire.run virtualWire (virtualWire.meets_true _ _), ?_, fun j => (h.online j).sends _ _, fun j => ?_,
    fun j => ?_, fun t ht => ?_, fun j => ?_⟩
  · exact (VirtualWire.fault_run _ _).trans h.fault
  · by_cases hj : j = i
    · subst hj
      rw [host_act]
      exact (h.host j).step stack e trivial
    · rw [L.host_act_of_ne hj]
      exact h.host j
  · by_cases hj : j = i
    · subst hj
      have haddresses := (L.host j).performs_step e |>.induction (P := fun k => k.addresses = (L.host j).addresses)
        (fun k e hk => (k.addresses_perform e).trans hk) rfl
      rw [host_act]
      exact ⟨(congrArg (·.1) haddresses).trans (h.addresses j).1,
        (congrArg (·.2.1) haddresses).trans (h.addresses j).2⟩
    · rw [L.host_act_of_ne hj]
      exact h.addresses j
  · rcases VirtualWire.mem_log_run ht with hold | ⟨draws', hnew⟩
    · obtain ⟨j, hsender, hframe⟩ := h.logged t hold
      refine ⟨j, hsender, ?_⟩
      by_cases hj : j = i
      · subst hj
        rw [host_act]
        exact ((L.host j).prefix_link_step e).subset hframe
      · rw [L.host_act_of_ne hj]
        exact hframe
    · obtain ⟨k, hk, heq⟩ := List.mem_mapIdx.mp hnew
      injection heq with hsender hframe
      refine ⟨i, hsender.symm, ?_⟩
      rw [host_act, ← hframe]
      exact List.mem_of_mem_drop (List.getElem_mem hk)
  · by_cases hj : j = i
    · subst hj
      rw [host_act, said_act]
      exact (Stack.sound (h.host j)).genuine_step (h.genuine j) e
    · rw [L.host_act_of_ne hj, L.said_act_of_ne hj]
      exact h.genuine j

theorem Good.onWire (h : L.Good cfg fault) {w : VirtualWire} (hwire : virtualWire.Reachable w)
    (hfault : w.fault = L.wire.fault) (honline : ∀ i : Fin n, w.Online i) (hlog : w.log = L.wire.log) :
    ({ L with wire := w } : Lan n).Good cfg fault :=
  ⟨hwire, hfault.trans h.fault, honline, h.host, h.addresses, hlog ▸ h.logged, h.genuine⟩

theorem Good.recvFrame (h : L.Good cfg fault) (i : Fin n) :
    ({ L with wire := (L.wire.recvFrame i).2 } : Lan n).Good cfg fault := by
  refine h.onWire (h.wire.step virtualWire (.recv i) trivial) (VirtualWire.fault_step _ (.recv i))
    (fun j => (h.online j).recvFrame) ?_
  rw [VirtualWire.recvFrame, (VirtualWire.quiet_take _ _).log]
  split_ifs
  · exact (VirtualWire.pump_spec _).2.1
  · rfl

/-- A step of the network is an event at one stack, on a wire that may have moved on, or only moves the wire. -/
theorem Good.step_cases (h : L.Good cfg fault) (e : LanEvent n) :
    (L.step e).Good cfg fault ∧ (L.step e).host = L.host ∧ (L.step e).said = L.said ∨
      ∃ (M : Lan n) (i : Fin n) (e' : StackEvent) (draws : Nat → Draws), M.Good cfg fault ∧ M.host = L.host ∧
        M.said = L.said ∧ L.step e = M.act i e' draws ∧
        (∀ raw draw now, e' = .frame raw draw now → raw ∈ M.wire.held i) ∧
        ((∃ call : StackCall, e = .call i call draws ∧ e' = call.1) ∨ ∃ raw draw now, e' = .frame raw draw now) := by
  cases e with
  | call i call draws =>
    refine .inr ⟨L, i, call.1, draws, h, rfl, rfl, rfl, ?_, .inl ⟨call, rfl, rfl⟩⟩
    intro raw draw now hframe
    have hno := call.2
    rw [hframe] at hno
    cases hno
  | poll i draw now draws =>
    have hrecv := h.recvFrame i
    have hheld : ∀ raw, (L.wire.recvFrame i).1 = some raw → raw ∈ (L.wire.recvFrame i).2.held i :=
      fun raw => VirtualWire.mem_held_recvFrame
    unfold step
    dsimp only
    generalize L.wire.recvFrame i = r at hrecv hheld
    obtain ⟨frame, w⟩ := r
    cases frame with
    | none => exact .inl ⟨hrecv, rfl, rfl⟩
    | some raw =>
      refine .inr ⟨{ L with wire := w }, i, .frame raw draw now, draws, hrecv, rfl, rfl, rfl, ?_,
        .inr ⟨raw, draw, now, rfl⟩⟩
      rintro _ _ _ ⟨⟩
      exact hheld raw rfl
  | pump =>
    refine .inl ⟨h.onWire (h.wire.step virtualWire .pump trivial) (VirtualWire.fault_step _ .pump)
      (fun j => (h.online j).carries (VirtualWire.pump_spec _).1) (VirtualWire.pump_spec _).2.1, rfl, rfl⟩
  | advance time =>
    exact .inl ⟨h.onWire (h.wire.step virtualWire (.advance time) trivial) rfl h.online rfl, rfl, rfl⟩

theorem Good.step (h : L.Good cfg fault) (e : LanEvent n) : (L.step e).Good cfg fault := by
  rcases h.step_cases e with ⟨hgood, -⟩ | ⟨M, i, e', draws, hgood, -, -, heq, -⟩
  · exact hgood
  · rw [heq]
    exact hgood.act i e' draws

theorem good_of_started (h : Started cfg fault L) : L.Good cfg fault := by
  obtain ⟨names, rfl⟩ := h
  refine ⟨?_, VirtualWire.fault_run _ _, fun i => ?_, fun i => .init stack ⟨cfg i, rfl⟩, fun i => ⟨rfl, rfl⟩,
    fun t ht => ?_, fun i => Stack.genuine_new (cfg i)⟩
  · exact (Machine.ReachableBy.init virtualWire ⟨fault, names, rfl⟩).run virtualWire (virtualWire.meets_true _ _)
  · exact VirtualWire.online_attach _ (fun _ => rfl) (List.mem_range.mpr i.isLt)
  · rcases VirtualWire.mem_log_run ht with hold | ⟨draws, hmem⟩
    · exact absurd hold List.not_mem_nil
    · obtain ⟨id, -, heq⟩ := List.mem_map.mp hmem
      cases heq

theorem good {ok : Lan n → LanEvent n → Prop} (h : (lan cfg fault).ReachableBy ok L) : L.Good cfg fault :=
  Machine.ReachableBy.induction (lan cfg fault) (P := Good cfg fault) (fun _ => good_of_started)
    (fun _ e _ hL _ => hL.step e) h

/-- What a link has, or what is under way to it, is what another stack has sent, but for what the wire corrupts. -/
theorem Good.heard (h : L.Good cfg fault) {i : Fin n} {raw : Bytes}
    (hraw : raw ∈ L.wire.held i ++ L.wire.inFlight i) :
    ∃ j ≠ i, ∃ frame ∈ (L.host j).link, ∃ draws, raw = fault.carried draws frame := by
  obtain ⟨t, ht, hother, heq⟩ := VirtualWire.sent_of_held h.wire hraw
  obtain ⟨j, hsender, hframe⟩ := h.logged t ht
  refine ⟨j, ?_, t.frame, hframe, t.draws, h.fault ▸ heq⟩
  rintro rfl
  exact hother hsender

end Lan

end MiniTcp
