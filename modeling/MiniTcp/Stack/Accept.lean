import MiniTcp.Stack.Survival

/-!
# Accepted connections

A listener hands its child over as soon as the child has sent its SYN+ACK, and nothing reads the backlog. So what
`tcp_accept` returns has completed the handshake, and the queue of a port stays within its backlog (`Admitted`),
exactly in the runs in which `tcp_accept` happens to be late enough and the SYNs happen to be few enough
(`Prompt`).
-/

namespace MiniTcp

namespace Tables

variable {t u v : Tables} {ip : Bytes} {id : ConnId} {port : Nat}

/-- `on_established` of the object has been called: its SYN+ACK was acknowledged. -/
def Completed (t : Tables) (id : ConnId) : Prop :=
  ∃ slot, t.slots[id]? = some slot ∧ .established ∈ slot.ep.conn.notices

/-- The backlog that `tcp_listen` was given for a port. -/
def backlog (t : Tables) (port : Nat) : Option Nat := do
  let id ← t.listeners.get? port
  let slot ← t.slots[id]?
  match slot.role with
  | .listener _ backlog => some backlog
  | _ => none

/-- What `tcp_accept` has returned is connected, and no queue is longer than its backlog. -/
structure Admitted (t : Tables) : Prop where
  completed : ∀ id ∈ t.returned, t.Completed id
  bounded : ∀ port queue backlog, t.acceptQueues.get? port = some queue → t.backlog port = some backlog →
    queue.length ≤ backlog

/-- The connection at the head of the queue of a port is complete. -/
def HeadCompleted (t : Tables) (port : Nat) : Prop :=
  ∀ id queue, t.acceptQueues.get? port = some (id :: queue) → t.Completed id

/-- If the segment makes the object create a child, the queue that it joins is shorter than its backlog. -/
def HasRoom (t : Tables) (id : ConnId) (seg : TCPSegment) : Prop :=
  ∀ slot port queue backlog, t.slots[id]? = some slot → slot.ep.conn.state = .listen → seg.isSyn = true →
    seg.isRst = false → slot.role.onAccept = some port → t.acceptQueues.get? port = some queue →
    t.backlog port = some backlog → queue.length < backlog

/-- `tcp_accept` looks only when the head of its queue is complete, and a listener gets a SYN only while its
queue has room. -/
def Prompt (t : Tables) : TableEvent → Prop
  | .tcpAccept port _ => t.HeadCompleted port
  | .segment id seg _ _ _ => t.HasRoom id seg
  | _ => True

instance (t : Tables) (id : ConnId) : Decidable (t.Completed id) :=
  inferInstanceAs (Decidable (∃ slot ∈ t.slots[id]?, _))

instance (t : Tables) (port : Nat) : Decidable (t.HeadCompleted port) :=
  decidable_of_iff (∀ queue ∈ t.acceptQueues.get? port, ∀ id ∈ queue.head?, t.Completed id) <| by
    constructor
    · intro h id queue hqueue
      exact h _ hqueue id rfl
    · rintro h queue hqueue id hid
      obtain ⟨rest, rfl⟩ := List.head?_eq_some_iff.mp hid
      exact h id rest hqueue

instance (t : Tables) (id : ConnId) (seg : TCPSegment) : Decidable (t.HasRoom id seg) :=
  decidable_of_iff (∀ slot ∈ t.slots[id]?, slot.ep.conn.state = .listen → seg.isSyn = true → seg.isRst = false →
      ∀ port ∈ slot.role.onAccept, ∀ queue ∈ t.acceptQueues.get? port, ∀ backlog ∈ t.backlog port,
        queue.length < backlog) <| by
    constructor
    · intro h slot port queue backlog hslot hlisten hsyn hrst hport hqueue hbacklog
      exact h slot hslot hlisten hsyn hrst port hport queue hqueue backlog hbacklog
    · intro h slot hslot hlisten hsyn hrst port hport queue hqueue backlog hbacklog
      exact h slot port queue backlog hslot hlisten hsyn hrst hport hqueue hbacklog

instance (t : Tables) : (e : TableEvent) → Decidable (t.Prompt e)
  | .tcpAccept port _ => inferInstanceAs (Decidable (t.HeadCompleted port))
  | .segment id seg _ _ _ => inferInstanceAs (Decidable (t.HasRoom id seg))
  | .tick .. | .tcpListen .. | .tcpConnect .. | .connectWait .. | .send .. | .recv .. | .abort .. | .tcpClose ..
  | .closeSocket .. | .quiet | .allocate .. => .isTrue trivial

/-- Listeners are objects. -/
def Listed (t : Tables) : Prop :=
  ∀ entry ∈ t.listeners.items, ∃ slot : Slot, t.slots[entry.2]? = some slot ∧ slot.role.isListener = true

theorem Listed.lt (hl : t.Listed) {entry : Nat × ConnId} (hentry : entry ∈ t.listeners.items) :
    entry.2 < t.slots.length := by
  obtain ⟨slot, hslot, -⟩ := hl entry hentry
  exact (List.getElem?_eq_some_iff.mp hslot).1

/-! ### What does not concern the queues -/

/-- Queues and listeners are the same, and objects keep their roles and what they have been told. -/
structure Steady (t u : Tables) : Prop where
  listeners : u.listeners = t.listeners
  acceptQueues : u.acceptQueues = t.acceptQueues
  returned : u.returned = t.returned
  slots : ∀ (i : ConnId) (slot : Slot), t.slots[i]? = some slot → ∃ slot' : Slot, u.slots[i]? = some slot' ∧
    slot'.role = slot.role ∧ slot.ep.conn.notices <+: slot'.ep.conn.notices

namespace Steady

theorem refl (t : Tables) : Steady t t := ⟨rfl, rfl, rfl, fun _ slot h => ⟨slot, h, rfl, List.prefix_refl _⟩⟩

theorem trans (h : Steady t u) (h' : Steady u v) : Steady t v where
  listeners := h'.listeners.trans h.listeners
  acceptQueues := h'.acceptQueues.trans h.acceptQueues
  returned := h'.returned.trans h.returned
  slots := by
    intro id slot hslot
    obtain ⟨slot', hslot', hrole, hnotices⟩ := h.slots id slot hslot
    obtain ⟨slot'', hslot'', hrole', hnotices'⟩ := h'.slots id slot' hslot'
    exact ⟨slot'', hslot'', hrole'.trans hrole, hnotices.trans hnotices'⟩

theorem of_eq (hlisteners : u.listeners = t.listeners) (hqueues : u.acceptQueues = t.acceptQueues)
    (hreturned : u.returned = t.returned) (hslots : u.slots = t.slots) : Steady t u := by
  refine ⟨hlisteners, hqueues, hreturned, fun id slot hslot => ⟨slot, ?_, rfl, List.prefix_refl _⟩⟩
  rw [hslots]
  exact hslot

theorem modifySlot (t : Tables) (id : ConnId) {f : Slot → Slot}
    (hf : ∀ slot, (f slot).ep = slot.ep ∧ (f slot).role = slot.role) : Steady t (t.modifySlot id f) := by
  refine ⟨rfl, rfl, rfl, fun i slot hslot => ?_⟩
  rw [Tables.modifySlot, List.getElem?_modify, hslot]
  by_cases hid : id = i
  · refine ⟨f slot, by simp [hid], (hf slot).2, ?_⟩
    rw [(hf slot).1]
  · exact ⟨slot, by simp [hid], rfl, List.prefix_refl _⟩

theorem add (t : Tables) (slot : Slot) : Steady t (t.add slot) := by
  refine ⟨rfl, rfl, rfl, fun i old hold => ⟨old, ?_, rfl, List.prefix_refl _⟩⟩
  obtain ⟨hlt, -⟩ := List.getElem?_eq_some_iff.mp hold
  exact (List.getElem?_append_left hlt).trans hold

theorem called (t : Tables) (id : ConnId) (e : Event) : Steady t (t.called id e) := by
  cases hslot : t.slots[id]? with
  | none =>
    rw [called_none hslot]
    exact refl t
  | some slot =>
    have hlocal := local_called hslot e
    refine ⟨hlocal.listeners, hlocal.acceptQueues, hlocal.returned, fun i old hold => ?_⟩
    by_cases hid : i = id
    · subst hid
      obtain ⟨slot', hslot', hep, hrole, -, -⟩ := slot_called hslot e
      obtain ⟨ns, hns, -⟩ := (TCPConnection.outputs_step slot.ep e).told
      obtain rfl := Option.some.inj (hslot.symm.trans hold)
      refine ⟨slot', hslot', hrole, ?_⟩
      rw [hep, hns]
      exact List.prefix_append _ _
    · rw [hlocal.other i hid]
      exact ⟨old, hold, rfl, List.prefix_refl _⟩

theorem tick (t : Tables) (now : Time) : Steady t (t.tick now) := by
  unfold Tables.tick
  generalize t.connections.values = ids
  induction ids generalizing t with
  | nil => exact refl t
  | cons id ids ih => exact (called t id _).trans (ih _)

theorem localPort (t : Tables) (port : Nat) : Steady t (t.localPort port).2 := by
  obtain ⟨n, hn⟩ := localPort_eq t port
  rw [hn]
  exact of_eq rfl rfl rfl rfl

theorem tcpConnect (t : Tables) (ip remoteIp : Bytes) (remotePort port : Nat) (draw : SeqNo) (now : Time) :
    Steady t (t.tcpConnect ip remoteIp remotePort port draw now) := by
  have hlocal := localPort t port
  unfold Tables.tcpConnect
  generalize t.localPort port = r at hlocal
  obtain ⟨found, t'⟩ := r
  cases found with
  | error e => exact hlocal
  | ok found =>
    apply hlocal.trans
    refine Steady.trans ?_ (called _ t'.slots.length _)
    refine (add t' (t'.activeSlot ip found remoteIp remotePort)).trans ?_
    exact of_eq rfl rfl rfl rfl

theorem refused (t : Tables) (id : ConnId) : Steady t (t.refused id) := by
  have hforget : Steady t (t.forget id) := of_eq rfl rfl rfl rfl
  exact hforget.trans (modifySlot _ id fun _ => ⟨rfl, rfl⟩)

theorem connectWait (t : Tables) (id : ConnId) (expired : Bool) (now : Time) :
    Steady t (t.connectWait id expired now) := by
  unfold Tables.connectWait
  split
  · exact refl t
  · split_ifs
    · exact refl t
    · exact refused t id
    · exact modifySlot t id fun _ => ⟨rfl, rfl⟩
    · exact (called t id _).trans (refused _ id)
    · exact refl t

theorem markShut (t : Tables) (id : ConnId) : Steady t (t.markShut id) := modifySlot t id fun _ => ⟨rfl, rfl⟩

theorem tcpClose (t : Tables) (id : ConnId) (now : Time) : Steady t (t.tcpClose id now) :=
  (markShut t id).trans (called _ id _)

theorem closeSocket (t : Tables) (id : ConnId) (now : Time) : Steady t (t.closeSocket id now) := by
  unfold Tables.closeSocket
  split_ifs
  · exact markShut t id
  · exact tcpClose t id now

theorem completed (h : Steady t u) (hc : t.Completed id) : u.Completed id := by
  obtain ⟨slot, hslot, hmem⟩ := hc
  obtain ⟨slot', hslot', -, hnotices⟩ := h.slots id slot hslot
  exact ⟨slot', hslot', hnotices.subset hmem⟩

theorem listed (h : Steady t u) (hl : t.Listed) : u.Listed := by
  intro entry hentry
  rw [h.listeners] at hentry
  obtain ⟨slot, hslot, hlistener⟩ := hl entry hentry
  obtain ⟨slot', hslot', hrole, -⟩ := h.slots entry.2 slot hslot
  exact ⟨slot', hslot', hrole ▸ hlistener⟩

theorem backlog (h : Steady t u) (hl : t.Listed) (port : Nat) : u.backlog port = t.backlog port := by
  unfold Tables.backlog
  rw [h.listeners]
  cases hid : t.listeners.get? port with
  | none => rfl
  | some id =>
    have hlt := hl.lt (Dict.get?_eq_some_iff.mp hid)
    obtain ⟨slot', hslot', hrole, -⟩ := h.slots id _ (List.getElem?_eq_getElem hlt)
    change (u.slots[id]?.bind _) = (t.slots[id]?.bind _)
    rw [hslot', List.getElem?_eq_getElem hlt, Option.bind_some, Option.bind_some, hrole]

theorem admitted (h : Steady t u) (hl : t.Listed) (ha : t.Admitted) : u.Admitted := by
  refine ⟨fun id hid => ?_, fun port queue backlog hqueue hbacklog => ?_⟩
  · rw [h.returned] at hid
    exact h.completed (ha.completed id hid)
  · rw [h.acceptQueues] at hqueue
    rw [h.backlog hl] at hbacklog
    exact ha.bounded port queue backlog hqueue hbacklog

end Steady

/-! ### What does -/

theorem completed_congr (hslots : u.slots = t.slots) (id : ConnId) : u.Completed id ↔ t.Completed id := by
  rw [Completed, Completed, hslots]

theorem backlog_congr (hslots : u.slots = t.slots) (hlisteners : u.listeners = t.listeners) (port : Nat) :
    u.backlog port = t.backlog port := by
  rw [Tables.backlog, Tables.backlog, hslots, hlisteners]

theorem admitted_queue_iff (ha : t.Admitted) (hslots : u.slots = t.slots) (hlisteners : u.listeners = t.listeners)
    {new queue : List ConnId} (hreturned : u.returned = t.returned ++ new)
    (hqueues : u.acceptQueues = t.acceptQueues.set port queue) : u.Admitted ↔
      (∀ id ∈ new, t.Completed id) ∧ ∀ backlog, t.backlog port = some backlog → queue.length ≤ backlog := by
  constructor
  · intro hu
    refine ⟨fun id hid => ?_, fun backlog hbacklog => ?_⟩
    · apply (completed_congr hslots id).mp
      apply hu.completed
      rw [hreturned]
      exact List.mem_append_right _ hid
    · apply hu.bounded port queue backlog
      · rw [hqueues, Dict.get?_set_self]
      · rw [backlog_congr hslots hlisteners, hbacklog]
  · rintro ⟨hnew, hroom⟩
    refine ⟨fun id hid => ?_, fun other queue' backlog hqueue hbacklog => ?_⟩
    · rw [hreturned] at hid
      apply (completed_congr hslots id).mpr
      exact (List.mem_append.mp hid).elim (ha.completed id) (hnew id)
    · rw [hqueues] at hqueue
      rw [backlog_congr hslots hlisteners] at hbacklog
      by_cases hport : other = port
      · subst hport
        rw [Dict.get?_set_self] at hqueue
        obtain rfl := Option.some.inj hqueue
        exact hroom backlog hbacklog
      · rw [Dict.get?_set_of_ne hport] at hqueue
        exact ha.bounded other queue' backlog hqueue hbacklog

theorem Listed.tcpListen (hl : t.Listed) (ip : Bytes) (port backlog : Nat) :
    (t.tcpListen ip port backlog).2.Listed := by
  unfold Tables.tcpListen
  split_ifs
  · exact hl
  intro entry hentry
  rcases Dict.mem_set.mp hentry with rfl | ⟨-, hold⟩
  · exact ⟨t.listenerSlot ip port backlog, List.getElem?_concat_length, rfl⟩
  · exact (Steady.add t (t.listenerSlot ip port backlog)).listed hl entry hold

theorem Admitted.tcpListen (ha : t.Admitted) (hl : t.Listed) (ip : Bytes) (port backlog : Nat) :
    (t.tcpListen ip port backlog).2.Admitted := by
  unfold Tables.tcpListen
  split_ifs with hport
  · exact ha
  generalize t.listenerSlot ip port backlog = slot
  have hadmitted := (Steady.add t slot).admitted hl ha
  refine ⟨hadmitted.completed, fun other queue limit hqueue hlimit => ?_⟩
  by_cases hother : other = port
  · subst hother
    obtain rfl := Option.some.inj (Dict.get?_set_self.symm.trans hqueue)
    exact Nat.zero_le _
  · have hget : (t.listeners.set port t.slots.length).get? other = t.listeners.get? other :=
      Dict.get?_set_of_ne hother
    refine hadmitted.bounded other queue limit ((Dict.get?_set_of_ne hother).symm.trans hqueue) ?_
    unfold Tables.backlog at hlimit ⊢
    dsimp only at hlimit
    rw [hget] at hlimit
    exact hlimit

/-- A look at a queue keeps everything admitted exactly when the head of the queue is complete. -/
theorem admitted_tcpAccept_iff (ha : t.Admitted) (port : Nat) (expired : Bool) :
    (t.tcpAccept port expired).2.Admitted ↔ t.HeadCompleted port := by
  unfold Tables.tcpAccept HeadCompleted
  cases hget : t.acceptQueues.get? port with
  | none => exact iff_of_true ha nofun
  | some queue =>
    cases queue with
    | nil => exact iff_of_true ha nofun
    | cons id queue =>
      have hroom : ∀ backlog, t.backlog port = some backlog → queue.length ≤ backlog := by
        intro backlog hbacklog
        have hle := ha.bounded port _ backlog hget hbacklog
        rw [List.length_cons] at hle
        omega
      refine (admitted_queue_iff
        (u := { t with acceptQueues := t.acceptQueues.set port queue, returned := t.returned ++ [id] })
        ha rfl rfl rfl rfl).trans ?_
      rw [and_iff_left hroom]
      constructor
      · rintro hcompleted _ _ ⟨⟩
        exact hcompleted id List.mem_cons_self
      · intro hprompt other hother
        rw [List.mem_singleton.mp hother]
        exact hprompt id queue rfl

theorem admitted_enqueueAccept_iff (ha : t.Admitted) (hl : t.Listed) (ip : Bytes) (port : Nat) (id : ConnId)
    (child : TCPConnection) : (t.enqueueAccept ip port id child).Admitted ↔
      ∀ queue backlog, t.acceptQueues.get? port = some queue → t.backlog port = some backlog →
        queue.length < backlog := by
  unfold enqueueAccept
  dsimp only
  cases t.acceptQueues.get? port with
  | none =>
    have hsteady : Steady t { t with
        connections := t.connections.set (ip, child.cfg.localPort, child.cfg.remoteIp, child.cfg.remotePort) id
        readEvents := t.readEvents.set id false } := .of_eq rfl rfl rfl rfl
    exact iff_of_true (hsteady.admitted hl ha) fun _ _ h => nomatch h
  | some queue =>
    refine (admitted_queue_iff (u := { t with
        connections := t.connections.set (ip, child.cfg.localPort, child.cfg.remoteIp, child.cfg.remotePort) id
        readEvents := t.readEvents.set id false
        acceptQueues := t.acceptQueues.set port (queue ++ [id]) })
      ha rfl rfl (List.append_nil _).symm rfl).trans ?_
    rw [and_iff_right fun _ h => absurd h List.not_mem_nil, List.length_append, List.length_singleton]
    constructor
    · rintro hroom _ backlog ⟨⟩ hbacklog
      exact hroom backlog hbacklog
    · intro hroom backlog hbacklog
      exact hroom queue backlog rfl hbacklog

theorem admitted_segment_iff (ha : t.Admitted) (hl : t.Listed) (ip : Bytes) (id : ConnId) (seg : TCPSegment)
    (src : Bytes) (draw : SeqNo) (now : Time) :
    (t.segment ip id seg src draw now).Admitted ↔ t.HasRoom id seg := by
  unfold Tables.segment HasRoom
  cases hslot : t.slots[id]? with
  | none => exact iff_of_true ha fun _ _ _ _ h => nomatch h
  | some slot =>
    have hcalled := Steady.called t id (.segment seg (some src) draw now)
    have hchild := slot.ep.conn.onSegment_snd seg (some src) draw now
    dsimp only
    by_cases htakes : slot.ep.conn.state = .listen ∧ slot.ep.conn.takesSyn seg = true
    · rw [if_pos htakes] at hchild
      rw [hchild]
      generalize (TCPConnection.new _).beginPassiveOpen seg draw now = child
      have hadd := hcalled.trans (.add _ (childSlot slot.role.onAccept child))
      obtain ⟨hlisten, htakes⟩ := htakes
      obtain ⟨hsyn, hrst⟩ : seg.isSyn = true ∧ seg.isRst = false := by
        simpa [TCPConnection.takesSyn, hlisten] using htakes
      cases honAccept : slot.role.onAccept with
      | none =>
        rw [honAccept] at hadd
        refine iff_of_true (hadd.admitted hl ha) ?_
        intro other port queue backlog hother _ _ _ hport
        obtain rfl := Option.some.inj hother
        rw [honAccept] at hport
        cases hport
      | some port =>
        rw [honAccept] at hadd
        refine (admitted_enqueueAccept_iff (hadd.admitted hl ha) (hadd.listed hl) ip port _ child).trans ?_
        rw [hadd.acceptQueues, hadd.backlog hl]
        constructor
        · intro hroom other port' queue backlog hother _ _ _ hport
          obtain rfl := Option.some.inj hother
          obtain rfl := Option.some.inj (honAccept.symm.trans hport)
          exact hroom queue backlog
        · intro hroom queue backlog
          exact hroom slot port queue backlog rfl hlisten hsyn hrst honAccept
    · rw [if_neg htakes] at hchild
      rw [hchild]
      refine iff_of_true (hcalled.admitted hl ha) ?_
      intro other port queue backlog hother hlisten hsyn hrst
      obtain rfl := Option.some.inj hother
      refine absurd ⟨hlisten, ?_⟩ htakes
      simp [TCPConnection.takesSyn, hlisten, hsyn, hrst]

theorem Listed.segment (hl : t.Listed) (ip : Bytes) (id : ConnId) (seg : TCPSegment) (src : Bytes) (draw : SeqNo)
    (now : Time) : (t.segment ip id seg src draw now).Listed := by
  have hcalled := Steady.called t id (.segment seg (some src) draw now)
  unfold Tables.segment
  split
  · exact hl
  · rename_i slot _
    dsimp only
    split
    · exact hcalled.listed hl
    · rename_i child _
      generalize slot.role.onAccept = onAccept
      have hadd := (hcalled.trans (.add _ (childSlot onAccept child))).listed hl
      cases onAccept with
      | none => exact hadd
      | some port =>
        rw [adopted, enqueueAccept]
        split <;> exact hadd

theorem Steady.step_cases (t : Tables) (ip : Bytes) (e : TableEvent) : Steady t (t.step ip e) ∨
    (∃ id seg src draw now, e = .segment id seg src draw now) ∨ (∃ port backlog, e = .tcpListen port backlog) ∨
    ∃ port expired, e = .tcpAccept port expired := by
  cases e with
  | quiet => exact .inl (.refl t)
  | allocate port => exact .inl (.localPort t port)
  | segment id seg src draw now => exact .inr (.inl ⟨id, seg, src, draw, now, rfl⟩)
  | tick now => exact .inl (.tick t now)
  | tcpListen port backlog => exact .inr (.inr (.inl ⟨port, backlog, rfl⟩))
  | tcpAccept port expired => exact .inr (.inr (.inr ⟨port, expired, rfl⟩))
  | tcpConnect remoteIp remotePort port draw now => exact .inl (.tcpConnect t ip remoteIp remotePort port draw now)
  | connectWait id expired now => exact .inl (.connectWait t id expired now)
  | send id data now => exact .inl (.called t id _)
  | recv id maxBytes now => exact .inl (.called t id _)
  | abort id now => exact .inl (.called t id _)
  | tcpClose id now => exact .inl (.tcpClose t id now)
  | closeSocket id now => exact .inl (.closeSocket t id now)

theorem Listed.step (hl : t.Listed) (ip : Bytes) (e : TableEvent) : (t.step ip e).Listed := by
  rcases Steady.step_cases t ip e with
    hsteady | ⟨id, seg, src, draw, now, rfl⟩ | ⟨port, backlog, rfl⟩ | ⟨port, expired, rfl⟩
  · exact hsteady.listed hl
  · exact hl.segment ip id seg src draw now
  · exact hl.tcpListen ip port backlog
  · change (t.tcpAccept port expired).2.Listed
    unfold Tables.tcpAccept
    split <;> exact hl

/-- An event keeps everything admitted exactly when it is prompt. -/
theorem admitted_step_iff (ha : t.Admitted) (hl : t.Listed) (ip : Bytes) (e : TableEvent) :
    (t.step ip e).Admitted ↔ t.Prompt e := by
  cases e with
  | segment id seg src draw now => exact admitted_segment_iff ha hl ip id seg src draw now
  | tcpAccept port expired => exact admitted_tcpAccept_iff ha port expired
  | tcpListen port backlog => exact iff_of_true (ha.tcpListen hl ip port backlog) trivial
  | _ =>
    rcases Steady.step_cases t ip _ with hsteady | ⟨_, _, _, _, _, h⟩ | ⟨_, _, h⟩ | ⟨_, _, h⟩
    · exact iff_of_true (hsteady.admitted hl ha) trivial
    all_goals cases h

end Tables

namespace Stack

/-- All along a run of a stack, what `tcp_accept` has returned is connected and the queues are within their
backlogs, exactly when every `tcp_accept` and every SYN of the run is prompt. -/
theorem always_admitted_iff (cfg : StackConfig) (es : List StackEvent) :
    stack.Always (fun s => s.toTables.Admitted) (.new cfg) es ↔
      stack.Meets (fun s e => s.toTables.Prompt (s.view e)) (.new cfg) es := by
  apply stack.always_iff_meets (E := fun _ _ => True) (Q := fun s => s.Sound ∧ s.toTables.Listed)
  · rintro s e ⟨hs, hl⟩ ha - -
    rw [stack_next, hs.tables_step]
    exact ⟨hs.step e, hl.step s.ip (s.view e)⟩
  · rintro s e ⟨hs, hl⟩ ha -
    rw [stack_next, hs.tables_step]
    exact Tables.admitted_step_iff ha hl s.ip (s.view e)
  · exact stack.meets_true _ es
  · exact ⟨sound_new cfg, fun _ h => absurd h List.not_mem_nil⟩
  · exact ⟨fun _ h => absurd h List.not_mem_nil, fun _ _ _ h => by cases h⟩

/-- The frame that brings `segment` from 10.0.0.2. -/
def carrySegment (segment : TCPSegment) : Bytes :=
  match segment.toBytes (some [10, 0, 0, 2]) (some host.ip) with
  | .ok data => carry { src := [10, 0, 0, 2], dst := host.ip, protocol := PROTO_TCP, payload := data }
  | .error _ => []

/-- A SYN for port 80. -/
def synFrom (port : Nat) : TCPSegment :=
  { srcPort := port, dstPort := 80, seq := 1000, ack := 0, flags := FLAG_SYN, window := 1000 }

/-- A SYN and the ACK that ends the handshake, and then the application accepts. -/
def polite : List StackEvent :=
  [.tcpListen 80 1, .frame (carrySegment (synFrom 5000)) 0 0,
    .frame (carrySegment { synFrom 5000 with seq := 1001, ack := 1, flags := FLAG_ACK }) 0 0, .tcpAccept 80 false]

theorem always_admitted_polite :
    (stack.run (.new host) polite).returned = [1] ∧ stack.Always (fun s => s.toTables.Admitted) (.new host) polite :=
  ⟨by decide +kernel, (always_admitted_iff host polite).mpr (by decide +kernel)⟩

/-- One SYN, and the application accepts. -/
def hasty : List StackEvent := [.tcpListen 80 16, .frame (carrySegment (synFrom 5000)) 0 0, .tcpAccept 80 false]

/-- Two SYNs for a backlog of one. -/
def flood : List StackEvent :=
  [.tcpListen 80 1, .frame (carrySegment (synFrom 5000)) 0 0, .frame (carrySegment (synFrom 5001)) 0 0]

/-- `tcp_accept` returns a connection that is half open, and a queue grows beyond its backlog. -/
theorem hasty_and_flood :
    ((stack.run (.new host) hasty).returned = [1] ∧
      ((stack.run (.new host) hasty).slots[1]?.map fun slot => (slot.ep.conn.state, slot.ep.conn.notices)) =
        some (.synReceived, [])) ∧
    ((stack.run (.new host) flood).acceptQueues.get? 80 = some [1, 2] ∧
      (stack.run (.new host) flood).backlog 80 = some 1) ∧
    ¬ stack.Always (fun s => s.toTables.Admitted) (.new host) hasty ∧
    ¬ stack.Always (fun s => s.toTables.Admitted) (.new host) flood := by
  have hreturned : (stack.run (.new host) hasty).returned = [1] := by decide +kernel
  have hopen : ((stack.run (.new host) hasty).slots[1]?.map fun slot =>
      (slot.ep.conn.state, slot.ep.conn.notices)) = some (.synReceived, []) := by decide +kernel
  have hqueue : (stack.run (.new host) flood).acceptQueues.get? 80 = some [1, 2] := by decide +kernel
  have hbacklog : (stack.run (.new host) flood).backlog 80 = some 1 := by decide +kernel
  refine ⟨⟨hreturned, hopen⟩, ⟨hqueue, hbacklog⟩, fun h => ?_, fun h => ?_⟩
  · have hadmitted : (stack.run (.new host) hasty).Admitted := h.2.2.2
    obtain ⟨slot, hslot, hmem⟩ := hadmitted.completed 1 (by rw [hreturned]; exact List.mem_singleton_self 1)
    rw [hslot, Option.map_some, Option.some.injEq, Prod.mk.injEq] at hopen
    rw [hopen.2] at hmem
    cases hmem
  · have hadmitted : (stack.run (.new host) flood).Admitted := h.2.2.2
    exact absurd (hadmitted.bounded 80 _ 1 hqueue hbacklog) (by decide)

end Stack

end MiniTcp
