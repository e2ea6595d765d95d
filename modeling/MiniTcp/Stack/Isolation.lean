import MiniTcp.Stack.Leaks

/-!
# The connections of a stack

An object in the tables goes through a run of the machine of one connection, in which every call comes from an
event that is about this object (`Moves`, `follows_step`): so what every run of `endpoint` keeps holds of every
connection of every stack (`reachable_slot`). A segment reaches an object only in a datagram with the object's own
addresses and ports, or, when no connection has them, with the port of a listener (`isolated`).
-/

namespace MiniTcp

/-- The calls that an event of the tables can make into the object `i`. -/
def TableEvent.Calls (i : ConnId) (call : Event) : TableEvent → Prop
  | .segment id seg src draw now => i = id ∧ call = .segment seg (some src) draw now
  | .tick now => call = .tick now
  | .connectWait id expired now => (i = id ∧ expired = true) ∧ call = .abort now
  | .send id data now => i = id ∧ call = .send data now
  | .recv id maxBytes now => i = id ∧ call = .recv maxBytes now
  | .abort id now => i = id ∧ call = .abort now
  | .tcpClose id now => i = id ∧ call = .close now
  | .closeSocket id now => i = id ∧ call = .close now
  | _ => False

namespace Tables

variable {t u v : Tables} {ip : Bytes} {A : ConnId → Event → Prop}

/-- Every object of `t` is still there in `u`, after calls that `A` allows for it. -/
def Moves (A : ConnId → Event → Prop) (t u : Tables) : Prop :=
  ∀ i slot, t.slots[i]? = some slot → ∃ slot' es, u.slots[i]? = some slot' ∧ slot'.role = slot.role ∧
    slot'.ep = endpoint.run slot.ep es ∧ ∀ call ∈ es, A i call

namespace Moves

theorem of_eq (h : u.slots = t.slots) : Moves A t u :=
  fun i slot hslot => ⟨slot, [], h ▸ hslot, rfl, rfl, by simp⟩

theorem refl (t : Tables) : Moves A t t := of_eq rfl

theorem trans (h : Moves A t u) (h' : Moves A u v) : Moves A t v := by
  intro i slot hslot
  obtain ⟨slot', es, hslot', hrole, hep, hes⟩ := h i slot hslot
  obtain ⟨slot'', es', hslot'', hrole', hep', hes'⟩ := h' i slot' hslot'
  refine ⟨slot'', es ++ es', hslot'', hrole'.trans hrole, ?_, fun call hcall => ?_⟩
  · rw [hep', hep, Machine.run_append]
  · exact (List.mem_append.mp hcall).elim (hes call) (hes' call)

theorem modifySlot (t : Tables) (id : ConnId) {f : Slot → Slot}
    (hf : ∀ slot, (f slot).ep = slot.ep ∧ (f slot).role = slot.role) : Moves A t (t.modifySlot id f) := by
  intro i slot hslot
  rw [Tables.modifySlot, List.getElem?_modify, hslot]
  by_cases hid : id = i
  · exact ⟨f slot, [], by simp [hid], (hf slot).2, (hf slot).1, by simp⟩
  · exact ⟨slot, [], by simp [hid], rfl, rfl, by simp⟩

theorem add (t : Tables) (slot : Slot) : Moves A t (t.add slot) := by
  intro i old hold
  obtain ⟨hlt, -⟩ := List.getElem?_eq_some_iff.mp hold
  exact ⟨old, [], (List.getElem?_append_left hlt).trans hold, rfl, rfl, by simp⟩

theorem called (t : Tables) {id : ConnId} {e : Event} (h : A id e) : Moves A t (t.called id e) := by
  cases hslot : t.slots[id]? with
  | none =>
    rw [called_none hslot]
    exact refl t
  | some slot =>
    intro i old hold
    by_cases hid : i = id
    · subst hid
      obtain ⟨slot', hslot', hep, hrole, -⟩ := slot_called hslot e
      obtain rfl := Option.some.inj (hslot.symm.trans hold)
      refine ⟨slot', [e], hslot', hrole, hep, fun call hcall => ?_⟩
      rw [List.mem_singleton.mp hcall]
      exact h
    · rw [(local_called hslot e).other i hid]
      exact ⟨old, [], hold, rfl, rfl, by simp⟩

theorem foldl_called (ids : List ConnId) {e : Event} (h : ∀ id, A id e) (t : Tables) :
    Moves A t (ids.foldl (fun t id => t.called id e) t) := by
  induction ids generalizing t with
  | nil => exact refl t
  | cons id ids ih => exact (called t (h id)).trans (ih _)

theorem forget (t : Tables) (id : ConnId) : Moves A t (t.forget id) := of_eq rfl

theorem refused (t : Tables) (id : ConnId) : Moves A t (t.refused id) :=
  (forget t id).trans (modifySlot _ id fun _ => ⟨rfl, rfl⟩)

theorem markShut (t : Tables) (id : ConnId) : Moves A t (t.markShut id) := modifySlot t id fun _ => ⟨rfl, rfl⟩

theorem localPort (t : Tables) (port : Nat) : Moves A t (t.localPort port).2 := by
  obtain ⟨n, hn⟩ := localPort_eq t port
  rw [hn]
  exact of_eq rfl

theorem adopted (t : Tables) (ip : Bytes) (onAccept : Option Nat) (child : TCPConnection) :
    Moves A t (t.adopted ip onAccept child) := by
  cases onAccept with
  | none => exact add t _
  | some port =>
    refine (add t (childSlot (some port) child)).trans (of_eq ?_)
    rw [Tables.adopted, enqueueAccept]
    split <;> rfl

end Moves

theorem slots_adopted (t : Tables) (ip : Bytes) (onAccept : Option Nat) (child : TCPConnection) :
    (t.adopted ip onAccept child).slots = t.slots ++ [childSlot onAccept child] := by
  cases onAccept with
  | none => rfl
  | some port =>
    rw [Tables.adopted, enqueueAccept]
    split <;> rfl

/-- An object that an event creates. -/
inductive Born (ip : Bytes) (t : Tables) : TableEvent → Slot → Prop
  | listener (port backlog : Nat) : Born ip t (.tcpListen port backlog) (t.listenerSlot ip port backlog)
  | active (remoteIp : Bytes) (remotePort port : Nat) (draw : SeqNo) (now : Time) {found : Nat} {slot : Slot}
      (hport : (t.localPort port).1 = .ok found) (hrole : slot.role = .active)
      (hep : slot.ep = (Endpoint.new (t.config ip found remoteIp remotePort)).step (.connect draw now)) :
      Born ip t (.tcpConnect remoteIp remotePort port draw now) slot
  | child {id : ConnId} {segment : TCPSegment} {src : Bytes} {draw : SeqNo} {now : Time} {parent : Slot}
      {child : TCPConnection} (hparent : t.slots[id]? = some parent)
      (hchild : (parent.ep.conn.onSegment segment (some src) draw now).2 = some child) :
      Born ip t (.segment id segment src draw now) (childSlot parent.role.onAccept child)

/-- From `t` to `u` the event `e` has made its calls, and at most one object is new. -/
structure Follows (ip : Bytes) (t u : Tables) (e : TableEvent) : Prop where
  moves : Moves (fun i call => e.Calls i call) t u
  born : ∀ i slot', u.slots[i]? = some slot' → i < t.slots.length ∨ i = t.slots.length ∧ Born ip t e slot'

theorem follows_of_length {e : TableEvent} (h : Moves (fun i call => e.Calls i call) t u)
    (hlength : u.slots.length = t.slots.length) : Follows ip t u e := by
  refine ⟨h, fun i slot' hslot' => .inl ?_⟩
  rw [← hlength]
  exact (List.getElem?_eq_some_iff.mp hslot').1

theorem length_called (t : Tables) (id : ConnId) (e : Event) : (t.called id e).slots.length = t.slots.length := by
  cases hslot : t.slots[id]? with
  | none => rw [called_none hslot]
  | some slot => exact (local_called hslot e).length

theorem length_foldl_called (ids : List ConnId) (e : Event) (t : Tables) :
    (ids.foldl (fun t id => t.called id e) t).slots.length = t.slots.length := by
  induction ids generalizing t with
  | nil => rfl
  | cons id ids ih => exact (ih _).trans (length_called t id e)

theorem length_modifySlot (t : Tables) (id : ConnId) (f : Slot → Slot) :
    (t.modifySlot id f).slots.length = t.slots.length :=
  List.length_modify _ _ _

theorem length_localPort (t : Tables) (port : Nat) : (t.localPort port).2.slots = t.slots := by
  obtain ⟨n, hn⟩ := localPort_eq t port
  rw [hn]

theorem follows_segment (t : Tables) (ip : Bytes) (id : ConnId) (segment : TCPSegment) (src : Bytes) (draw : SeqNo)
    (now : Time) : Follows ip t (t.segment ip id segment src draw now) (.segment id segment src draw now) := by
  unfold Tables.segment
  cases hslot : t.slots[id]? with
  | none => exact follows_of_length (.refl t) rfl
  | some slot =>
    have hcall : Moves (fun i call => (TableEvent.segment id segment src draw now).Calls i call) t
        (t.called id (.segment segment (some src) draw now)) := .called t ⟨rfl, rfl⟩
    have hlength := length_called t id (.segment segment (some src) draw now)
    dsimp only
    cases hchild : (slot.ep.conn.onSegment segment (some src) draw now).2 with
    | none => exact follows_of_length hcall hlength
    | some child =>
      refine ⟨hcall.trans (.adopted _ ip _ _), fun i slot' hslot' => ?_⟩
      dsimp only at hslot'
      rw [slots_adopted, List.getElem?_append] at hslot'
      split_ifs at hslot' with hi
      · exact .inl (hlength ▸ hi)
      · rw [hlength] at hi hslot'
        obtain ⟨hlt, heq⟩ := List.getElem?_eq_some_iff.mp hslot'
        rw [List.length_singleton] at hlt
        refine .inr ⟨by omega, ?_⟩
        rw [List.getElem_singleton] at heq
        rw [← heq]
        exact .child hslot hchild

theorem follows_tcpListen (t : Tables) (ip : Bytes) (port backlog : Nat) :
    Follows ip t (t.tcpListen ip port backlog).2 (.tcpListen port backlog) := by
  unfold Tables.tcpListen
  split_ifs
  · exact follows_of_length (.refl t) rfl
  · refine ⟨.add t _, fun i slot' hslot' => ?_⟩
    change (t.add (t.listenerSlot ip port backlog)).slots[i]? = some slot' at hslot'
    rw [getElem?_add] at hslot'
    split_ifs at hslot' with hi
    · obtain rfl := Option.some.inj hslot'
      exact .inr ⟨hi, .listener port backlog⟩
    · exact .inl (List.getElem?_eq_some_iff.mp hslot').1

theorem follows_tcpConnect (t : Tables) (ip remoteIp : Bytes) (remotePort port : Nat) (draw : SeqNo) (now : Time) :
    Follows ip t (t.tcpConnect ip remoteIp remotePort port draw now)
      (.tcpConnect remoteIp remotePort port draw now) := by
  have hport : Moves (fun i call => (TableEvent.tcpConnect remoteIp remotePort port draw now).Calls i call) t
    (t.localPort port).2 := .localPort t port
  have hlength := length_localPort t port
  obtain ⟨n, hn⟩ := localPort_eq t port
  have hborn : ∀ {found : Nat} {slot : Slot}, (t.localPort port).1 = .ok found → slot.role = .active →
      slot.ep = (Endpoint.new (t.config ip found remoteIp remotePort)).step (.connect draw now) →
      Born ip t (.tcpConnect remoteIp remotePort port draw now) slot :=
    Born.active remoteIp remotePort port draw now
  unfold Tables.tcpConnect
  generalize t.localPort port = r at hport hlength hn hborn
  obtain ⟨found, u⟩ := r
  dsimp only at hport hlength hn hborn ⊢
  cases found with
  | error e => exact follows_of_length hport (by rw [hlength])
  | ok found =>
    dsimp only
    have hnew : (u.register ip found remoteIp remotePort).slots[u.slots.length]? =
        some (u.activeSlot ip found remoteIp remotePort) :=
      (getElem?_add u _ _).trans (if_pos rfl)
    have hconfig : u.config ip found remoteIp remotePort = t.config ip found remoteIp remotePort := by
      rw [hn]
      rfl
    obtain ⟨slot, hslot, hep, hrole, -⟩ := slot_called hnew (.connect draw now)
    have hother := fun i (hi : i ≠ u.slots.length) => (local_called hnew (.connect draw now)).other i hi
    rw [hlength] at hslot hother ⊢
    refine ⟨fun i old hold => ?_, fun i slot' hslot' => ?_⟩
    · obtain ⟨hlt, -⟩ := List.getElem?_eq_some_iff.mp hold
      rw [hother i (Nat.ne_of_lt hlt)]
      refine ⟨old, [], ?_, rfl, rfl, by simp⟩
      refine (getElem?_add u _ _).trans ?_
      rw [hlength, if_neg (Nat.ne_of_lt hlt), hold]
    · by_cases hi : i = t.slots.length
      · subst hi
        obtain rfl := Option.some.inj (hslot.symm.trans hslot')
        refine .inr ⟨rfl, hborn rfl hrole ?_⟩
        rw [hep, ← hconfig]
        rfl
      · rw [hother i hi] at hslot'
        have hold := (getElem?_add u (u.activeSlot ip found remoteIp remotePort) i).symm.trans hslot'
        rw [hlength, if_neg hi] at hold
        exact .inl (List.getElem?_eq_some_iff.mp hold).1

theorem follows_connectWait (t : Tables) (ip : Bytes) (id : ConnId) (expired : Bool) (now : Time) :
    Follows ip t (t.connectWait id expired now) (.connectWait id expired now) := by
  unfold Tables.connectWait
  split
  · exact follows_of_length (.refl t) rfl
  · split_ifs with _ _ _ hexpired
    · exact follows_of_length (.refl t) rfl
    · exact follows_of_length (.refused t id) (length_modifySlot _ _ _)
    · exact follows_of_length (.modifySlot t id fun _ => ⟨rfl, rfl⟩) (length_modifySlot _ _ _)
    · have habort : Moves (fun i call => (TableEvent.connectWait id expired now).Calls i call) t
          (t.called id (.abort now)) := .called t ⟨⟨rfl, hexpired⟩, rfl⟩
      exact follows_of_length (habort.trans (.refused _ id))
        ((length_modifySlot _ _ _).trans (length_called t id _))
    · exact follows_of_length (.refl t) rfl

theorem follows_step (t : Tables) (ip : Bytes) (e : TableEvent) : Follows ip t (t.step ip e) e := by
  have hcalled : ∀ {id : ConnId} {call : Event}, e.Calls id call → Follows ip t (t.called id call) e :=
    fun {id call} h => follows_of_length (.called t h) (length_called t id call)
  have hshut : ∀ {id : ConnId} {now : Time}, e.Calls id (.close now) → Follows ip t (t.tcpClose id now) e :=
    fun {id now} h => follows_of_length ((Moves.markShut t id).trans (.called _ h))
      ((length_called _ id _).trans (length_modifySlot t id _))
  cases e with
  | quiet => exact follows_of_length (.refl t) rfl
  | allocate port => exact follows_of_length (.localPort t port) (by rw [step, length_localPort])
  | segment id segment src draw now => exact follows_segment t ip id segment src draw now
  | tick now =>
    have htick : Moves (fun i call => TableEvent.Calls i call (.tick now)) t (t.tick now) := by
      apply Moves.foldl_called
      exact fun _ => rfl
    exact follows_of_length htick (length_foldl_called _ _ t)
  | tcpListen port backlog => exact follows_tcpListen t ip port backlog
  | tcpAccept port expired =>
    have hslots : (t.tcpAccept port expired).2.slots = t.slots := by
      unfold Tables.tcpAccept
      split <;> rfl
    exact follows_of_length (.of_eq hslots) (by rw [step, hslots])
  | tcpConnect remoteIp remotePort port draw now => exact follows_tcpConnect t ip remoteIp remotePort port draw now
  | connectWait id expired now => exact follows_connectWait t ip id expired now
  | send id data now => exact hcalled ⟨rfl, rfl⟩
  | recv id maxBytes now => exact hcalled ⟨rfl, rfl⟩
  | abort id now => exact hcalled ⟨rfl, rfl⟩
  | tcpClose id now => exact hshut ⟨rfl, rfl⟩
  | closeSocket id now =>
    unfold step Tables.closeSocket
    dsimp only
    split_ifs
    · exact follows_of_length (.markShut t id) (length_modifySlot t id _)
    · exact hshut ⟨rfl, rfl⟩

/-! ### Addresses -/

theorem cfg_run (p : Endpoint) (es : List Event) : (endpoint.run p es).conn.cfg = p.conn.cfg := by
  induction es generalizing p with
  | nil => rfl
  | cons e es ih => exact (ih _).trans (TCPConnection.outputs_step p e).cfg

/-- Objects have the address of the stack, and the tables have them under their own addresses and ports. -/
structure Keyed (ip : Bytes) (t : Tables) : Prop where
  localIp : ∀ slot ∈ t.slots, slot.ep.conn.cfg.localIp = ip
  connections : ∀ entry ∈ t.connections.items, ∃ slot, t.slots[entry.2]? = some slot ∧
    slot.ep.conn.cfg.key = entry.1
  listeners : ∀ entry ∈ t.listeners.items, ∃ slot, t.slots[entry.2]? = some slot ∧
    slot.role.isListener = true ∧ slot.ep.conn.cfg.localPort = entry.1

/-- Objects go on, new ones have the address of the stack, and so has what is new in the tables. -/
theorem Keyed.of_moves (h : t.Keyed ip) (hmoves : Moves A t u)
    (hnew : ∀ i slot, u.slots[i]? = some slot → i < t.slots.length ∨ slot.ep.conn.cfg.localIp = ip)
    (hconnections : ∀ entry ∈ u.connections.items, entry ∈ t.connections.items ∨
      ∃ slot, u.slots[entry.2]? = some slot ∧ slot.ep.conn.cfg.key = entry.1)
    (hlisteners : ∀ entry ∈ u.listeners.items, entry ∈ t.listeners.items ∨
      ∃ slot, u.slots[entry.2]? = some slot ∧ slot.role.isListener = true ∧
        slot.ep.conn.cfg.localPort = entry.1) : u.Keyed ip := by
  have hcfg : ∀ {i : ConnId} {slot : Slot}, t.slots[i]? = some slot → ∃ slot', u.slots[i]? = some slot' ∧
      slot'.role = slot.role ∧ slot'.ep.conn.cfg = slot.ep.conn.cfg := by
    intro i slot hslot
    obtain ⟨slot', es, hslot', hrole, hep, -⟩ := hmoves i slot hslot
    exact ⟨slot', hslot', hrole, by rw [hep, cfg_run]⟩
  refine ⟨fun slot' hmem => ?_, fun entry hentry => ?_, fun entry hentry => ?_⟩
  · obtain ⟨i, hi⟩ := List.mem_iff_getElem?.mp hmem
    rcases hnew i slot' hi with hold | hip
    · obtain ⟨found, hfound, -, heq⟩ := hcfg (List.getElem?_eq_getElem hold)
      obtain rfl := Option.some.inj (hi.symm.trans hfound)
      rw [heq]
      exact h.localIp _ (List.getElem_mem hold)
    · exact hip
  · rcases hconnections entry hentry with hold | hfresh
    · obtain ⟨slot, hslot, hkey⟩ := h.connections entry hold
      obtain ⟨slot', hslot', -, heq⟩ := hcfg hslot
      exact ⟨slot', hslot', by rw [heq, hkey]⟩
    · exact hfresh
  · rcases hlisteners entry hentry with hold | hfresh
    · obtain ⟨slot, hslot, hlistener, hport⟩ := h.listeners entry hold
      obtain ⟨slot', hslot', hrole, heq⟩ := hcfg hslot
      exact ⟨slot', hslot', by rw [hrole, hlistener], by rw [heq, hport]⟩
    · exact hfresh

theorem Keyed.keep (h : t.Keyed ip) (hmoves : Moves A t u) (hlength : u.slots.length = t.slots.length)
    (hconnections : ∀ entry ∈ u.connections.items, entry ∈ t.connections.items)
    (hlisteners : u.listeners = t.listeners) : u.Keyed ip := by
  refine h.of_moves hmoves (fun i slot hslot => .inl ?_) (fun entry hentry => .inl (hconnections entry hentry))
    fun entry hentry => .inl (hlisteners ▸ hentry)
  rw [← hlength]
  exact (List.getElem?_eq_some_iff.mp hslot).1

theorem Keyed.called (h : t.Keyed ip) (id : ConnId) (e : Event) : (t.called id e).Keyed ip := by
  cases hslot : t.slots[id]? with
  | none =>
    rw [called_none hslot]
    exact h
  | some slot =>
    have hlocal := local_called hslot e
    exact h.keep (A := fun _ _ => True) (.called t trivial) hlocal.length hlocal.connections hlocal.listeners

theorem Keyed.modifySlot (h : t.Keyed ip) (id : ConnId) {f : Slot → Slot}
    (hf : ∀ slot, (f slot).ep = slot.ep ∧ (f slot).role = slot.role) : (t.modifySlot id f).Keyed ip :=
  h.keep (A := fun _ _ => True) (.modifySlot t id hf) (length_modifySlot t id f) (fun _ he => he) rfl

theorem Keyed.refused (h : t.Keyed ip) (id : ConnId) : (t.refused id).Keyed ip := by
  have hforget : (t.forget id).Keyed ip :=
    h.keep (A := fun _ _ => True) (.forget t id) rfl (fun _ he => (Dict.mem_filter.mp he).1) rfl
  exact hforget.modifySlot id fun _ => ⟨rfl, rfl⟩

theorem Keyed.localPort (h : t.Keyed ip) (port : Nat) : (t.localPort port).2.Keyed ip := by
  obtain ⟨n, hn⟩ := localPort_eq t port
  rw [hn]
  exact ⟨h.localIp, h.connections, h.listeners⟩

theorem Keyed.markShut (h : t.Keyed ip) (id : ConnId) : (t.markShut id).Keyed ip :=
  h.modifySlot id fun _ => ⟨rfl, rfl⟩

theorem Keyed.tcpClose (h : t.Keyed ip) (id : ConnId) (now : Time) : (t.tcpClose id now).Keyed ip :=
  (h.markShut id).called id _

theorem Keyed.foldl_called (h : t.Keyed ip) (ids : List ConnId) (e : Event) :
    (ids.foldl (fun t id => t.called id e) t).Keyed ip := by
  induction ids generalizing t with
  | nil => exact h
  | cons id ids ih => exact ih (h.called id e)

theorem Keyed.enroll (h : t.Keyed ip) (slot : Slot) (hip : slot.ep.conn.cfg.localIp = ip)
    (hslots : u.slots = t.slots ++ [slot])
    (hconnections : ∀ entry ∈ u.connections.items, entry ∈ t.connections.items ∨
      entry.2 = t.slots.length ∧ slot.ep.conn.cfg.key = entry.1)
    (hlisteners : ∀ entry ∈ u.listeners.items, entry ∈ t.listeners.items ∨
      entry.2 = t.slots.length ∧ slot.role.isListener = true ∧ slot.ep.conn.cfg.localPort = entry.1) :
    u.Keyed ip := by
  have hlast : u.slots[t.slots.length]? = some slot := by
    rw [hslots]
    exact List.getElem?_concat_length
  have hmoves : Moves (fun _ _ => True) t u := (Moves.add t slot).trans (.of_eq hslots)
  refine h.of_moves hmoves (fun i slot' hslot' => ?_) (fun entry hentry => ?_) fun entry hentry => ?_
  · rw [hslots, List.getElem?_append] at hslot'
    split_ifs at hslot' with hi
    · exact .inl hi
    · refine .inr ?_
      have hmem := List.mem_of_getElem? hslot'
      rw [List.mem_singleton.mp hmem]
      exact hip
  · refine (hconnections entry hentry).imp_right fun hfresh => ⟨slot, ?_, hfresh.2⟩
    rw [hfresh.1]
    exact hlast
  · refine (hlisteners entry hentry).imp_right fun hfresh => ⟨slot, ?_, hfresh.2⟩
    rw [hfresh.1]
    exact hlast

theorem Keyed.adopted (h : t.Keyed ip) (onAccept : Option Nat) {child : TCPConnection}
    (hip : child.cfg.localIp = ip) : (t.adopted ip onAccept child).Keyed ip := by
  have hkey : child.cfg.key = (ip, child.cfg.localPort, child.cfg.remoteIp, child.cfg.remotePort) := by
    rw [Config.key, hip]
  refine h.enroll (childSlot onAccept child) hip (slots_adopted t ip onAccept child) (fun entry hentry => ?_)
    fun entry hentry => .inl ?_
  · cases onAccept with
    | none => exact .inl hentry
    | some port =>
      have hset : entry ∈ (t.connections.set
          (ip, child.cfg.localPort, child.cfg.remoteIp, child.cfg.remotePort) t.slots.length).items := by
        rw [Tables.adopted, enqueueAccept] at hentry
        split at hentry <;> exact hentry
      rcases Dict.mem_set.mp hset with rfl | ⟨-, hold⟩
      · exact .inr ⟨rfl, hkey⟩
      · exact .inl hold
  · cases onAccept with
    | none => exact hentry
    | some port =>
      rw [Tables.adopted, enqueueAccept] at hentry
      split at hentry <;> exact hentry

theorem Keyed.segment (h : t.Keyed ip) (id : ConnId) (seg : TCPSegment) (src : Bytes) (draw : SeqNo) (now : Time) :
    (t.segment ip id seg src draw now).Keyed ip := by
  unfold Tables.segment
  cases hslot : t.slots[id]? with
  | none => exact h
  | some slot =>
    dsimp only
    cases hchild : (slot.ep.conn.onSegment seg (some src) draw now).2 with
    | none => exact h.called id _
    | some child =>
      refine (h.called id _).adopted _ ?_
      rw [TCPConnection.onSegment_snd] at hchild
      split_ifs at hchild
      obtain rfl := Option.some.inj hchild
      exact h.localIp slot (List.mem_of_getElem? hslot)

theorem Keyed.tcpListen (h : t.Keyed ip) (port backlog : Nat) : (t.tcpListen ip port backlog).2.Keyed ip := by
  unfold Tables.tcpListen
  split_ifs
  · exact h
  · have hcfg := (TCPConnection.outputs_step (Endpoint.new (t.config ip port IP_ANY 0)) .listen).cfg
    refine h.enroll (t.listenerSlot ip port backlog) (congrArg (·.localIp) hcfg) rfl
      (fun _ hentry => .inl hentry) fun entry hentry => ?_
    rcases Dict.mem_set.mp hentry with rfl | ⟨-, hold⟩
    · exact .inr ⟨rfl, rfl, congrArg (·.localPort) hcfg⟩
    · exact .inl hold

theorem Keyed.register (h : t.Keyed ip) (port : Nat) (remoteIp : Bytes) (remotePort : Nat) :
    (t.register ip port remoteIp remotePort).Keyed ip := by
  refine h.enroll (t.activeSlot ip port remoteIp remotePort) rfl rfl (fun entry hentry => ?_)
    fun _ hentry => .inl hentry
  rcases Dict.mem_set.mp hentry with rfl | ⟨-, hold⟩
  · exact .inr ⟨rfl, rfl⟩
  · exact .inl hold

theorem Keyed.connectWait (h : t.Keyed ip) (id : ConnId) (expired : Bool) (now : Time) :
    (t.connectWait id expired now).Keyed ip := by
  unfold Tables.connectWait
  split
  · exact h
  · split_ifs
    · exact h
    · exact h.refused id
    · exact h.modifySlot id fun _ => ⟨rfl, rfl⟩
    · exact (h.called id _).refused id
    · exact h

theorem Keyed.step (h : t.Keyed ip) (e : TableEvent) : (t.step ip e).Keyed ip := by
  cases e with
  | quiet => exact h
  | allocate port => exact h.localPort port
  | segment id seg src draw now => exact h.segment id seg src draw now
  | tick now => exact h.foldl_called _ _
  | tcpListen port backlog => exact h.tcpListen port backlog
  | tcpAccept port expired =>
    unfold Tables.step Tables.tcpAccept
    dsimp only
    split <;> exact ⟨h.localIp, h.connections, h.listeners⟩
  | tcpConnect remoteIp remotePort port draw now =>
    have hport := h.localPort port
    unfold Tables.step Tables.tcpConnect
    dsimp only
    generalize t.localPort port = r at hport
    obtain ⟨found, u⟩ := r
    cases found with
    | error e => exact hport
    | ok found => exact (hport.register found remoteIp remotePort).called _ _
  | connectWait id expired now => exact h.connectWait id expired now
  | send id data now => exact h.called id _
  | recv id maxBytes now => exact h.called id _
  | abort id now => exact h.called id _
  | tcpClose id now => exact h.tcpClose id now
  | closeSocket id now =>
    unfold Tables.step Tables.closeSocket
    dsimp only
    split_ifs
    · exact h.markShut id
    · exact h.tcpClose id now

end Tables

namespace Stack

variable {s : Stack} {slot : Slot} {i : ConnId}

theorem Sound.follows (h : s.Sound) (e : StackEvent) :
    Tables.Follows s.ip s.toTables (s.step e).toTables (s.view e) := by
  rw [h.tables_step]
  exact Tables.follows_step _ _ _

theorem keyed (h : stack.Reachable s) : s.toTables.Keyed s.ip := by
  refine Machine.ReachableBy.induction stack (P := fun s => s.toTables.Keyed s.ip) (fun s hs => ?_)
    (fun s e hreach hs _ => ?_) h
  · obtain ⟨cfg, rfl⟩ := hs
    exact ⟨by simp [Stack.new], nofun, nofun⟩
  · rw [stack_next, (sound hreach).tables_step, ((sound hreach).after_step e).onward.ip]
    exact hs.step _

theorem reachable_born {t : Tables} {ip : Bytes} {e : TableEvent} (h : Tables.Born ip t e slot) :
    endpoint.Reachable slot.ep := by
  cases h with
  | listener port backlog => exact (Machine.ReachableBy.init endpoint (.inl ⟨_, rfl⟩)).step endpoint .listen trivial
  | active remoteIp remotePort port draw now _ _ hep =>
    rw [hep]
    exact (Machine.ReachableBy.init endpoint (.inl ⟨_, rfl⟩)).step endpoint (.connect draw now) trivial
  | child _ hchild =>
    obtain ⟨hsyn, hrst, cfg, hpassive⟩ := TCPConnection.onSegment_child hchild
    exact Machine.ReachableBy.init endpoint (.inr ⟨cfg, _, _, _, hsyn, hrst, hpassive⟩)

theorem reachable_slot (h : stack.Reachable s) : ∀ slot ∈ s.slots, endpoint.Reachable slot.ep := by
  refine Machine.ReachableBy.induction stack (P := fun s => ∀ slot ∈ s.slots, endpoint.Reachable slot.ep)
    (fun s hs => ?_) (fun s e hreach hs _ slot' hmem => ?_) h
  · obtain ⟨cfg, rfl⟩ := hs
    exact fun slot hmem => absurd hmem List.not_mem_nil
  · obtain ⟨i, hi⟩ := List.mem_iff_getElem?.mp hmem
    obtain ⟨hmoves, hborn⟩ := (sound hreach).follows e
    rcases hborn i slot' hi with hold | ⟨-, hnew⟩
    · obtain ⟨found, es, hfound, -, hep, -⟩ := hmoves i _ (List.getElem?_eq_getElem hold)
      obtain rfl := Option.some.inj (hi.symm.trans hfound)
      rw [hep]
      exact (hs _ (List.getElem_mem hold)).run endpoint (endpoint.meets_true _ _)
    · exact reachable_born hnew

/-- The datagram has the object's addresses and ports, or it has those of no connection and the object listens on
its port. -/
def MeantFor (s : Stack) (slot : Slot) (packet : IPv4Packet) (seg : TCPSegment) : Prop :=
  slot.ep.conn.cfg.key = (packet.dst, seg.dstPort, packet.src, seg.srcPort) ∨
    slot.role.isListener = true ∧ slot.ep.conn.cfg.localPort = seg.dstPort ∧
      s.connections.get? (packet.dst, seg.dstPort, packet.src, seg.srcPort) = none

theorem meantFor_of_lookup (h : s.toTables.Keyed s.ip) {packet : IPv4Packet} {seg : TCPSegment}
    (hlookup : s.lookup packet seg = some i) (hslot : s.slots[i]? = some slot) : s.MeantFor slot packet seg := by
  unfold lookup at hlookup
  cases hkey : s.connections.get? (packet.dst, seg.dstPort, packet.src, seg.srcPort) with
  | some id =>
    rw [hkey] at hlookup
    obtain rfl := Option.some.inj hlookup
    obtain ⟨found, hfound, hcfg⟩ := h.connections _ (Dict.get?_eq_some_iff.mp hkey)
    obtain rfl := Option.some.inj (hslot.symm.trans hfound)
    exact .inl hcfg
  | none =>
    rw [hkey] at hlookup
    obtain ⟨found, hfound, hlistener, hport⟩ := h.listeners _ (Dict.get?_eq_some_iff.mp hlookup)
    obtain rfl := Option.some.inj (hslot.symm.trans hfound)
    exact .inr ⟨hlistener, hport, hkey⟩

theorem segment_of_calls {e : StackEvent} {seg : TCPSegment} {src : Option Bytes} {draw : SeqNo} {now : Time}
    (h : (s.view e).Calls i (.segment seg src draw now)) :
    ∃ raw packet, e = .frame raw draw now ∧ s.datagram raw now = some packet ∧ packet.protocol = PROTO_TCP ∧
      TCPSegment.parse packet.payload (some packet.src) (some packet.dst) = .ok seg ∧ src = some packet.src ∧
      s.lookup packet seg = some i := by
  cases e with
  | frame raw draw' now' =>
    unfold view arrival at h
    dsimp only at h
    cases hdatagram : s.datagram raw now' with
    | none =>
      rw [hdatagram] at h
      exact h.elim
    | some packet =>
      rw [hdatagram] at h
      dsimp only at h
      unfold delivery at h
      split_ifs at h with hprotocol
      · cases hparse : TCPSegment.parse packet.payload (some packet.src) (some packet.dst) with
        | error e =>
          rw [hparse] at h
          exact h.elim
        | ok segment =>
          rw [hparse] at h
          dsimp only at h
          cases hlookup : s.lookup packet segment with
          | none =>
            rw [hlookup] at h
            exact h.elim
          | some id =>
            rw [hlookup] at h
            obtain ⟨rfl, heq⟩ := h
            cases heq
            exact ⟨raw, packet, rfl, hdatagram, hprotocol, hparse, rfl, hlookup⟩
      · exact h.elim
  | tick => cases h
  | connectWait | send | recv | abort | tcpClose | closeSocket => cases h.2
  | tcpListen | tcpAccept | tcpConnect | udpBind | udpUnbind | udpSend => exact h.elim

/-- Every object of a stack goes through a run of the machine of one connection. An event calls into an object only
what is meant for it, and a segment only when the datagram is addressed to it. -/
theorem isolated (h : stack.Reachable s) (e : StackEvent) (hslot : s.slots[i]? = some slot) :
    endpoint.Reachable slot.ep ∧
      ∃ slot' es, (s.step e).slots[i]? = some slot' ∧ slot'.role = slot.role ∧
        slot'.ep = endpoint.run slot.ep es ∧
        ∀ call ∈ es, (s.view e).Calls i call ∧
          ∀ seg src draw now, call = .segment seg src draw now →
            ∃ raw packet, e = .frame raw draw now ∧ s.datagram raw now = some packet ∧ src = some packet.src ∧
              TCPSegment.parse packet.payload (some packet.src) (some packet.dst) = .ok seg ∧
              s.MeantFor slot packet seg := by
  refine ⟨reachable_slot h slot (List.mem_of_getElem? hslot), ?_⟩
  obtain ⟨slot', es, hslot', hrole, hep, hes⟩ := ((sound h).follows e).moves i slot hslot
  refine ⟨slot', es, hslot', hrole, hep, fun call hcall => ⟨hes call hcall, ?_⟩⟩
  rintro seg src draw now rfl
  obtain ⟨raw, packet, he, hdatagram, -, hparse, hsrc, hlookup⟩ := segment_of_calls (hes _ hcall)
  exact ⟨raw, packet, he, hdatagram, hsrc, hparse, meantFor_of_lookup (keyed h) hlookup hslot⟩

theorem isolated_listener : ∃ slot slot' es,
    (stack.run (.new host) [.tcpListen 80 16]).slots[0]? = some slot ∧
      (stack.run (.new host) [.tcpListen 80 16, .frame (carrySegment (synFrom 5000)) 0 0]).slots[0]? = some slot' ∧
      slot'.ep = endpoint.run slot.ep es := by
  have hreach : stack.Reachable (stack.run (.new host) [.tcpListen 80 16]) :=
    (Machine.ReachableBy.init stack ⟨host, rfl⟩).run stack (stack.meets_true _ _)
  have hslot : ((stack.run (.new host) [.tcpListen 80 16]).slots[0]?).isSome = true := by decide +kernel
  obtain ⟨slot, hslot⟩ := Option.isSome_iff_exists.mp hslot
  obtain ⟨-, slot', es, hslot', -, hep, -⟩ := isolated hreach (.frame (carrySegment (synFrom 5000)) 0 0) hslot
  exact ⟨slot, slot', es, hslot, hslot', hep⟩

end Stack

end MiniTcp
