import MiniTcp.Net.Tcp.Output
import MiniTcp.Stack.Tables

/-!
# What a call into a connection does to the tables

A call into an object changes its slot, and its callbacks take entries of this object out of the tables or set
its events (`Local`). A connection that was accepted, and a listener, is taken out when it ends
(`called_forgets`); a connection that was opened by `tcp_connect` has both events set (`called_fails`).
-/

namespace MiniTcp

/-- A slot without its two events. -/
def Slot.core (slot : Slot) : Slot := { slot with established := false, failed := false }

theorem Slot.core_eq {slot slot' : Slot} (h : slot'.core = slot.core) : slot'.ep = slot.ep ∧
    slot'.role = slot.role ∧ slot'.phase = slot.phase ∧ slot'.shut = slot.shut :=
  ⟨congrArg (·.ep) h, congrArg (·.role) h, congrArg (·.phase) h, congrArg (·.shut) h⟩

/-- The events of an active connection once the callbacks are made. -/
def Slot.told (ns : List Notice) (slot : Slot) : Slot :=
  { slot with
    established := slot.established || ns.contains .established || ns.contains .closed
    failed := slot.failed || ns.contains .closed || ns.contains .reset }

namespace Tables

variable {t u v : Tables} {id : ConnId} {role : Role} {slot : Slot} {e : Event} {ns : List Notice}

/-- From `t` to `u` nothing has changed but the slot of `id` and entries that were taken out for it; an active
connection keeps them. -/
structure Local (id : ConnId) (role : Role) (t u : Tables) : Prop where
  receiveCapacity : u.receiveCapacity = t.receiveCapacity
  listeners : u.listeners = t.listeners
  acceptQueues : u.acceptQueues = t.acceptQueues
  returned : u.returned = t.returned
  nextPort : u.nextPort = t.nextPort
  length : u.slots.length = t.slots.length
  other : ∀ i, i ≠ id → u.slots[i]? = t.slots[i]?
  connections : ∀ entry ∈ u.connections.items, entry ∈ t.connections.items
  readEvents : ∀ k ∈ u.readEvents.keys, k ∈ t.readEvents.keys
  registered : ∀ entry ∈ t.connections.items, entry.2 ≠ id ∨ role = .active → entry ∈ u.connections.items
  awaited : ∀ k ∈ t.readEvents.keys, k ≠ id ∨ role = .active → k ∈ u.readEvents.keys

namespace Local

theorem refl (t : Tables) : Local id role t t :=
  ⟨rfl, rfl, rfl, rfl, rfl, rfl, fun _ _ => rfl, fun _ h => h, fun _ h => h, fun _ h _ => h, fun _ h _ => h⟩

theorem trans (h : Local id role t u) (h' : Local id role u v) : Local id role t v where
  receiveCapacity := h'.receiveCapacity.trans h.receiveCapacity
  listeners := h'.listeners.trans h.listeners
  acceptQueues := h'.acceptQueues.trans h.acceptQueues
  returned := h'.returned.trans h.returned
  nextPort := h'.nextPort.trans h.nextPort
  length := h'.length.trans h.length
  other := fun i hi => (h'.other i hi).trans (h.other i hi)
  connections := fun entry he => h.connections entry (h'.connections entry he)
  readEvents := fun k hk => h.readEvents k (h'.readEvents k hk)
  registered := fun entry he hid => h'.registered entry (h.registered entry he hid) hid
  awaited := fun k hk hid => h'.awaited k (h.awaited k hk hid) hid

theorem modifySlot (t : Tables) (f : Slot → Slot) : Local id role t (t.modifySlot id f) :=
  ⟨rfl, rfl, rfl, rfl, rfl, List.length_modify _ _ _, fun _ hi => List.getElem?_modify_ne f _ hi.symm,
    fun _ h => h, fun _ h => h, fun _ h _ => h, fun _ h _ => h⟩

theorem forget (t : Tables) (hrole : role ≠ .active) : Local id role t (t.forget id) where
  receiveCapacity := rfl
  listeners := rfl
  acceptQueues := rfl
  returned := rfl
  nextPort := rfl
  length := rfl
  other := fun _ _ => rfl
  connections := fun _ he => (Dict.mem_filter.mp he).1
  readEvents := fun _ hk => (Dict.mem_keys_erase.mp hk).2
  registered := fun _ he hid =>
    Dict.mem_filter.mpr ⟨he, by simpa using hid.resolve_right hrole⟩
  awaited := fun _ hk hid => Dict.mem_keys_erase.mpr ⟨hid.resolve_right hrole, hk⟩

theorem signalReadable (t : Tables) : Local id role t (t.signalReadable id) := by
  unfold Tables.signalReadable
  split
  · exact refl t
  · rename_i event hevent
    have hkey : id ∈ t.readEvents.keys := List.mem_map_of_mem (Dict.get?_eq_some_iff.mp hevent)
    refine ⟨rfl, rfl, rfl, rfl, rfl, rfl, fun _ _ => rfl, fun _ h => h, fun k hk => ?_, fun _ h _ => h,
      fun _ hk _ => Dict.mem_keys_set.mpr (.inr hk)⟩
    rcases Dict.mem_keys_set.mp hk with rfl | hold
    · exact hkey
    · exact hold

theorem callback (t : Tables) (n : Notice) : Local id role t (callback id role t n) := by
  cases role with
  | listener port backlog =>
    cases n with
    | closed => exact forget t nofun
    | _ => exact refl t
  | active =>
    cases n with
    | data => exact refl t
    | _ => exact modifySlot t _
  | accepted port =>
    cases n with
    | data => exact signalReadable t
    | closed => exact forget t nofun
    | _ => exact refl t

theorem foldl (ns : List Notice) (t : Tables) :
    Local id role t (ns.foldl (Tables.callback id role) t) := by
  induction ns generalizing t with
  | nil => exact refl t
  | cons n ns ih => exact (callback t n).trans (ih _)

end Local

theorem core_foldl (ns : List Notice) (t : Tables) :
    ((ns.foldl (callback id role) t).slots[id]?).map Slot.core = (t.slots[id]?).map Slot.core := by
  induction ns generalizing t with
  | nil => rfl
  | cons n ns ih =>
    have hmodify : ∀ f : Slot → Slot, (∀ slot, (f slot).core = slot.core) →
        ((t.modifySlot id f).slots[id]?).map Slot.core = (t.slots[id]?).map Slot.core := by
      intro f hf
      rw [Tables.modifySlot, List.getElem?_modify_eq]
      cases t.slots[id]? with
      | none => rfl
      | some slot => exact congrArg some (hf slot)
    have hsignal : (t.signalReadable id).slots = t.slots := by
      unfold signalReadable
      split <;> rfl
    rw [List.foldl_cons, ih]
    cases role with
    | listener port backlog => cases n <;> rfl
    | active =>
      cases n with
      | data => rfl
      | _ => exact hmodify _ fun _ => rfl
    | accepted port =>
      cases n with
      | data => exact congrArg (fun slots : List Slot => slots[id]?.map Slot.core) hsignal
      | _ => rfl

/-- The object is in neither table. -/
structure Forgotten (t : Tables) (id : ConnId) : Prop where
  connections : ∀ entry ∈ t.connections.items, entry.2 ≠ id
  readEvents : id ∉ t.readEvents.keys

theorem forgotten_forget (t : Tables) (id : ConnId) : (t.forget id).Forgotten id :=
  ⟨fun _ he => by simpa using (Dict.mem_filter.mp he).2, fun hk => (Dict.mem_keys_erase.mp hk).1 rfl⟩

theorem Forgotten.mono {i : ConnId} (h : t.Forgotten i) (hlocal : Local id role t u) : u.Forgotten i :=
  ⟨fun entry he => h.connections entry (hlocal.connections entry he),
    fun hk => h.readEvents (hlocal.readEvents i hk)⟩

theorem forgotten_foldl (hrole : role ≠ .active) (h : .closed ∈ ns) (t : Tables) :
    (ns.foldl (callback id role) t).Forgotten id := by
  induction ns generalizing t with
  | nil => cases h
  | cons n ns ih =>
    rcases List.mem_cons.mp h with rfl | hrest
    · have hforget : callback id role t .closed = t.forget id := by
        cases role with
        | active => exact absurd rfl hrole
        | _ => rfl
      rw [List.foldl_cons, hforget]
      exact (forgotten_forget t id).mono (.foldl ns _)
    · exact ih hrest _

theorem foldl_active (ns : List Notice) (t : Tables) :
    ns.foldl (callback id .active) t = t.modifySlot id (Slot.told ns) := by
  induction ns generalizing t with
  | nil =>
    have hsame : Slot.told [] = fun slot => slot := by
      funext slot
      simp [Slot.told]
    rw [hsame, List.foldl_nil, Tables.modifySlot]
    exact congrArg (fun slots => { t with slots := slots }) (List.modify_id id t.slots).symm
  | cons n ns ih =>
    rw [List.foldl_cons, ih]
    have hmodify : ∀ f : Slot → Slot, (∀ slot, (f slot).told ns = slot.told (n :: ns)) →
        (t.modifySlot id f).modifySlot id (Slot.told ns) = t.modifySlot id (Slot.told (n :: ns)) := by
      intro f hf
      rw [Tables.modifySlot, Tables.modifySlot, Tables.modifySlot, List.modify_modify_eq,
        show Slot.told ns ∘ f = Slot.told (n :: ns) from funext hf]
    cases n with
    | established => exact hmodify _ fun slot => by simp [Slot.told]
    | closed => exact hmodify _ fun slot => by simp [Slot.told]
    | reset => exact hmodify _ fun slot => by simp [Slot.told]
    | data =>
      have hskip : Slot.told ns = Slot.told (.data :: ns) := by
        funext slot
        simp [Slot.told]
      rw [← hskip]
      rfl

/-! ### Calls -/

theorem called_eq (h : t.slots[id]? = some slot) (e : Event) :
    t.called id e = (t.modifySlot id fun slot => { slot with ep := slot.ep.step e }).callbacks id slot e := by
  rw [called, h]

theorem called_none (h : t.slots[id]? = none) (e : Event) : t.called id e = t := by
  rw [called, h]

theorem local_called (h : t.slots[id]? = some slot) (e : Event) : Local id slot.role t (t.called id e) := by
  rw [called_eq h]
  exact (Local.modifySlot t _).trans (.foldl _ _)

theorem slot_called (h : t.slots[id]? = some slot) (e : Event) :
    ∃ slot', (t.called id e).slots[id]? = some slot' ∧ slot'.ep = slot.ep.step e ∧ slot'.role = slot.role ∧
      slot'.phase = slot.phase ∧ slot'.shut = slot.shut := by
  have hcore := @core_foldl id slot.role
    ((slot.ep.step e).conn.notices.drop slot.ep.conn.notices.length)
    (t.modifySlot id fun slot => { slot with ep := slot.ep.step e })
  rw [called_eq h, callbacks]
  rw [Tables.modifySlot, List.getElem?_modify_eq, h] at hcore
  obtain ⟨slot', hslot', hcore⟩ := Option.map_eq_some_iff.mp hcore
  exact ⟨slot', hslot', Slot.core_eq hcore⟩

/-- The callbacks of a call are the notices it adds; the end is among them. -/
theorem closed_mem_notices {p : Endpoint} (hopen : p.conn.state ≠ .closed)
    (hclosed : (p.step e).conn.state = .closed) :
    .closed ∈ (p.step e).conn.notices.drop p.conn.notices.length := by
  obtain ⟨ns, hns, hend⟩ := (TCPConnection.outputs_step p e).told
  rw [hns, List.drop_left]
  exact (hend hclosed).resolve_left hopen

theorem called_forgets (h : t.slots[id]? = some slot) (hrole : slot.role ≠ .active)
    (hopen : slot.ep.conn.state ≠ .closed) (hclosed : (slot.ep.step e).conn.state = .closed) :
    (t.called id e).Forgotten id := by
  rw [called_eq h]
  exact forgotten_foldl hrole (closed_mem_notices hopen hclosed) _

theorem called_fails (h : t.slots[id]? = some slot) (hrole : slot.role = .active)
    (hend : slot.established = true ∧ slot.failed = true ∨
      slot.ep.conn.state ≠ .closed ∧ (slot.ep.step e).conn.state = .closed) :
    ∃ slot', (t.called id e).slots[id]? = some slot' ∧ slot'.established = true ∧ slot'.failed = true := by
  rw [called_eq h, callbacks, hrole, foldl_active]
  refine ⟨_, by rw [Tables.modifySlot, List.getElem?_modify_eq, Tables.modifySlot, List.getElem?_modify_eq, h]; rfl,
    ?_⟩
  rcases hend with ⟨hest, hfail⟩ | ⟨hopen, hclosed⟩
  · simp [Slot.told, hest, hfail]
  · have hmem := closed_mem_notices hopen hclosed
    simp [Slot.told, hmem]

theorem searchPort_eq (fuel : Nat) (t : Tables) : ∃ n, (searchPort fuel t).2 = { t with nextPort := n } := by
  induction fuel generalizing t with
  | zero => exact ⟨t.nextPort, rfl⟩
  | succ fuel ih =>
    rw [searchPort]
    split_ifs
    · obtain ⟨n, hn⟩ := ih t.advancePort
      exact ⟨n, hn⟩
    · exact ⟨_, rfl⟩

theorem localPort_eq (t : Tables) (port : Nat) : ∃ n, (t.localPort port).2 = { t with nextPort := n } := by
  obtain ⟨n, hn⟩ := searchPort_eq (LAST_EPHEMERAL_PORT - FIRST_EPHEMERAL_PORT) t
  unfold localPort allocatePort
  split_ifs
  · generalize searchPort _ t = r at hn
    obtain ⟨found, t'⟩ := r
    cases found <;> exact ⟨n, hn⟩
  · exact ⟨t.nextPort, rfl⟩

theorem forall_called {P : Endpoint → Prop} (hstep : ∀ p, P p → P (p.step e))
    (h : ∀ slot ∈ t.slots, P slot.ep) : ∀ slot ∈ (t.called id e).slots, P slot.ep := by
  cases hslot : t.slots[id]? with
  | none =>
    rw [called_none hslot]
    exact h
  | some slot =>
    intro other hother
    obtain ⟨i, hi⟩ := List.mem_iff_getElem?.mp hother
    by_cases hid : i = id
    · subst hid
      obtain ⟨slot', hslot', hep, -⟩ := slot_called hslot e
      rw [hi] at hslot'
      rw [Option.some.inj hslot', hep]
      exact hstep _ (h slot (List.mem_of_getElem? hslot))
    · rw [(local_called hslot e).other i hid] at hi
      exact h other (List.mem_of_getElem? hi)

end Tables

end MiniTcp
