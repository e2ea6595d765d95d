import MiniTcp.Net.Tcp.Ending
import MiniTcp.Stack.Accept

/-!
# What the tables keep

An accepted connection is forgotten by `on_closed`, and a connection that `tcp_connect` gave up by `tcp_connect`;
nothing forgets one that it has returned (`Kept`), and nothing takes a port out of `_listeners`: the `on_closed` of a
listener is `_forget`, which looks at the other two tables. So the tables have only what is in use (`Released`) exactly
as long as no connection that `tcp_connect` has returned ends, and no listening socket is closed, aborted or reset
(`Tidy`).
-/

namespace MiniTcp

namespace Slot

/-- `tcp_connect` is still at work on it. -/
def Opening (slot : Slot) : Prop := slot.role = .active ∧ slot.phase = .waiting

/-- `tcp_connect` has returned it. -/
def Connected (slot : Slot) : Prop := slot.role = .active ∧ slot.phase = .returned

/-- Somebody has forgotten it, or nobody had to. -/
def Gone (slot : Slot) : Prop :=
  match slot.role with
  | .listener _ _ => True
  | .active => slot.phase = .raised
  | .accepted _ => slot.ep.conn.state = .closed

end Slot

namespace Tables

variable {t u : Tables} {ip : Bytes} {id : ConnId} {slot : Slot} {e : Event}

/-- A socket that listens: nobody has let go of it, and it is not closed. -/
def Heard (t : Tables) (id : ConnId) : Prop :=
  ∃ slot : Slot, t.slots[id]? = some slot ∧ slot.shut = false ∧ slot.ep.conn.state ≠ .closed

/-- A connection that was opened and is closed is in no table, what is in `_listeners` listens, and a port is in use
only by a socket that listens or by a connection that is not over. -/
structure Released (t : Tables) : Prop where
  closed : ∀ (id : ConnId) (slot : Slot), t.slots[id]? = some slot → slot.ep.conn.state = .closed →
    ¬ slot.Opening → t.Forgotten id
  free : ∀ port, t.portInUse port = true → (∃ entry ∈ t.listeners.items, entry.1 = port ∧ t.Heard entry.2) ∨
    ∃ entry ∈ t.connections.items, entry.1.2.1 = port ∧
      ∃ slot : Slot, t.slots[entry.2]? = some slot ∧ (slot.ep.conn.state ≠ .closed ∨ slot.Opening)
  listening : ∀ entry ∈ t.listeners.items, t.Heard entry.2

/-- Nothing takes it out of the tables when it ends: `tcp_connect` has returned it, or it is in `_listeners`. -/
def Lingers (t : Tables) (id : ConnId) (slot : Slot) : Prop := slot.Connected ∨ id ∈ t.listeners.values

/-- The call ends a connection that `tcp_connect` has returned, or a listener. -/
def Drops (t : Tables) (id : ConnId) (e : Event) : Prop :=
  ∃ slot : Slot, t.slots[id]? = some slot ∧ t.Lingers id slot ∧ slot.ep.conn.state ≠ .closed ∧ slot.ep.conn.Ends e

/-- No connection that `tcp_connect` has returned and no listener is ended, and no listening socket is closed. -/
def Tidy (t : Tables) : TableEvent → Prop
  | .segment id seg src draw now => ¬ t.Drops id (.segment seg (some src) draw now)
  | .tick now => ∀ id ∈ t.connections.values, ¬ t.Drops id (.tick now)
  | .abort id now => ¬ t.Drops id (.abort now)
  | .tcpClose id now => ¬ t.Drops id (.close now) ∧ id ∉ t.listeners.values
  | .closeSocket id now => ¬ t.Drops id (.close now) ∧ id ∉ t.listeners.values
  | _ => True

/-! ### What holds in every run -/

/-- What the tables have of an object. -/
structure Tracks (t : Tables) (id : ConnId) (slot : Slot) : Prop where
  gone : slot.Gone → t.Forgotten id
  awaited : slot.role = .active → slot.phase ≠ .raised → id ∈ t.readEvents.keys

/-- The tables refer to objects, to each under one key, and have what they should of each. -/
structure Kept (t : Tables) : Prop where
  connections : ∀ entry ∈ t.connections.items, entry.2 < t.slots.length
  single : ∀ entry ∈ t.connections.items, ∀ other ∈ t.connections.items, entry.2 = other.2 → entry = other
  readEvents : ∀ k ∈ t.readEvents.keys, k < t.slots.length
  tracks : ∀ (id : ConnId) (slot : Slot), t.slots[id]? = some slot → t.Tracks id slot

/-- A closed connection of `tcp_connect` has both events set. -/
def Failing (t : Tables) : Prop :=
  ∀ (id : ConnId) (slot : Slot), t.slots[id]? = some slot → slot.role = .active →
    slot.ep.conn.state = .closed → slot.established = true ∧ slot.failed = true

theorem Kept.of_eq (h : t.Kept) (hslots : u.slots = t.slots) (hconnections : u.connections = t.connections)
    (hevents : u.readEvents = t.readEvents) : u.Kept := by
  have hforgotten : ∀ id, t.Forgotten id → u.Forgotten id := fun id hf =>
    ⟨hconnections ▸ hf.connections, hevents ▸ hf.readEvents⟩
  refine ⟨?_, ?_, ?_, fun id slot hslot => ?_⟩
  · rw [hconnections, hslots]
    exact h.connections
  · rw [hconnections]
    exact h.single
  · rw [hevents, hslots]
    exact h.readEvents
  · rw [hslots] at hslot
    obtain ⟨hgone, hawaited⟩ := h.tracks id slot hslot
    exact ⟨fun hg => hforgotten id (hgone hg), hevents ▸ hawaited⟩

theorem Tracks.mono {v : Tables} {role : Role} {i : ConnId} (h : t.Tracks i slot) (hlocal : Local id role t v)
    (hne : i ≠ id) : v.Tracks i slot :=
  ⟨fun hg => (h.gone hg).mono hlocal, fun hrole hphase => hlocal.awaited i (h.awaited hrole hphase) (.inl hne)⟩

theorem Tracks.called (h : t.Tracks id slot) (hslot : t.slots[id]? = some slot) (e : Event) {slot' : Slot}
    (hslot' : (t.called id e).slots[id]? = some slot') : (t.called id e).Tracks id slot' := by
  obtain ⟨found, hfound, hep, hrole, hphase, -⟩ := slot_called hslot e
  obtain rfl := Option.some.inj (hslot'.symm.trans hfound)
  have hlocal := local_called hslot e
  constructor
  · intro hgone
    by_cases hold : slot.Gone
    · exact (h.gone hold).mono hlocal
    · unfold Slot.Gone at hgone hold
      rw [hrole, hphase, hep] at hgone
      cases hr : slot.role with
      | listener port backlog => exact absurd (by rw [hr]; trivial) hold
      | active =>
        rw [hr] at hgone hold
        exact absurd hgone hold
      | accepted port =>
        rw [hr] at hgone hold
        exact called_forgets hslot (by rw [hr]; nofun) hold hgone
  · intro hactive hraised
    rw [hrole] at hactive
    rw [hphase] at hraised
    exact hlocal.awaited id (h.awaited hactive hraised) (.inr hactive)

theorem Kept.called (h : t.Kept) (id : ConnId) (e : Event) : (t.called id e).Kept := by
  cases hslot : t.slots[id]? with
  | none =>
    rw [called_none hslot]
    exact h
  | some slot =>
    have hlocal := local_called hslot e
    refine ⟨fun entry hentry => ?_, fun entry hentry other hother => ?_, fun k hk => ?_, fun i other hother => ?_⟩
    · rw [hlocal.length]
      exact h.connections entry (hlocal.connections entry hentry)
    · exact h.single entry (hlocal.connections entry hentry) other (hlocal.connections other hother)
    · rw [hlocal.length]
      exact h.readEvents k (hlocal.readEvents k hk)
    · by_cases hi : i = id
      · subst hi
        exact (h.tracks i slot hslot).called hslot e hother
      · rw [hlocal.other i hi] at hother
        exact (h.tracks i other hother).mono hlocal hi

theorem Failing.called (h : t.Failing) (id : ConnId) (e : Event) : (t.called id e).Failing := by
  cases hslot : t.slots[id]? with
  | none =>
    rw [called_none hslot]
    exact h
  | some slot =>
    intro i other hother hactive hclosed
    by_cases hi : i = id
    · subst hi
      obtain ⟨slot', hslot', hep, hrole, -, -⟩ := slot_called hslot e
      obtain rfl := Option.some.inj (hother.symm.trans hslot')
      rw [hrole] at hactive
      rw [hep] at hclosed
      have hend : slot.established = true ∧ slot.failed = true ∨
          slot.ep.conn.state ≠ .closed ∧ (slot.ep.step e).conn.state = .closed := by
        by_cases hopen : slot.ep.conn.state = .closed
        · exact .inl (h i slot hslot hactive hopen)
        · exact .inr ⟨hopen, hclosed⟩
      obtain ⟨slot'', hslot'', hflags⟩ := called_fails hslot hactive hend
      obtain rfl := Option.some.inj (hslot''.symm.trans hslot')
      exact hflags
    · rw [(local_called hslot e).other i hi] at hother
      exact h i other hother hactive hclosed

theorem Kept.modify (h : t.Kept) {f : Slot → Slot}
    (hf : ∀ slot : Slot, t.slots[id]? = some slot → t.Tracks id (f slot)) : (t.modifySlot id f).Kept := by
  have hlength : (t.modifySlot id f).slots.length = t.slots.length := List.length_modify _ _ _
  refine ⟨fun entry hentry => ?_, h.single, fun k hk => ?_, fun i slot hslot => ?_⟩
  · rw [hlength]
    exact h.connections entry hentry
  · rw [hlength]
    exact h.readEvents k hk
  · by_cases hi : i = id
    · subst hi
      rw [Tables.modifySlot, List.getElem?_modify_eq] at hslot
      obtain ⟨old, hold, rfl⟩ := Option.map_eq_some_iff.mp hslot
      obtain ⟨hgone, hawaited⟩ := hf old hold
      exact ⟨fun hg => ⟨(hgone hg).connections, (hgone hg).readEvents⟩, hawaited⟩
    · rw [Tables.modifySlot, List.getElem?_modify_ne _ _ (Ne.symm hi)] at hslot
      obtain ⟨hgone, hawaited⟩ := h.tracks i slot hslot
      exact ⟨fun hg => ⟨(hgone hg).connections, (hgone hg).readEvents⟩, hawaited⟩

theorem Kept.markShut (h : t.Kept) (id : ConnId) : (t.markShut id).Kept := by
  apply h.modify
  intro slot hslot
  obtain ⟨hgone, hawaited⟩ := h.tracks id slot hslot
  exact ⟨hgone, hawaited⟩

theorem Kept.connected (h : t.Kept) (hslot : t.slots[id]? = some slot) (hwaiting : slot.phase = .waiting)
    (hrole : slot.role = .active) : (t.connected id).Kept := by
  apply h.modify
  intro old hold
  obtain rfl := Option.some.inj (hslot.symm.trans hold)
  obtain ⟨-, hawaited⟩ := h.tracks id slot hslot
  refine ⟨fun hg => ?_, fun hactive _ => hawaited hactive (by rw [hwaiting]; decide)⟩
  unfold Slot.Gone at hg
  dsimp only at hg
  rw [hrole] at hg
  cases hg

theorem Kept.refused (h : t.Kept) (id : ConnId) : (t.refused id).Kept := by
  have hlocal : Local id (.accepted none) t (t.forget id) := .forget t nofun
  have hlength : (t.refused id).slots.length = t.slots.length := List.length_modify _ _ _
  refine ⟨fun entry hentry => ?_, fun entry hentry other hother => ?_, fun k hk => ?_, fun i slot hslot => ?_⟩
  · rw [hlength]
    exact h.connections entry (hlocal.connections entry hentry)
  · exact h.single entry (hlocal.connections entry hentry) other (hlocal.connections other hother)
  · rw [hlength]
    exact h.readEvents k (hlocal.readEvents k hk)
  · by_cases hi : i = id
    · subst hi
      rw [Tables.refused, Tables.modifySlot, List.getElem?_modify_eq] at hslot
      obtain ⟨old, -, rfl⟩ := Option.map_eq_some_iff.mp hslot
      have hforgotten := forgotten_forget t i
      exact ⟨fun _ => ⟨hforgotten.connections, hforgotten.readEvents⟩, fun _ hphase => absurd rfl hphase⟩
    · rw [Tables.refused, Tables.modifySlot, List.getElem?_modify_ne _ _ (Ne.symm hi)] at hslot
      obtain ⟨hgone, hawaited⟩ := (h.tracks i slot hslot).mono hlocal hi
      exact ⟨fun hg => ⟨(hgone hg).connections, (hgone hg).readEvents⟩, hawaited⟩

/-! ### New objects -/

theorem getElem?_add (t : Tables) (slot : Slot) (i : ConnId) : (t.add slot).slots[i]? =
    if i = t.slots.length then some slot else t.slots[i]? := by
  change (t.slots ++ [slot])[i]? = _
  split_ifs with hi
  · rw [hi, List.getElem?_concat_length]
  · rcases Nat.lt_or_gt_of_ne hi with hlt | hgt
    · exact List.getElem?_append_left hlt
    · rw [List.getElem?_eq_none (by rw [List.length_append, List.length_singleton]; omega),
        List.getElem?_eq_none (Nat.le_of_lt hgt)]

theorem Kept.fresh (h : t.Kept) : t.Forgotten t.slots.length :=
  ⟨fun entry hentry => Nat.ne_of_lt (h.connections entry hentry), fun hk => Nat.lt_irrefl _ (h.readEvents _ hk)⟩

theorem Kept.add (h : t.Kept) (hslot : slot.role ≠ .active) : (t.add slot).Kept := by
  have hlength : (t.add slot).slots.length = t.slots.length + 1 := List.length_append
  refine ⟨fun entry hentry => ?_, h.single, fun k hk => ?_, fun i other hother => ?_⟩
  · rw [hlength]
    exact Nat.lt_succ_of_lt (h.connections entry hentry)
  · rw [hlength]
    exact Nat.lt_succ_of_lt (h.readEvents k hk)
  · rw [getElem?_add] at hother
    split_ifs at hother with hi
    · obtain rfl := Option.some.inj hother
      exact ⟨fun _ => hi ▸ ⟨h.fresh.connections, h.fresh.readEvents⟩, fun hactive => absurd hactive hslot⟩
    · obtain ⟨hgone, hawaited⟩ := h.tracks i other hother
      exact ⟨fun hg => ⟨(hgone hg).connections, (hgone hg).readEvents⟩, hawaited⟩

theorem Kept.enroll (h : t.Kept) (key : ConnKey) (hslot : ¬ slot.Gone) (hslots : u.slots = (t.add slot).slots)
    (hconnections : u.connections = t.connections.set key t.slots.length)
    (hevents : u.readEvents = t.readEvents.set t.slots.length false) : u.Kept := by
  have hlength : u.slots.length = t.slots.length + 1 := by
    rw [hslots]
    exact List.length_append
  refine ⟨fun entry hentry => ?_, fun entry hentry other hother => ?_, fun k hk => ?_, fun i found hfound => ?_⟩
  · rw [hconnections] at hentry
    rw [hlength]
    rcases Dict.mem_set.mp hentry with rfl | ⟨-, hold⟩
    · exact Nat.lt_succ_self _
    · exact Nat.lt_succ_of_lt (h.connections entry hold)
  · rw [hconnections] at hentry hother
    intro heq
    rcases Dict.mem_set.mp hentry with rfl | ⟨-, hold⟩ <;> rcases Dict.mem_set.mp hother with rfl | ⟨-, hold'⟩
    · rfl
    · exact absurd heq.symm (Nat.ne_of_lt (h.connections other hold'))
    · exact absurd heq (Nat.ne_of_lt (h.connections entry hold))
    · exact h.single entry hold other hold' heq
  · rw [hevents] at hk
    rw [hlength]
    rcases Dict.mem_keys_set.mp hk with rfl | hold
    · exact Nat.lt_succ_self _
    · exact Nat.lt_succ_of_lt (h.readEvents k hold)
  · rw [hslots, getElem?_add] at hfound
    split_ifs at hfound with hi
    · obtain rfl := Option.some.inj hfound
      refine ⟨fun hg => absurd hg hslot, fun _ _ => ?_⟩
      rw [hevents, hi]
      exact Dict.mem_keys_set.mpr (.inl rfl)
    · obtain ⟨hgone, hawaited⟩ := h.tracks i found hfound
      refine ⟨fun hg => ⟨fun entry hentry => ?_, fun hk => ?_⟩, fun hactive hphase => ?_⟩
      · rw [hconnections] at hentry
        rcases Dict.mem_set.mp hentry with rfl | ⟨-, hold⟩
        · exact Ne.symm hi
        · exact (hgone hg).connections entry hold
      · rw [hevents] at hk
        exact (Dict.mem_keys_set.mp hk).elim hi (hgone hg).readEvents
      · rw [hevents]
        exact Dict.mem_keys_set.mpr (.inr (hawaited hactive hphase))

theorem Kept.adopted (h : t.Kept) (ip : Bytes) (onAccept : Option Nat) {child : TCPConnection}
    (hchild : child.state ≠ .closed) : (t.adopted ip onAccept child).Kept := by
  cases onAccept with
  | none => exact h.add nofun
  | some port =>
    have hgone : ¬ (childSlot (some port) child).Gone := hchild
    rw [Tables.adopted, enqueueAccept]
    split <;> exact h.enroll _ hgone rfl rfl rfl

theorem Kept.tcpListen (h : t.Kept) (ip : Bytes) (port backlog : Nat) : (t.tcpListen ip port backlog).2.Kept := by
  unfold Tables.tcpListen
  split_ifs
  · exact h
  · have hadd : (t.add (t.listenerSlot ip port backlog)).Kept := h.add Role.noConfusion
    exact hadd.of_eq rfl rfl rfl

theorem Kept.tcpAccept (h : t.Kept) (port : Nat) (expired : Bool) : (t.tcpAccept port expired).2.Kept := by
  unfold Tables.tcpAccept
  split
  · exact h
  · exact h
  · exact h.of_eq rfl rfl rfl

theorem Kept.register (h : t.Kept) (ip : Bytes) (port : Nat) (remoteIp : Bytes) (remotePort : Nat) :
    (t.register ip port remoteIp remotePort).Kept :=
  @Kept.enroll t _ (t.activeSlot ip port remoteIp remotePort) h _ nofun rfl rfl rfl

/-! ### Closed connections of `tcp_connect` -/

theorem Failing.of_eq (h : t.Failing) (hslots : u.slots = t.slots) : u.Failing := by
  rw [Failing, hslots]
  exact h

theorem Failing.modify (h : t.Failing) {f : Slot → Slot} (hf : ∀ slot : Slot, (f slot).ep = slot.ep ∧
    (f slot).role = slot.role ∧ (f slot).established = slot.established ∧ (f slot).failed = slot.failed) :
    (t.modifySlot id f).Failing := by
  intro i slot hslot hactive hclosed
  by_cases hi : i = id
  · subst hi
    rw [Tables.modifySlot, List.getElem?_modify_eq] at hslot
    obtain ⟨old, hold, rfl⟩ := Option.map_eq_some_iff.mp hslot
    obtain ⟨hep, hrole, hestablished, hfailed⟩ := hf old
    rw [hrole] at hactive
    rw [hep] at hclosed
    rw [hestablished, hfailed]
    exact h i old hold hactive hclosed
  · rw [Tables.modifySlot, List.getElem?_modify_ne _ _ (Ne.symm hi)] at hslot
    exact h i slot hslot hactive hclosed

theorem Failing.markShut (h : t.Failing) (id : ConnId) : (t.markShut id).Failing :=
  h.modify fun _ => ⟨rfl, rfl, rfl, rfl⟩

theorem Failing.connected (h : t.Failing) (id : ConnId) : (t.connected id).Failing :=
  h.modify fun _ => ⟨rfl, rfl, rfl, rfl⟩

theorem Failing.refused (h : t.Failing) (id : ConnId) : (t.refused id).Failing := by
  have hforget : (t.forget id).Failing := h.of_eq rfl
  exact hforget.modify fun _ => ⟨rfl, rfl, rfl, rfl⟩

theorem Failing.add (h : t.Failing) (hslot : slot.role ≠ .active) : (t.add slot).Failing := by
  intro i other hother hactive hclosed
  rw [getElem?_add] at hother
  split_ifs at hother
  · obtain rfl := Option.some.inj hother
    exact absurd hactive hslot
  · exact h i other hother hactive hclosed

theorem Failing.adopted (h : t.Failing) (ip : Bytes) (onAccept : Option Nat) (child : TCPConnection) :
    (t.adopted ip onAccept child).Failing := by
  have hadd : (t.add (childSlot onAccept child)).Failing := h.add nofun
  cases onAccept with
  | none => exact hadd
  | some port =>
    rw [Tables.adopted, enqueueAccept]
    split <;> exact hadd.of_eq rfl

/-- A connection that is being opened is not closed, so nothing is asked of it. -/
theorem Failing.connect (h : t.Failing) (ip : Bytes) (port : Nat) (remoteIp : Bytes) (remotePort : Nat)
    (draw : SeqNo) (now : Time) :
    ((t.register ip port remoteIp remotePort).called t.slots.length (.connect draw now)).Failing := by
  have hget : ∀ i : ConnId, (t.register ip port remoteIp remotePort).slots[i]? =
      if i = t.slots.length then some (t.activeSlot ip port remoteIp remotePort) else t.slots[i]? :=
    getElem?_add t (t.activeSlot ip port remoteIp remotePort)
  have hnew := hget t.slots.length
  rw [if_pos rfl] at hnew
  intro i slot hslot hactive hclosed
  by_cases hi : i = t.slots.length
  · subst hi
    obtain ⟨slot', hslot', hep, -⟩ := slot_called hnew (.connect draw now)
    obtain rfl := Option.some.inj (hslot.symm.trans hslot')
    rw [hep] at hclosed
    cases hclosed
  · rw [(local_called hnew (.connect draw now)).other i hi, hget, if_neg hi] at hslot
    exact h i slot hslot hactive hclosed

/-! ### Events -/

/-- Both invariants. -/
def Sane (t : Tables) : Prop := t.Kept ∧ t.Failing

theorem Sane.called (h : t.Sane) (id : ConnId) (e : Event) : (t.called id e).Sane :=
  ⟨h.1.called id e, h.2.called id e⟩

theorem Sane.segment (h : t.Sane) (ip : Bytes) (id : ConnId) (seg : TCPSegment)
    (src : Bytes) (draw : SeqNo) (now : Time) :
    (t.segment ip id seg src draw now).Sane := by
  unfold Tables.segment
  split
  · exact h
  · rename_i slot _
    have hcalled := h.called id (.segment seg (some src) draw now)
    dsimp only
    rw [TCPConnection.onSegment_snd]
    split_ifs
    · exact ⟨hcalled.1.adopted ip _ nofun, hcalled.2.adopted ip _ _⟩
    · exact hcalled

theorem Sane.tick (h : t.Sane) (now : Time) : (t.tick now).Sane := by
  unfold Tables.tick
  generalize t.connections.values = ids
  induction ids generalizing t with
  | nil => exact h
  | cons id ids ih => exact ih (h.called id _)

theorem Sane.tcpListen (h : t.Sane) (ip : Bytes) (port backlog : Nat) : (t.tcpListen ip port backlog).2.Sane := by
  refine ⟨h.1.tcpListen ip port backlog, ?_⟩
  unfold Tables.tcpListen
  split_ifs
  · exact h.2
  · have hadd : (t.add (t.listenerSlot ip port backlog)).Failing := h.2.add Role.noConfusion
    exact hadd.of_eq rfl

theorem Sane.tcpAccept (h : t.Sane) (port : Nat) (expired : Bool) : (t.tcpAccept port expired).2.Sane := by
  refine ⟨h.1.tcpAccept port expired, ?_⟩
  unfold Tables.tcpAccept
  split
  · exact h.2
  · exact h.2
  · exact h.2.of_eq rfl

theorem Sane.localPort (h : t.Sane) (port : Nat) : (t.localPort port).2.Sane := by
  obtain ⟨n, hn⟩ := localPort_eq t port
  rw [hn]
  exact ⟨h.1.of_eq rfl rfl rfl, h.2.of_eq rfl⟩

theorem Sane.tcpConnect (h : t.Sane) (ip remoteIp : Bytes) (remotePort port : Nat) (draw : SeqNo) (now : Time) :
    (t.tcpConnect ip remoteIp remotePort port draw now).Sane := by
  have hlocal := h.localPort port
  unfold Tables.tcpConnect
  generalize t.localPort port = r at hlocal
  obtain ⟨found, t'⟩ := r
  cases found with
  | error e => exact hlocal
  | ok found =>
    exact ⟨(hlocal.1.register ip found remoteIp remotePort).called _ _,
      hlocal.2.connect ip found remoteIp remotePort draw now⟩

theorem Sane.refused (h : t.Sane) (id : ConnId) : (t.refused id).Sane := ⟨h.1.refused id, h.2.refused id⟩

theorem Sane.connectWait (h : t.Sane) (id : ConnId) (expired : Bool) (now : Time) :
    (t.connectWait id expired now).Sane := by
  unfold Tables.connectWait
  split
  · exact h
  · rename_i slot hslot
    split_ifs with hskip
    · exact h
    · exact h.refused id
    · obtain ⟨hrole, hphase⟩ := not_or.mp hskip
      exact ⟨h.1.connected hslot (not_not.mp hphase) (not_not.mp hrole), h.2.connected id⟩
    · exact (h.called id _).refused id
    · exact h

theorem Sane.markShut (h : t.Sane) (id : ConnId) : (t.markShut id).Sane := ⟨h.1.markShut id, h.2.markShut id⟩

theorem Sane.tcpClose (h : t.Sane) (id : ConnId) (now : Time) : (t.tcpClose id now).Sane :=
  (h.markShut id).called id _

theorem Sane.closeSocket (h : t.Sane) (id : ConnId) (now : Time) : (t.closeSocket id now).Sane := by
  unfold Tables.closeSocket
  split_ifs
  · exact h.markShut id
  · exact h.tcpClose id now

theorem Sane.step (h : t.Sane) (ip : Bytes) (e : TableEvent) : (t.step ip e).Sane := by
  cases e with
  | quiet => exact h
  | allocate port => exact h.localPort port
  | segment id seg src draw now => exact h.segment ip id seg src draw now
  | tick now => exact h.tick now
  | tcpListen port backlog => exact h.tcpListen ip port backlog
  | tcpAccept port expired => exact h.tcpAccept port expired
  | tcpConnect remoteIp remotePort port draw now => exact h.tcpConnect ip remoteIp remotePort port draw now
  | connectWait id expired now => exact h.connectWait id expired now
  | send id data now => exact h.called id _
  | recv id maxBytes now => exact h.called id _
  | abort id now => exact h.called id _
  | tcpClose id now => exact h.tcpClose id now
  | closeSocket id now => exact h.closeSocket id now

/-! ### What nothing takes out of the tables -/

/-- None of it has ended. -/
def Live (t : Tables) : Prop :=
  ∀ (id : ConnId) (slot : Slot), t.slots[id]? = some slot → t.Lingers id slot → slot.ep.conn.state ≠ .closed

/-- No socket that listens was closed. -/
def Unshut (t : Tables) : Prop :=
  ∀ entry ∈ t.listeners.items, ∀ slot : Slot, t.slots[entry.2]? = some slot → slot.shut = false

theorem Kept.free (h : t.Kept) (hclosed : ∀ (id : ConnId) (slot : Slot), t.slots[id]? = some slot →
    slot.ep.conn.state = .closed → ¬ slot.Opening → t.Forgotten id)
    (hlistening : ∀ entry ∈ t.listeners.items, t.Heard entry.2) {port : Nat} (hport : t.portInUse port = true) :
    (∃ entry ∈ t.listeners.items, entry.1 = port ∧ t.Heard entry.2) ∨
      ∃ entry ∈ t.connections.items, entry.1.2.1 = port ∧
        ∃ slot : Slot, t.slots[entry.2]? = some slot ∧ (slot.ep.conn.state ≠ .closed ∨ slot.Opening) := by
  rcases (Bool.or_eq_true _ _).mp hport with hlisteners | hkeys
  · obtain ⟨entry, hentry, rfl⟩ := List.mem_map.mp (Dict.contains_iff.mp hlisteners)
    exact .inl ⟨entry, hentry, rfl, hlistening entry hentry⟩
  · obtain ⟨key, hkey, heq⟩ := List.any_eq_true.mp hkeys
    obtain ⟨entry, hentry, rfl⟩ := List.mem_map.mp hkey
    have hslot := List.getElem?_eq_getElem (h.connections entry hentry)
    refine .inr ⟨entry, hentry, by simpa using heq, _, hslot, ?_⟩
    by_contra hover
    obtain ⟨hstate, hopening⟩ := not_or.mp hover
    exact (hclosed entry.2 _ hslot (not_not.mp hstate) hopening).connections entry hentry rfl

theorem heard_iff (hl : t.Listed) :
    (∀ entry ∈ t.listeners.items, t.Heard entry.2) ↔
      t.Unshut ∧ ∀ id ∈ t.listeners.values, ∀ slot : Slot, t.slots[id]? = some slot →
        slot.ep.conn.state ≠ .closed := by
  constructor
  · intro h
    refine ⟨fun entry hentry slot hslot => ?_, fun id hid slot hslot => ?_⟩
    · obtain ⟨found, hfound, hshut, -⟩ := h entry hentry
      obtain rfl := Option.some.inj (hfound.symm.trans hslot)
      exact hshut
    · obtain ⟨entry, hentry, rfl⟩ := List.mem_map.mp hid
      obtain ⟨found, hfound, -, hstate⟩ := h entry hentry
      obtain rfl := Option.some.inj (hfound.symm.trans hslot)
      exact hstate
  · rintro ⟨hunshut, hopen⟩ entry hentry
    obtain ⟨slot, hslot, -⟩ := hl entry hentry
    exact ⟨slot, hslot, hunshut entry hentry slot hslot, hopen entry.2 (List.mem_map_of_mem hentry) slot hslot⟩

/-- The tables have only what is in use when nothing that lingers has ended. -/
theorem Kept.released_iff (h : t.Kept) (hl : t.Listed) : t.Released ↔ t.Live ∧ t.Unshut := by
  constructor
  · intro hr
    obtain ⟨hunshut, hopen⟩ := (heard_iff hl).mp hr.listening
    refine ⟨fun id slot hslot hlingers hclosed => ?_, hunshut⟩
    rcases hlingers with ⟨hrole, hphase⟩ | hid
    · have hforgotten := hr.closed id slot hslot hclosed fun hopening => by
        rw [hopening.2] at hphase
        cases hphase
      exact hforgotten.readEvents ((h.tracks id slot hslot).awaited hrole (by rw [hphase]; decide))
    · exact hopen id hid slot hslot hclosed
  · rintro ⟨hlive, hunshut⟩
    have hlistening := (heard_iff hl).mpr ⟨hunshut, fun id hid slot hslot => hlive id slot hslot (.inr hid)⟩
    have hclosed : ∀ (id : ConnId) (slot : Slot), t.slots[id]? = some slot → slot.ep.conn.state = .closed →
        ¬ slot.Opening → t.Forgotten id := by
      intro id slot hslot hclosed hopening
      apply (h.tracks id slot hslot).gone
      unfold Slot.Gone
      cases hrole : slot.role with
      | listener port backlog => trivial
      | accepted port => exact hclosed
      | active =>
        cases hphase : slot.phase with
        | waiting => exact absurd ⟨hrole, hphase⟩ hopening
        | returned => exact absurd hclosed (hlive id slot hslot (.inl ⟨hrole, hphase⟩))
        | raised => rfl
    exact ⟨hclosed, fun _ hport => h.free hclosed hlistening hport, hlistening⟩

theorem live_congr (hslots : u.slots = t.slots) (hlisteners : u.listeners = t.listeners) : u.Live ↔ t.Live := by
  unfold Live Lingers
  rw [hslots, hlisteners]

theorem Live.modify (h : t.Live) {f : Slot → Slot} (hf : ∀ slot : Slot, t.slots[id]? = some slot →
    t.Lingers id (f slot) → (f slot).ep.conn.state ≠ .closed) : (t.modifySlot id f).Live := by
  intro i slot hslot
  by_cases hi : i = id
  · subst hi
    rw [Tables.modifySlot, List.getElem?_modify_eq] at hslot
    obtain ⟨old, hold, rfl⟩ := Option.map_eq_some_iff.mp hslot
    exact hf old hold
  · rw [Tables.modifySlot, List.getElem?_modify_ne _ _ (Ne.symm hi)] at hslot
    exact h i slot hslot

theorem Listed.fresh (hl : t.Listed) : t.slots.length ∉ t.listeners.values := by
  intro hmem
  obtain ⟨entry, hentry, heq⟩ := List.mem_map.mp hmem
  exact absurd heq (Nat.ne_of_lt (hl.lt hentry))

theorem Live.add (h : t.Live) (hl : t.Listed) (hslot : ¬ slot.Connected) : (t.add slot).Live := by
  intro i other hother hlingers
  rw [getElem?_add] at hother
  split_ifs at hother with hi
  · obtain rfl := Option.some.inj hother
    subst hi
    exact absurd hlingers (not_or.mpr ⟨hslot, hl.fresh⟩)
  · exact h i other hother hlingers

theorem live_of_add (h : (t.add slot).Live) : t.Live := by
  intro i other hother
  apply h i other
  rw [getElem?_add, if_neg]
  · exact hother
  · rintro rfl
    rw [List.getElem?_eq_none (le_refl _)] at hother
    cases hother

theorem lingers_called (t : Tables) (id i : ConnId) (e : Event) (slot : Slot) :
    (t.called id e).Lingers i slot ↔ t.Lingers i slot := by
  rw [Lingers, Lingers, (Steady.called t id e).listeners]

theorem live_called_iff (h : t.Live) (id : ConnId) (e : Event) : (t.called id e).Live ↔ ¬ t.Drops id e := by
  constructor
  · rintro hlive ⟨slot, hslot, hlingers, hopen, hends⟩
    obtain ⟨slot', hslot', hep, hrole', hphase', -⟩ := slot_called hslot e
    refine hlive id slot' hslot' ((lingers_called t id id e slot').mpr ?_) ?_
    · exact hlingers.imp_left fun hconnected => ⟨hrole'.trans hconnected.1, hphase'.trans hconnected.2⟩
    · rw [hep]
      exact (ends_step_iff hopen e).mpr hends
  · intro hdrops
    cases hslot : t.slots[id]? with
    | none =>
      rw [called_none hslot]
      exact h
    | some slot =>
      intro i other hother hlingers
      rw [lingers_called] at hlingers
      by_cases hi : i = id
      · subst hi
        obtain ⟨slot', hslot', hep, hrole', hphase', -⟩ := slot_called hslot e
        obtain rfl := Option.some.inj (hother.symm.trans hslot')
        have hold : t.Lingers i slot := hlingers.imp_left fun hconnected =>
          ⟨hrole'.symm.trans hconnected.1, hphase'.symm.trans hconnected.2⟩
        have hopen := h i slot hslot hold
        rw [hep]
        exact fun hclosed => hdrops ⟨slot, hslot, hold, hopen, (ends_step_iff hopen e).mp hclosed⟩
      · rw [(local_called hslot e).other i hi] at hother
        exact h i other hother hlingers

theorem getElem?_called (t : Tables) {i : ConnId} (h : i ≠ id) (e : Event) :
    (t.called id e).slots[i]? = t.slots[i]? := by
  cases hslot : t.slots[id]? with
  | none => rw [called_none hslot]
  | some slot => exact (local_called hslot e).other i h

theorem getElem?_foldl_called (ids : List ConnId) (t : Tables) {i : ConnId} (h : i ∉ ids) (e : Event) :
    (ids.foldl (fun t id => t.called id e) t).slots[i]? = t.slots[i]? := by
  induction ids generalizing t with
  | nil => rfl
  | cons id ids ih =>
    rw [List.mem_cons, not_or] at h
    obtain ⟨hne, hrest⟩ := h
    rw [List.foldl_cons, ih _ hrest, getElem?_called t hne]

theorem drops_congr (hslot : u.slots[id]? = t.slots[id]?) (hlisteners : u.listeners = t.listeners) (e : Event) :
    u.Drops id e ↔ t.Drops id e := by
  unfold Drops Lingers
  rw [hslot, hlisteners]

theorem listeners_foldl_called (ids : List ConnId) (t : Tables) (e : Event) :
    (ids.foldl (fun t id => t.called id e) t).listeners = t.listeners := by
  induction ids generalizing t with
  | nil => rfl
  | cons id ids ih => exact (ih _).trans (Steady.called t id e).listeners

theorem live_foldl_iff {ids : List ConnId} (hids : ids.Nodup) (h : t.Live) (e : Event) :
    (ids.foldl (fun t id => t.called id e) t).Live ↔ ∀ id ∈ ids, ¬ t.Drops id e := by
  induction ids generalizing t with
  | nil => exact iff_of_true h fun _ h => absurd h List.not_mem_nil
  | cons id ids ih =>
    obtain ⟨hid, hrest⟩ := List.nodup_cons.mp hids
    rw [List.foldl_cons, List.forall_mem_cons]
    by_cases hdrops : t.Drops id e
    · refine iff_of_false (fun hlive => ?_) fun hall => hall.1 hdrops
      refine absurd hdrops ((live_called_iff h id e).mp ?_)
      intro i other hother hlingers
      by_cases hi : i = id
      · rw [hi] at hother hlingers
        apply hlive id other
        · rw [getElem?_foldl_called ids _ hid, hother]
        · rw [Lingers, listeners_foldl_called]
          exact hlingers
      · rw [getElem?_called t hi] at hother
        exact h i other hother ((lingers_called t id i e other).mp hlingers)
    · rw [ih hrest ((live_called_iff h id e).mpr hdrops), and_iff_right hdrops]
      refine forall₂_congr fun j hj =>
        not_congr (drops_congr (getElem?_called t ?_ e) (Steady.called t id e).listeners e)
      rintro rfl
      exact hid hj

theorem Kept.nodup_values (h : t.Kept) : t.connections.values.Nodup := by
  have hitems : t.connections.items.Nodup := List.Nodup.of_map _ t.connections.nodup
  exact hitems.map_on h.single

/-! ### Listening sockets -/

theorem unshut_congr (hlisteners : u.listeners = t.listeners)
    (hshut : ∀ i : ConnId, (u.slots[i]?).map Slot.shut = (t.slots[i]?).map Slot.shut) : u.Unshut ↔ t.Unshut := by
  have hmap : ∀ v : Tables, v.Unshut ↔
      ∀ entry ∈ v.listeners.items, ∀ shut, (v.slots[entry.2]?).map Slot.shut = some shut → shut = false := by
    intro v
    refine forall₂_congr fun entry _ => ⟨fun h shut hshut => ?_, fun h slot hslot => ?_⟩
    · obtain ⟨slot, hslot, rfl⟩ := Option.map_eq_some_iff.mp hshut
      exact h slot hslot
    · exact h slot.shut (by rw [hslot]; rfl)
  rw [hmap, hmap, hlisteners]
  simp only [hshut]

theorem shut_called (t : Tables) (id : ConnId) (e : Event) (i : ConnId) :
    ((t.called id e).slots[i]?).map Slot.shut = (t.slots[i]?).map Slot.shut := by
  cases hslot : t.slots[id]? with
  | none => rw [called_none hslot]
  | some slot =>
    by_cases hi : i = id
    · subst hi
      obtain ⟨slot', hslot', -, -, -, hshut⟩ := slot_called hslot e
      rw [hslot, hslot', Option.map_some, Option.map_some, hshut]
    · rw [(local_called hslot e).other i hi]

theorem unshut_called_iff (t : Tables) (id : ConnId) (e : Event) : (t.called id e).Unshut ↔ t.Unshut :=
  unshut_congr (Steady.called t id e).listeners (shut_called t id e)

theorem Unshut.modify (h : t.Unshut) {f : Slot → Slot} (hf : ∀ slot, (f slot).shut = slot.shut) :
    (t.modifySlot id f).Unshut := by
  have hshut : ∀ i : ConnId, ((t.modifySlot id f).slots[i]?).map Slot.shut = (t.slots[i]?).map Slot.shut := by
    intro i
    rw [Tables.modifySlot, List.getElem?_modify]
    cases t.slots[i]? with
    | none => rfl
    | some slot =>
      by_cases hi : id = i <;> simp [hi, hf]
  exact (unshut_congr (u := t.modifySlot id f) (t := t) rfl hshut).mpr h

theorem Unshut.add (h : t.Unshut) (hl : t.Listed) (slot : Slot) : (t.add slot).Unshut := by
  intro entry hentry other hother
  rw [getElem?_add, if_neg (Nat.ne_of_lt (hl.lt hentry))] at hother
  exact h entry hentry other hother

theorem unshut_markShut_iff (h : t.Unshut) (hl : t.Listed) (id : ConnId) :
    (t.markShut id).Unshut ↔ id ∉ t.listeners.values := by
  constructor
  · intro hunshut hmem
    obtain ⟨entry, hentry, rfl⟩ := List.mem_map.mp hmem
    have hslot := List.getElem?_eq_getElem (hl.lt hentry)
    have hshut := hunshut entry hentry _ (by
      rw [Tables.markShut, Tables.modifySlot, List.getElem?_modify_eq, hslot]
      rfl)
    cases hshut
  · intro hid entry hentry slot hslot
    have hne : entry.2 ≠ id := fun heq => hid (heq ▸ List.mem_map_of_mem hentry)
    rw [Tables.markShut, Tables.modifySlot, List.getElem?_modify_ne _ _ hne.symm] at hslot
    exact h entry hentry slot hslot

/-! ### The step -/

theorem live_segment_iff (h : t.Live) (hl : t.Listed) (ip : Bytes) (id : ConnId) (seg : TCPSegment)
    (src : Bytes) (draw : SeqNo) (now : Time) :
    (t.segment ip id seg src draw now).Live ↔ ¬ t.Drops id (.segment seg (some src) draw now) := by
  have hlisted := (Steady.called t id (.segment seg (some src) draw now)).listed hl
  rw [← live_called_iff h]
  unfold Tables.segment
  cases hslot : t.slots[id]? with
  | none => rw [called_none hslot]
  | some slot =>
    dsimp only
    cases (slot.ep.conn.onSegment seg (some src) draw now).2 with
    | none => rfl
    | some child =>
      have hadd : ∀ onAccept, ((t.called id (.segment seg (some src) draw now)).add (childSlot onAccept child)).Live ↔
          (t.called id (.segment seg (some src) draw now)).Live := fun onAccept =>
        ⟨live_of_add, fun hlive => hlive.add hlisted fun hconnected => nomatch hconnected.1⟩
      dsimp only
      generalize slot.role.onAccept = onAccept
      cases onAccept with
      | none => exact hadd none
      | some port =>
        rw [adopted, enqueueAccept]
        split <;> exact (live_congr rfl rfl).trans (hadd (some port))

theorem Unshut.segment (h : t.Unshut) (hl : t.Listed) (ip : Bytes) (id : ConnId) (seg : TCPSegment) (src : Bytes)
    (draw : SeqNo) (now : Time) : (t.segment ip id seg src draw now).Unshut := by
  have hcalled := (unshut_called_iff t id (.segment seg (some src) draw now)).mpr h
  have hlisted := (Steady.called t id (.segment seg (some src) draw now)).listed hl
  unfold Tables.segment
  split
  · exact h
  · rename_i slot _
    dsimp only
    split
    · exact hcalled
    · rename_i child _
      generalize slot.role.onAccept = onAccept
      have hadd := hcalled.add hlisted (childSlot onAccept child)
      cases onAccept with
      | none => exact hadd
      | some port =>
        rw [adopted, enqueueAccept]
        split <;> exact hadd

theorem unshut_tick_iff (t : Tables) (now : Time) : (t.tick now).Unshut ↔ t.Unshut := by
  unfold Tables.tick
  generalize t.connections.values = ids
  induction ids generalizing t with
  | nil => rfl
  | cons id ids ih => exact (ih _).trans (unshut_called_iff t id _)

theorem Unshut.tcpListen (h : t.Unshut) (hl : t.Listed) (ip : Bytes) (port backlog : Nat) :
    (t.tcpListen ip port backlog).2.Unshut := by
  unfold Tables.tcpListen
  split_ifs
  · exact h
  intro entry hentry slot hslot
  change (t.add (t.listenerSlot ip port backlog)).slots[entry.2]? = some slot at hslot
  rcases Dict.mem_set.mp hentry with rfl | ⟨-, hold⟩
  · rw [getElem?_add, if_pos rfl] at hslot
    obtain rfl := Option.some.inj hslot
    rfl
  · exact h.add hl _ entry hold slot hslot

theorem Live.tcpListen (h : t.Live) (ip : Bytes) (port backlog : Nat) :
    (t.tcpListen ip port backlog).2.Live := by
  unfold Tables.tcpListen
  split_ifs
  · exact h
  intro i slot hslot hlingers
  change (t.add (t.listenerSlot ip port backlog)).slots[i]? = some slot at hslot
  rw [getElem?_add] at hslot
  split_ifs at hslot with hi
  · obtain rfl := Option.some.inj hslot
    intro hclosed
    cases hclosed
  · refine h i slot hslot (hlingers.imp_right fun hmem => ?_)
    obtain ⟨entry, hentry, rfl⟩ := List.mem_map.mp hmem
    rcases Dict.mem_set.mp hentry with rfl | ⟨-, hold⟩
    · exact absurd rfl hi
    · exact List.mem_map_of_mem hold

theorem Live.tcpConnect (h : t.Live) (hl : t.Listed) (ip remoteIp : Bytes) (remotePort port : Nat) (draw : SeqNo)
    (now : Time) :
    (t.tcpConnect ip remoteIp remotePort port draw now).Live := by
  obtain ⟨n, hn⟩ := localPort_eq t port
  have hlocal : (t.localPort port).2.Live ∧ (t.localPort port).2.Listed := hn ▸ ⟨(live_congr rfl rfl).mpr h, hl⟩
  unfold Tables.tcpConnect
  generalize t.localPort port = r at hlocal
  obtain ⟨found, t'⟩ := r
  cases found with
  | error e => exact hlocal.1
  | ok found =>
    have hadd : (t'.add (t'.activeSlot ip found remoteIp remotePort)).Live :=
      hlocal.1.add hlocal.2 fun hconnected => nomatch hconnected.2
    have hregister : (t'.register ip found remoteIp remotePort).Live := (live_congr rfl rfl).mpr hadd
    refine (live_called_iff hregister _ _).mpr ?_
    rintro ⟨slot, -, -, -, hends⟩
    exact hends

theorem Unshut.tcpConnect (h : t.Unshut) (hl : t.Listed) (ip remoteIp : Bytes) (remotePort port : Nat) (draw : SeqNo)
    (now : Time) : (t.tcpConnect ip remoteIp remotePort port draw now).Unshut := by
  obtain ⟨n, hn⟩ := localPort_eq t port
  have hlocal : (t.localPort port).2.Unshut ∧ (t.localPort port).2.Listed := hn ▸ ⟨h, hl⟩
  unfold Tables.tcpConnect
  generalize t.localPort port = r at hlocal
  obtain ⟨found, t'⟩ := r
  cases found with
  | error e => exact hlocal.1
  | ok found =>
    have hadd := hlocal.1.add hlocal.2 (t'.activeSlot ip found remoteIp remotePort)
    exact (unshut_called_iff _ _ _).mpr hadd

theorem not_drops_of_opening (hl : t.Listed) (hslot : t.slots[id]? = some slot) (hopening : slot.Opening) (e : Event) :
    ¬ t.Drops id e := by
  obtain ⟨hrole, hphase⟩ := hopening
  rintro ⟨other, hother, ⟨-, hreturned⟩ | hmem, -, -⟩
  · obtain rfl := Option.some.inj (hslot.symm.trans hother)
    rw [hphase] at hreturned
    cases hreturned
  · obtain ⟨entry, hentry, rfl⟩ := List.mem_map.mp hmem
    obtain ⟨found, hfound, hlistener⟩ := hl entry hentry
    obtain rfl := Option.some.inj (hslot.symm.trans hfound)
    rw [hrole] at hlistener
    cases hlistener

/-- What `tcp_connect` returns is not closed, for then it raises. -/
theorem Live.connectWait (h : t.Live) (hl : t.Listed) (hf : t.Failing) (id : ConnId) (expired : Bool) (now : Time) :
    (t.connectWait id expired now).Live := by
  have hrefused : ∀ u : Tables, u.Live → (u.refused id).Live := by
    intro u hu
    have hforget : (u.forget id).Live := (live_congr rfl rfl).mpr hu
    refine hforget.modify fun slot hslot hlingers => ?_
    exact hforget id slot hslot (.inr (hlingers.resolve_left fun hconnected => nomatch hconnected.2))
  unfold Tables.connectWait
  cases hslot : t.slots[id]? with
  | none => exact h
  | some slot =>
    dsimp only
    split_ifs with hskip hestablished hfailed hexpired
    · exact h
    · exact hrefused t h
    · apply h.modify
      intro old hold hlingers hclosed
      obtain rfl := Option.some.inj (hslot.symm.trans hold)
      rcases hlingers with hconnected | hmem
      · obtain ⟨-, hfail⟩ := hf id slot hslot hconnected.1 hclosed
        apply hfailed
        have hnot : slot.ep.conn.isEstablished = false := by
          rw [TCPConnection.isEstablished, hclosed]
          rfl
        rw [hfail, hnot]
        rfl
      · exact h id slot hslot (.inr hmem) hclosed
    · apply hrefused
      refine (live_called_iff h id _).mpr (not_drops_of_opening hl hslot ?_ _)
      obtain ⟨hrole, hphase⟩ := not_or.mp hskip
      exact ⟨not_not.mp hrole, not_not.mp hphase⟩
    · exact h

theorem Unshut.connectWait (h : t.Unshut) (id : ConnId) (expired : Bool) (now : Time) :
    (t.connectWait id expired now).Unshut := by
  have hrefused : ∀ u : Tables, u.Unshut → (u.refused id).Unshut := by
    intro u hu
    have hforget : (u.forget id).Unshut := hu
    exact hforget.modify fun _ => rfl
  unfold Tables.connectWait
  split
  · exact h
  · split_ifs
    · exact h
    · exact hrefused t h
    · exact h.modify fun _ => rfl
    · exact hrefused _ ((unshut_called_iff t id _).mpr h)
    · exact h

theorem drops_markShut (t : Tables) (id : ConnId) (e : Event) : (t.markShut id).Drops id e ↔ t.Drops id e := by
  unfold Drops Tables.markShut Tables.modifySlot
  rw [List.getElem?_modify_eq]
  constructor
  · rintro ⟨slot', hslot', hrest⟩
    obtain ⟨slot, hslot, rfl⟩ := Option.map_eq_some_iff.mp hslot'
    exact ⟨slot, hslot, hrest⟩
  · rintro ⟨slot, hslot, hrest⟩
    exact ⟨{ slot with shut := true }, by rw [hslot]; rfl, hrest⟩

theorem Live.markShut (h : t.Live) (id : ConnId) : (t.markShut id).Live :=
  h.modify fun slot hslot => h id slot hslot

theorem sober_tcpClose_iff (h : t.Live) (hu : t.Unshut) (hl : t.Listed) (id : ConnId) (now : Time) :
    (t.tcpClose id now).Live ∧ (t.tcpClose id now).Unshut ↔ ¬ t.Drops id (.close now) ∧ id ∉ t.listeners.values := by
  unfold Tables.tcpClose
  rw [live_called_iff (h.markShut id), unshut_called_iff, drops_markShut, unshut_markShut_iff hu hl]

theorem sober_closeSocket_iff (h : t.Live) (hu : t.Unshut) (hl : t.Listed) (id : ConnId) (now : Time) :
    (t.closeSocket id now).Live ∧ (t.closeSocket id now).Unshut ↔
      ¬ t.Drops id (.close now) ∧ id ∉ t.listeners.values := by
  unfold Tables.closeSocket
  split_ifs with hlistener
  · rw [and_iff_right (h.markShut id), unshut_markShut_iff hu hl, iff_and_self]
    rintro hid ⟨slot, hslot, ⟨hrole, -⟩ | hmem, -, -⟩
    · rw [isListener, hslot] at hlistener
      change slot.role.isListener = true at hlistener
      rw [hrole] at hlistener
      cases hlistener
    · exact hid hmem
  · exact sober_tcpClose_iff h hu hl id now

/-- An event keeps the tables free of what has ended exactly when it is tidy. -/
theorem released_step_iff (h : t.Sane) (hl : t.Listed) (hr : t.Released) (ip : Bytes) (e : TableEvent) :
    (t.step ip e).Released ↔ t.Tidy e := by
  obtain ⟨hlive, hunshut⟩ := (h.1.released_iff hl).mp hr
  rw [(h.step ip e).1.released_iff (hl.step ip e)]
  have hcalled : ∀ id e, (t.called id e).Live ∧ (t.called id e).Unshut ↔ ¬ t.Drops id e := fun id e => by
    rw [and_iff_left ((unshut_called_iff t id e).mpr hunshut), live_called_iff hlive]
  cases e with
  | quiet => exact iff_of_true ⟨hlive, hunshut⟩ trivial
  | allocate port =>
    obtain ⟨n, hn⟩ := localPort_eq t port
    change (t.localPort port).2.Live ∧ (t.localPort port).2.Unshut ↔ True
    rw [hn]
    exact iff_of_true ⟨hlive, hunshut⟩ trivial
  | segment id seg src draw now =>
    exact (and_iff_left (hunshut.segment hl ip id seg src draw now)).trans
      (live_segment_iff hlive hl ip id seg src draw now)
  | tick now =>
    exact (and_iff_left ((unshut_tick_iff t now).mpr hunshut)).trans (live_foldl_iff h.1.nodup_values hlive _)
  | tcpListen port backlog =>
    exact iff_of_true ⟨hlive.tcpListen ip port backlog, hunshut.tcpListen hl ip port backlog⟩ trivial
  | tcpAccept port expired =>
    refine iff_of_true ?_ trivial
    change (t.tcpAccept port expired).2.Live ∧ (t.tcpAccept port expired).2.Unshut
    unfold Tables.tcpAccept
    split <;> exact ⟨hlive, hunshut⟩
  | tcpConnect remoteIp remotePort port draw now =>
    exact iff_of_true ⟨hlive.tcpConnect hl ip remoteIp remotePort port draw now,
      hunshut.tcpConnect hl ip remoteIp remotePort port draw now⟩ trivial
  | connectWait id expired now =>
    exact iff_of_true ⟨hlive.connectWait hl h.2 id expired now, hunshut.connectWait id expired now⟩ trivial
  | send id data now =>
    refine (hcalled id _).trans (iff_of_true ?_ trivial)
    rintro ⟨slot, -, -, -, hends⟩
    exact hends
  | recv id maxBytes now =>
    refine (hcalled id _).trans (iff_of_true ?_ trivial)
    rintro ⟨slot, -, -, -, hends⟩
    exact hends
  | abort id now => exact hcalled id _
  | tcpClose id now => exact sober_tcpClose_iff hlive hunshut hl id now
  | closeSocket id now => exact sober_closeSocket_iff hlive hunshut hl id now

end Tables

namespace Stack

/-- All along a run of a stack the tables are free of what has ended exactly when every event of the run is
tidy. -/
theorem always_released_iff (cfg : StackConfig) (es : List StackEvent) :
    stack.Always (fun s => s.toTables.Released) (.new cfg) es ↔
      stack.Meets (fun s e => s.toTables.Tidy (s.view e)) (.new cfg) es := by
  have hsane : (Stack.new cfg).Sane := by
    refine ⟨⟨?_, ?_, ?_, ?_⟩, ?_⟩
    · exact fun _ h => absurd h List.not_mem_nil
    · exact fun _ h => absurd h List.not_mem_nil
    · exact fun _ h => absurd h List.not_mem_nil
    · exact fun _ _ h => by cases h
    · exact fun _ _ h => by cases h
  apply stack.always_iff_meets (E := fun _ _ => True)
    (Q := fun s => s.Sound ∧ s.toTables.Sane ∧ s.toTables.Listed)
  · rintro s e ⟨hs, h, hl⟩ - - -
    rw [stack_next, hs.tables_step]
    exact ⟨hs.step e, h.step s.ip (s.view e), hl.step s.ip (s.view e)⟩
  · rintro s e ⟨hs, h, hl⟩ hr -
    rw [stack_next, hs.tables_step]
    exact Tables.released_step_iff h hl hr s.ip (s.view e)
  · exact stack.meets_true _ es
  · exact ⟨sound_new cfg, hsane, fun _ h => absurd h List.not_mem_nil⟩
  · exact (hsane.1.released_iff fun _ h => absurd h List.not_mem_nil).mpr
      ⟨fun _ _ h => (by cases h), fun _ h => absurd h List.not_mem_nil⟩

/-- A connection to port 80 of 10.0.0.2 is opened, returned and reset. -/
def cutOff : List StackEvent :=
  [.tcpConnect ⟨[10, 0, 0, 2], 80, rfl⟩ 0 100 0,
    .frame (carrySegment
      { srcPort := 80, dstPort := 49152, seq := 500, ack := 101, flags := FLAG_SYN ||| FLAG_ACK, window := 1000 }) 0 0,
    .connectWait 0 false 0,
    .frame (carrySegment { srcPort := 80, dstPort := 49152, seq := 501, ack := 0, flags := FLAG_RST, window := 0 }) 0 0]

/-- A socket listens and is closed. -/
def hungUp : List StackEvent := [.tcpListen 80 16, .closeSocket 0 0]

/-- A reset comes for a socket that listens. -/
def knockedOut : List StackEvent :=
  [.tcpListen 80 16,
    .frame (carrySegment { srcPort := 5000, dstPort := 80, seq := 0, ack := 0, flags := FLAG_RST, window := 0 }) 0 0]

/-- A connection stays in both tables and keeps its port, and a port that was listened on stays taken when the socket
is closed, and when a reset has closed the listener. -/
theorem cutOff_hungUp_knockedOut :
    (((stack.run (.new host) cutOff).slots[0]?.map fun slot => (slot.ep.conn.state, slot.phase)) =
        some (.closed, .returned) ∧
      (stack.run (.new host) cutOff).connections.values = [0] ∧
      (stack.run (.new host) cutOff).readEvents.keys = [0] ∧
      (stack.run (.new host) cutOff).portInUse 49152 = true) ∧
    ((stack.run (.new host) hungUp).listeners.items = [(80, 0)] ∧
      ((stack.run (.new host) hungUp).tcpListen 80).1 = .error (.stackError "port 80 is already listening")) ∧
    (((stack.run (.new host) knockedOut).slots[0]?.map fun slot => slot.ep.conn.state) = some .closed ∧
      (stack.run (.new host) knockedOut).listeners.items = [(80, 0)] ∧
      ((stack.run (.new host) knockedOut).tcpListen 80).1 = .error (.stackError "port 80 is already listening")) ∧
    ¬ stack.Always (fun s => s.toTables.Released) (.new host) cutOff ∧
    ¬ stack.Always (fun s => s.toTables.Released) (.new host) hungUp ∧
    ¬ stack.Always (fun s => s.toTables.Released) (.new host) knockedOut := by
  have hclosed : ((stack.run (.new host) cutOff).slots[0]?.map fun slot => (slot.ep.conn.state, slot.phase)) =
      some (.closed, .returned) := by decide +kernel
  have hvalues : (stack.run (.new host) cutOff).connections.values = [0] := by decide +kernel
  have hkeys : (stack.run (.new host) cutOff).readEvents.keys = [0] := by decide +kernel
  have hport : (stack.run (.new host) cutOff).portInUse 49152 = true := by decide +kernel
  have hlisteners : (stack.run (.new host) hungUp).listeners.items = [(80, 0)] := by decide +kernel
  have hagain : ((stack.run (.new host) hungUp).tcpListen 80).1 =
      .error (.stackError "port 80 is already listening") := by decide +kernel
  have hshut : ((stack.run (.new host) hungUp).slots[0]?.map fun slot => slot.shut) = some true := by decide +kernel
  have hreset : ((stack.run (.new host) knockedOut).slots[0]?.map fun slot => slot.ep.conn.state) = some .closed := by
    decide +kernel
  have hlisteners' : (stack.run (.new host) knockedOut).listeners.items = [(80, 0)] := by decide +kernel
  have hagain' : ((stack.run (.new host) knockedOut).tcpListen 80).1 =
      .error (.stackError "port 80 is already listening") := by decide +kernel
  refine ⟨⟨hclosed, hvalues, hkeys, hport⟩, ⟨hlisteners, hagain⟩, ⟨hreset, hlisteners', hagain'⟩, fun h => ?_,
    fun h => ?_, fun h => ?_⟩
  · have hreleased : (stack.run (.new host) cutOff).Released := h.2.2.2.2
    obtain ⟨slot, hslot, heq⟩ := Option.map_eq_some_iff.mp hclosed
    obtain ⟨hstate, hphase⟩ := Prod.mk.inj heq
    have hforgotten := hreleased.closed 0 slot hslot hstate fun hopening => by
      rw [hopening.2] at hphase
      cases hphase
    apply hforgotten.readEvents
    rw [hkeys]
    exact List.mem_singleton_self 0
  · have hreleased : (stack.run (.new host) hungUp).Released := h.2.2
    obtain ⟨slot, hslot, hopen, -⟩ := hreleased.listening (80, 0) (by rw [hlisteners]; exact List.mem_singleton_self _)
    rw [hslot, Option.map_some, hopen] at hshut
    cases hshut
  · have hreleased : (stack.run (.new host) knockedOut).Released := h.2.2
    obtain ⟨slot, hslot, -, hstate⟩ :=
      hreleased.listening (80, 0) (by rw [hlisteners']; exact List.mem_singleton_self _)
    rw [hslot, Option.map_some] at hreset
    exact hstate (Option.some.inj hreset)

end Stack

end MiniTcp
