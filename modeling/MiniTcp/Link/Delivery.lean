import Mathlib.Algebra.Field.Rat
import Mathlib.Algebra.Order.Field.Basic
import Mathlib.Tactic.Linarith
import MiniTcp.Link.Simulated

/-!
# What a wire delivers

What a link has handed out, has in its queue and has under way is, in some order, what the transmissions put on
their way to it (`conserved`), and each of these frames is one that another link sent, but for one flipped bit. On
a wire whose delay does not vary the order is that of the transmissions (`in_order`). Once the longest delay is
over, a link that asks often enough gets everything (`recv_all`).
-/

namespace MiniTcp

/-- The frames that a transmission puts on their way to a link. -/
def Transmission.arrivals (fault : FaultProfile) (id : LinkId) (t : Transmission) : List Bytes :=
  if fault.lost t.draws then []
  else List.replicate (fault.copies t.draws * t.peers.count id) (fault.carried t.draws t.frame)

namespace VirtualWire

variable {w w' : VirtualWire} {id peer : LinkId} {frame : Bytes} {delay : Time}

variable (id) in
/-- The frames for the link in a list of items. -/
def framesFor (items : List (Time × LinkId × Bytes)) : List Bytes := (items.filter (·.2.1 = id)).map (·.2.2)

variable (w id) in
/-- What the link has handed out and has in its queue, oldest first. -/
def held : List Bytes := (w.endpoint id).received ++ (w.endpoint id).queue

variable (w id) in
/-- What is under way to the link, in the order in which it was sent. -/
def inFlight : List Bytes := framesFor id w.pending

variable (w id) in
/-- What the transmissions put on their way to the link, in their order. -/
def offered : List Bytes := w.log.flatMap (Transmission.arrivals w.fault id)

/-! ### What the operations do -/

/-- Nothing but queues and `pending` can differ. -/
structure Carries (w w' : VirtualWire) : Prop where
  fault : w'.fault = w.fault
  links : w'.links = w.links
  now : w'.now = w.now
  hasWire : ∀ id, (w'.endpoint id).hasWire = (w.endpoint id).hasWire
  isUp : ∀ id, (w'.endpoint id).isUp = (w.endpoint id).isUp
  received : ∀ id, (w'.endpoint id).received = (w.endpoint id).received

theorem Carries.refl (w : VirtualWire) : Carries w w :=
  ⟨rfl, rfl, rfl, fun _ => rfl, fun _ => rfl, fun _ => rfl⟩

theorem Carries.trans {w'' : VirtualWire} (h : Carries w w') (h' : Carries w' w'') : Carries w w'' :=
  ⟨h'.fault.trans h.fault, h'.links.trans h.links, h'.now.trans h.now,
    fun id => (h'.hasWire id).trans (h.hasWire id), fun id => (h'.isUp id).trans (h.isUp id),
    fun id => (h'.received id).trans (h.received id)⟩

@[simp] theorem endpoint_modifyLink (w : VirtualWire) (id : LinkId) (f : SimulatedLink → SimulatedLink) :
    (w.modifyLink id f).endpoint id = f (w.endpoint id) :=
  Function.update_self ..

theorem endpoint_modifyLink_of_ne (w : VirtualWire) (f : SimulatedLink → SimulatedLink) (h : peer ≠ id) :
    (w.modifyLink id f).endpoint peer = w.endpoint peer :=
  Function.update_of_ne h ..

theorem carries_enqueue (w : VirtualWire) (id : LinkId) (frame : Bytes) : Carries w (w.enqueue id frame) := by
  refine ⟨rfl, rfl, rfl, fun peer => ?_, fun peer => ?_, fun peer => ?_⟩
  all_goals
    by_cases h : peer = id
    · subst h
      rw [enqueue, endpoint_modifyLink]
    · rw [enqueue, endpoint_modifyLink_of_ne w _ h]

theorem held_modifyLink (f : SimulatedLink → SimulatedLink)
    (h : (f (w.endpoint id)).received ++ (f (w.endpoint id)).queue = w.held id) :
    (w.modifyLink id f).held peer = w.held peer := by
  by_cases hpeer : peer = id
  · subst hpeer
    rw [held, endpoint_modifyLink, h]
  · rw [held, held, endpoint_modifyLink_of_ne w f hpeer]

theorem held_enqueue (w : VirtualWire) (peer : LinkId) (frame : Bytes) :
    (w.enqueue peer frame).held id = w.held id ++ if peer = id then [frame] else [] := by
  by_cases h : peer = id
  · subst h
    rw [held, enqueue, endpoint_modifyLink, if_pos rfl, held, List.append_assoc]
  · rw [held, enqueue, endpoint_modifyLink_of_ne w _ (Ne.symm h), if_neg h, List.append_nil, held]

theorem foldl_enqueue (id : LinkId) (items : List (Time × LinkId × Bytes)) (w : VirtualWire) :
    Carries w (items.foldl (fun w item => w.enqueue item.2.1 item.2.2) w) ∧
      (items.foldl (fun w item => w.enqueue item.2.1 item.2.2) w).log = w.log ∧
      (items.foldl (fun w item => w.enqueue item.2.1 item.2.2) w).pending = w.pending ∧
      (items.foldl (fun w item => w.enqueue item.2.1 item.2.2) w).held id =
        w.held id ++ framesFor id items := by
  induction items generalizing w with
  | nil => exact ⟨.refl w, rfl, rfl, (List.append_nil _).symm⟩
  | cons item items ih =>
    obtain ⟨hcarries, hlog, hpending, hheld⟩ := ih (w.enqueue item.2.1 item.2.2)
    refine ⟨(carries_enqueue w item.2.1 item.2.2).trans hcarries, hlog, hpending, ?_⟩
    rw [List.foldl_cons, hheld, held_enqueue, List.append_assoc]
    by_cases h : item.2.1 = id <;> simp [framesFor, h]

theorem foldl_carry_now (hdelay : delay ≤ 0) (frame : Bytes) (peers : List LinkId) (w : VirtualWire) :
    Carries w (peers.foldl (fun w peer => w.carry delay frame peer) w) ∧
      (peers.foldl (fun w peer => w.carry delay frame peer) w).log = w.log ∧
      (peers.foldl (fun w peer => w.carry delay frame peer) w).pending = w.pending ∧
      ∀ id, (peers.foldl (fun w peer => w.carry delay frame peer) w).held id =
        w.held id ++ List.replicate (peers.count id) frame := by
  induction peers generalizing w with
  | nil => exact ⟨.refl w, rfl, rfl, fun _ => (List.append_nil _).symm⟩
  | cons peer peers ih =>
    obtain ⟨hcarries, hlog, hpending, hheld⟩ := ih (w.enqueue peer frame)
    rw [List.foldl_cons, carry, if_pos hdelay]
    refine ⟨(carries_enqueue w peer frame).trans hcarries, hlog, hpending, fun id => ?_⟩
    rw [hheld, held_enqueue, List.append_assoc]
    by_cases h : peer = id <;> simp [h, List.replicate_succ]

theorem foldl_carry_later (hdelay : ¬ delay ≤ 0) (frame : Bytes) (peers : List LinkId) (w : VirtualWire) :
    peers.foldl (fun w peer => w.carry delay frame peer) w =
      { w with pending := w.pending ++ peers.map fun peer => (w.now + delay, peer, frame) } := by
  induction peers generalizing w with
  | nil => rw [List.map_nil, List.append_nil, List.foldl_nil]
  | cons peer peers ih =>
    rw [List.foldl_cons, carry, if_neg hdelay, ih, List.map_cons, List.append_assoc]
    rfl

theorem framesFor_append (items items' : List (Time × LinkId × Bytes)) :
    framesFor id (items ++ items') = framesFor id items ++ framesFor id items' := by
  rw [framesFor, List.filter_append, List.map_append, framesFor, framesFor]

theorem framesFor_map (time : Time) (peers : List LinkId) (frame : Bytes) :
    framesFor id (peers.map fun peer => (time, peer, frame)) = List.replicate (peers.count id) frame := by
  induction peers with
  | nil => rfl
  | cons peer peers ih =>
    rw [framesFor] at ih
    by_cases h : peer = id <;> simp [framesFor, h, ih, List.replicate_succ]

theorem count_flatten_replicate (n : Nat) (peers : List LinkId) :
    (List.replicate n peers).flatten.count id = n * peers.count id := by
  rw [List.count_flatten, List.map_replicate, List.sum_replicate_nat]

/-- What a transmission does: the copies without a delay are queued, the others become due together. -/
structure Sends (w w' : VirtualWire) (t : Transmission) : Prop where
  carries : Carries w w'
  log : w'.log = w.log ++ [t]
  copies : ∃ items, w'.pending = w.pending ++ items ∧
    (∀ item ∈ items, item.1 = t.time + w.fault.delay t.draws) ∧
    (0 < w.fault.delay t.draws ∧ (∀ id, w'.held id = w.held id) ∧
        (∀ id, framesFor id items = t.arrivals w.fault id) ∨
      w.fault.delay t.draws ≤ 0 ∧ items = [] ∧ ∀ id, w'.held id = w.held id ++ t.arrivals w.fault id)

theorem transmit_of_alone {sender : LinkId} (h : w.peersOf sender = []) (frame : Bytes) (draws : Draws) :
    w.transmit sender frame draws = { w with transmitted := w.transmitted + 1 } := by
  unfold transmit
  exact if_pos h

/-- The loop over copies and peers, on a wire that differs from `w` in what was counted and noted. -/
theorem sends_foldl {w₁ : VirtualWire} {t : Transmission} (hcarries : Carries w w₁) (hlog : w₁.log = w.log ++ [t])
    (hpending : w₁.pending = w.pending) (hheld : ∀ id, w₁.held id = w.held id) (hnow : t.time = w.now)
    (hlost : w.fault.lost t.draws = false) :
    Sends w ((List.replicate (w.fault.copies t.draws) t.peers).flatten.foldl
      (fun w' peer => w'.carry (w.fault.delay t.draws) (w.fault.carried t.draws t.frame) peer) w₁) t := by
  have harrivals : ∀ id, t.arrivals w.fault id = List.replicate
      ((List.replicate (w.fault.copies t.draws) t.peers).flatten.count id) (w.fault.carried t.draws t.frame) := by
    intro id
    rw [Transmission.arrivals, hlost, if_neg Bool.false_ne_true, count_flatten_replicate]
  generalize (List.replicate (w.fault.copies t.draws) t.peers).flatten = copies at harrivals ⊢
  by_cases hdelay : w.fault.delay t.draws ≤ 0
  · obtain ⟨hloop, hlog', hpending', hheld'⟩ :=
      foldl_carry_now hdelay (w.fault.carried t.draws t.frame) copies w₁
    refine ⟨hcarries.trans hloop, hlog'.trans hlog, [], ?_, by simp, .inr ⟨hdelay, rfl, fun id => ?_⟩⟩
    · rw [hpending', hpending, List.append_nil]
    · rw [hheld', hheld, harrivals]
  · rw [foldl_carry_later hdelay]
    refine ⟨hcarries.trans ⟨rfl, rfl, rfl, fun _ => rfl, fun _ => rfl, fun _ => rfl⟩, hlog,
      copies.map fun peer => (w₁.now + w.fault.delay t.draws, peer, w.fault.carried t.draws t.frame), ?_, ?_,
      .inl ⟨not_le.mp hdelay, hheld, fun id => ?_⟩⟩
    · rw [hpending]
    · intro item hitem
      obtain ⟨peer, -, rfl⟩ := List.mem_map.mp hitem
      rw [hcarries.now, hnow]
    · rw [framesFor_map, harrivals]

theorem sends_transmit {sender : LinkId} (h : w.peersOf sender ≠ []) (frame : Bytes) (draws : Draws) :
    Sends w (w.transmit sender frame draws) ⟨sender, frame, draws, w.peersOf sender, w.now⟩ := by
  unfold transmit
  dsimp only
  rw [if_neg h]
  generalize w.peersOf sender = peers
  cases hlost : w.fault.lost draws with
  | true =>
    have harrivals : ∀ id, Transmission.arrivals w.fault id ⟨sender, frame, draws, peers, w.now⟩ = [] := by
      intro id
      rw [Transmission.arrivals, hlost, if_pos rfl]
    refine ⟨⟨rfl, rfl, rfl, fun _ => rfl, fun _ => rfl, fun _ => rfl⟩, rfl, [], (List.append_nil _).symm, by simp, ?_⟩
    by_cases hdelay : w.fault.delay draws ≤ 0
    · refine .inr ⟨hdelay, rfl, fun id => ?_⟩
      rw [harrivals, List.append_nil]
      rfl
    · refine .inl ⟨not_le.mp hdelay, fun _ => rfl, fun id => ?_⟩
      rw [harrivals]
      rfl
  | false =>
    rw [if_neg Bool.false_ne_true]
    split_ifs
    all_goals
      refine sends_foldl (t := ⟨sender, frame, draws, peers, w.now⟩) ?_ rfl rfl ?_ rfl hlost
      · exact ⟨rfl, rfl, rfl, fun _ => rfl, fun _ => rfl, fun _ => rfl⟩
      · exact fun _ => rfl

theorem pump_spec (w : VirtualWire) :
    Carries w w.pump ∧ w.pump.log = w.log ∧ w.pump.pending = w.pending.filter (·.1 > w.now) ∧
      ∀ id, w.pump.held id = w.held id ++ framesFor id (w.pending.filter (·.1 ≤ w.now)) := by
  have hloop := fun id => foldl_enqueue id (w.pending.filter (·.1 ≤ w.now))
    { w with pending := w.pending.filter (·.1 > w.now) }
  obtain ⟨hcarries, hlog, hpending, -⟩ := hloop 0
  exact ⟨⟨hcarries.fault, hcarries.links, hcarries.now, hcarries.hasWire, hcarries.isUp, hcarries.received⟩, hlog,
    hpending, fun id => (hloop id).2.2.2⟩

/-- Nothing is sent and nothing becomes due. -/
structure Quiet (w w' : VirtualWire) : Prop where
  fault : w'.fault = w.fault
  log : w'.log = w.log
  pending : w'.pending = w.pending
  now : w.now ≤ w'.now
  held : ∀ id, w'.held id = w.held id

theorem quiet_modifyLink (w : VirtualWire) (id : LinkId) (f : SimulatedLink → SimulatedLink)
    (h : (f (w.endpoint id)).received ++ (f (w.endpoint id)).queue = w.held id) : Quiet w (w.modifyLink id f) :=
  ⟨rfl, rfl, rfl, le_rfl, fun _ => held_modifyLink f h⟩

theorem quiet_take (w : VirtualWire) (id : LinkId) : Quiet w (w.take id).2 := by
  unfold take
  cases hqueue : (w.endpoint id).queue with
  | nil => exact ⟨rfl, rfl, rfl, le_rfl, fun _ => rfl⟩
  | cons frame queue =>
    dsimp only
    apply quiet_modifyLink
    rw [held, hqueue, List.append_assoc, List.singleton_append]

theorem step_cases (w : VirtualWire) (e : WireEvent) :
    (∃ t, Sends w (w.step e) t ∧ t.sender ∉ t.peers ∧ t.time = w.now) ∨
      Quiet w (w.step e) ∨ Quiet w.pump (w.step e) := by
  have hsame : ∀ {w' : VirtualWire}, w'.fault = w.fault → w'.log = w.log → w'.pending = w.pending →
      w.now ≤ w'.now → w'.endpoint = w.endpoint → Quiet w w' := by
    intro w' hfault hlog hpending hnow hendpoint
    refine ⟨hfault, hlog, hpending, hnow, fun id => ?_⟩
    rw [held, held, hendpoint]
  cases e with
  | attach id =>
    have hquiet := quiet_modifyLink w id (fun link => { link with hasWire := true }) rfl
    exact .inr (.inl ⟨rfl, rfl, rfl, le_rfl, hquiet.held⟩)
  | detach id => exact .inr (.inl (hsame rfl rfl rfl le_rfl rfl))
  | setUp id up => exact .inr (.inl (quiet_modifyLink w id (fun link => { link with isUp := up }) rfl))
  | send id frame draws =>
    have hstay : Quiet w w := hsame rfl rfl rfl le_rfl rfl
    unfold step sendFrame
    dsimp only
    split_ifs
    · exact .inr (.inl hstay)
    · exact .inr (.inl hstay)
    · by_cases h : w.peersOf id = []
      · change _ ∨ Quiet w (w.transmit id frame draws) ∨ _
        rw [transmit_of_alone h]
        exact .inr (.inl (hsame rfl rfl rfl le_rfl rfl))
      · refine .inl ⟨_, sends_transmit h frame draws, ?_, rfl⟩
        rw [peersOf, List.mem_filter]
        simp
  | pump => exact .inr (.inr ⟨rfl, rfl, rfl, le_rfl, fun _ => rfl⟩)
  | recv id =>
    unfold step recvFrame
    dsimp only
    split_ifs
    · exact .inr (.inr (quiet_take _ id))
    · exact .inr (.inl (quiet_take _ id))
  | drain id =>
    refine .inr (.inl (quiet_modifyLink w id
      (fun link => { link with queue := [], received := link.received ++ link.queue }) ?_))
    rw [List.append_nil, held]
  | close id =>
    have hquiet := quiet_modifyLink w id (fun link => { link with isUp := false }) rfl
    unfold step close
    dsimp only
    split_ifs
    · exact .inr (.inl ⟨rfl, rfl, rfl, le_rfl, hquiet.held⟩)
    · exact .inr (.inl hquiet)
  | resetStats => exact .inr (.inl (hsame rfl rfl rfl le_rfl rfl))
  | advance time => exact .inr (.inl (hsame rfl rfl rfl (le_max_left _ _) rfl))

/-! ### Conservation -/

theorem Quiet.offered (h : Quiet w w') : w'.offered id = w.offered id := by
  rw [VirtualWire.offered, VirtualWire.offered, h.log, h.fault]

theorem Quiet.inFlight (h : Quiet w w') : w'.inFlight id = w.inFlight id := by
  rw [VirtualWire.inFlight, VirtualWire.inFlight, h.pending]

theorem Sends.offered {t : Transmission} (h : Sends w w' t) :
    w'.offered id = w.offered id ++ t.arrivals w.fault id := by
  rw [VirtualWire.offered, VirtualWire.offered, h.log, h.carries.fault, List.flatMap_append, List.flatMap_singleton]

theorem offered_pump (w : VirtualWire) (id : LinkId) : w.pump.offered id = w.offered id := by
  obtain ⟨hcarries, hlog, -⟩ := pump_spec w
  rw [offered, offered, hlog, hcarries.fault]

/-- What the link has and what is under way to it are what was put on its way. -/
def Conserves (w : VirtualWire) : Prop := ∀ id, (w.held id ++ w.inFlight id).Perm (w.offered id)

theorem Conserves.quiet (h : w.Conserves) (hq : Quiet w w') : w'.Conserves := by
  intro id
  rw [hq.held, hq.inFlight, hq.offered]
  exact h id

theorem Conserves.pump (h : w.Conserves) : w.pump.Conserves := by
  intro id
  obtain ⟨-, -, hpending, hheld⟩ := pump_spec w
  have hsplit : (w.pending.filter (·.1 ≤ w.now) ++ w.pending.filter (·.1 > w.now)).Perm w.pending := by
    simp only [gt_iff_lt, ← not_le, decide_not]
    exact List.filter_append_perm (·.1 ≤ w.now) w.pending
  rw [offered_pump, hheld, inFlight, hpending, List.append_assoc, ← framesFor_append]
  exact (((hsplit.filter _).map _).append_left _).trans (h id)

theorem Conserves.sends {t : Transmission} (h : w.Conserves) (ht : Sends w w' t) : w'.Conserves := by
  intro id
  obtain ⟨items, hpending, -, ⟨-, hheld, hlater⟩ | ⟨-, rfl, hnow⟩⟩ := ht.copies
  · rw [hheld, inFlight, hpending, framesFor_append, hlater, ← List.append_assoc, ht.offered]
    exact (h id).append_right _
  · rw [hnow, inFlight, hpending, List.append_nil, ht.offered, List.append_assoc]
    refine (List.perm_append_comm.append_left _).trans ?_
    rw [← List.append_assoc]
    exact (h id).append_right _

theorem conserves_step (h : w.Conserves) (e : WireEvent) : (w.step e).Conserves := by
  obtain ⟨t, ht, -⟩ | hq | hq := step_cases w e
  · exact h.sends ht
  · exact h.quiet hq
  · exact h.pump.quiet hq

theorem conserves_of_reachable (h : virtualWire.Reachable w) : w.Conserves := by
  refine Machine.ReachableBy.induction virtualWire (P := Conserves) (fun w hw => ?_)
    (fun _ e _ hw _ => conserves_step hw e) h
  obtain ⟨fault, names, rfl⟩ := hw
  exact fun _ => .nil

/-! ### What a frame can be -/

/-- `frame`, or `frame` with one bit the other way. -/
def Resembles (frame frame' : Bytes) : Prop :=
  frame' = frame ∨ ∃ i k, i < frame.length ∧ k < 8 ∧ frame' = flipBit frame i k

theorem resembles_flipOneBit (frame : Bytes) (index bit : Nat) : Resembles frame (flipOneBit frame index bit) := by
  unfold flipOneBit
  split_ifs with h
  · exact .inl rfl
  · exact .inr ⟨_, _, Nat.mod_lt _ (List.length_pos_iff.mpr h), Nat.mod_lt _ (by decide), rfl⟩

theorem resembles_carried (fault : FaultProfile) (draws : Draws) (frame : Bytes) :
    Resembles frame (fault.carried draws frame) := by
  unfold FaultProfile.carried
  split_ifs
  · exact resembles_flipOneBit frame _ _
  · exact .inl rfl

/-- Nothing is on its way to its sender. -/
def NoEcho (w : VirtualWire) : Prop := ∀ t ∈ w.log, t.sender ∉ t.peers

theorem noEcho_step (h : w.NoEcho) (e : WireEvent) : (w.step e).NoEcho := by
  obtain ⟨t, ht, hself, -⟩ | hq | hq := step_cases w e
  · intro t' ht'
    rw [ht.log] at ht'
    rcases List.mem_append.mp ht' with hold | hnew
    · exact h t' hold
    · rw [List.mem_singleton.mp hnew]
      exact hself
  · rw [NoEcho, hq.log]
    exact h
  · rw [NoEcho, hq.log, (pump_spec w).2.1]
    exact h

theorem noEcho_of_reachable (h : virtualWire.Reachable w) : w.NoEcho := by
  refine Machine.ReachableBy.induction virtualWire (P := NoEcho) (fun w hw => ?_) (fun _ e _ hw _ => noEcho_step hw e) h
  obtain ⟨fault, names, rfl⟩ := hw
  exact fun t ht => absurd ht List.not_mem_nil

theorem mem_arrivals {fault : FaultProfile} {t : Transmission} (h : frame ∈ t.arrivals fault id) :
    id ∈ t.peers ∧ frame = fault.carried t.draws t.frame := by
  unfold Transmission.arrivals at h
  split_ifs at h
  · exact absurd h List.not_mem_nil
  · obtain ⟨hne, heq⟩ := List.mem_replicate.mp h
    exact ⟨List.count_pos_iff.mp (Nat.pos_of_ne_zero (Nat.mul_ne_zero_iff.mp hne).2), heq⟩

theorem sent_of_held (h : virtualWire.Reachable w) (hframe : frame ∈ w.held id ++ w.inFlight id) :
    ∃ t ∈ w.log, t.sender ≠ id ∧ frame = w.fault.carried t.draws t.frame := by
  obtain ⟨t, ht, hin⟩ := List.mem_flatMap.mp ((conserves_of_reachable h id).mem_iff.mp hframe)
  obtain ⟨hpeer, heq⟩ := mem_arrivals hin
  refine ⟨t, ht, ?_, heq⟩
  rintro rfl
  exact noEcho_of_reachable h t ht hpeer

/-- What a link has handed out, has in its queue and has under way is what the transmissions put on their way to
it: every frame comes from another link, whole or with one flipped bit. -/
theorem conserved (h : virtualWire.Reachable w) (id : LinkId) :
    (w.held id ++ w.inFlight id).Perm (w.offered id) ∧
      ∀ frame ∈ w.held id ++ w.inFlight id, ∃ t ∈ w.log, t.sender ≠ id ∧ Resembles t.frame frame := by
  refine ⟨conserves_of_reachable h id, fun frame hframe => ?_⟩
  obtain ⟨t, ht, hother, rfl⟩ := sent_of_held h hframe
  exact ⟨t, ht, hother, resembles_carried _ _ _⟩

theorem rough_range : (1 : ℚ) ≤ 3 := by decide

theorem half_draw : (0 : ℚ) ≤ 1 / 2 ∧ (1 / 2 : ℚ) < 1 := by decide +kernel

/-- A wire that sends every frame twice, after one to three milliseconds, and pushes half of them back. -/
def roughWire : VirtualWire where
  fault :=
    { duplicate := ⟨1, zero_le_one, le_rfl⟩
      reorder := ⟨1 / 2, half_draw.1, half_draw.2.le⟩
      low := 1
      high := 3
      low_nonneg := zero_le_one
      low_le_high := rough_range }

/-- The first of two frames is pushed back, and the second overtakes it. -/
def roughRun : List WireEvent :=
  [.attach 0, .attach 1, .send 0 [1] {}, .send 0 [2] { reorder := ⟨1 / 2, half_draw⟩ },
    .advance (1 / 500), .recv 1]

theorem reachable_roughWire (es : List WireEvent) : virtualWire.Reachable (virtualWire.run roughWire es) :=
  (Machine.ReachableBy.init virtualWire ⟨_, fun _ => "", rfl⟩).run virtualWire (virtualWire.meets_true _ _)

theorem conserved_roughRun :
    (virtualWire.run roughWire roughRun).held 1 = [[2], [2]] ∧
      (virtualWire.run roughWire roughRun).inFlight 1 = [[1], [1]] ∧
      ([[2], [2], [1], [1]] : List Bytes).Perm ((virtualWire.run roughWire roughRun).offered 1) := by
  have hheld : (virtualWire.run roughWire roughRun).held 1 = [[2], [2]] := by decide +kernel
  have hflight : (virtualWire.run roughWire roughRun).inFlight 1 = [[1], [1]] := by decide +kernel
  have hperm := (conserved (reachable_roughWire roughRun) 1).1
  rw [hheld, hflight] at hperm
  exact ⟨hheld, hflight, hperm⟩

/-! ### Order -/

theorem seconds_pos {time : Time} : 0 < time / 1000 ↔ 0 < time :=
  div_pos_iff_of_pos_right (show (0 : ℚ) < 1000 by decide)

/-- Every frame takes the same time. -/
def Steady (w : VirtualWire) : Prop := w.fault.low = w.fault.high ∧ w.fault.reorder.1 = 0

instance (w : VirtualWire) : Decidable w.Steady :=
  inferInstanceAs (Decidable (w.fault.low = w.fault.high ∧ w.fault.reorder.1 = 0))

theorem delay_of_steady (h : w.Steady) (draws : Draws) : w.fault.delay draws = w.fault.high / 1000 := by
  have hnone : w.fault.reorder.strikes draws.reorder = false := by
    rw [Probability.strikes, h.2]
    simp
  have hhigh : 0 ≤ w.fault.high := w.fault.low_nonneg.trans w.fault.low_le_high
  unfold FaultProfile.delay
  dsimp only
  rw [hnone, if_neg Bool.false_ne_true, h.1, sub_self, zero_mul, add_zero]
  split_ifs with hpos
  · rfl
  · rw [le_antisymm (not_lt.mp hpos) hhigh, zero_div]

/-- What waits stands in the order in which it becomes due, and nothing waits when there is no delay. -/
structure Queued (w : VirtualWire) : Prop where
  sorted : w.pending.Pairwise (·.1 ≤ ·.1)
  soon : ∀ item ∈ w.pending, item.1 ≤ w.now + w.fault.high / 1000
  prompt : w.fault.high ≤ 0 → w.pending = []
  order : ∀ id, w.held id ++ w.inFlight id = w.offered id

theorem Queued.quiet (h : w.Queued) (hq : Quiet w w') : w'.Queued := by
  refine ⟨?_, fun item hitem => ?_, fun hhigh => ?_, fun id => ?_⟩
  · rw [hq.pending]
    exact h.sorted
  · rw [hq.pending] at hitem
    rw [hq.fault]
    exact (h.soon item hitem).trans (add_le_add_left hq.now _)
  · rw [hq.fault] at hhigh
    rw [hq.pending, h.prompt hhigh]
  · rw [hq.held, hq.inFlight, hq.offered]
    exact h.order id

theorem filter_append_filter {items : List (Time × LinkId × Bytes)} (h : items.Pairwise (·.1 ≤ ·.1)) (time : Time) :
    items.filter (·.1 ≤ time) ++ items.filter (·.1 > time) = items := by
  induction items with
  | nil => rfl
  | cons item items ih =>
    obtain ⟨hfirst, hrest⟩ := List.pairwise_cons.mp h
    by_cases hdue : item.1 ≤ time
    · have hnot : ¬ item.1 > time := not_lt.mpr hdue
      simp only [hdue, hnot, List.filter_cons_of_pos, List.filter_cons_of_neg, decide_true, decide_false,
        Bool.false_eq_true, not_false_eq_true, List.cons_append, ih hrest]
    · have hlate : ∀ item' ∈ item :: items, time < item'.1 := by
        intro item' hitem'
        rcases List.mem_cons.mp hitem' with rfl | hmem
        · exact not_le.mp hdue
        · exact (not_le.mp hdue).trans_le (hfirst item' hmem)
      rw [List.filter_eq_nil_iff.mpr fun item' hitem' => by simpa using hlate item' hitem', List.nil_append,
        List.filter_eq_self.mpr fun item' hitem' => by simpa using hlate item' hitem']

theorem Queued.pump (h : w.Queued) : w.pump.Queued := by
  obtain ⟨hcarries, -, hpending, hheld⟩ := pump_spec w
  refine ⟨?_, fun item hitem => ?_, fun hhigh => ?_, fun id => ?_⟩
  · rw [hpending]
    exact h.sorted.filter _
  · rw [hpending] at hitem
    rw [hcarries.now, hcarries.fault]
    exact h.soon item (List.mem_of_mem_filter hitem)
  · rw [hcarries.fault] at hhigh
    rw [hpending, h.prompt hhigh, List.filter_nil]
  · rw [offered_pump, hheld, inFlight, hpending, List.append_assoc, ← framesFor_append,
      filter_append_filter h.sorted]
    exact h.order id

theorem Queued.sends {t : Transmission} (h : w.Queued) (hsteady : w.Steady) (ht : Sends w w' t)
    (hnow : t.time = w.now) : w'.Queued := by
  obtain ⟨items, hpending, hdue, hcopies⟩ := ht.copies
  rw [delay_of_steady hsteady] at hdue hcopies
  rw [hnow] at hdue
  have hsoon : ∀ item ∈ w'.pending, item.1 ≤ w.now + w.fault.high / 1000 := by
    intro item hitem
    rw [hpending] at hitem
    rcases List.mem_append.mp hitem with hold | hnew
    · exact h.soon item hold
    · exact (hdue item hnew).le
  refine ⟨?_, ?_, fun hhigh => ?_, fun id => ?_⟩
  · rw [hpending]
    refine List.pairwise_append.mpr ⟨h.sorted, ?_, fun item hitem item' hitem' => ?_⟩
    · exact List.pairwise_of_forall_mem_list fun item hitem item' hitem' =>
        (hdue item hitem).le.trans (hdue item' hitem').ge
    · exact (h.soon item hitem).trans (hdue item' hitem').ge
  · rw [ht.carries.now, ht.carries.fault]
    exact hsoon
  · rw [ht.carries.fault] at hhigh
    obtain ⟨hpos, -⟩ | ⟨-, rfl, -⟩ := hcopies
    · exact absurd (seconds_pos.mp hpos) (not_lt.mpr hhigh)
    · rw [hpending, h.prompt hhigh, List.append_nil]
  · rw [ht.offered, ← h.order id]
    obtain ⟨-, hheld, hlater⟩ | ⟨hnone, rfl, hheld⟩ := hcopies
    · rw [hheld, inFlight, hpending, framesFor_append, hlater, List.append_assoc, inFlight]
    · have hhigh : w.fault.high ≤ 0 := not_lt.mp fun hpos => not_lt.mpr hnone (seconds_pos.mpr hpos)
      rw [hheld, inFlight, inFlight, hpending, h.prompt hhigh]
      simp [framesFor]

theorem fault_step (w : VirtualWire) (e : WireEvent) : (w.step e).fault = w.fault := by
  obtain ⟨t, ht, -⟩ | hq | hq := step_cases w e
  · exact ht.carries.fault
  · exact hq.fault
  · exact hq.fault.trans (pump_spec w).1.fault

theorem queued_of_reachable (h : virtualWire.Reachable w) (hsteady : w.Steady) : w.Queued := by
  refine Machine.ReachableBy.induction virtualWire (P := fun w => w.Steady → w.Queued) (fun w hw _ => ?_)
    (fun w e _ hw _ hsteady => ?_) h hsteady
  · obtain ⟨fault, names, rfl⟩ := hw
    exact ⟨.nil, nofun, fun _ => rfl, fun _ => rfl⟩
  · have hbefore : w.Steady := by
      have hfault := fault_step w e
      rw [virtualWire_next, Steady, hfault] at hsteady
      exact hsteady
    obtain ⟨t, ht, -, hnow⟩ | hq | hq := step_cases w e
    · exact (hw hbefore).sends hbefore ht hnow
    · exact (hw hbefore).quiet hq
    · exact (hw hbefore).pump.quiet hq

/-- On a wire whose delay does not vary and that does not reorder, what a link has handed out, then its queue, then
what is under way are the transmissions in their order. -/
theorem in_order (h : virtualWire.Reachable w) (hsteady : w.Steady) (id : LinkId) :
    w.held id ++ w.inFlight id = w.offered id :=
  (queued_of_reachable h hsteady).order id

/-- A wire with a delay of one millisecond. -/
def steadyWire : VirtualWire where
  fault := { low := 1, high := 1, low_nonneg := zero_le_one, low_le_high := le_rfl }

def steadyRun : List WireEvent :=
  [.attach 0, .attach 1, .send 0 [1] {}, .advance (1 / 1000), .send 0 [2] {}, .recv 1, .send 0 [3] {}]

theorem in_order_steadyRun :
    (virtualWire.run steadyWire steadyRun).held 1 = [[1]] ∧
      (virtualWire.run steadyWire steadyRun).inFlight 1 = [[2], [3]] ∧
      [[1], [2], [3]] = (virtualWire.run steadyWire steadyRun).offered 1 := by
  have hreach : virtualWire.Reachable (virtualWire.run steadyWire steadyRun) :=
    (Machine.ReachableBy.init virtualWire ⟨_, fun _ => "", rfl⟩).run virtualWire (virtualWire.meets_true _ _)
  have hheld : (virtualWire.run steadyWire steadyRun).held 1 = [[1]] := by decide +kernel
  have hflight : (virtualWire.run steadyWire steadyRun).inFlight 1 = [[2], [3]] := by decide +kernel
  have horder := in_order hreach (by decide +kernel) 1
  rw [hheld, hflight] at horder
  exact ⟨hheld, hflight, horder⟩

/-! ### Delay -/

/-- The longest time a frame is under way. -/
def longest (fault : FaultProfile) : Time := fault.high / 1000 + REORDER_DELAY

theorem delay_le_longest (fault : FaultProfile) (draws : Draws) : fault.delay draws ≤ longest fault := by
  have hrange : 0 ≤ fault.high - fault.low := sub_nonneg.mpr fault.low_le_high
  have huniform : fault.low + (fault.high - fault.low) * draws.delay.1 ≤ fault.high := by
    have := mul_le_of_le_one_right hrange draws.delay.2.2.le
    linarith
  have hextra : 0 ≤ REORDER_DELAY := div_nonneg (by decide) (by decide)
  have hbase : (if fault.high > 0 then (fault.low + (fault.high - fault.low) * draws.delay.1) / 1000 else 0) ≤
      fault.high / 1000 := by
    split_ifs with hpos
    · exact div_le_div_of_nonneg_right huniform (by decide)
    · exact div_nonneg (fault.low_nonneg.trans fault.low_le_high) (by decide)
  unfold FaultProfile.delay longest
  dsimp only
  split_ifs at hbase ⊢ <;> linarith

/-- What waits becomes due within the longest delay after its transmission. -/
def Prompt (w : VirtualWire) : Prop := ∀ item ∈ w.pending, ∃ t ∈ w.log, item.1 ≤ t.time + longest w.fault

theorem prompt_step (h : w.Prompt) (e : WireEvent) : (w.step e).Prompt := by
  have hquiet : ∀ {v v' : VirtualWire}, v.Prompt → Quiet v v' → v'.Prompt := by
    intro v v' hv hq
    rw [Prompt, hq.pending, hq.log, hq.fault]
    exact hv
  obtain ⟨t, ht, -⟩ | hq | hq := step_cases w e
  · obtain ⟨items, hpending, hdue, -⟩ := ht.copies
    intro item hitem
    rw [hpending] at hitem
    rw [ht.log, ht.carries.fault]
    rcases List.mem_append.mp hitem with hold | hnew
    · obtain ⟨t', ht', hle⟩ := h item hold
      exact ⟨t', List.mem_append_left _ ht', hle⟩
    · refine ⟨t, List.mem_append_right _ List.mem_cons_self, ?_⟩
      rw [hdue item hnew]
      exact add_le_add_right (delay_le_longest _ _) _
  · exact hquiet h hq
  · refine hquiet (fun item hitem => ?_) hq
    obtain ⟨hcarries, hlog, hpending, -⟩ := pump_spec w
    rw [hpending] at hitem
    rw [hlog, hcarries.fault]
    exact h item (List.mem_of_mem_filter hitem)

theorem prompt_of_reachable (h : virtualWire.Reachable w) : w.Prompt := by
  refine Machine.ReachableBy.induction virtualWire (P := Prompt) (fun w hw => ?_) (fun _ e _ hw _ => prompt_step hw e) h
  obtain ⟨fault, names, rfl⟩ := hw
  exact nofun

/-- Everything that waits is due. -/
def AllDue (w : VirtualWire) : Prop := ∀ item ∈ w.pending, item.1 ≤ w.now

/-- When everything is due, one round of `recv_frame` hands out a frame, unless there is none. -/
theorem recv_allDue (hwire : (w.endpoint id).hasWire = true) (hdue : w.AllDue) :
    (w.step (.recv id)).AllDue ∧ ((w.step (.recv id)).endpoint id).hasWire = true ∧
      (w.step (.recv id)).held id ++ (w.step (.recv id)).inFlight id = w.held id ++ w.inFlight id ∧
      min ((w.endpoint id).received.length + 1) (w.held id ++ w.inFlight id).length ≤
        ((w.step (.recv id)).endpoint id).received.length := by
  obtain ⟨hcarries, -, hpending, hheld⟩ := pump_spec w
  have hnone : w.pump.pending = [] := by
    rw [hpending, List.filter_eq_nil_iff]
    intro item hitem
    simpa using hdue item hitem
  have hall : w.pump.held id = w.held id ++ w.inFlight id := by
    rw [hheld, inFlight, List.filter_eq_self.mpr fun item hitem => by simpa using hdue item hitem]
  have hstep : w.step (.recv id) = (w.pump.take id).2 := by
    rw [step, recvFrame, if_pos hwire]
  have hquiet := quiet_take w.pump id
  rw [hstep]
  refine ⟨?_, ?_, ?_, ?_⟩
  · rw [AllDue, hquiet.pending, hnone]
    exact nofun
  · rw [← hcarries.hasWire] at hwire
    unfold take
    split
    · exact hwire
    · rw [endpoint_modifyLink, hwire]
  · rw [hquiet.held, hquiet.inFlight, inFlight, hnone, hall]
    exact List.append_nil _
  · rw [← hall, held, ← hcarries.received]
    unfold take
    split
    · rename_i hqueue
      rw [hqueue, List.append_nil]
      exact Nat.min_le_right _ _
    · rw [endpoint_modifyLink, List.length_append, List.length_append, List.length_singleton]
      exact Nat.min_le_left _ _

theorem recv_many (hwire : (w.endpoint id).hasWire = true) (hdue : w.AllDue) {n : Nat}
    (hn : (w.held id ++ w.inFlight id).length ≤ (w.endpoint id).received.length + n) :
    ((virtualWire.run w (List.replicate n (.recv id))).endpoint id).received = w.held id ++ w.inFlight id := by
  induction n generalizing w with
  | zero =>
    have hlength : ((w.endpoint id).queue ++ w.inFlight id).length = 0 := by
      rw [held, List.append_assoc, List.length_append] at hn
      omega
    rw [held, List.append_assoc, List.length_eq_zero_iff.mp hlength, List.append_nil]
    rfl
  | succ n ih =>
    obtain ⟨hdue', hwire', hsame, hmore⟩ := recv_allDue hwire hdue
    rw [List.replicate_succ, Machine.run_cons, virtualWire_next, ← hsame]
    refine ih hwire' hdue' ?_
    rw [hsame]
    omega

/-- Once the longest delay after the last transmission is over, a link on the wire that asks for as many frames as
are waiting for it has handed out everything that was put on its way. -/
theorem recv_all (h : virtualWire.Reachable w) (hwire : (w.endpoint id).hasWire = true)
    (hlate : ∀ t ∈ w.log, t.time + longest w.fault ≤ w.now) {n : Nat}
    (hn : (w.endpoint id).queue.length + (w.inFlight id).length ≤ n) :
    ((virtualWire.run w (List.replicate n (.recv id))).endpoint id).received.Perm (w.offered id) := by
  have hdue : w.AllDue := by
    intro item hitem
    obtain ⟨t, ht, hle⟩ := prompt_of_reachable h item hitem
    exact hle.trans (hlate t ht)
  rw [recv_many hwire hdue (n := n) ?_]
  · exact conserves_of_reachable h id
  · rw [held, List.append_assoc, List.length_append, List.length_append]
    omega

theorem recv_all_roughRun :
    ((virtualWire.run (virtualWire.run roughWire (roughRun ++ [.advance (1 / 200)]))
      (List.replicate 3 (.recv 1))).endpoint 1).received = [[2], [2], [1], [1]] ∧
    ([[2], [2], [1], [1]] : List Bytes).Perm
      ((virtualWire.run roughWire (roughRun ++ [.advance (1 / 200)])).offered 1) := by
  have hreach : virtualWire.Reachable (virtualWire.run roughWire (roughRun ++ [.advance (1 / 200)])) :=
    reachable_roughWire _
  have hreceived : ((virtualWire.run (virtualWire.run roughWire (roughRun ++ [.advance (1 / 200)]))
      (List.replicate 3 (.recv 1))).endpoint 1).received = [[2], [2], [1], [1]] := by decide +kernel
  refine ⟨hreceived, hreceived ▸ recv_all hreach ?_ ?_ (n := 3) ?_⟩
  · decide +kernel
  · decide +kernel
  · decide +kernel

end VirtualWire

end MiniTcp
