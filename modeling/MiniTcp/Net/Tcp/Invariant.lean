import MiniTcp.Net.Tcp.Effects

/-!
# What holds of every reachable connection

`keeps_step` and `reachable_induction` turn "every action keeps it" into "every reachable connection
has it". `Basic` collects the facts the rest needs all the time: the send buffer stays within its
capacity, a connection that is closed or listening holds nothing, the handshake states have exactly
the SYN in flight, and the retransmission timer runs exactly while something is outstanding.
-/

namespace MiniTcp

open Relation (ReflTransGen)

variable {r : Bool} {e : Event} {p q : Endpoint} {I : Endpoint → Prop}

/-! ### From actions to runs -/

theorem keeps_actions (hact : ∀ q q', I q → Action r e q q' → I q')
    (hsteps : ReflTransGen (Action r e) p q) (hp : I p) : I q := by
  induction hsteps with
  | refl => exact hp
  | tail _ hact' ih => exact hact _ _ ih hact'

/-- What every action of a call keeps, the call keeps. -/
theorem keeps_step (hact : ∀ q q', I q → Action true e q q' → I q') (hp : I p) : I (p.step e) :=
  keeps_actions hact (actions_step p e) hp

/-- What holds at the start and every action keeps holds of every reachable connection. -/
theorem reachable_induction (hinit : ∀ q, q.Created → I q)
    (hact : ∀ e q q', I q → Action true e q q' → I q') (hp : endpoint.Reachable p) : I p :=
  Machine.ReachableBy.induction endpoint hinit (fun _ e _ hq _ => keeps_step (hact e) hq) hp

theorem Action.cfg {q' : Endpoint} (ha : Action r e q q') : q'.conn.cfg = q.conn.cfg := by
  cases ha with
  | quiet hq => exact hq.cfg
  | connect _ hconn =>
    obtain ⟨-, rfl⟩ := TCPConnection.connect_eq hconn
    rfl
  | simultaneousOpen =>
    simp only [Endpoint.put_conn, TCPConnection.handleSimultaneousOpen_eq]
    rfl
  | establish t =>
    simp only [Endpoint.put_conn, TCPConnection.settled]
    split_ifs <;> rfl
  | push payload n now _ _ hne =>
    simp only [Endpoint.put_conn, TCPConnection.transmitData_eq _ now hne]
    rfl
  | resend now => exact (TCPConnection.sendFrame_resend _ _ now).cfg
  | fin =>
    simp only [Endpoint.put_conn, TCPConnection.sendFin_eq]
    rfl
  | consumeFin =>
    simp only [Endpoint.put_conn, TCPConnection.finTaken]
    split
    · rfl
    · split_ifs <;> rfl
    · rfl
    · rfl
    · rfl
  | advance =>
    simp only [Endpoint.put_conn, TCPConnection.finAcknowledged]
    split <;> rfl
  | abort =>
    simp only [Endpoint.put_conn, TCPConnection.abort]
    split_ifs
    · exact (TCPConnection.sendFrame_transmit _ _ _ _ _ _ _ _).cfg
    · rfl
  | _ => rfl

theorem step_cfg (p : Endpoint) (e : Event) : (p.step e).conn.cfg = p.conn.cfg :=
  keeps_step (I := fun q => q.conn.cfg = p.conn.cfg) (fun _ _ hq ha => ha.cfg.trans hq) rfl

theorem Action.iss {q' : Endpoint} (ha : Action r e q q') (he : ∀ draw now, e ≠ .connect draw now) :
    q'.conn.iss = q.conn.iss := by
  cases ha with
  | quiet hq => exact hq.iss
  | connect hconn => exact absurd hconn (he _ _)
  | simultaneousOpen =>
    simp only [Endpoint.put_conn, TCPConnection.handleSimultaneousOpen_eq]
    rfl
  | establish t =>
    simp only [Endpoint.put_conn, TCPConnection.settled]
    split_ifs <;> rfl
  | push payload n now _ _ hne =>
    simp only [Endpoint.put_conn, TCPConnection.transmitData_eq _ now hne]
    rfl
  | resend now => exact (TCPConnection.sendFrame_resend _ _ now).iss
  | fin =>
    simp only [Endpoint.put_conn, TCPConnection.sendFin_eq]
    rfl
  | consumeFin => exact (TCPConnection.finTaken_spec _ _).2.2.2.1
  | advance =>
    simp only [Endpoint.put_conn, TCPConnection.finAcknowledged]
    split <;> rfl
  | abort =>
    simp only [Endpoint.put_conn, TCPConnection.abort]
    split_ifs
    · exact (TCPConnection.sendFrame_transmit _ _ _ _ _ _ _ _).iss
    · rfl
  | _ => rfl

theorem step_iss {p : Endpoint} {e : Event} (he : ∀ draw now, e ≠ .connect draw now) :
    (p.step e).conn.iss = p.conn.iss :=
  keeps_step (I := fun q => q.conn.iss = p.conn.iss) (fun _ _ hq ha => (ha.iss he).trans hq) rfl

theorem Action.accepted {q' : Endpoint} (ha : Action r e q q')
    (he : ∀ draw now, e ≠ .connect draw now) : q.accepted <+: q'.accepted := by
  cases ha with
  | connect hconn => exact absurd hconn (he _ _)
  | write => exact List.prefix_append _ _
  | _ => exact List.prefix_rfl

theorem step_accepted {p : Endpoint} {e : Event} (he : ∀ draw now, e ≠ .connect draw now) :
    p.accepted <+: (p.step e).accepted :=
  keeps_step (I := fun q => p.accepted <+: q.accepted) (fun _ _ hq ha => hq.trans (ha.accepted he))
    List.prefix_rfl

theorem Action.untracked {q' : Endpoint} (ha : Action r e q q') :
    q.conn.untracked <+: q'.conn.untracked := by
  have htracking : ∀ (c : TCPConnection) (seg : TCPSegment) (now : Time),
      c.untracked <+: (c.tracking seg now).untracked := by
    intro c seg now
    simp only [TCPConnection.tracking]
    split_ifs
    · exact List.prefix_rfl
    · exact List.prefix_append _ _
  cases ha with
  | quiet hq => exact hq.untracked.symm ▸ List.prefix_rfl
  | connect _ hconn =>
    obtain ⟨-, rfl⟩ := TCPConnection.connect_eq hconn
    exact htracking (q.conn.opening _) _ _
  | @simultaneousOpen seg =>
    simp only [Endpoint.put_conn, TCPConnection.handleSimultaneousOpen_eq]
    exact htracking (q.conn.adopted seg) _ _
  | establish t =>
    simp only [Endpoint.put_conn, TCPConnection.settled]
    split_ifs <;> exact List.prefix_rfl
  | push payload n now _ _ hne =>
    simp only [Endpoint.put_conn, TCPConnection.transmitData_eq _ now hne]
    exact htracking q.conn _ _
  | resend now =>
    simp only [Endpoint.put_conn, TCPConnection.resend_eq]
    exact List.prefix_rfl
  | fin =>
    simp only [Endpoint.put_conn, TCPConnection.sendFin_eq]
    exact htracking q.conn _ _
  | consumeFin => exact (TCPConnection.finTaken_spec _ _).2.2.1.symm ▸ List.prefix_rfl
  | advance =>
    simp only [Endpoint.put_conn, TCPConnection.finAcknowledged]
    split <;> exact List.prefix_rfl
  | abort =>
    simp only [Endpoint.put_conn, TCPConnection.abort]
    split_ifs
    · rw [TCPConnection.transmit_untracked _ _ _ _ _ (by decide)]
      exact List.prefix_rfl
    · exact List.prefix_rfl
  | _ => exact List.prefix_rfl

theorem Action.ne_synSent {q' : Endpoint} (ha : Action r e q q') (he : ∀ draw now, e ≠ .connect draw now)
    (h : q.conn.state ≠ .synSent) : q'.conn.state ≠ .synSent := by
  cases ha with
  | quiet hq => exact fun hst => h (hq.state.symm.trans hst)
  | connect hconn => exact absurd hconn (he _ _)
  | listen | reset | expire | drop => simp [TCPConnection.handleRst, TCPConnection.notify,
      TCPConnection.teardown]
  | simultaneousOpen =>
    simp only [Endpoint.put_conn, TCPConnection.handleSimultaneousOpen_eq]
    simp
  | establish t => simp [TCPConnection.settled]
  | push payload n now _ _ hne =>
    simp only [Endpoint.put_conn, TCPConnection.transmitData_eq _ now hne]
    exact h
  | resend now =>
    simp only [Endpoint.put_conn, TCPConnection.resend_eq]
    exact h
  | fin _ hstate => rcases hstate with ⟨-, rfl⟩ | ⟨-, rfl⟩ <;> simp
  | @consumeFin _ _ _ now =>
    rcases TCPConnection.finTaken_state q.conn now with hst | ⟨-, hst⟩
    · exact fun hst' => h (hst.symm.trans hst')
    · exact (TcpState.ne_of_isSynchronised hst).2.2.1
  | advance =>
    simp only [Endpoint.put_conn, TCPConnection.finAcknowledged]
    split <;> simp [TCPConnection.enterTimeWait, TCPConnection.teardown, TCPConnection.notify]
  | abort => simp [TCPConnection.abort, TCPConnection.teardown, TCPConnection.notify]
  | _ => exact h

theorem Action.of_listen {q' : Endpoint} (ha : Action r e q q') (he : e ≠ .listen)
    (h : q'.conn.state = .listen) :
    q.conn.state = .listen ∧ q'.conn.sendQueue = q.conn.sendQueue := by
  have hsync : ∀ {st : TcpState}, st.isSynchronised = true → st = .listen → False := by
    rintro st hst rfl
    cases hst
  cases ha with
  | quiet hq => exact ⟨hq.state.symm.trans h, hq.sendQueue⟩
  | listen hlisten => exact absurd hlisten he
  | connect _ hconn =>
    obtain ⟨-, rfl⟩ := TCPConnection.connect_eq hconn
    cases h
  | simultaneousOpen =>
    simp only [Endpoint.put_conn, TCPConnection.handleSimultaneousOpen_eq] at h
    cases h
  | retire t _ _ _ hstate => exact (hsync hstate h).elim
  | push payload n now hstate _ hne =>
    simp only [Endpoint.put_conn, TCPConnection.transmitData_eq _ now hne] at h
    exact (hsync hstate h).elim
  | resend now =>
    rw [Endpoint.put_conn, TCPConnection.resend_eq] at h ⊢
    exact ⟨h, rfl⟩
  | fin _ hstate => rcases hstate with ⟨-, rfl⟩ | ⟨-, rfl⟩ <;> cases h
  | @consumeFin _ _ _ now =>
    rcases TCPConnection.finTaken_state q.conn now with hst | ⟨-, hst⟩
    · exact ⟨hst.symm.trans h, (TCPConnection.finTaken_spec q.conn now).1⟩
    · exact (hsync hst h).elim
  | advance _ _ _ _ _ hstate =>
    simp only [Endpoint.put_conn, TCPConnection.finAcknowledged] at h
    split at h <;> cases h
  | write _ hstate =>
    have h' : q.conn.state = .listen := h
    simp [TCPConnection.canSend, h'] at hstate
  | establish | reset | expire | abort | drop => cases h
  | _ => exact ⟨h, rfl⟩

/-! ### The basic invariant -/

namespace TCPConnection

/-- What always holds of the queues, the timer and the segment sizes. -/
structure Basic (c : TCPConnection) : Prop where
  capacity : c.sendQueue.capacity = c.cfg.sendCapacity
  buf_le : c.sendQueue.buf.length ≤ c.sendQueue.capacity
  idle : c.state = .closed ∨ c.state = .listen → c.sendQueue.buf = [] ∧ c.retxQueue.segments = []
  handshake : c.state = .synSent ∨ c.state = .synReceived →
    c.sendQueue.una = c.iss ∧ c.sendQueue.nxt = seqAdd c.iss 1 ∧ c.sendQueue.buf = []
  timer : c.retransmitAt = none ↔ c.retxQueue.segments = []
  retxCapacity : c.retxQueue.capacity = 2 ^ 20
  mss : c.reno.mss = c.cfg.mss
  peerMss : 0 < c.peerMss

namespace Basic

variable {c d : TCPConnection}

theorem congr (h : Basic c) (hcfg : d.cfg = c.cfg) (hstate : d.state = c.state) (hiss : d.iss = c.iss)
    (hpeer : d.peerMss = c.peerMss) (hsend : d.sendQueue = c.sendQueue)
    (hretx : d.retxQueue = c.retxQueue) (hat : d.retransmitAt = c.retransmitAt)
    (hmss : d.reno.mss = c.reno.mss) : Basic d where
  capacity := by rw [hsend, hcfg]; exact h.capacity
  buf_le := by rw [hsend]; exact h.buf_le
  idle := by rw [hstate, hsend, hretx]; exact h.idle
  handshake := by rw [hstate, hsend, hiss]; exact h.handshake
  timer := by rw [hat, hretx]; exact h.timer
  retxCapacity := by rw [hretx]; exact h.retxCapacity
  mss := by rw [hmss, hcfg]; exact h.mss
  peerMss := by rw [hpeer]; exact h.peerMss

/-- Sending a segment and remembering it keeps the invariant; the rest of the connection may move to
a state that is not idle, with the buffer as it was. -/
theorem tracking (h : Basic c) (seg : TCPSegment) (now : Time) (hretx : d.retxQueue = c.retxQueue.added
      seg.seq seg.flags seg.payload now)
    (hat : d.retransmitAt = if d.retxQueue.segments = [] then none else some (now + c.rto.rto))
    (hcap : d.sendQueue.capacity = d.cfg.sendCapacity)
    (hbuf : d.sendQueue.buf.length ≤ d.sendQueue.capacity)
    (hidle : d.state ≠ .closed ∧ d.state ≠ .listen)
    (hshake : d.state = .synSent ∨ d.state = .synReceived →
      d.sendQueue.una = d.iss ∧ d.sendQueue.nxt = seqAdd d.iss 1 ∧ d.sendQueue.buf = [])
    (hmss : d.reno.mss = d.cfg.mss) (hpeer : 0 < d.peerMss) : Basic d where
  capacity := hcap
  buf_le := hbuf
  idle := fun hst => absurd hst (not_or.mpr hidle)
  handshake := hshake
  timer := by rw [hat]; split_ifs with hnil <;> simp [hnil]
  retxCapacity := by rw [hretx, RetransmitQueue.added_capacity]; exact h.retxCapacity
  mss := hmss
  peerMss := hpeer

theorem teardown (h : Basic c) : Basic c.teardown where
  capacity := h.capacity
  buf_le := by simp [TCPConnection.teardown, SendQueue.clear]
  idle := fun _ => ⟨rfl, rfl⟩
  handshake := by simp [TCPConnection.teardown]
  timer := by simp [TCPConnection.teardown, RetransmitQueue.clear]
  retxCapacity := h.retxCapacity
  mss := h.mss
  peerMss := h.peerMss

theorem enterTimeWait (h : Basic c) (now : Time) : Basic (c.enterTimeWait now) where
  capacity := h.capacity
  buf_le := h.buf_le
  idle := by simp [TCPConnection.enterTimeWait]
  handshake := by simp [TCPConnection.enterTimeWait]
  timer := by simp [TCPConnection.enterTimeWait, RetransmitQueue.clear]
  retxCapacity := h.retxCapacity
  mss := h.mss
  peerMss := h.peerMss

/-- Moving between states that are neither idle nor part of the handshake changes nothing here. -/
theorem setState (h : Basic c) {st : TcpState} (hst : st.isSynchronised = true) :
    Basic { c with state := st } where
  capacity := h.capacity
  buf_le := h.buf_le
  idle := by rintro (h | h) <;> simp only at h <;> subst h <;> cases hst
  handshake := by rintro (h | h) <;> simp only at h <;> subst h <;> cases hst
  timer := h.timer
  retxCapacity := h.retxCapacity
  mss := h.mss
  peerMss := h.peerMss

theorem applyPeerOptions_peerMss (h : 0 < c.peerMss) (options : TCPOptions) :
    0 < (c.applyPeerOptions options).peerMss := by
  unfold TCPConnection.applyPeerOptions
  dsimp only
  split
  · omega
  · exact h

/-- An acknowledgement keeps the invariant in a state that is neither idle nor in the handshake. -/
theorem acknowledged (h : Basic c) (ack : SeqNo) (t : Time) {st : TcpState}
    (hst : st.isSynchronised = true) : Basic { c.acknowledged ack t with state := st } where
  capacity := (SendQueue.acknowledge_capacity _ ack).trans h.capacity
  buf_le := by
    rw [TCPConnection.acknowledged, SendQueue.acknowledge_capacity]
    exact (SendQueue.length_acknowledge_le _ ack).trans h.buf_le
  idle := by rintro (h | h) <;> simp only at h <;> subst h <;> cases hst
  handshake := by rintro (h | h) <;> simp only at h <;> subst h <;> cases hst
  timer := by
    simp only [TCPConnection.acknowledged]
    split_ifs with hnil <;> simp [hnil]
  retxCapacity := h.retxCapacity
  mss := h.mss
  peerMss := h.peerMss

theorem acknowledge_syn (h : Basic c) (hopen : c.state = .synSent ∨ c.state = .synReceived) :
    seqGt (seqAdd c.iss 1) c.sendQueue.una = true ∧
      (c.sendQueue.acknowledge (seqAdd c.iss 1)).1.una = seqAdd c.iss 1 ∧
      (c.sendQueue.acknowledge (seqAdd c.iss 1)).1.nxt = seqAdd c.iss 1 ∧
      (c.sendQueue.acknowledge (seqAdd c.iss 1)).1.buf = [] := by
  obtain ⟨huna, hnxt, hbuf⟩ := h.handshake hopen
  have hgt : seqGt (seqAdd c.iss 1) c.sendQueue.una = true := by
    rw [huna, seqGt_iff, seqAdd]
    exact Serial.lt_shift (by omega) (by omega)
  have hclamp : seqLt c.sendQueue.nxt (seqAdd c.iss 1) = false := by
    rw [← Bool.not_eq_true, hnxt, seqLt_iff]
    exact Serial.not_lt_self _
  rw [SendQueue.acknowledge_of_gt hgt, hclamp, hbuf]
  exact ⟨hgt, rfl, hnxt, List.drop_nil⟩

theorem settled (h : Basic c) (ack : SeqNo) (t : Time) : Basic (c.settled ack t) := by
  unfold TCPConnection.settled
  split_ifs
  · exact h.acknowledged ack t rfl
  · exact h.setState rfl

theorem finTaken (h : Basic c) (now : Time) : Basic (c.finTaken now) := by
  have h' : Basic { c with recvQueue := { c.recvQueue with nxt := seqAdd c.recvQueue.nxt 1 } } :=
    h.congr rfl rfl rfl rfl rfl rfl rfl rfl
  unfold TCPConnection.finTaken
  dsimp only
  split
  · exact h'.setState rfl
  · split_ifs
    · exact h'.enterTimeWait now
    · exact h'.setState rfl
  · exact h'.enterTimeWait now
  · exact h'.enterTimeWait now
  · exact h'

theorem resend (h : Basic c) (entry : OutstandingSegment) (now : Time) : Basic (c.resend entry now) := by
  rw [TCPConnection.resend_eq]
  exact
    { capacity := h.capacity
      buf_le := h.buf_le
      idle := fun hst =>
        ⟨(h.idle hst).1, RetransmitQueue.markRetransmitted_eq_nil.mpr (h.idle hst).2⟩
      handshake := h.handshake
      timer := h.timer.trans RetransmitQueue.markRetransmitted_eq_nil.symm
      retxCapacity := RetransmitQueue.markRetransmitted_capacity.trans h.retxCapacity
      mss := h.mss
      peerMss := h.peerMss }

theorem write (h : Basic c) (data : Bytes) (hst : c.canSend = true) :
    Basic { c with sendQueue := (c.sendQueue.write data).1 } := by
  have hopen : c.state = .established ∨ c.state = .closeWait := by
    simpa [TCPConnection.canSend] using hst
  have hlen : (c.sendQueue.write data).1.capacity = c.sendQueue.capacity ∧
      (c.sendQueue.write data).1.buf.length ≤ c.sendQueue.capacity := by
    have := h.buf_le
    unfold SendQueue.write
    dsimp only
    split_ifs
    · exact ⟨rfl, h.buf_le⟩
    · simp only [List.length_append, List.length_take, true_and]
      omega
  exact
    { capacity := hlen.1.trans h.capacity
      buf_le := by rw [hlen.1]; exact hlen.2
      idle := by rcases hopen with h | h <;> simp [h]
      handshake := by rcases hopen with h | h <;> simp [h]
      timer := h.timer
      retxCapacity := h.retxCapacity
      mss := h.mss
      peerMss := h.peerMss }

end Basic

theorem Basic.action {q' : Endpoint} (h : q.conn.Basic) (ha : Action r e q q') : q'.conn.Basic := by
  cases ha with
  | quiet hq =>
    exact h.congr hq.cfg hq.state hq.iss hq.peerMss hq.sendQueue hq.retxQueue hq.retransmitAt hq.mss
  | ack | delay | reject | insert | read => exact h.congr rfl rfl rfl rfl rfl rfl rfl rfl
  | listen _ hstate =>
    exact { h with
      idle := fun _ => h.idle (.inl hstate)
      handshake := by simp }
  | connect _ hconn =>
    obtain ⟨hstate, rfl⟩ := connect_eq hconn
    exact h.tracking (q.conn.opening _).synSegment _ rfl rfl rfl (by simp [SendQueue.new])
      (by simp) (fun _ => ⟨rfl, rfl, rfl⟩) rfl h.peerMss
  | simultaneousOpen _ hstate =>
    simp only [Endpoint.put_conn]
    rw [handleSimultaneousOpen_eq]
    exact h.tracking ((q.conn.adopted _).synAckSegment _) _ rfl rfl h.capacity h.buf_le (by simp)
      (fun _ => h.handshake (.inl hstate)) h.mss (Basic.applyPeerOptions_peerMss h.peerMss _)
  | adopt =>
    exact { h with peerMss := Basic.applyPeerOptions_peerMss h.peerMss _ }
  | retire t _ _ _ hstate => exact h.acknowledged _ t hstate
  | establish t => exact h.settled _ t
  | push payload n now hstate _ hne =>
    simp only [Endpoint.put_conn]
    rw [transmitData_eq _ now hne]
    obtain ⟨h1, h2, h3, h4⟩ := TcpState.ne_of_isSynchronised hstate
    exact h.tracking (q.conn.dataSegment payload) now rfl rfl h.capacity h.buf_le ⟨h1, h2⟩
      (fun hst => (not_or.mpr ⟨h3, h4⟩ hst).elim) h.mss h.peerMss
  | resend now => exact h.resend _ now
  | arm t hne => exact { h with timer := by simpa using hne }
  | disarm hnil => exact { h with timer := by simpa using hnil }
  | fin _ hstate =>
    simp only [Endpoint.put_conn]
    rw [sendFin_eq]
    refine h.tracking q.conn.finSegment _ rfl rfl h.capacity h.buf_le ?_ ?_ h.mss h.peerMss
    · rcases hstate with ⟨-, rfl⟩ | ⟨-, rfl⟩ <;> simp
    · rcases hstate with ⟨-, rfl⟩ | ⟨-, rfl⟩ <;> simp
  | consumeFin => exact h.finTaken _
  | advance =>
    simp only [Endpoint.put_conn, finAcknowledged]
    split
    · exact h.setState rfl
    · exact h.enterTimeWait _
    · exact h.teardown.congr rfl rfl rfl rfl rfl rfl rfl rfl
  | reset | expire => exact h.teardown.congr rfl rfl rfl rfl rfl rfl rfl rfl
  | abort =>
    simp only [Endpoint.put_conn, TCPConnection.abort]
    split_ifs
    · rw [transmit_untracked _ _ _ _ _ (by decide)]
      exact h.teardown.congr rfl rfl rfl rfl rfl rfl rfl rfl
    · exact h.teardown.congr rfl rfl rfl rfl rfl rfl rfl rfl
  | drop _ hstate =>
    exact { h with
      idle := fun _ => h.idle hstate
      handshake := by simp [notify] }
  | write _ hstate => exact h.write _ hstate

theorem Basic.step (h : p.conn.Basic) (e : Event) : (p.step e).conn.Basic :=
  keeps_step (I := fun q => q.conn.Basic) (fun _ _ hq ha => hq.action ha) h

theorem basic_new (cfg : Config) : (TCPConnection.new cfg).Basic where
  capacity := rfl
  buf_le := by simp [TCPConnection.new, SendQueue.new]
  idle := fun _ => ⟨rfl, rfl⟩
  handshake := by simp [TCPConnection.new]
  timer := by simp [TCPConnection.new]
  retxCapacity := rfl
  mss := rfl
  peerMss := by simp [TCPConnection.new]

theorem basic_passive (cfg : Config) (seg : TCPSegment) (draw : SeqNo) (now : Time) :
    (Endpoint.passive cfg seg draw now).conn.Basic := by
  simp only [Endpoint.passive]
  rw [beginPassiveOpen_eq]
  exact (basic_new cfg).tracking (((TCPConnection.new cfg).answering seg draw).synAckSegment seg) now rfl
    rfl rfl (by simp [SendQueue.new]) (by simp) (fun _ => ⟨rfl, rfl, rfl⟩) rfl
    (Basic.applyPeerOptions_peerMss (basic_new cfg).peerMss _)

theorem basic_of_created (h : q.Created) : q.conn.Basic := by
  rcases h with ⟨cfg, rfl⟩ | ⟨cfg, seg, draw, now, -, -, rfl⟩
  · exact basic_new cfg
  · exact basic_passive cfg seg draw now

theorem basic_of_reachable (h : endpoint.Reachable p) : p.conn.Basic :=
  reachable_induction (fun _ => basic_of_created) (fun _ _ _ => Basic.action) h

end TCPConnection

end MiniTcp
