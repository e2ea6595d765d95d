import MiniTcp.Lib.Countdown
import MiniTcp.Net.Tcp.Estimate
import MiniTcp.Net.Tcp.Unread

/-!
# A peer that is gone

When nothing more arrives, the retransmission timer closes a connection with something outstanding: every timeout
counts against the oldest entry, which nothing acknowledges any more, and sets the next deadline at most
`DEFAULT_MAX_RTO` ahead. The persist timer can count against the entry as well, and once, if the window opened while it
was pending, it sends more data and sets the deadline anew (`patience`).
-/

namespace MiniTcp

open TCPConnection

/-! ### The timeout of a connection -/

namespace TCPConnection

variable {c d : TCPConnection} {seg : TCPSegment} {now : Time}

/-- The retransmission timeout is within the bounds of the estimator. -/
def Bounded (c : TCPConnection) : Prop := c.rto.Clamped DEFAULT_MIN_RTO DEFAULT_MAX_RTO

theorem minRto_pos : 0 < DEFAULT_MIN_RTO := by decide +kernel

theorem minRto_le : DEFAULT_MIN_RTO ≤ DEFAULT_MAX_RTO := by decide +kernel

theorem Bounded.of_eq (h : c.Bounded) (hrto : d.rto = c.rto) : d.Bounded := by
  unfold Bounded
  rw [hrto]
  exact h

theorem Bounded.perform (h : c.Bounded) (call : RTOEstimator.Call) (hrto : d.rto = c.rto.perform call) :
    d.Bounded := by
  unfold Bounded
  rw [hrto]
  exact RTOEstimator.clamped_perform minRto_pos minRto_le call h

theorem Bounded.onSegment (h : c.Bounded) (seg : TCPSegment) (srcIp : Option Bytes) (draw : SeqNo) (now : Time) :
    (c.onSegment seg srcIp draw now).1.Bounded := by
  have hrto := onSegment_rto c seg srcIp draw now
  split_ifs at hrto
  · unfold estimate at hrto
    split at hrto
    · exact h.perform (.sample _) hrto
    · exact h.perform .recompute hrto
  · exact h.of_eq hrto

theorem bounded_timed : Timed fun c d => c.Bounded → d.Bounded where
  refl _ h := h
  trans h h' hb := h' (h hb)
  emit _ _ _ _ _ h := h
  remember _ _ _ _ h := h
  nxt _ _ h := h
  count _ _ h := h
  persist _ _ h := h
  relax _ h := h
  window _ _ h := h
  sendAck c now h := h.of_eq (KeepsTime.sendAck c now).rto
  backoff _ h := h.perform .backoff rfl
  delay _ _ _ h := h
  teardown _ h := h

theorem step_rto {p : Endpoint} {e : Event} (he : e.inbound = none) (htick : ∀ now, e ≠ .tick now) :
    (p.step e).conn.rto = p.conn.rto := by
  cases e with
  | listen =>
    simp only [Endpoint.step, TCPConnection.listen]
    split_ifs <;> rfl
  | connect draw now =>
    simp only [Endpoint.step]
    cases hconn : p.conn.connect draw now with
    | error err => rfl
    | ok c =>
      obtain ⟨-, rfl⟩ := connect_eq hconn
      rfl
  | send data now =>
    simp only [Endpoint.step]
    cases hsend : p.conn.send data now with
    | error err => rfl
    | ok r =>
      obtain ⟨-, rfl | ⟨-, rfl⟩⟩ := send_ok _ hsend
      · rfl
      · exact (KeepsTime.sending.flush _ now).rto
  | recv maxBytes now =>
    simp only [Endpoint.step, Endpoint.put_conn, TCPConnection.recv]
    split_ifs
    · rfl
    · exact (KeepsTime.sendAck _ now).rto
    · rfl
  | close now =>
    simp only [Endpoint.step, Endpoint.put_conn, TCPConnection.close, abort_eq, sendFin_eq]
    split
    all_goals first
      | rfl
      | split_ifs <;> rfl
  | abort now =>
    simp only [Endpoint.step, Endpoint.put_conn, abort_eq]
    split_ifs <;> rfl
  | tick now => exact absurd rfl (htick now)
  | segment seg srcIp draw now => cases he

theorem bounded_of_reachable {p : Endpoint} (hp : endpoint.Reachable p) : p.conn.Bounded := by
  have hnew : RTOEstimator.default.Clamped DEFAULT_MIN_RTO DEFAULT_MAX_RTO :=
    RTOEstimator.clamped_of_rto minRto_le DEFAULT_INITIAL_RTO rfl rfl rfl
  apply Machine.ReachableBy.induction (P := fun q => q.conn.Bounded) endpoint _ _ hp
  · rintro q (⟨cfg, rfl⟩ | ⟨cfg, seg, draw, now, -, -, rfl⟩)
    · exact hnew
    · rw [Endpoint.passive, beginPassiveOpen_eq]
      exact hnew
  · intro q e _ hq _
    by_cases hown : e.inbound = none ∧ ∀ now, e ≠ .tick now
    · exact hq.of_eq (step_rto hown.1 hown.2)
    · cases e with
      | tick now => exact bounded_timed.onTick q.conn now hq
      | segment seg srcIp draw now => exact hq.onSegment seg srcIp draw now
      | listen | connect | send | recv | close | abort => exact absurd ⟨rfl, fun _ h => by cases h⟩ hown

/-! ### What the timers do to the oldest entry -/

/-- How often the timers can still set a deadline for the oldest entry. -/
def patience (c : TCPConnection) : Nat :=
  MAX_RETRANSMITS - (c.retxQueue.oldest.elim 0 (·.retransmits)) +
    if c.persistAt ≠ none ∧ 0 < c.peerWindow then 1 else 0

/-- Something is outstanding, and the retransmission timer is due at `deadline`. -/
structure Pending (c : TCPConnection) (deadline : Time) (k : Nat) : Prop where
  armed : c.retransmitAt = some deadline
  outstanding : c.retxQueue.oldest ≠ none
  bounded : c.Bounded
  patience_le : c.patience ≤ k

/-- The timer was set anew, at the price of some patience. -/
def Rearmed (c : TCPConnection) (now : Time) (k : Nat) : Prop :=
  ∃ deadline k', now ≤ deadline ∧ deadline ≤ now + DEFAULT_MAX_RTO ∧ k' < k ∧ c.Pending deadline k'

variable {deadline : Time} {k : Nat}

theorem Bounded.arms (h : c.Bounded) (now : Time) :
    now ≤ now + c.rto.rto ∧ now + c.rto.rto ≤ now + DEFAULT_MAX_RTO :=
  ⟨le_add_of_nonneg_right (minRto_pos.le.trans h.minRto_le), add_le_add_right h.le_maxRto now⟩

theorem oldest_markRetransmitted (q : RetransmitQueue) (now : Time) :
    (q.markRetransmitted now).oldest = q.oldest.map (·.retransmitted now) := by
  unfold RetransmitQueue.markRetransmitted RetransmitQueue.oldest
  cases hsegs : q.segments with
  | nil => simp [hsegs]
  | cons entry rest => rfl

theorem oldest_added (q : RetransmitQueue) (seq : SeqNo) (flags : Flags) (payload : Bytes) (now : Time)
    (h : q.oldest ≠ none) : (q.added seq flags payload now).oldest = q.oldest := by
  rcases q.added_cases seq flags payload now with ⟨-, hsame⟩ | ⟨-, -, hsegs⟩
  · rw [hsame]
  · unfold RetransmitQueue.oldest at h ⊢
    rw [hsegs]
    cases hold : q.segments with
    | nil => simp [hold] at h
    | cons entry rest => rfl

theorem ne_nil_of_oldest {q : RetransmitQueue} (h : q.oldest ≠ none) : q.segments ≠ [] := by
  rintro hnil
  simp [RetransmitQueue.oldest, hnil] at h

theorem flushLoop_oldest (now : Time) (fuel : Nat) (c : TCPConnection) (hold : c.retxQueue.oldest ≠ none) :
    (flushLoop now fuel c).retxQueue.oldest = c.retxQueue.oldest ∧ (flushLoop now fuel c).rto = c.rto ∧
      ((flushLoop now fuel c).retransmitAt = c.retransmitAt ∨
        (flushLoop now fuel c).retransmitAt = some (now + c.rto.rto)) := by
  induction fuel generalizing c with
  | zero => exact ⟨rfl, rfl, .inl rfl⟩
  | succ fuel ih =>
    unfold flushLoop
    dsimp only
    have hsent : ∀ payload, payload ≠ [] → (c.transmitData payload now).retxQueue.oldest = c.retxQueue.oldest ∧
        (c.transmitData payload now).rto = c.rto ∧
        (c.transmitData payload now).retransmitAt = some (now + c.rto.rto) := by
      intro payload hne
      rw [transmitData_eq _ now hne]
      have hkept := oldest_added c.retxQueue (c.dataSegment payload).seq (c.dataSegment payload).flags
        (c.dataSegment payload).payload now hold
      refine ⟨hkept, rfl, ?_⟩
      exact if_neg (ne_nil_of_oldest (hkept ▸ hold))
    split_ifs with _ hempty
    · exact ⟨rfl, rfl, .inl rfl⟩
    · exact ⟨rfl, rfl, .inl rfl⟩
    · obtain ⟨hoff, hrto, hat⟩ := hsent _ hempty
      exact ⟨hoff, hrto, .inr hat⟩
    · obtain ⟨hoff, hrto, hat⟩ := hsent _ hempty
      obtain ⟨hoff', hrto', hat'⟩ := ih _ (hoff.symm ▸ hold)
      refine ⟨hoff'.trans hoff, hrto'.trans hrto, .inr ?_⟩
      rw [hat, hrto, or_self] at hat'
      exact hat'

theorem patience_eq (c : TCPConnection) {entry : OutstandingSegment} (hold : c.retxQueue.oldest = some entry) :
    c.patience = MAX_RETRANSMITS - entry.retransmits + if c.persistAt ≠ none ∧ 0 < c.peerWindow then 1 else 0 := by
  unfold patience
  rw [hold]
  rfl

theorem Pending.onRetransmitTimeout (h : c.Pending deadline k) (now : Time) :
    (c.onRetransmitTimeout now).state = .closed ∨ (c.onRetransmitTimeout now).Rearmed now k := by
  obtain ⟨entry, hold⟩ := Option.ne_none_iff_exists'.mp h.outstanding
  unfold TCPConnection.onRetransmitTimeout
  rw [hold]
  dsimp only
  split_ifs with hmax
  · exact .inl rfl
  · right
    have hbacked : ({ c with reno := c.reno.onTimeout, rto := c.rto.backoff } : TCPConnection).Bounded :=
      h.bounded.perform .backoff rfl
    obtain ⟨hlo, hhi⟩ := Bounded.arms hbacked now
    rw [resend_eq]
    have hnext : (c.retxQueue.markRetransmitted now).oldest = some (entry.retransmitted now) := by
      rw [oldest_markRetransmitted, hold]
      rfl
    refine ⟨now + c.rto.backoff.rto, _, hlo, hhi, ?_, rfl, ?_, hbacked, le_rfl⟩
    · refine lt_of_lt_of_le ?_ h.patience_le
      rw [patience_eq c hold, patience_eq _ hnext]
      apply Nat.add_lt_add_right
      change MAX_RETRANSMITS - (entry.retransmits + 1) < _
      omega
    · exact hnext ▸ Option.some_ne_none _

/-- The persist timer counts against the same entry, or sets the deadline anew for what it sends. -/
theorem Pending.onPersistTimeout (h : c.Pending deadline k) (hat : c.persistAt ≠ none) (now : Time) :
    (c.onPersistTimeout now).Pending deadline k ∨ (c.onPersistTimeout now).Rearmed now k := by
  obtain ⟨entry, hold⟩ := Option.ne_none_iff_exists'.mp h.outstanding
  have hpatience := h.patience_le
  rw [patience_eq c hold] at hpatience
  unfold TCPConnection.onPersistTimeout
  split_ifs with hopen hsync
  · -- the window is open: what this timer was worth is spent
    rw [if_pos ⟨hat, hopen⟩] at hpatience
    unfold flush
    dsimp only
    rw [if_neg (show ¬ c.peerWindow = 0 by omega)]
    split_ifs
    · left
      refine ⟨h.armed, h.outstanding, h.bounded, ?_⟩
      simp only [patience, hold, Option.elim_some, ne_eq, not_true, false_and, if_false]
      omega
    · have hpersist := flushLoop_persistAt now (c.sendQueue.buf.length + 1)
        { c with persistAt := none, persistDelay := DEFAULT_PERSIST_DELAY }
      obtain ⟨hkept, hrto, hset⟩ := flushLoop_oldest now (c.sendQueue.buf.length + 1)
        { c with persistAt := none, persistDelay := DEFAULT_PERSIST_DELAY } h.outstanding
      generalize flushLoop now (c.sendQueue.buf.length + 1)
        { c with persistAt := none, persistDelay := DEFAULT_PERSIST_DELAY } = d at hpersist hkept hrto hset ⊢
      have hspent : d.patience < k := by
        rw [patience_eq d (hkept.trans hold), if_neg (by simp [hpersist])]
        omega
      have hbounded : d.Bounded := h.bounded.of_eq hrto
      rcases hset with hsame | hset
      · exact .inl ⟨hsame.trans h.armed, hkept.symm ▸ h.outstanding, hbounded, hspent.le⟩
      · obtain ⟨hlo, hhi⟩ := Bounded.arms h.bounded now
        exact .inr ⟨_, _, hlo, hhi, hspent, hset, hkept.symm ▸ h.outstanding, hbounded, le_rfl⟩
  · left
    refine ⟨h.armed, h.outstanding, h.bounded, ?_⟩
    simp only [patience, hold, Option.elim_some, ne_eq, not_true, false_and, if_false]
    omega
  · left
    rw [hold]
    dsimp only
    rw [resend_eq]
    have hnext : (c.retxQueue.markRetransmitted now).oldest = some (entry.retransmitted now) := by
      rw [oldest_markRetransmitted, hold]
      rfl
    refine ⟨h.armed, hnext ▸ Option.some_ne_none _, h.bounded, ?_⟩
    rw [patience_eq _ hnext, if_neg (fun hopen' => hopen hopen'.2)]
    change MAX_RETRANSMITS - (entry.retransmits + 1) + 0 ≤ k
    omega

/-- A tick before the deadline leaves it alone, and no other tick does unless it closes the connection. -/
theorem Pending.onTick (h : c.Pending deadline k) (now : Time) :
    (c.onTick now).state = .closed ∨ now < deadline ∧ (c.onTick now).Pending deadline k ∨
      (c.onTick now).Rearmed now k := by
  have hacked : (if due c.delayedAckAt now then c.sendAck now else c).Pending deadline k := by
    split_ifs
    · have hsame := sameOffer_sendAck c now
      refine ⟨hsame.retransmitAt.trans h.armed, hsame.retxQueue.symm ▸ h.outstanding,
        h.bounded.of_eq (KeepsTime.sendAck c now).rto, ?_⟩
      unfold patience
      rw [hsame.retxQueue, hsame.persistAt, hsame.peerWindow]
      exact h.patience_le
    · exact h
  have hretx : (c.retransmitted now).state = .closed ∨ now < deadline ∧ (c.retransmitted now).Pending deadline k ∨
      (c.retransmitted now).Rearmed now k := by
    unfold retransmitted
    dsimp only
    generalize (if due c.delayedAckAt now = true then c.sendAck now else c) = b at hacked ⊢
    split_ifs with hdue
    · exact (hacked.onRetransmitTimeout now).imp_right .inr
    · rw [hacked.armed] at hdue
      exact .inr (.inl ⟨by simpa [due] using hdue, hacked⟩)
  rw [onTick_eq]
  dsimp only
  generalize c.retransmitted now = b at hretx ⊢
  have hprobe : ∀ d, d = (if due b.persistAt now then b.onPersistTimeout now else b) →
      d.state = .closed ∨ now < deadline ∧ d.Pending deadline k ∨ d.Rearmed now k := by
    rintro d rfl
    split_ifs with hdue
    · have hat : b.persistAt ≠ none := by
        rintro hnone
        rw [hnone] at hdue
        cases hdue
      rcases hretx with hclosed | ⟨hlt, hpending⟩ | ⟨at', k', hlo, hhi, hk, hpending⟩
      · exact .inl ((sendFrame_onPersistTimeout b now).state.trans hclosed)
      · exact .inr ((hpending.onPersistTimeout hat now).imp_left fun hkept => ⟨hlt, hkept⟩)
      · rcases hpending.onPersistTimeout hat now with hkept | ⟨at'', k'', hlo', hhi', hk', hkept⟩
        · exact .inr (.inr ⟨at', k', hlo, hhi, hk, hkept⟩)
        · exact .inr (.inr ⟨at'', k'', hlo', hhi', hk'.trans hk, hkept⟩)
    · exact hretx
  have hprobe := hprobe _ rfl
  generalize (if due b.persistAt now = true then b.onPersistTimeout now else b) = d at hprobe ⊢
  split_ifs
  · exact .inl rfl
  · exact hprobe

end TCPConnection

/-! ### The run -/

/-- The time of a tick. -/
def Event.ticked : Event → Option Time
  | .tick now => some now
  | _ => none

/-- Nothing comes in, and the application only reads. -/
def Event.Silent : Event → Prop
  | .tick _ | .recv .. => True
  | _ => False

namespace Endpoint

variable {p : Endpoint} {es : List Event}

theorem recv_timer (p : Endpoint) (maxBytes : Nat) (now : Time) :
    (p.step (.recv maxBytes now)).conn.state = p.conn.state ∧
      ∀ deadline k, p.conn.Pending deadline k → (p.step (.recv maxBytes now)).conn.Pending deadline k := by
  simp only [step, put_conn, TCPConnection.recv]
  split_ifs
  · exact ⟨rfl, fun _ _ h => h⟩
  · refine ⟨(sendFrame_sendAck _ now).state, fun deadline k h => ?_⟩
    have hsame := sameOffer_sendAck { p.conn with recvQueue := (p.conn.recvQueue.read maxBytes).1 } now
    refine ⟨hsame.retransmitAt.trans h.armed, hsame.retxQueue.symm ▸ h.outstanding,
      h.bounded.of_eq (KeepsTime.sendAck _ now).rto, ?_⟩
    unfold patience
    rw [hsame.retxQueue, hsame.persistAt, hsame.peerWindow]
    exact h.patience_le
  · exact ⟨rfl, fun _ _ h => ⟨h.armed, h.outstanding, h.bounded, h.patience_le⟩⟩

theorem countdown : endpoint.Countdown Event.Silent Event.ticked
    (fun q => endpoint.Reachable q ∧ q.conn.state = .closed)
    (fun q deadline k => endpoint.Reachable q ∧ q.conn.Pending deadline k) DEFAULT_MAX_RTO where
  keeps q e he h := by
    refine ⟨h.1.step endpoint e trivial, ?_⟩
    cases e with
    | tick now => exact (onTick_of_closed (basic_of_reachable h.1) h.2 now).1
    | recv maxBytes now => exact (recv_timer q maxBytes now).1.trans h.2
    | listen | connect | send | close | abort | segment => exact he.elim
  idle q e deadline k he hnone h := by
    refine ⟨h.1.step endpoint e trivial, ?_⟩
    cases e with
    | tick now => cases hnone
    | recv maxBytes now => exact (recv_timer q maxBytes now).2 deadline k h.2
    | listen | connect | send | close | abort | segment => exact he.elim
  ticks q e t deadline k he hsome h := by
    have hreach := h.1.step endpoint e trivial
    cases e with
    | tick now =>
      obtain rfl : now = t := by simpa [Event.ticked] using hsome
      rcases h.2.onTick now with hclosed | ⟨hlt, hpending⟩ | ⟨at', k', hlo, hhi, hk, hpending⟩
      · exact .inl ⟨hreach, hclosed⟩
      · exact .inr (.inl ⟨hlt, hreach, hpending⟩)
      · exact .inr (.inr ⟨at', k', hlo, hhi, hk, hreach, hpending⟩)
    | recv | listen | connect | send | close | abort | segment => cases hsome

/-- When nothing more comes from the peer, a connection with something outstanding is closed before long: by the first
tick after sixteen times the largest timeout, if every tick comes at most `gap` after the one before, and the first of
them at most `gap` after the timer is due. -/
theorem gives_up {deadline gap : Time} (hp : endpoint.Reachable p) (harmed : p.conn.retransmitAt = some deadline)
    (hgap : 0 ≤ gap) (hes : ∀ e ∈ es, e.Silent)
    (hticks : (deadline :: es.filterMap Event.ticked).IsChain fun s t => t ≤ s + gap)
    (hlate : ∃ t ∈ es.filterMap Event.ticked, deadline + (MAX_RETRANSMITS + 1) • (DEFAULT_MAX_RTO + gap) ≤ t) :
    (endpoint.run p es).conn.state = .closed := by
  have hout : p.conn.retxQueue.oldest ≠ none := by
    intro hnone
    have hnil : p.conn.retxQueue.segments = [] := List.head?_eq_none_iff.mp hnone
    rw [(basic_of_reachable hp).timer.mpr hnil] at harmed
    cases harmed
  have hpatience : p.conn.patience ≤ MAX_RETRANSMITS + 1 := by
    unfold patience
    split_ifs <;> omega
  have hlongest : (0 : Time) < DEFAULT_MAX_RTO := by decide +kernel
  exact (countdown.done_of_late hlongest hgap hes ⟨hp, harmed, hout, bounded_of_reachable hp, hpatience⟩ hticks
    hlate).2

/-- Nobody answers the SYN. -/
theorem gives_up_syn : (endpoint.run ((Endpoint.new (.plain 100)).step (.connect 0 0))
    ((List.range 34).map fun i => .tick (60 * i))).conn.state = .closed :=
  have hp : endpoint.Reachable ((Endpoint.new (.plain 100)).step (.connect 0 0)) :=
    (Machine.ReachableBy.init endpoint (.inl ⟨_, rfl⟩)).step endpoint (.connect 0 0) trivial
  have harmed : ((Endpoint.new (.plain 100)).step (.connect 0 0)).conn.retransmitAt = some 1 := by decide +kernel
  have hgap : (0 : Time) ≤ 60 := by decide
  gives_up hp harmed hgap (by simp [Event.Silent]) (by decide +kernel) (by decide +kernel)

end Endpoint

end MiniTcp
