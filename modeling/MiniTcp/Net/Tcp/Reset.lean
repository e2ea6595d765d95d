import MiniTcp.Net.Tcp.Invariant

/-!
# Resets

`on_segment` hands every RST to `_handle_rst` before it looks at anything but CLOSED (`onSegment_of_rst`), so the
`if not seg.is_rst` behind `_acceptable`, which would drop a reset outside the window, is never reached with one.
A connection honours a reset whatever the segment's numbers are: only those resets are validated that pass the test
anyway (`reset_validated_iff`). So does a listener: it keeps listening over a run of inbound segments and ticks
exactly as long as no RST arrives (`accepting_iff_no_reset`).
-/

namespace MiniTcp

namespace TCPConnection

variable {c : TCPConnection}

/-! ### Which resets are to be honoured -/

/-- A reset shows that it belongs to the connection: in SYN_SENT by acknowledging our SYN, later by a number in the
receive window. -/
def ResetPasses (c : TCPConnection) (seg : TCPSegment) : Prop :=
  if c.state = .synSent then seg.acknowledges (seqAdd c.iss 1) = true
  else Serial.gap c.recvQueue.nxt seg.seq < c.recvQueue.capacity

instance (c : TCPConnection) (seg : TCPSegment) : Decidable (c.ResetPasses seg) :=
  inferInstanceAs (Decidable (if c.state = .synSent then seg.acknowledges (seqAdd c.iss 1) = true
    else Serial.gap c.recvQueue.nxt seg.seq < c.recvQueue.capacity))

/-- The step from `c` to `c'` honours the reset only if it passes, and only counts it otherwise. -/
structure Validates (c : TCPConnection) (seg : TCPSegment) (c' : TCPConnection) : Prop where
  honoured : c'.state = .closed ∨ c'.resetReceived ≠ c.resetReceived → c.ResetPasses seg
  refused : ¬ c.ResetPasses seg →
    c' = { c with segmentsReceived := c'.segmentsReceived, lastActivity := c'.lastActivity }

theorem onSegment_of_rst {seg : TCPSegment} (srcIp : Option Bytes) (draw : SeqNo) (now : Time)
    (hstate : c.state ≠ .closed) (hrst : seg.isRst = true) :
    c.onSegment seg srcIp draw now = ((c.stamp now).handleRst, none) := by
  unfold onSegment dispatch
  rw [if_neg (show (c.stamp now).state ≠ .closed from hstate), if_pos hrst]

theorem onSegment_of_closed {seg : TCPSegment} (srcIp : Option Bytes) (draw : SeqNo) (now : Time)
    (hstate : c.state = .closed) : c.onSegment seg srcIp draw now = ((c.stamp now).reject seg now, none) := by
  unfold onSegment dispatch
  rw [if_pos (show (c.stamp now).state = .closed from hstate)]

theorem onSegment_of_syn {seg : TCPSegment} (srcIp : Option Bytes) (draw : SeqNo) (now : Time)
    (hsync : c.state.isSynchronised = true) (hrst : seg.isRst = false) (hsyn : seg.isSyn = true) :
    c.onSegment seg srcIp draw now = ((c.stamp now).reject seg now, none) := by
  obtain ⟨h1, h2, h3, h4⟩ := TcpState.ne_of_isSynchronised hsync
  unfold onSegment dispatch
  rw [if_neg (show ¬ (c.stamp now).state = .closed from h1), if_neg (by simp [hrst]),
    if_neg (show ¬ (c.stamp now).state = .listen from h2), if_pos hsyn,
    if_neg (show ¬ (c.stamp now).state = .synSent from h3),
    if_neg (show ¬ (c.stamp now).state = .synReceived from h4)]

theorem onSegment_eq_onSynchronised {seg : TCPSegment} (srcIp : Option Bytes) (draw : SeqNo) (now : Time)
    (hsync : c.state.isSynchronised = true) (hrst : seg.isRst = false) (hsyn : seg.isSyn = false) :
    c.onSegment seg srcIp draw now = ((c.stamp now).onSynchronised seg now, none) := by
  obtain ⟨h1, h2, h3, h4⟩ := TcpState.ne_of_isSynchronised hsync
  unfold onSegment dispatch
  rw [if_neg (show ¬ (c.stamp now).state = .closed from h1), if_neg (by simp [hrst]),
    if_neg (show ¬ (c.stamp now).state = .listen from h2), if_neg (by simp [hsyn]),
    if_neg (show ¬ (c.stamp now).state = .synSent from h3),
    if_neg (show ¬ (c.stamp now).state = .synReceived from h4)]

end TCPConnection

namespace Endpoint

/-- The SYN+ACK that answers a SYN with number 100. -/
def synAck : TCPSegment :=
  { srcPort := 2000, dstPort := 1000, seq := 500, ack := 101, flags := FLAG_SYN ||| FLAG_ACK, window := 1000 }

/-- An established client: its SYN was answered by a SYN+ACK. -/
def establishedClient : Endpoint :=
  endpoint.run (.new (.plain 100)) [.connect 0 0, .segment synAck none 0 0]

theorem reachable_establishedClient : endpoint.Reachable establishedClient :=
  (Machine.ReachableBy.init endpoint (.inl ⟨_, rfl⟩)).run endpoint (endpoint.meets_true _ _)

/-- A reset far outside the receive window. -/
def strayReset : TCPSegment :=
  { srcPort := 2000, dstPort := 1000, seq := 3000000000, flags := FLAG_RST }

/-- `_handle_rst` does not look at the segment, so a connection validates exactly the resets that pass. -/
theorem reset_validated_iff {c : TCPConnection} (hstate : c.state ≠ .closed ∧ c.state ≠ .listen)
    {seg : TCPSegment} (hrst : seg.isRst = true) (srcIp : Option Bytes) (draw : SeqNo) (now : Time) :
    c.Validates seg (c.onSegment seg srcIp draw now).1 ↔ c.ResetPasses seg := by
  have hclosed : (c.onSegment seg srcIp draw now).1.state = .closed := by
    rw [TCPConnection.onSegment_of_rst srcIp draw now hstate.1 hrst]
    rfl
  constructor
  · intro h
    exact h.honoured (.inl hclosed)
  · intro h
    exact ⟨fun _ => h, fun hno => absurd h hno⟩

/-- A reset at the next number we expect. -/
def nextReset : TCPSegment := { strayReset with seq := 501 }

theorem reset_validated_next :
    (establishedClient.conn.state ≠ .closed ∧ establishedClient.conn.state ≠ .listen) ∧ nextReset.isRst = true ∧
      establishedClient.conn.Validates nextReset (establishedClient.conn.onSegment nextReset none 0 0).1 :=
  ⟨by decide, by decide, (reset_validated_iff (by decide) (by decide) none 0 0).mpr (by decide)⟩

/-- A reset outside the receive window destroys an established connection. -/
theorem stray_reset_destroys :
    endpoint.Reachable establishedClient ∧ establishedClient.conn.state = .established ∧
      strayReset.isRst = true ∧ ¬ establishedClient.conn.ResetPasses strayReset ∧
      (establishedClient.conn.onSegment strayReset none 0 0).1.state = .closed ∧
      (establishedClient.conn.onSegment strayReset none 0 0).1.resetReceived = true ∧
      ¬ establishedClient.conn.Validates strayReset (establishedClient.conn.onSegment strayReset none 0 0).1 :=
  ⟨reachable_establishedClient, by decide, by decide, by decide, by decide, by decide,
    fun h => absurd (h.honoured (.inl (by decide))) (by decide)⟩

end Endpoint

/-! ### A listener -/

namespace TCPConnection

variable {c : TCPConnection}

/-- The connection listens, and every SYN without RST makes it hand out a half-open child. -/
def Accepting (c : TCPConnection) : Prop :=
  c.state = .listen ∧ ∀ (seg : TCPSegment) (srcIp : Option Bytes) (draw : SeqNo) (now : Time),
    seg.isSyn = true → seg.isRst = false →
      ∃ child, (c.onSegment seg srcIp draw now).2 = some child ∧ child.state = .synReceived

theorem onSegment_of_listen {seg : TCPSegment} (srcIp : Option Bytes) (draw : SeqNo) (now : Time)
    (hstate : c.state = .listen) (hrst : seg.isRst = false) :
    c.onSegment seg srcIp draw now =
      (c.stamp now, (c.stamp now).handleSegmentInListen seg srcIp draw now) := by
  have hst : (c.stamp now).state = .listen := hstate
  unfold onSegment dispatch
  rw [if_neg (by rw [hst]; decide), if_neg (by rw [hrst]; decide), if_pos hst]

theorem accepting_of_listen (hstate : c.state = .listen) : c.Accepting := by
  refine ⟨hstate, fun seg srcIp draw now hsyn hrst => ?_⟩
  rw [onSegment_of_listen srcIp draw now hstate hrst]
  unfold handleSegmentInListen
  rw [if_neg (by rw [hrst]; decide), if_neg (by rw [hsyn]; decide)]
  exact ⟨_, rfl, by rw [beginPassiveOpen_eq]⟩

/-- A listener has nothing outstanding, so no timer takes it out of LISTEN. -/
theorem onTick_of_listen (h : c.Basic) (hstate : c.state = .listen) (now : Time) :
    (c.onTick now).state = .listen := by
  have hflush : ∀ d : TCPConnection, d.state = .listen → (d.flush now).state = .listen := by
    intro d hd
    rw [(sendFrame_flush d now).state, hd]
  obtain ⟨-, hretx⟩ := h.idle (.inr hstate)
  have hold : c.retxQueue.oldest = none := by rw [RetransmitQueue.oldest, hretx]; rfl
  unfold onTick
  dsimp only
  -- the three timers in turn; the first two leave the state and the empty queue alone
  have h1 : ∀ d, d = (if due c.delayedAckAt now = true then c.sendAck now else c) →
      d.state = .listen ∧ d.retxQueue.oldest = none := by
    rintro d rfl
    split_ifs
    · simp [sendAck, hstate, hold]
    · exact ⟨hstate, hold⟩
  obtain ⟨hst1, hold1⟩ := h1 _ rfl
  generalize (if due c.delayedAckAt now = true then c.sendAck now else c) = c1 at hst1 hold1 ⊢
  have h2 : ∀ d, d = (if due c1.retransmitAt now = true then c1.onRetransmitTimeout now else c1) →
      d.state = .listen := by
    rintro d rfl
    split_ifs
    · simp [onRetransmitTimeout, hold1, hst1]
    · exact hst1
  have hst2 := h2 _ rfl
  generalize (if due c1.retransmitAt now = true then c1.onRetransmitTimeout now else c1) = c2 at hst2 ⊢
  have h3 : ∀ d, d = (if due c2.persistAt now = true then c2.onPersistTimeout now else c2) →
      d.state = .listen := by
    rintro d rfl
    unfold onPersistTimeout
    split_ifs with hdue hwindow hsync
    · exact hflush _ hst2
    · exact hst2
    · simp [hst2, TcpState.isSynchronised] at hsync
    · exact hst2
  have hst3 := h3 _ rfl
  generalize (if due c2.persistAt now = true then c2.onPersistTimeout now else c2) = c3 at hst3 ⊢
  rw [if_neg (by simp [hst3])]
  exact hst3

end TCPConnection

namespace Endpoint

/-- The event does not bring in a reset. -/
def NoReset (e : Event) : Prop := ∀ seg, e.inbound = some seg → seg.isRst = false

/-- What segments and ticks do to a listener: it stays one exactly when no reset comes in. -/
theorem listen_step_iff {p : Endpoint} {e : Event} (hp : endpoint.Reachable p)
    (hstate : p.conn.state = .listen) (he : e.IsEnvironment) :
    (p.step e).conn.state = .listen ↔ NoReset e := by
  cases e with
  | tick now =>
    have htick := TCPConnection.onTick_of_listen (TCPConnection.basic_of_reachable hp) hstate now
    exact ⟨fun _ _ h => (by cases h), fun _ => htick⟩
  | segment seg srcIp draw now =>
    simp only [NoReset, Event.inbound, Option.some.injEq, forall_eq', step, put_conn]
    cases hrst : seg.isRst with
    | true =>
      rw [TCPConnection.onSegment_of_rst srcIp draw now (by rw [hstate]; decide) hrst]
      simp [TCPConnection.handleRst, TCPConnection.notify, TCPConnection.teardown]
    | false =>
      rw [TCPConnection.onSegment_of_listen srcIp draw now hstate hrst]
      simp [TCPConnection.stamp, hstate]
  | listen | connect | send | recv | close | abort => cases he

/-- Once `listen()` was called, over every list of segments and ticks the connection keeps accepting
exactly when none of the segments carries an RST. -/
theorem accepting_iff_no_reset {p : Endpoint} (hp : endpoint.Reachable p)
    (hclosed : p.conn.state = .closed) {es : List Event} (hes : ∀ e ∈ es, e.IsEnvironment) :
    endpoint.Always (·.conn.Accepting) (p.step .listen) es ↔ ∀ e ∈ es, NoReset e := by
  have hlisten : (p.step .listen).conn.state = .listen := by
    simp [step, TCPConnection.listen, hclosed]
  rw [← endpoint.meets_const (p.step .listen)]
  refine endpoint.always_iff_meets (Q := fun q => endpoint.Reachable q)
    (E := fun _ e => e.IsEnvironment) ?_ ?_ ((endpoint.meets_const _ _).mpr hes) ?_ ?_
  · exact fun q e hq _ _ _ => hq.step endpoint e trivial
  · intro q e hq hacc he
    rw [← listen_step_iff hq hacc.1 he]
    exact ⟨fun h => h.1, TCPConnection.accepting_of_listen⟩
  · exact hp.step endpoint .listen trivial
  · exact TCPConnection.accepting_of_listen hlisten

/-- A bare SYN from a client. -/
def clientSyn : TCPSegment :=
  { srcPort := 4000, dstPort := 1000, seq := 700, flags := FLAG_SYN, window := 1000 }

theorem accepting_after_syn :
    endpoint.Always (·.conn.Accepting) ((Endpoint.new (.plain 100)).step .listen)
      [.segment clientSyn none 0 0, .tick 1] :=
  (accepting_iff_no_reset (p := .new (.plain 100)) (Machine.ReachableBy.init endpoint (.inl ⟨_, rfl⟩))
    rfl (by simp [Event.IsEnvironment])).mpr (by simp [NoReset, Event.inbound]; decide)

/-- One reset ends a listener: a later SYN gets no child. -/
theorem reset_ends_listener :
    endpoint.Reachable ((Endpoint.new (.plain 100)).step .listen) ∧
      ((Endpoint.new (.plain 100)).step .listen).conn.state = .listen ∧
      (((Endpoint.new (.plain 100)).step .listen).step
        (.segment strayReset none 0 0)).conn.state = .closed ∧
      ((((Endpoint.new (.plain 100)).step .listen).step
        (.segment strayReset none 0 0)).conn.onSegment clientSyn none 0 0).2.isNone = true :=
  ⟨(Machine.ReachableBy.init endpoint (.inl ⟨_, rfl⟩)).step endpoint .listen trivial,
    by decide, by decide, by decide⟩

end Endpoint

end MiniTcp
