import MiniTcp.Net.Tcp.Action

/-!
# Every call is a sequence of actions

One lemma for each method of the connection: the method takes the connection along actions only.
`actions_step` puts them together for the calls.
-/

namespace MiniTcp

open Relation (ReflTransGen)

namespace TCPConnection

variable {c : TCPConnection}

/-! ### The branches of a segment -/

theorem dispatch_cases {P : TCPConnection → Prop} (c : TCPConnection) (seg : TCPSegment) (srcIp : Option Bytes)
    (draw : SeqNo) (now : Time) (hclosed : c.state = .closed → P (c.reject seg now))
    (hreset : c.state ≠ .closed → seg.isRst = true → P c.handleRst)
    (hlisten : seg.isRst = false → c.state = .listen → P c)
    (hsynAck : seg.isRst = false → seg.isSyn = true → c.state = .synSent → seg.isAck = true →
      P (c.handleSynAck seg now))
    (hsyn : seg.isRst = false → seg.isSyn = true → c.state = .synSent → seg.isAck = false →
      P (c.handleSimultaneousOpen seg now))
    (hagain : seg.isRst = false → seg.isSyn = true → c.state = .synReceived → P (c.retransmitOldest now false))
    (hlate : seg.isRst = false → seg.isSyn = true → c.state.isSynchronised = true → P (c.reject seg now))
    (hwaits : seg.isRst = false → seg.isSyn = false → c.state = .synSent → P c)
    (hfinal : seg.isRst = false → seg.isSyn = false → c.state = .synReceived → seg.isAck = true →
      P (c.handleFinalAckOfHandshake seg now))
    (hbare : seg.isRst = false → seg.isSyn = false → c.state = .synReceived → seg.isAck = false → P c)
    (hdone : seg.isRst = false → seg.isSyn = false → c.state.isSynchronised = true → P (c.onSynchronised seg now)) :
    P (c.dispatch seg srcIp draw now).1 := by
  unfold dispatch
  split_ifs with h1 hrst h2 hflag h3 hack h4 h3 h4 hack
  · exact hclosed h1
  · exact hreset h1 hrst
  · exact hlisten (eq_false_of_ne_true hrst) h2
  · exact hsynAck (eq_false_of_ne_true hrst) hflag h3 hack
  · exact hsyn (eq_false_of_ne_true hrst) hflag h3 (eq_false_of_ne_true hack)
  · exact hagain (eq_false_of_ne_true hrst) hflag h4
  · exact hlate (eq_false_of_ne_true hrst) hflag (TcpState.isSynchronised_of_ne h1 h2 h3 h4)
  · exact hwaits (eq_false_of_ne_true hrst) (eq_false_of_ne_true hflag) h3
  · exact hfinal (eq_false_of_ne_true hrst) (eq_false_of_ne_true hflag) h4 hack
  · exact hbare (eq_false_of_ne_true hrst) (eq_false_of_ne_true hflag) h4 (eq_false_of_ne_true hack)
  · exact hdone (eq_false_of_ne_true hrst) (eq_false_of_ne_true hflag)
      (TcpState.isSynchronised_of_ne h1 h2 h3 h4)

/-! ### Still receiving -/

theorem Receiving.of_eq {c' : TCPConnection} (h : c.Receiving) (hstate : c'.state = c.state)
    (hfin : c'.finSeq = c.finSeq) : c'.Receiving := by
  rw [Receiving, hstate, hfin]
  exact h

theorem receiving_processAck (h : c.Receiving) (seg : TCPSegment) (now : Time) :
    (c.processAck seg now).Receiving :=
  have hframe := ackFrame_processAck c seg now
  h.of_eq hframe.state hframe.finSeq

theorem receiving_maybeAdvanceAfterAck (h : c.Receiving) (seg : TCPSegment) (now : Time) :
    (c.maybeAdvanceAfterAck seg now).Receiving := by
  unfold maybeAdvanceAfterAck
  split
  · exact h
  · rename_i finSeq hfin
    split_ifs
    · exact h
    · exact h
    · exact .inl rfl
    · exact .inl rfl
    · exact .inr ⟨rfl, by simp [teardown, notify, hfin]⟩
    · exact h

theorem receiving_handleData (h : c.Receiving) (seg : TCPSegment) (now : Time) :
    (c.handleData seg now).Receiving :=
  have hframe := handleData_frame c seg now
  h.of_eq hframe.1 hframe.2.1

theorem Receiving.finTaken (h : c.Receiving) (now : Time) : (c.finTaken now).Receiving := by
  unfold TCPConnection.finTaken
  dsimp only
  split
  · exact .inl rfl
  · split_ifs <;> exact .inl rfl
  · exact .inl rfl
  · exact .inl rfl
  · exact h

end TCPConnection

/-! ### Methods -/

/-- The actions of a call `e` lead from `c` to `c'`, with the history of `p`. -/
abbrev Leads (r : Bool) (e : Event) (p : Endpoint) (c c' : TCPConnection) : Prop :=
  ReflTransGen (Action r e) (p.put c) (p.put c')

namespace Leads

variable {r : Bool} {e : Event} {p : Endpoint} {c c' : TCPConnection}

theorem of_quiet {d : TCPConnection} (h : c.Quiet d) : Leads r e p c d := .single (Action.quiet (p := p.put c) h)

theorem untracked_flags {flags : Flags} (h : flags = FLAG_ACK ∨ flags = FLAG_RST ∨
    flags = FLAG_RST ||| FLAG_ACK) :
    (true && (flags &&& (FLAG_SYN ||| FLAG_FIN) != 0 || decide (([] : Bytes) ≠ []))) = false := by
  rcases h with rfl | rfl | rfl <;> decide

theorem sendAck (now : Time) (h : c.Receiving ∨ c.delayedAckAt ≠ none) :
    Leads r e p c (c.sendAck now) := by
  unfold TCPConnection.sendAck
  dsimp only
  split_ifs with hstate
  · exact of_quiet (by constructor <;> first | rfl | exact fun _ => rfl)
  · rw [TCPConnection.transmit_untracked _ _ _ _ _ (untracked_flags (.inl rfl))]
    have hopen := not_or.mp hstate
    have hack : c.state.isSynchronised = true ∨
        c.delayedAckAt ≠ none ∧ c.state ≠ .closed ∧ c.state ≠ .listen := by
      rcases h with (hsync | ⟨hclosed, -⟩) | hdelayed
      · exact .inl hsync
      · exact absurd hclosed hopen.1
      · exact .inr ⟨hdelayed, hopen⟩
    -- the ACK does not depend on the timer, which is called off after it
    refine ReflTransGen.trans (.single (Action.ack (p := p.put c) hack)) (of_quiet ?_)
    constructor <;> first | rfl | exact fun _ => rfl

theorem reject {seg : TCPSegment} {srcIp : Option Bytes} {draw : SeqNo} {t : Time} (now : Time)
    (hr : r = true) (he : e = .segment seg srcIp draw t) (hstate : c.Rejects seg) :
    Leads r e p c (c.reject seg now) := by
  by_cases hrst : seg.isRst = true
  · rw [TCPConnection.reject, if_pos hrst]
  · rw [Bool.not_eq_true] at hrst
    have heq : c.reject seg now = c.emit (c.rejection seg) := by
      unfold TCPConnection.reject TCPConnection.rejection
      rw [if_neg (by rw [hrst]; decide)]
      split_ifs
      · exact TCPConnection.transmit_untracked _ _ _ _ _ (untracked_flags (.inr (.inl rfl)))
      · exact TCPConnection.transmit_untracked _ _ _ _ _ (untracked_flags (.inr (.inr rfl)))
    rw [heq]
    exact .single (Action.reject (p := p.put c) hr he hrst hstate)

/-! ### Sending -/

theorem transmitData {n : Nat} {now : Time} (hsync : c.state.isSynchronised = true)
    (hne : c.sendQueue.peek c.sendQueue.nxt n ≠ []) (hdone : e.Processed c) :
    Leads r e p c (c.transmitData (c.sendQueue.peek c.sendQueue.nxt n) now) :=
  .single (Action.push (p := p.put c) _ n now hsync rfl hne hdone)

theorem flushLoop (now : Time) (fuel : Nat) (c : TCPConnection) (hsync : c.state.isSynchronised = true)
    (hdone : e.Processed c) : Leads r e p c (TCPConnection.flushLoop now fuel c) := by
  induction fuel generalizing c with
  | zero => exact .refl
  | succ fuel ih =>
    unfold TCPConnection.flushLoop
    split_ifs
    · exact .refl
    · dsimp only
      split_ifs with hne
      · exact .refl
      · exact transmitData hsync hne hdone
      · have hframe := TCPConnection.sendFrame_transmitData c c.nextPayload.1 now
        exact (transmitData hsync hne hdone).trans
          (ih _ (hframe.state ▸ hsync) (hdone.of_una hframe.una))

theorem flush (c : TCPConnection) (now : Time) (hdone : e.Processed c) :
    Leads r e p c (c.flush now) := by
  unfold TCPConnection.flush
  split_ifs with hsync
  · exact .refl
  · unfold TCPConnection.armPersistTimer
    split_ifs
    · exact of_quiet (by constructor <;> first | rfl | exact id)
    · split
      · exact of_quiet (by constructor <;> first | rfl | exact id)
      · exact .refl
  · refine (of_quiet ?_).trans (flushLoop now _ _ (by simpa using hsync) (hdone.of_una rfl))
    constructor <;> first | rfl | exact id

theorem resend {entry : OutstandingSegment} (now : Time) (h : c.retxQueue.oldest = some entry) :
    Leads r e p c (c.resend entry now) :=
  .single (Action.resend (p := p.put c) now h)

theorem resend_segments {entry : OutstandingSegment} (now : Time)
    (h : c.retxQueue.oldest = some entry) : (c.resend entry now).retxQueue.segments ≠ [] := by
  unfold RetransmitQueue.oldest at h
  unfold TCPConnection.resend
  rw [TCPConnection.transmit_untracked _ _ _ _ _ (by rfl)]
  simp only [TCPConnection.emit, RetransmitQueue.markRetransmitted]
  cases hsegs : c.retxQueue.segments with
  | nil => simp [hsegs] at h
  | cons entry rest => simp

theorem arm {t : Time} (h : c.retxQueue.segments ≠ []) :
    Leads r e p c { c with retransmitAt := some t } :=
  .single (Action.arm (p := p.put c) t h)

theorem retransmitOldest (c : TCPConnection) (now : Time) (fast : Bool) :
    Leads r e p c (c.retransmitOldest now fast) := by
  unfold TCPConnection.retransmitOldest
  split
  · exact .refl
  · rename_i entry hold
    dsimp only
    split_ifs
    · exact resend now hold
    · exact (resend now hold).trans (arm (resend_segments now hold))

/-! ### Acknowledgements -/

theorem processed {seg : TCPSegment} {srcIp : Option Bytes} {draw : SeqNo} {t : Time}
    (he : e = .segment seg srcIp draw t) (hgt : seqGt seg.ack c.sendQueue.una = false) :
    e.Processed c := by
  rintro x hx
  subst he
  obtain rfl := Option.some.inj hx
  exact hgt

theorem processOldAck {seg : TCPSegment} {srcIp : Option Bytes} {draw : SeqNo} {t : Time} (now : Time)
    (he : e = .segment seg srcIp draw t) (hgt : seqGt seg.ack c.sendQueue.una = false) :
    Leads r e p c (c.processOldAck seg now) := by
  have hdone : e.Processed (c.answerOldAck seg now) :=
    (processed he hgt).of_una (c.answerOldAck_frame seg now).2.1
  rw [TCPConnection.processOldAck_eq]
  refine ReflTransGen.trans ?_ (flush _ now hdone)
  unfold TCPConnection.answerOldAck
  dsimp only
  have hcount : c.Quiet ((c.updatePeerWindow seg).1.countDuplicateAck seg).1 := by
    unfold TCPConnection.countDuplicateAck
    split_ifs
    · exact ⟨rfl, rfl, rfl, rfl, rfl, rfl, rfl, rfl, rfl, rfl, rfl, rfl, rfl,
        RenoCongestion.onDuplicateAck_mss _ _, id⟩
    · constructor <;> first | rfl | exact id
  refine (of_quiet hcount).trans ?_
  split_ifs
  · exact retransmitOldest _ now true
  · exact retransmitOldest _ now false
  · exact .refl

theorem quiet_retire (c : TCPConnection) (seg : TCPSegment) (now : Time) :
    (c.acknowledged seg.ack (now + (c.estimate (c.retxQueue.acknowledge seg.ack).2 now).rto)).Quiet
      (((c.retire seg now).updatePeerWindow seg).1.armRetransmitTimer now) :=
  ⟨rfl, rfl, rfl, rfl, rfl, rfl, rfl, rfl, rfl, rfl, rfl, rfl, rfl, RenoCongestion.onAck_mss _ _ _, id⟩

theorem processNewAck_eq {seg : TCPSegment} (now : Time)
    (hgt : seqGt seg.ack c.sendQueue.una = true) :
    c.processNewAck seg now =
      (((c.retire seg now).updatePeerWindow seg).1.armRetransmitTimer now).flush now := by
  unfold TCPConnection.processNewAck
  dsimp only
  rw [if_neg (by have := TCPConnection.acknowledge_pos hgt; omega)]

theorem processAck {seg : TCPSegment} {srcIp : Option Bytes} {draw : SeqNo} {t : Time} (now : Time)
    (he : e = .segment seg srcIp draw t) (hack : seg.isAck = true) (hrst : seg.isRst = false)
    (hstate : c.state.isSynchronised = true) : Leads r e p c (c.processAck seg now) := by
  unfold TCPConnection.processAck
  split_ifs with hgt
  · exact processOldAck now he (by simpa using hgt)
  · have hgt : seqGt seg.ack c.sendQueue.una = true := by simpa using hgt
    have huna : (c.sendQueue.acknowledge seg.ack).1.una = seg.ack := by
      rw [SendQueue.acknowledge_of_gt hgt]
    rw [processNewAck_eq now hgt]
    refine ReflTransGen.trans ?_ (flush _ now (processed he ?_))
    swap
    · rw [← Bool.not_eq_true, seqGt_iff]
      simp only [TCPConnection.armRetransmitTimer, TCPConnection.updatePeerWindow,
        TCPConnection.retire, huna]
      exact Serial.not_lt_self _
    exact (ReflTransGen.single (Action.retire (p := p.put c) _ he hack hrst hstate hgt)).trans
      (of_quiet (quiet_retire c seg now))

/-! ### The handshake -/

theorem establish {seg : TCPSegment} {srcIp : Option Bytes} {draw : SeqNo} {now : Time} (t : Time)
    (he : e = .segment seg srcIp draw now) (hack : seg.isAck = true) (hrst : seg.isRst = false)
    (hstate : c.state = .synSent ∧ seg.isSyn = true ∧
      c.recvQueue = .new seg.seq c.cfg.receiveCapacity ∨
      c.state = .synReceived ∧ seg.isSyn = false)
    (hge : seqGe seg.ack (seqAdd c.iss 1) = true) : Leads r e p c (c.settled seg.ack t) :=
  .single (Action.establish (p := p.put c) t he hack hrst hstate hge)

/-- A handshake ACK ends with the connection established. -/
theorem handshakeAck {seg : TCPSegment} {srcIp : Option Bytes} {draw : SeqNo} {t : Time} (now : Time)
    (he : e = .segment seg srcIp draw t) (hack : seg.isAck = true) (hrst : seg.isRst = false)
    (hstate : c.state = .synSent ∧ seg.isSyn = true ∧
      c.recvQueue = .new seg.seq c.cfg.receiveCapacity ∨
      c.state = .synReceived ∧ seg.isSyn = false)
    (hge : seqGe seg.ack (seqAdd c.iss 1) = true) :
    Leads r e p c { c.processAck seg now with state := .established } := by
  unfold TCPConnection.processAck
  split_ifs with hold
  · -- the number is half the ring ahead of `snd_una`: nothing is retired
    have hgt : seqGt seg.ack c.sendQueue.una = false := by simpa using hold
    have hframe : TCPConnection.AckFrame c (c.processOldAck seg now) ∧
        (c.processOldAck seg now).sendQueue.una = c.sendQueue.una := by
      rw [TCPConnection.processOldAck_eq]
      have h := c.answerOldAck_frame seg now
      have h' := TCPConnection.sendFrame_flush (c.answerOldAck seg now) now
      exact ⟨h.1.trans h'.ackFrame, h'.una.trans h.2.1⟩
    have hest := establish (r := r) (c := c.processOldAck seg now) (p := p) now he hack hrst
      (by rw [hframe.1.state, hframe.1.recvQueue, hframe.1.cfg]; exact hstate)
      (by rw [hframe.1.iss]; exact hge)
    rw [TCPConnection.settled, hframe.2, hgt, if_neg Bool.false_ne_true] at hest
    exact (processOldAck now he hgt).trans hest
  · have hgt : seqGt seg.ack c.sendQueue.una = true := by simpa using hold
    have hflush : c.processNewAck seg now =
        ((c.retire seg now).updatePeerWindow seg).1.armRetransmitTimer now := by
      rw [processNewAck_eq now hgt, TCPConnection.flush, if_pos]
      rcases hstate with h | h
      · simp [TCPConnection.armRetransmitTimer, TCPConnection.updatePeerWindow,
          TCPConnection.retire, h.1, TcpState.isSynchronised]
      · simp [TCPConnection.armRetransmitTimer, TCPConnection.updatePeerWindow,
          TCPConnection.retire, h.1, TcpState.isSynchronised]
    have hest := establish (r := r) (p := p)
      (now + (c.estimate (c.retxQueue.acknowledge seg.ack).2 now).rto) he hack hrst hstate hge
    rw [TCPConnection.settled, if_pos hgt] at hest
    rw [hflush]
    refine hest.trans (of_quiet ?_)
    exact ⟨rfl, rfl, rfl, rfl, rfl, rfl, rfl, rfl, rfl, rfl, rfl, rfl, rfl,
      RenoCongestion.onAck_mss _ _ _, id⟩

theorem sendAck_established (c : TCPConnection) (now : Time)
    (hstate : c.state ≠ .closed ∧ c.state ≠ .listen) :
    { c.sendAck now with state := .established } =
      { c with state := .established }.sendAck now := by
  have hack : (true && (FLAG_ACK &&& (FLAG_SYN ||| FLAG_FIN) != 0 ||
      decide (([] : Bytes) ≠ []))) = false := by decide
  unfold TCPConnection.sendAck
  dsimp only
  rw [if_neg (by simpa using hstate), if_neg (by simp),
    TCPConnection.transmit_untracked _ _ _ _ _ hack, TCPConnection.transmit_untracked _ _ _ _ _ hack]
  rfl

theorem handleSynAck {seg : TCPSegment} {srcIp : Option Bytes} {draw : SeqNo} {t : Time} (now : Time)
    (he : e = .segment seg srcIp draw t) (hack : seg.isAck = true) (hrst : seg.isRst = false)
    (hsyn : seg.isSyn = true) (hstate : c.state = .synSent) (hr : c.Rejects seg → r = true) :
    Leads r e p c (c.handleSynAck seg now) := by
  unfold TCPConnection.handleSynAck
  split_ifs with hge
  · have hrejects : c.Rejects seg := .inr (.inr ⟨hstate, hsyn, hack, by simpa using hge⟩)
    exact reject now (hr hrejects) he hrejects
  · have hge : seqGe seg.ack (seqAdd c.iss 1) = true := by simpa using hge
    refine ReflTransGen.trans
      (.single (Action.adopt (p := p.put c) he hstate hsyn hack hrst hge)) ?_
    dsimp only
    generalize hd : ({ ({ c with
        irs := seg.seq
        recvQueue := .new seg.seq c.cfg.receiveCapacity } : TCPConnection).applyPeerOptions
          seg.options with
      peerWindow := seg.window <<< (({ c with
        irs := seg.seq
        recvQueue := .new seg.seq c.cfg.receiveCapacity } : TCPConnection).applyPeerOptions
          seg.options).sndWscale } : TCPConnection) = d
    have hdstate : d.state = .synSent := by rw [← hd]; exact hstate
    have hdge : seqGe seg.ack (seqAdd d.iss 1) = true := by rw [← hd]; exact hge
    have hadopt : d.recvQueue = .new seg.seq d.cfg.receiveCapacity := by rw [← hd]; rfl
    have hopen : (d.processAck seg now).state ≠ .closed ∧ (d.processAck seg now).state ≠ .listen := by
      rw [(TCPConnection.ackFrame_processAck d seg now).state, hdstate]
      decide
    rw [sendAck_established _ now hopen]
    refine ReflTransGen.trans (of_quiet (d := d) ?_) ?_
    · rw [← hd]
      constructor <;> first | rfl | exact id
    · refine ((handshakeAck now he hack hrst (.inl ⟨hdstate, hsyn, hadopt⟩) hdge).trans
        (sendAck now (.inl (.inl rfl)))).trans (of_quiet ?_)
      constructor <;> first | rfl | exact id

theorem handleFinalAckOfHandshake {seg : TCPSegment} {srcIp : Option Bytes} {draw : SeqNo} {t : Time}
    (now : Time) (he : e = .segment seg srcIp draw t) (hack : seg.isAck = true)
    (hrst : seg.isRst = false) (hstate : c.state = .synReceived) (hsyn : seg.isSyn = false) :
    Leads r e p c (c.handleFinalAckOfHandshake seg now) := by
  unfold TCPConnection.handleFinalAckOfHandshake
  split_ifs with hge
  · exact .refl
  · refine (handshakeAck now he hack hrst (.inr ⟨hstate, hsyn⟩) (by simpa using hge)).trans (of_quiet ?_)
    constructor <;> first | rfl | exact id

/-! ### Data and closing -/

theorem insert {seg : TCPSegment} {srcIp : Option Bytes} {draw : SeqNo} {t : Time}
    (he : e = .segment seg srcIp draw t) (hrst : seg.isRst = false) (hstate : c.Receiving)
    (hne : seg.payload ≠ []) :
    Leads r e p c { c with recvQueue := (c.recvQueue.insert seg.seq seg.payload).1 } :=
  .single (Action.insert (p := p.put c) he hrst hstate hne)

theorem acknowledgeData (newly : Nat) (now : Time) (hstate : c.Receiving) :
    Leads r e p c (c.acknowledgeData newly now) := by
  unfold TCPConnection.acknowledgeData
  split_ifs
  · split
    · exact .single (Action.delay (p := p.put c) _ hstate)
    · exact .refl
  · exact sendAck now (.inl hstate)

theorem handleData {seg : TCPSegment} {srcIp : Option Bytes} {draw : SeqNo} {t : Time} (now : Time)
    (he : e = .segment seg srcIp draw t) (hrst : seg.isRst = false) (hstate : c.Receiving)
    (hne : seg.payload ≠ []) : Leads r e p c (c.handleData seg now) := by
  refine (insert he hrst hstate hne).trans ?_
  unfold TCPConnection.handleData
  dsimp only
  rw [if_pos (.inr hne)]
  refine ReflTransGen.trans (of_quiet ?_) (acknowledgeData _ now (by split_ifs <;> exact hstate))
  split_ifs
  · constructor <;> first | rfl | exact id
  · constructor <;> first | rfl | exact id

theorem maybeAdvanceAfterAck {seg : TCPSegment} {srcIp : Option Bytes} {draw : SeqNo} {now : Time}
    (he : e = .segment seg srcIp draw now) (hrst : seg.isRst = false) :
    Leads r e p c (c.maybeAdvanceAfterAck seg now) := by
  unfold TCPConnection.maybeAdvanceAfterAck
  split
  · exact .refl
  · rename_i finSeq hfin
    split_ifs with hack hge h1 h2 h3
    · exact .refl
    · exact .refl
    all_goals have hack : seg.isAck = true := by simpa using hack
    all_goals have hge : seqGe seg.ack (seqAdd finSeq 1) = true := by simpa using hge
    · have := Action.advance (r := r) (p := p.put c) he hack hrst hfin hge (.inl h1)
      simp only [TCPConnection.finAcknowledged, Endpoint.put_conn, h1] at this
      exact .single this
    · have := Action.advance (r := r) (p := p.put c) he hack hrst hfin hge (.inr (.inl h2))
      simp only [TCPConnection.finAcknowledged, Endpoint.put_conn, h2] at this
      exact .single this
    · have := Action.advance (r := r) (p := p.put c) he hack hrst hfin hge (.inr (.inr h3))
      simp only [TCPConnection.finAcknowledged, Endpoint.put_conn, h3] at this
      exact .single this
    · exact .refl

theorem consumeFin_eq (c : TCPConnection) (now : Time) (hstate : c.Receiving) :
    c.consumeFin now = (c.finTaken now).sendAck now := by
  have hack : (true && (FLAG_ACK &&& (FLAG_SYN ||| FLAG_FIN) != 0 ||
      decide (([] : Bytes) ≠ []))) = false := by decide
  have hsend : ∀ d : TCPConnection, d.state ≠ .closed → d.state ≠ .listen →
      d.sendAck now = ({ d with delayedAckAt := none } : TCPConnection).emit
        (d.segmentOf d.sendQueue.nxt FLAG_ACK [] d.recvQueue.nxt {}) := fun d h1 h2 => by
    unfold TCPConnection.sendAck
    dsimp only
    rw [if_neg (by simp [h1, h2]), TCPConnection.transmit_untracked _ _ _ _ _ hack]
    rfl
  unfold TCPConnection.consumeFin TCPConnection.finTaken
  dsimp only
  cases hst : c.state
  case closed => simp [TCPConnection.sendAck]
  case listen => simp [TCPConnection.Receiving, TcpState.isSynchronised, hst] at hstate
  case synSent => simp [TCPConnection.Receiving, TcpState.isSynchronised, hst] at hstate
  case synReceived => simp [TCPConnection.Receiving, TcpState.isSynchronised, hst] at hstate
  case finWait1 =>
    rw [hsend _ (by simp) (by simp)]
    refine (if_neg ?_).trans ((if_pos ?_).trans ?_)
    · simp [TCPConnection.emit]
    · simp [TCPConnection.emit]
    by_cases hany : c.finSeq.any (fun finSeq => seqGe c.sendQueue.una (seqAdd finSeq 1)) = true
    · refine (if_pos hany).trans ?_
      rw [if_pos hany, hsend _ (by simp [TCPConnection.enterTimeWait])
        (by simp [TCPConnection.enterTimeWait])]
      rfl
    · refine (if_neg hany).trans ?_
      rw [if_neg hany, hsend _ (by simp) (by simp)]
      rfl
  case closeWait | lastAck | timeWait =>
    rw [hsend _ (by simp) (by simp)]
    simp only [TCPConnection.emit, if_false, reduceCtorEq]
  all_goals
    rw [hsend _ (by simp) (by simp)]
    simp only [TCPConnection.emit, if_true, if_false, reduceCtorEq]
    rw [hsend _ (by simp [TCPConnection.enterTimeWait]) (by simp [TCPConnection.enterTimeWait])]
    rfl

theorem handleFin {seg : TCPSegment} {srcIp : Option Bytes} {draw : SeqNo} {now : Time}
    (he : e = .segment seg srcIp draw now) (hrst : seg.isRst = false) (hfin : seg.isFin = true)
    (hstate : c.Receiving) : Leads r e p c (c.handleFin seg now) := by
  unfold TCPConnection.handleFin
  dsimp only
  split_ifs with hgt hlt
  · exact sendAck now (.inl hstate)
  · exact sendAck now (.inl hstate)
  · rw [consumeFin_eq c now hstate]
    refine ReflTransGen.trans (.single ?_) (sendAck now (.inl (hstate.finTaken now)))
    exact Action.consumeFin (p := p.put c) he hrst hfin hstate (by simpa using hgt) (by simpa using hlt)

theorem onSynchronised {seg : TCPSegment} {srcIp : Option Bytes} {draw : SeqNo} {now : Time}
    (he : e = .segment seg srcIp draw now) (hrst : seg.isRst = false)
    (hsync : c.state.isSynchronised = true) : Leads r e p c (c.onSynchronised seg now) := by
  unfold TCPConnection.onSynchronised
  split
  · split_ifs
    · exact sendAck now (.inl (.inl hsync))
    · exact .refl
  · dsimp only
    -- the four parts in turn; the state stays one that receives
    have hack : Leads r e p c (if seg.isAck = true then c.processAck seg now else c) ∧
        (if seg.isAck = true then c.processAck seg now else c).Receiving := by
      split_ifs with hack
      · exact ⟨processAck now he hack hrst hsync,
          TCPConnection.receiving_processAck (.inl hsync) seg now⟩
      · exact ⟨.refl, .inl hsync⟩
    obtain ⟨h1, hr1⟩ := hack
    generalize (if seg.isAck = true then c.processAck seg now else c) = c1 at h1 hr1 ⊢
    have h2 : Leads r e p c1 (c1.maybeAdvanceAfterAck seg now) := maybeAdvanceAfterAck he hrst
    have hr2 := TCPConnection.receiving_maybeAdvanceAfterAck hr1 seg now
    generalize c1.maybeAdvanceAfterAck seg now = c2 at h2 hr2 ⊢
    have hdata : Leads r e p c2 (if seg.payload ≠ [] then c2.handleData seg now else c2) ∧
        (if seg.payload ≠ [] then c2.handleData seg now else c2).Receiving := by
      split_ifs with hne
      · exact ⟨handleData now he hrst hr2 hne, TCPConnection.receiving_handleData hr2 seg now⟩
      · exact ⟨.refl, hr2⟩
    obtain ⟨h3, hr3⟩ := hdata
    generalize (if seg.payload ≠ [] then c2.handleData seg now else c2) = c3 at h3 hr3 ⊢
    refine (h1.trans h2).trans (h3.trans ?_)
    split_ifs with hfin
    · exact handleFin he hrst hfin hr3
    · exact .refl

theorem dispatch {seg : TCPSegment} {srcIp : Option Bytes} {draw : SeqNo} {now : Time}
    (he : e = .segment seg srcIp draw now) (hr : c.Rejects seg → r = true) :
    Leads r e p c (c.dispatch seg srcIp draw now).1 := by
  refine TCPConnection.dispatch_cases (P := Leads r e p c) c seg srcIp draw now (fun hclosed => ?_)
    (fun hopen hrst => ?_) (fun _ _ => .refl) (fun hrst hsyn hsent hack => ?_) (fun hrst hsyn hsent hack => ?_)
    (fun _ _ _ => retransmitOldest c now false) (fun hrst hsyn hsync => ?_) (fun _ _ _ => .refl)
    (fun hrst hsyn hrcvd hack => ?_) (fun _ _ _ _ => .refl) (fun hrst hsyn hsync => ?_)
  · exact reject now (hr (.inl hclosed)) he (.inl hclosed)
  · exact .single (Action.reset (p := p.put c) he hrst hopen)
  · exact handleSynAck now he hack hrst hsyn hsent hr
  · exact .single (Action.simultaneousOpen (p := p.put c) he hsent hsyn hack hrst)
  · have hrejects : c.Rejects seg := .inr (.inl ⟨hsync, hsyn⟩)
    exact reject now (hr hrejects) he hrejects
  · exact handleFinalAckOfHandshake now he hack hrst hrcvd hsyn
  · exact onSynchronised he hrst hsync

theorem onSegment {seg : TCPSegment} {srcIp : Option Bytes} {draw : SeqNo} {now : Time}
    (he : e = .segment seg srcIp draw now) (hr : c.Rejects seg → r = true) :
    Leads r e p c (c.onSegment seg srcIp draw now).1 := by
  refine ReflTransGen.trans (of_quiet ?_) (dispatch (c := c.stamp now) he hr)
  constructor <;> first | rfl | exact id

/-! ### Timers -/

theorem onRetransmitTimeout {now : Time} (he : e = .tick now) :
    Leads r e p c (c.onRetransmitTimeout now) := by
  unfold TCPConnection.onRetransmitTimeout
  split
  · rename_i hold
    refine .single (Action.disarm (p := p.put c) ?_)
    simpa [RetransmitQueue.oldest] using hold
  · rename_i oldest hold
    split_ifs with hlimit
    · exact .single (Action.expire (p := p.put c) he (.inr ⟨oldest, hold, hlimit⟩))
    · have hq : c.Quiet { c with reno := c.reno.onTimeout, rto := c.rto.backoff } :=
        by constructor <;> first | rfl | exact id
      have hold' : ({ c with reno := c.reno.onTimeout, rto := c.rto.backoff } :
        TCPConnection).retxQueue.oldest = some oldest := hold
      dsimp only
      generalize ({ c with reno := c.reno.onTimeout, rto := c.rto.backoff } : TCPConnection) = d
        at hq hold' ⊢
      exact (of_quiet hq).trans ((resend now hold').trans (arm (resend_segments now hold')))

theorem onPersistTimeout (c : TCPConnection) {now : Time} (he : e = .tick now) :
    Leads r e p c (c.onPersistTimeout now) := by
  have hdone : ∀ d, e.Processed d := fun d seg hseg => by rw [he] at hseg; cases hseg
  unfold TCPConnection.onPersistTimeout
  split_ifs with hwindow hsync
  · refine ReflTransGen.trans (of_quiet ?_) (flush _ now (hdone _))
    constructor <;> first | rfl | exact id
  · exact of_quiet (by constructor <;> first | rfl | exact id)
  · have htimer : ∀ {d : TCPConnection} (persistDelay : Time) (persistAt : Option Time), Leads r e p c d →
        Leads r e p c { d with persistDelay := persistDelay, persistAt := persistAt } := by
      intro d persistDelay persistAt h
      refine h.trans (of_quiet ?_)
      constructor <;> first | rfl | exact id
    apply htimer
    split
    · rename_i oldest hold
      exact resend now hold
    · dsimp only
      split_ifs with hne
      · exact .refl
      · exact transmitData (by simpa using hsync) hne (hdone _)

theorem onTick {now : Time} (he : e = .tick now) : Leads r e p c (c.onTick now) := by
  unfold TCPConnection.onTick
  dsimp only
  have h1 : Leads r e p c (if TCPConnection.due c.delayedAckAt now = true then c.sendAck now else c) := by
    split_ifs with hdue
    · exact sendAck now (.inr fun hnone => by simp [TCPConnection.due, hnone] at hdue)
    · exact .refl
  generalize (if TCPConnection.due c.delayedAckAt now = true then c.sendAck now else c) = c1 at h1 ⊢
  have h2 : Leads r e p c1
      (if TCPConnection.due c1.retransmitAt now = true then c1.onRetransmitTimeout now else c1) := by
    split_ifs
    · exact onRetransmitTimeout he
    · exact .refl
  generalize (if TCPConnection.due c1.retransmitAt now = true then c1.onRetransmitTimeout now
    else c1) = c2 at h2 ⊢
  have h3 : Leads r e p c2
      (if TCPConnection.due c2.persistAt now = true then c2.onPersistTimeout now else c2) := by
    split_ifs
    · exact onPersistTimeout c2 he
    · exact .refl
  generalize (if TCPConnection.due c2.persistAt now = true then c2.onPersistTimeout now
    else c2) = c3 at h3 ⊢
  refine (h1.trans h2).trans (h3.trans ?_)
  split_ifs with hwait
  · exact .single (Action.expire (p := p.put c3) he (.inl hwait.1))
  · exact .refl

end Leads

/-! ### Calls -/

/-- Every call is a sequence of actions, without an RST as the answer where the segment is not one
that `on_segment` rejects. -/
theorem actions_step_of {r : Bool} {p : Endpoint} {e : Event}
    (hr : ∀ seg, e.inbound = some seg → p.conn.Rejects seg → r = true) :
    ReflTransGen (Action r e) p (p.step e) := by
  cases e with
  | listen =>
    simp only [Endpoint.step, TCPConnection.listen]
    by_cases hstate : p.conn.state = .closed
    · rw [if_neg (not_not.mpr hstate)]
      exact .single (.listen rfl hstate)
    · rw [if_pos hstate]
  | connect draw now =>
    simp only [Endpoint.step]
    cases hconn : p.conn.connect draw now with
    | ok c => exact .single (.connect rfl hconn)
    | error err => exact .refl
  | send data now =>
    simp only [Endpoint.step, TCPConnection.send]
    by_cases hsend : p.conn.canSend = true
    · by_cases hnil : data = []
      · simp [hsend, hnil, Relation.ReflTransGen.refl]
      · simp only [hsend, hnil, Bool.not_true, Bool.false_eq_true, if_false]
        refine (ReflTransGen.single (.write rfl hsend)).trans ?_
        split_ifs
        · exact Leads.flush (p := { p with accepted := _ }) _ now fun seg hseg => by cases hseg
        · exact .refl
    · simp [hsend, Relation.ReflTransGen.refl]
  | recv maxBytes now =>
    simp only [Endpoint.step, TCPConnection.recv]
    by_cases havail : p.conn.recvQueue.available = 0
    · simp [havail, Relation.ReflTransGen.refl]
    · simp only [havail, if_false]
      refine (ReflTransGen.single (.read rfl)).trans ?_
      split_ifs with hopen
      · refine Leads.sendAck (p := { p with returned := _ }) now (.inl (.inl ?_))
        rcases hopen.2 with hst | hst | hst <;> simp only [hst] <;> rfl
      · exact .refl
  | close now =>
    simp only [Endpoint.step, TCPConnection.close]
    split
    · rename_i hstate
      exact .single (.fin rfl (.inl ⟨hstate, rfl⟩))
    · rename_i hstate
      exact .single (.fin rfl (.inr ⟨hstate, rfl⟩))
    · rename_i hstate
      exact .single (.abort (.inr ⟨rfl, .inl hstate⟩))
    · rename_i hstate
      exact .single (.abort (.inr ⟨rfl, .inr hstate⟩))
    · exact .refl
    · exact .refl
    · exact .refl
    · exact .refl
    · exact .refl
    · rename_i hstate
      exact .single (.drop rfl (.inl hstate))
    · rename_i hstate
      exact .single (.drop rfl (.inr hstate))
  | abort now => exact .single (.abort (.inl rfl))
  | tick now => exact Leads.onTick (p := p) rfl
  | segment seg srcIp draw now => exact Leads.onSegment (p := p) rfl (hr seg rfl)

/-- Every call is a sequence of actions. -/
theorem actions_step (p : Endpoint) (e : Event) : ReflTransGen (Action true e) p (p.step e) :=
  actions_step_of fun _ _ _ => rfl

end MiniTcp
