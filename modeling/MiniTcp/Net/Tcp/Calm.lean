import MiniTcp.Net.Tcp.Acknowledge

/-!
# What leaves congestion control and the peer's window alone

The congestion window, the count of retransmissions and the peer's window change in `_process_ack` and in
the timers, and nowhere else: `Calm c d` says that they did not change. New data, ACKs, incoming payload
and the closing states are all calm, so what an inbound segment does to these fields is what
`_process_ack` does (`calm_onSegment`).
-/

namespace MiniTcp

namespace TCPConnection

variable {b c d : TCPConnection} {seg : TCPSegment}

/-- Congestion control, the count of retransmissions and the peer's window are the same. -/
structure Calm (c d : TCPConnection) : Prop where
  reno : d.reno = c.reno
  retransmissions : d.retransmissions = c.retransmissions
  peerWindow : d.peerWindow = c.peerWindow
  sndWscale : d.sndWscale = c.sndWscale

namespace Calm

theorem refl (c : TCPConnection) : Calm c c := ⟨rfl, rfl, rfl, rfl⟩

theorem trans (h : Calm b c) (h' : Calm c d) : Calm b d where
  reno := h'.reno.trans h.reno
  retransmissions := h'.retransmissions.trans h.retransmissions
  peerWindow := h'.peerWindow.trans h.peerWindow
  sndWscale := h'.sndWscale.trans h.sndWscale

theorem transmit (c : TCPConnection) (seq : SeqNo) (flags : Flags) (payload : Bytes) (now : Time)
    (ack : Option SeqNo) (options : TCPOptions) (track : Bool) :
    Calm c (c.transmit seq flags payload now ack options track) := by
  unfold TCPConnection.transmit
  split
  · dsimp only
    rw [track_eq]
    exact ⟨rfl, rfl, rfl, rfl⟩
  · exact ⟨rfl, rfl, rfl, rfl⟩

theorem transmitData (c : TCPConnection) (payload : Bytes) (now : Time) :
    Calm c (c.transmitData payload now) := by
  have h := transmit c c.sendQueue.nxt (FLAG_ACK ||| FLAG_PSH) payload now none {} true
  exact ⟨h.reno, h.retransmissions, h.peerWindow, h.sndWscale⟩

theorem flushLoop (now : Time) (fuel : Nat) (c : TCPConnection) :
    Calm c (TCPConnection.flushLoop now fuel c) := by
  induction fuel generalizing c with
  | zero => exact refl c
  | succ fuel ih =>
    unfold TCPConnection.flushLoop
    split_ifs
    · exact refl c
    · dsimp only
      split_ifs
      · exact refl c
      · exact transmitData c _ now
      · exact (transmitData c _ now).trans (ih _)

theorem flush (c : TCPConnection) (now : Time) : Calm c (c.flush now) := by
  unfold TCPConnection.flush
  split_ifs
  · exact refl c
  · unfold armPersistTimer
    split_ifs
    · exact ⟨rfl, rfl, rfl, rfl⟩
    · split <;> exact ⟨rfl, rfl, rfl, rfl⟩
  · have h := flushLoop now (c.sendQueue.buf.length + 1)
      { c with persistAt := none, persistDelay := DEFAULT_PERSIST_DELAY }
    exact ⟨h.reno, h.retransmissions, h.peerWindow, h.sndWscale⟩

theorem sendAck (c : TCPConnection) (now : Time) : Calm c (c.sendAck now) := by
  unfold TCPConnection.sendAck
  dsimp only
  split_ifs
  · exact ⟨rfl, rfl, rfl, rfl⟩
  · have h := transmit { c with delayedAckAt := none } c.sendQueue.nxt FLAG_ACK [] now
      (some c.recvQueue.nxt) {} true
    exact ⟨h.reno, h.retransmissions, h.peerWindow, h.sndWscale⟩

theorem reject (c : TCPConnection) (seg : TCPSegment) (now : Time) : Calm c (c.reject seg now) := by
  unfold TCPConnection.reject
  split_ifs
  · exact refl c
  · exact transmit ..
  · exact transmit ..

theorem handleData (c : TCPConnection) (seg : TCPSegment) (now : Time) :
    Calm c (c.handleData seg now) := by
  have hack : ∀ (b : TCPConnection) (newly : Nat), Calm b (b.acknowledgeData newly now) := by
    intro b newly
    unfold acknowledgeData
    split_ifs
    · split <;> exact ⟨rfl, rfl, rfl, rfl⟩
    · exact sendAck b now
  unfold TCPConnection.handleData
  dsimp only
  split_ifs
  · refine Calm.trans ?_ (hack _ _)
    exact ⟨rfl, rfl, rfl, rfl⟩
  · refine Calm.trans ?_ (hack _ _)
    exact ⟨rfl, rfl, rfl, rfl⟩
  · exact ⟨rfl, rfl, rfl, rfl⟩
  · exact ⟨rfl, rfl, rfl, rfl⟩

theorem maybeAdvanceAfterAck (c : TCPConnection) (seg : TCPSegment) (now : Time) :
    Calm c (c.maybeAdvanceAfterAck seg now) := by
  unfold TCPConnection.maybeAdvanceAfterAck
  split
  · exact refl c
  · split_ifs <;> exact ⟨rfl, rfl, rfl, rfl⟩

theorem handleFin (c : TCPConnection) (seg : TCPSegment) (now : Time) :
    Calm c (c.handleFin seg now) := by
  unfold TCPConnection.handleFin
  dsimp only
  split_ifs
  · exact sendAck c now
  · exact sendAck c now
  · have h := sendAck { c with recvQueue := { c.recvQueue with nxt := seqAdd c.recvQueue.nxt 1 } } now
    unfold consumeFin
    dsimp only
    split_ifs <;> exact ⟨h.reno, h.retransmissions, h.peerWindow, h.sndWscale⟩

theorem afterAck (c : TCPConnection) (seg : TCPSegment) (now : Time) : Calm c (c.afterAck seg now) :=
  afterAck_keeps refl trans maybeAdvanceAfterAck handleData handleFin c seg now

end Calm

/-- An inbound segment changes these fields through `_process_ack` only, in a synchronised state and after
the end. -/
theorem calm_onSegment (srcIp : Option Bytes) (draw : SeqNo) (now : Time)
    (hstate : c.state.isSynchronised = true ∨ c.state = .closed) :
    Calm (if c.takesAck seg = true then (c.stamp now).processAck seg now else c)
      (c.onSegment seg srcIp draw now).1 := by
  have hstamp : Calm c (c.stamp now) := ⟨rfl, rfl, rfl, rfl⟩
  by_cases hclosed : c.state = .closed
  · rw [if_neg (by simp [takesAck, hclosed]), onSegment_of_closed srcIp draw now hclosed]
    exact hstamp.trans (.reject _ seg now)
  have hsync := hstate.resolve_right hclosed
  cases hrst : seg.isRst with
  | true =>
    rw [if_neg (by simp [takesAck, hrst]), onSegment_of_rst srcIp draw now hclosed hrst]
    exact ⟨rfl, rfl, rfl, rfl⟩
  | false =>
    have htakes : c.takesAck seg = (seg.isAck && !seg.isSyn && c.acceptable seg) := by
      revert hsync
      unfold takesAck
      cases hst : c.state <;> simp_all [TcpState.isSynchronised, Bool.and_assoc]
    cases hsyn : seg.isSyn with
    | true =>
      rw [if_neg (by simp [htakes, hsyn]), onSegment_of_syn srcIp draw now hsync hrst hsyn]
      exact hstamp.trans (.reject _ seg now)
    | false =>
      rw [onSegment_eq_onSynchronised srcIp draw now hsync hrst hsyn, htakes, hsyn]
      unfold onSynchronised
      rw [show (c.stamp now).acceptable seg = c.acceptable seg from rfl]
      cases hacc : c.acceptable seg with
      | false =>
        simp only [Bool.and_false, Bool.false_eq_true, if_false, Bool.not_false, if_true, hrst]
        exact hstamp.trans (.sendAck _ now)
      | true =>
        simp only [Bool.and_true, Bool.not_true, Bool.not_false, Bool.false_eq_true, if_false]
        by_cases hack : seg.isAck = true
        · rw [if_pos hack, if_pos hack]
          exact .afterAck _ seg now
        · rw [if_neg hack, if_neg hack]
          exact hstamp.trans (.afterAck _ seg now)

/-! ### What `_process_ack` does to these fields -/

/-- The connection an old ACK leaves to the retransmission paths: the window is adopted, and the ACK is
perhaps counted. -/
theorem counted_spec (c : TCPConnection) (seg : TCPSegment) :
    ((c.updatePeerWindow seg).1.countDuplicateAck seg).1.peerWindow = seg.window <<< c.sndWscale ∧
      ((c.updatePeerWindow seg).1.countDuplicateAck seg).1.sndWscale = c.sndWscale ∧
      ((c.updatePeerWindow seg).1.countDuplicateAck seg).1.retransmissions = c.retransmissions ∧
      ((c.updatePeerWindow seg).1.countDuplicateAck seg).1.reno =
        if seg.ack = c.sndUna ∧ 0 < c.sendQueue.inFlight then (c.reno.onDuplicateAck (some seg.ack)).1
        else c.reno := by
  unfold countDuplicateAck
  by_cases hdup : seg.ack = c.sendQueue.una ∧ 0 < c.sendQueue.inFlight
  · rw [if_pos (show seg.ack = (c.updatePeerWindow seg).1.sendQueue.una ∧
      0 < (c.updatePeerWindow seg).1.sendQueue.inFlight from hdup),
      if_pos (show seg.ack = c.sndUna ∧ _ from hdup)]
    exact ⟨rfl, rfl, rfl, rfl⟩
  · rw [if_neg (show ¬ (seg.ack = (c.updatePeerWindow seg).1.sendQueue.una ∧
      0 < (c.updatePeerWindow seg).1.sendQueue.inFlight) from hdup),
      if_neg (show ¬ (seg.ack = c.sndUna ∧ _) from hdup)]
    exact ⟨rfl, rfl, rfl, rfl⟩

theorem processAck_peerWindow (c : TCPConnection) (seg : TCPSegment) (now : Time) :
    (c.processAck seg now).peerWindow = seg.window <<< c.sndWscale ∧
      (c.processAck seg now).sndWscale = c.sndWscale := by
  obtain ⟨hwindow, hscale, -, -⟩ := c.counted_spec seg
  unfold processAck
  split_ifs with hold
  · have hanswer : (c.answerOldAck seg now).peerWindow = seg.window <<< c.sndWscale ∧
        (c.answerOldAck seg now).sndWscale = c.sndWscale := by
      have hresend := fun fast =>
        sendFrame_retransmitOldest ((c.updatePeerWindow seg).1.countDuplicateAck seg).1 now fast
      unfold answerOldAck
      dsimp only
      split_ifs
      · exact ⟨(hresend true).peerWindow.trans hwindow, (hresend true).sndWscale.trans hscale⟩
      · exact ⟨(hresend false).peerWindow.trans hwindow, (hresend false).sndWscale.trans hscale⟩
      · exact ⟨hwindow, hscale⟩
    have hflush := Calm.flush (c.answerOldAck seg now) now
    rw [processOldAck_eq, hflush.peerWindow, hflush.sndWscale]
    exact hanswer
  · have hgt : seqGt seg.ack c.sendQueue.una = true := by simpa using hold
    have hflush := Calm.flush (((c.retire seg now).updatePeerWindow seg).1.armRetransmitTimer now) now
    rw [Leads.processNewAck_eq now hgt, hflush.peerWindow, hflush.sndWscale]
    exact ⟨rfl, rfl⟩

end TCPConnection

end MiniTcp
