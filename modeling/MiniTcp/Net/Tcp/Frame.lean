import MiniTcp.Net.Tcp.Connection

/-!
# What transmitting leaves alone

Everything the connection does to get segments out (`transmit`, `flush`, the retransmission paths)
touches the log of segments, the retransmission queue, the timers and `snd_nxt`, and nothing else.
`SendFrame c c'` lists the fields that stay; each sending function is proved to respect it once, and
the field lemmas the rest of the development rewrites with are read off it.
-/

namespace MiniTcp.TCPConnection

/-- `c'` differs from `c` only in what transmitting touches. -/
structure SendFrame (c c' : TCPConnection) : Prop where
  cfg : c'.cfg = c.cfg
  state : c'.state = c.state
  iss : c'.iss = c.iss
  irs : c'.irs = c.irs
  peerMss : c'.peerMss = c.peerMss
  sndWscale : c'.sndWscale = c.sndWscale
  peerWindow : c'.peerWindow = c.peerWindow
  recvQueue : c'.recvQueue = c.recvQueue
  finSeq : c'.finSeq = c.finSeq
  timeWaitUntil : c'.timeWaitUntil = c.timeWaitUntil
  resetReceived : c'.resetReceived = c.resetReceived
  una : c'.sendQueue.una = c.sendQueue.una
  buf : c'.sendQueue.buf = c.sendQueue.buf
  capacity : c'.sendQueue.capacity = c.sendQueue.capacity
  bytesWritten : c'.sendQueue.bytesWritten = c.sendQueue.bytesWritten

namespace SendFrame

theorem refl (c : TCPConnection) : SendFrame c c :=
  by constructor <;> rfl

theorem trans {a b c : TCPConnection} (h : SendFrame a b) (h' : SendFrame b c) : SendFrame a c where
  cfg := h'.cfg.trans h.cfg
  state := h'.state.trans h.state
  iss := h'.iss.trans h.iss
  irs := h'.irs.trans h.irs
  peerMss := h'.peerMss.trans h.peerMss
  sndWscale := h'.sndWscale.trans h.sndWscale
  peerWindow := h'.peerWindow.trans h.peerWindow
  recvQueue := h'.recvQueue.trans h.recvQueue
  finSeq := h'.finSeq.trans h.finSeq
  timeWaitUntil := h'.timeWaitUntil.trans h.timeWaitUntil
  resetReceived := h'.resetReceived.trans h.resetReceived
  una := h'.una.trans h.una
  buf := h'.buf.trans h.buf
  capacity := h'.capacity.trans h.capacity
  bytesWritten := h'.bytesWritten.trans h.bytesWritten

end SendFrame

variable (c : TCPConnection)

/-! ### Tracking a segment -/

theorem track_eq (seg : TCPSegment) (now : Time) :
    c.track seg now =
      { c with
        retxQueue := (c.retxQueue.add seg.seq seg.flags seg.payload now).getD c.retxQueue
        untracked := if (c.retxQueue.add seg.seq seg.flags seg.payload now).isSome then c.untracked
          else c.untracked ++ [seg] } := by
  unfold track
  cases c.retxQueue.add seg.seq seg.flags seg.payload now <;> rfl

theorem sendFrame_track (seg : TCPSegment) (now : Time) : SendFrame c (c.track seg now) := by
  rw [track_eq]
  constructor <;> rfl

theorem sendFrame_emit (seg : TCPSegment) : SendFrame c (c.emit seg) :=
  by constructor <;> rfl

theorem sendFrame_armRetransmitTimer (now : Time) : SendFrame c (c.armRetransmitTimer now) :=
  by constructor <;> rfl

theorem sendFrame_transmit (seq : SeqNo) (flags : Flags) (payload : Bytes) (now : Time)
    (ack : Option SeqNo) (options : TCPOptions) (track : Bool) :
    SendFrame c (c.transmit seq flags payload now ack options track) := by
  unfold transmit
  split
  · exact ((sendFrame_emit c _).trans (sendFrame_track _ _ now)).trans
      (sendFrame_armRetransmitTimer _ now)
  · exact sendFrame_emit c _

@[simp] theorem transmit_sendQueue (seq : SeqNo) (flags : Flags) (payload : Bytes) (now : Time)
    (ack : Option SeqNo) (options : TCPOptions) (track : Bool) :
    (c.transmit seq flags payload now ack options track).sendQueue = c.sendQueue := by
  unfold transmit
  split
  · dsimp only
    rw [track_eq]
    rfl
  · rfl

theorem transmit_untracked (seq : SeqNo) {flags : Flags} {payload : Bytes} (now : Time)
    (ack : Option SeqNo) (options : TCPOptions) {track : Bool}
    (h : (track && (flags &&& (FLAG_SYN ||| FLAG_FIN) != 0 || payload ≠ [])) = false) :
    c.transmit seq flags payload now ack options track =
      c.emit (c.segmentOf seq flags payload (ack.getD c.recvQueue.nxt) options) := by
  unfold transmit
  rw [if_neg (by rw [h]; decide)]

/-- A tracked transmission: hand the segment out, add it to the queue, arm the timer. -/
theorem transmit_tracked (seq : SeqNo) {flags : Flags} {payload : Bytes} (now : Time)
    (ack : Option SeqNo) (options : TCPOptions)
    (h : (flags &&& (FLAG_SYN ||| FLAG_FIN) != 0 || payload ≠ []) = true) :
    c.transmit seq flags payload now ack options =
      ((c.emit (c.segmentOf seq flags payload (ack.getD c.recvQueue.nxt) options)).track
        (c.segmentOf seq flags payload (ack.getD c.recvQueue.nxt) options) now).armRetransmitTimer
          now := by
  unfold transmit
  rw [if_pos (by rw [Bool.true_and, h])]

/-! ### The sending functions -/

theorem sendFrame_transmitData (payload : Bytes) (now : Time) :
    SendFrame c (c.transmitData payload now) := by
  refine (sendFrame_transmit c c.sendQueue.nxt (FLAG_ACK ||| FLAG_PSH) payload now none {} true).trans ?_
  unfold transmitData
  constructor <;> rfl

theorem sendFrame_flushLoop (now : Time) (fuel : Nat) (c : TCPConnection) :
    SendFrame c (flushLoop now fuel c) := by
  induction fuel generalizing c with
  | zero => exact .refl c
  | succ fuel ih =>
    unfold flushLoop
    split
    · exact .refl c
    · dsimp only
      split
      · exact .refl c
      · have hdata := sendFrame_transmitData c c.nextPayload.1 now
        split
        · exact hdata
        · exact hdata.trans (ih _)

theorem sendFrame_armPersistTimer (now : Time) : SendFrame c (c.armPersistTimer now) := by
  unfold armPersistTimer
  split
  · constructor <;> rfl
  · split
    · constructor <;> rfl
    · exact .refl c

theorem sendFrame_flush (now : Time) : SendFrame c (c.flush now) := by
  unfold flush
  split
  · exact .refl c
  · split
    · exact sendFrame_armPersistTimer c now
    · refine SendFrame.trans ?_ (sendFrame_flushLoop now _ _)
      constructor <;> rfl

theorem sendFrame_resend (entry : OutstandingSegment) (now : Time) :
    SendFrame c (c.resend entry now) := by
  refine SendFrame.trans ?_ (sendFrame_transmit _ entry.seq entry.flags entry.payload now none {} false)
  constructor <;> rfl

theorem sendFrame_retransmitOldest (now : Time) (fast : Bool) :
    SendFrame c (c.retransmitOldest now fast) := by
  unfold retransmitOldest
  split
  · exact .refl c
  · rename_i oldest _
    dsimp only
    split
    · exact sendFrame_resend c oldest now
    · refine (sendFrame_resend c oldest now).trans ?_
      constructor <;> rfl

theorem sendFrame_sendAck (now : Time) : SendFrame c (c.sendAck now) := by
  unfold sendAck
  dsimp only
  split
  · constructor <;> rfl
  · refine SendFrame.trans ?_ (sendFrame_transmit _ c.sendQueue.nxt FLAG_ACK [] now _ {} true)
    constructor <;> rfl

theorem sendFrame_reject (seg : TCPSegment) (now : Time) : SendFrame c (c.reject seg now) := by
  unfold reject
  split_ifs
  · exact .refl c
  · exact sendFrame_transmit ..
  · exact sendFrame_transmit ..

/-! ### Acknowledgements -/

/-- `c'` differs from `c` only in what processing an acknowledgement touches. -/
structure AckFrame (c c' : TCPConnection) : Prop where
  cfg : c'.cfg = c.cfg
  state : c'.state = c.state
  iss : c'.iss = c.iss
  irs : c'.irs = c.irs
  peerMss : c'.peerMss = c.peerMss
  sndWscale : c'.sndWscale = c.sndWscale
  recvQueue : c'.recvQueue = c.recvQueue
  finSeq : c'.finSeq = c.finSeq
  timeWaitUntil : c'.timeWaitUntil = c.timeWaitUntil
  resetReceived : c'.resetReceived = c.resetReceived

theorem SendFrame.ackFrame {c c' : TCPConnection} (h : SendFrame c c') : AckFrame c c' where
  cfg := h.cfg
  state := h.state
  iss := h.iss
  irs := h.irs
  peerMss := h.peerMss
  sndWscale := h.sndWscale
  recvQueue := h.recvQueue
  finSeq := h.finSeq
  timeWaitUntil := h.timeWaitUntil
  resetReceived := h.resetReceived

theorem AckFrame.trans {a b c : TCPConnection} (h : AckFrame a b) (h' : AckFrame b c) :
    AckFrame a c where
  cfg := h'.cfg.trans h.cfg
  state := h'.state.trans h.state
  iss := h'.iss.trans h.iss
  irs := h'.irs.trans h.irs
  peerMss := h'.peerMss.trans h.peerMss
  sndWscale := h'.sndWscale.trans h.sndWscale
  recvQueue := h'.recvQueue.trans h.recvQueue
  finSeq := h'.finSeq.trans h.finSeq
  timeWaitUntil := h'.timeWaitUntil.trans h.timeWaitUntil
  resetReceived := h'.resetReceived.trans h.resetReceived

/-- The connection an old ACK leaves to `_flush`. -/
def answerOldAck (seg : TCPSegment) (now : Time) : TCPConnection :=
  let updated := c.updatePeerWindow seg
  let counted := updated.1.countDuplicateAck seg
  if counted.2 then counted.1.retransmitOldest now true
  else if updated.2 && counted.1.retxQueue.oldest.isSome then counted.1.retransmitOldest now
  else counted.1

theorem processOldAck_eq (seg : TCPSegment) (now : Time) :
    c.processOldAck seg now = (c.answerOldAck seg now).flush now := rfl

theorem answerOldAck_frame (seg : TCPSegment) (now : Time) :
    AckFrame c (c.answerOldAck seg now) ∧
      (c.answerOldAck seg now).sendQueue.una = c.sendQueue.una ∧
      (c.answerOldAck seg now).sendQueue.buf = c.sendQueue.buf := by
  have hcount : AckFrame c ((c.updatePeerWindow seg).1.countDuplicateAck seg).1 ∧
      ((c.updatePeerWindow seg).1.countDuplicateAck seg).1.sendQueue = c.sendQueue := by
    unfold countDuplicateAck
    split_ifs
    · exact ⟨(by constructor <;> rfl), rfl⟩
    · exact ⟨(by constructor <;> rfl), rfl⟩
  have hresend : ∀ fast, AckFrame c
      (((c.updatePeerWindow seg).1.countDuplicateAck seg).1.retransmitOldest now fast) ∧
      (((c.updatePeerWindow seg).1.countDuplicateAck seg).1.retransmitOldest now fast).sendQueue.una =
        c.sendQueue.una ∧
      (((c.updatePeerWindow seg).1.countDuplicateAck seg).1.retransmitOldest now fast).sendQueue.buf =
        c.sendQueue.buf := fun fast => by
    have hframe := sendFrame_retransmitOldest ((c.updatePeerWindow seg).1.countDuplicateAck seg).1 now fast
    exact ⟨hcount.1.trans hframe.ackFrame, by rw [hframe.una, hcount.2], by rw [hframe.buf, hcount.2]⟩
  unfold answerOldAck
  dsimp only
  split_ifs
  · exact hresend true
  · exact hresend false
  · exact ⟨hcount.1, by rw [hcount.2], by rw [hcount.2]⟩

theorem ackFrame_processNewAck (seg : TCPSegment) (now : Time) :
    AckFrame c (c.processNewAck seg now) := by
  unfold processNewAck
  dsimp only
  split_ifs
  · constructor <;> rfl
  · refine AckFrame.trans ?_ (sendFrame_flush _ now).ackFrame
    constructor <;> rfl

theorem ackFrame_processAck (seg : TCPSegment) (now : Time) : AckFrame c (c.processAck seg now) := by
  unfold processAck
  split_ifs
  · rw [processOldAck_eq]
    exact (c.answerOldAck_frame seg now).1.trans (sendFrame_flush _ now).ackFrame
  · exact ackFrame_processNewAck c seg now

theorem acknowledge_pos {q : SendQueue} {ack : SeqNo} (h : seqGt ack q.una = true) :
    0 < (q.acknowledge ack).2 := by
  rw [seqGt_iff] at h
  simp only [SendQueue.acknowledge, seqGt_iff.mpr h, Bool.not_true, Bool.false_eq_true, if_false,
    seqDiff_eq, Serial.diff_of_lt h]
  exact_mod_cast h.1

theorem processAck_una (seg : TCPSegment) (now : Time) :
    (c.processAck seg now).sendQueue.una =
      if seqGt seg.ack c.sendQueue.una then seg.ack else c.sendQueue.una := by
  unfold processAck
  split_ifs with hold hgt hgt
  · rw [hgt] at hold
    cases hold
  · rw [processOldAck_eq, (sendFrame_flush _ now).una, (c.answerOldAck_frame seg now).2.1]
  · unfold processNewAck
    dsimp only
    rw [if_neg (by have := acknowledge_pos hgt; omega), (sendFrame_flush _ now).una]
    simp [armRetransmitTimer, updatePeerWindow, retire, SendQueue.acknowledge, hgt]
  · rw [Bool.not_eq_true] at hgt
    rw [hgt] at hold
    exact absurd rfl hold

/-! ### Data -/

theorem handleData_frame (seg : TCPSegment) (now : Time) :
    (c.handleData seg now).state = c.state ∧ (c.handleData seg now).finSeq = c.finSeq ∧
      (c.handleData seg now).sendQueue = c.sendQueue := by
  have hack : ∀ (b : TCPConnection) (newly : Nat), (b.acknowledgeData newly now).state = b.state ∧
      (b.acknowledgeData newly now).finSeq = b.finSeq ∧
      (b.acknowledgeData newly now).sendQueue = b.sendQueue := by
    intro b newly
    unfold acknowledgeData
    split_ifs
    · split <;> exact ⟨rfl, rfl, rfl⟩
    · have hframe := sendFrame_sendAck b now
      refine ⟨hframe.state, hframe.finSeq, ?_⟩
      unfold sendAck
      dsimp only
      split_ifs
      · rfl
      · rw [transmit_sendQueue]
  unfold handleData
  dsimp only
  split_ifs
  · exact hack _ _
  · exact hack _ _
  · exact ⟨rfl, rfl, rfl⟩
  · exact ⟨rfl, rfl, rfl⟩

end MiniTcp.TCPConnection
