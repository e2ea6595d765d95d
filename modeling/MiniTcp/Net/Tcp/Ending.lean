import MiniTcp.Net.Tcp.Offer
import MiniTcp.Net.Tcp.Output

/-!
# The calls that end a connection

`Ends` lists them: a reset, the acknowledgement that LAST_ACK waits for, a retransmission too many, the end of
TIME_WAIT, an abort, and a close before the connection is established. No other call does
(`ends_step_iff`).
-/

namespace MiniTcp

namespace TCPConnection

variable {c d : TCPConnection} {seg : TCPSegment} {now : Time}

/-- LAST_ACK is over with this segment. -/
def EndsLastAck (c : TCPConnection) (seg : TCPSegment) : Prop :=
  c.state = .lastAck ∧ seg.isSyn = false ∧ c.acceptable seg = true ∧ seg.isAck = true ∧
    ∃ finSeq, c.finSeq = some finSeq ∧ seqGe seg.ack (seqAdd finSeq 1) = true

/-- The call ends a connection that is not closed yet. -/
def Ends (c : TCPConnection) : Event → Prop
  | .segment seg _ _ _ => seg.isRst = true ∨ c.EndsLastAck seg
  | .tick now => c.givesUp now = true ∨ c.state = .timeWait ∧ due c.timeWaitUntil now = true
  | .close _ => c.state = .synSent ∨ c.state = .synReceived ∨ c.state = .listen
  | .abort _ => True
  | _ => False

/-! ### Segments -/

theorem handleFin_closed_iff (c : TCPConnection) (seg : TCPSegment) (now : Time) :
    (c.handleFin seg now).state = .closed ↔ c.state = .closed := by
  have hack := (sendFrame_sendAck { c with recvQueue :=
    { c.recvQueue with nxt := seqAdd c.recvQueue.nxt 1 } } now).state
  unfold handleFin
  dsimp only
  split_ifs
  · rw [(sendFrame_sendAck c now).state]
  · rw [(sendFrame_sendAck c now).state]
  · unfold consumeFin
    dsimp only at hack ⊢
    split_ifs with h1 h2 _ h3 h4
    · rw [← hack, h1]
      exact ⟨nofun, nofun⟩
    · rw [← hack, h2]
      exact ⟨nofun, nofun⟩
    · rw [← hack, h2]
      exact ⟨nofun, nofun⟩
    · rw [← hack, h3]
      exact ⟨nofun, nofun⟩
    · rw [← hack, h4]
      exact ⟨nofun, nofun⟩
    · rw [hack]

theorem maybeAdvanceAfterAck_closed_iff (hopen : c.state ≠ .closed) :
    (c.maybeAdvanceAfterAck seg now).state = .closed ↔ c.state = .lastAck ∧ seg.isAck = true ∧
      ∃ finSeq, c.finSeq = some finSeq ∧ seqGe seg.ack (seqAdd finSeq 1) = true := by
  unfold maybeAdvanceAfterAck
  cases hfin : c.finSeq with
  | none => simp [hopen]
  | some finSeq =>
    dsimp only
    split_ifs with hack hge h1 h2 h3
    · simp_all
    · simp_all
    · exact ⟨nofun, fun h => by simp [h1] at h⟩
    · exact ⟨nofun, fun h => by simp [h2] at h⟩
    · refine ⟨fun _ => ⟨h3, by simpa using hack, finSeq, rfl, by simpa using hge⟩, fun _ => rfl⟩
    · exact ⟨fun h => absurd h hopen, fun h => absurd h.1 h3⟩

theorem onSynchronised_closed_iff (hopen : c.state ≠ .closed) :
    (c.onSynchronised seg now).state = .closed ↔ c.state = .lastAck ∧ c.acceptable seg = true ∧
      seg.isAck = true ∧ ∃ finSeq, c.finSeq = some finSeq ∧ seqGe seg.ack (seqAdd finSeq 1) = true := by
  unfold onSynchronised
  cases hacc : c.acceptable seg with
  | false =>
    have hstay : (if !seg.isRst then c.sendAck now else c).state = c.state := by
      split_ifs
      · exact (sendFrame_sendAck c now).state
      · rfl
    rw [if_pos (show (!false) = true from rfl), hstay]
    exact ⟨fun h => absurd h hopen, fun h => Bool.noConfusion h.2.1⟩
  | true =>
    have hframe : AckFrame c (if seg.isAck then c.processAck seg now else c) := by
      split_ifs
      · exact ackFrame_processAck c seg now
      · exact (SendFrame.refl c).ackFrame
    have hdata : ∀ b : TCPConnection,
        (if seg.payload ≠ [] then b.handleData seg now else b).state = b.state := by
      intro b
      split_ifs
      · exact (b.handleData_frame seg now).1
      · rfl
    have hfin : ∀ b : TCPConnection,
        (if seg.isFin then b.handleFin seg now else b).state = .closed ↔ b.state = .closed := by
      intro b
      split_ifs
      · exact b.handleFin_closed_iff seg now
      · exact Iff.rfl
    rw [if_neg (by simp)]
    dsimp only
    rw [hfin, hdata, maybeAdvanceAfterAck_closed_iff (by rw [hframe.state]; exact hopen), hframe.state,
      hframe.finSeq]
    simp

theorem onSegment_closed_iff (hopen : c.state ≠ .closed) (srcIp : Option Bytes) (draw : SeqNo) :
    (c.onSegment seg srcIp draw now).1.state = .closed ↔ seg.isRst = true ∨ c.EndsLastAck seg := by
  have hno : ∀ {s : TcpState}, c.state = s → s ≠ .lastAck → ¬ c.EndsLastAck seg :=
    fun hs hne h => hne (hs.symm.trans h.1)
  have hstamp : ∀ {s : TcpState}, (c.stamp now).state = s ↔ c.state = s := Iff.rfl
  unfold onSegment
  refine dispatch_cases (P := fun d => d.state = .closed ↔ seg.isRst = true ∨ c.EndsLastAck seg) (c.stamp now) seg
    srcIp draw now (fun h1 => absurd h1 hopen) (fun _ hrst => ?_) (fun hrst h2 => ?_) (fun hrst hsyn h3 hack => ?_)
    (fun hrst hsyn h3 hack => ?_) (fun hrst hsyn h4 => ?_) (fun hrst hsyn hsync => ?_) (fun hrst hsyn h5 => ?_)
    (fun hrst hsyn h6 hack => ?_) (fun hrst hsyn h6 hack => ?_) (fun hrst hsyn hsync => ?_)
  · simp [hrst, handleRst, notify, teardown]
  · simp [hrst, hstamp.mp h2, stamp, hno (hstamp.mp h2) (by decide)]
  · -- a SYN+ACK is rejected or establishes
    have hst : ((c.stamp now).handleSynAck seg now).state ≠ .closed := by
      unfold handleSynAck
      split_ifs
      · rw [(sendFrame_reject _ seg now).state]
        exact hopen
      · exact TcpState.noConfusion
    simp [hrst, hst, hno (hstamp.mp h3) (by decide)]
  · simp [hrst, handleSimultaneousOpen, hno (hstamp.mp h3) (by decide)]
  · rw [(sendFrame_retransmitOldest _ now false).state]
    simp [hrst, hstamp, hopen, hno (hstamp.mp h4) (by decide)]
  · rw [(sendFrame_reject _ seg now).state]
    simp [hrst, hstamp, hopen, EndsLastAck, hsyn]
  · simp [hrst, hstamp, hopen, hno (hstamp.mp h5) (by decide)]
  · have hst : ((c.stamp now).handleFinalAckOfHandshake seg now).state ≠ .closed := by
      unfold handleFinalAckOfHandshake
      split_ifs
      · exact hopen
      · exact TcpState.noConfusion
    simp [hrst, hst, hno (hstamp.mp h6) (by decide)]
  · simp [hrst, hstamp, hopen, hno (hstamp.mp h6) (by decide)]
  · rw [onSynchronised_closed_iff (TcpState.ne_of_isSynchronised hsync).1]
    simp only [EndsLastAck, hrst, hsyn, Bool.false_eq_true, false_or, true_and]
    exact Iff.rfl

/-! ### Timers -/

theorem onRetransmitTimeout_state (c : TCPConnection) (now : Time) :
    if c.retxQueue.oldest.any (MAX_RETRANSMITS ≤ ·.retransmits) then (c.onRetransmitTimeout now).state = .closed
    else (c.onRetransmitTimeout now).state = c.state ∧
      (c.onRetransmitTimeout now).timeWaitUntil = c.timeWaitUntil := by
  unfold onRetransmitTimeout
  cases hold : c.retxQueue.oldest with
  | none => exact ⟨rfl, rfl⟩
  | some oldest =>
    dsimp only
    rw [Option.any_some]
    by_cases hmax : oldest.retransmits ≥ MAX_RETRANSMITS
    · rw [if_pos hmax, if_pos (decide_eq_true hmax)]
      rfl
    · rw [if_neg hmax, if_neg (by simpa using hmax), resend_eq]
      exact ⟨rfl, rfl⟩

theorem sendFrame_onPersistTimeout (c : TCPConnection) (now : Time) : SendFrame c (c.onPersistTimeout now) := by
  have hrecord : ∀ (b : TCPConnection) (delay : Time) (timer : Option Time),
      SendFrame b { b with persistDelay := delay, persistAt := timer } := by
    intro b delay timer
    constructor <;> rfl
  unfold onPersistTimeout
  split_ifs
  · exact (hrecord c _ _).trans (sendFrame_flush _ now)
  · exact hrecord c c.persistDelay none
  · refine SendFrame.trans ?_ (hrecord _ _ _)
    split
    · exact sendFrame_resend c _ now
    · dsimp only
      split_ifs
      · exact .refl c
      · exact sendFrame_transmitData c _ now

theorem retransmitted_state (c : TCPConnection) (now : Time) :
    if c.givesUp now then (c.retransmitted now).state = .closed
    else (c.retransmitted now).state = c.state ∧ (c.retransmitted now).timeWaitUntil = c.timeWaitUntil := by
  have hack : SameOffer c (if due c.delayedAckAt now then c.sendAck now else c) ∧
      SendFrame c (if due c.delayedAckAt now then c.sendAck now else c) := by
    split_ifs
    · exact ⟨sameOffer_sendAck c now, sendFrame_sendAck c now⟩
    · exact ⟨⟨rfl, rfl, rfl, rfl, rfl, rfl⟩, .refl c⟩
  unfold retransmitted givesUp
  dsimp only
  generalize (if due c.delayedAckAt now = true then c.sendAck now else c) = b at hack ⊢
  obtain ⟨hsame, hframe⟩ := hack
  rw [← hsame.retransmitAt, ← hsame.retxQueue, ← hframe.state, ← hframe.timeWaitUntil]
  cases hdue : due b.retransmitAt now with
  | false => exact ⟨rfl, rfl⟩
  | true => exact b.onRetransmitTimeout_state now

theorem onTick_closed_iff (hopen : c.state ≠ .closed) :
    (c.onTick now).state = .closed ↔
      c.givesUp now = true ∨ c.state = .timeWait ∧ due c.timeWaitUntil now = true := by
  have hpersist : ∀ b : TCPConnection,
      SendFrame b (if due b.persistAt now then b.onPersistTimeout now else b) := by
    intro b
    split_ifs
    · exact sendFrame_onPersistTimeout b now
    · exact .refl b
  have hretx := c.retransmitted_state now
  rw [onTick_eq]
  dsimp only
  have hframe := hpersist (c.retransmitted now)
  generalize (if due (c.retransmitted now).persistAt now = true then _ else _) = b at hframe ⊢
  rw [hframe.state, hframe.timeWaitUntil]
  cases hgives : c.givesUp now with
  | true =>
    rw [hgives, if_pos rfl] at hretx
    rw [hretx, if_neg (by simp), hframe.state, hretx]
    simp
  | false =>
    rw [hgives, if_neg Bool.false_ne_true] at hretx
    rw [hretx.1, hretx.2]
    split_ifs with hwait
    · exact ⟨fun _ => .inr hwait, fun _ => rfl⟩
    · rw [hframe.state, hretx.1]
      exact ⟨fun h => absurd h hopen, fun h => (hwait (h.resolve_left id)).elim⟩

end TCPConnection

open TCPConnection

theorem ends_step_iff {p : Endpoint} (hopen : p.conn.state ≠ .closed) (e : Event) :
    (p.step e).conn.state = .closed ↔ p.conn.Ends e := by
  cases e with
  | listen =>
    unfold Endpoint.step TCPConnection.listen
    dsimp only
    rw [if_pos hopen]
    exact ⟨fun h => absurd h hopen, nofun⟩
  | connect draw now =>
    unfold Endpoint.step TCPConnection.connect
    dsimp only
    rw [if_pos hopen]
    exact ⟨fun h => absurd h hopen, nofun⟩
  | send data now =>
    unfold Endpoint.step
    dsimp only
    split
    · rename_i c written hsend
      have hstate : c.state = p.conn.state := by
        unfold TCPConnection.send at hsend
        dsimp only at hsend
        split_ifs at hsend
        · cases hsend
          rfl
        · cases hsend
          exact (sendFrame_flush _ now).state
        · cases hsend
          rfl
      rw [Endpoint.put_conn, hstate]
      exact ⟨fun h => absurd h hopen, nofun⟩
    · exact ⟨fun h => absurd h hopen, nofun⟩
  | recv maxBytes now =>
    have hstate : (p.conn.recv maxBytes now).1.state = p.conn.state := by
      unfold TCPConnection.recv
      dsimp only
      split_ifs
      · rfl
      · exact (sendFrame_sendAck _ now).state
      · rfl
    change (p.conn.recv maxBytes now).1.state = .closed ↔ False
    rw [hstate]
    exact ⟨fun h => absurd h hopen, nofun⟩
  | close now =>
    change (p.conn.close now).state = .closed ↔ _
    unfold TCPConnection.close Ends
    split <;> simp_all [TCPConnection.abort, teardown, notify]
  | abort now => exact ⟨fun _ => trivial, fun _ => rfl⟩
  | tick now => exact onTick_closed_iff hopen
  | segment seg srcIp draw now => exact onSegment_closed_iff hopen srcIp draw

end MiniTcp
