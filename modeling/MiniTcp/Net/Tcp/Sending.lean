import MiniTcp.Net.Tcp.Pacing

/-!
# Relations that sending keeps to

The methods that get segments out work through a handful of changes: hand a segment out, remember it, move
`snd_nxt`, set a timer. `Sending R` says that the relation `R` between the connection before and after
allows each of them. Then every sending method keeps to `R`, whatever its control flow. `Timed R` adds what
the timers do, `Answering R` the methods that deal with the rest of an inbound segment, and `Handshaking R`
those that open.
-/

namespace MiniTcp.TCPConnection

/-- `R` is reflexive and transitive and allows the single changes of the sending methods. A segment that is
handed out acknowledges `rcv_nxt`. -/
structure Sending (R : TCPConnection → TCPConnection → Prop) : Prop where
  refl : ∀ c, R c c
  trans : ∀ {b c d}, R b c → R c d → R b d
  emit : ∀ c seq flags payload options,
    R c (c.emit (c.segmentOf seq flags payload c.recvQueue.nxt options))
  remember : ∀ c queue untracked timer,
    R c { c with retxQueue := queue, untracked := untracked, retransmitAt := timer }
  nxt : ∀ c n, R c { c with sendQueue := { c.sendQueue with nxt := n } }
  count : ∀ c queue, R c { c with retransmissions := c.retransmissions + 1, retxQueue := queue }
  persist : ∀ c timer, R c { c with persistAt := timer }
  relax : ∀ c, R c { c with persistAt := none, persistDelay := DEFAULT_PERSIST_DELAY }
  window : ∀ c offer, R c { c with peerWindow := offer }

namespace Sending

variable {R : TCPConnection → TCPConnection → Prop} {c : TCPConnection} (h : Sending R)

include h

theorem timer (c : TCPConnection) (timer : Option Time) : R c { c with retransmitAt := timer } :=
  h.remember c c.retxQueue c.untracked timer

theorem tracking (c : TCPConnection) (seq : SeqNo) (flags : Flags) (payload : Bytes) (options : TCPOptions)
    (now : Time) : R c (c.tracking (c.segmentOf seq flags payload c.recvQueue.nxt options) now) := by
  apply h.trans (h.emit c seq flags payload options)
  exact h.remember (c.emit (c.segmentOf seq flags payload c.recvQueue.nxt options)) _ _ _

theorem transmitData {payload : Bytes} (now : Time) (hne : payload ≠ []) : R c (c.transmitData payload now) := by
  rw [transmitData_eq c now hne]
  apply h.trans (h.tracking c c.sendQueue.nxt (FLAG_ACK ||| FLAG_PSH) payload {} now)
  exact h.nxt (c.tracking (c.dataSegment payload) now) _

theorem flushLoop (now : Time) (fuel : Nat) (c : TCPConnection) : R c (flushLoop now fuel c) := by
  induction fuel generalizing c with
  | zero => exact h.refl c
  | succ fuel ih =>
    unfold TCPConnection.flushLoop
    dsimp only
    split_ifs with hfull hempty hshort
    · exact h.refl c
    · exact h.refl c
    · exact h.transmitData now hempty
    · exact h.trans (h.transmitData now hempty) (ih _)

theorem flush (c : TCPConnection) (now : Time) : R c (c.flush now) := by
  unfold TCPConnection.flush armPersistTimer
  split_ifs
  · exact h.refl c
  · exact h.persist c none
  · split
    · exact h.persist c _
    · exact h.refl c
  · exact h.trans (h.relax c) (h.flushLoop now _ _)

theorem resend (c : TCPConnection) (entry : OutstandingSegment) (now : Time) : R c (c.resend entry now) := by
  have hcount := h.count c (c.retxQueue.markRetransmitted now)
  have hemit := h.emit { c with
    retransmissions := c.retransmissions + 1
    retxQueue := c.retxQueue.markRetransmitted now } entry.seq entry.flags entry.payload {}
  rw [resend_eq]
  exact h.trans hcount hemit

theorem retransmitOldest (c : TCPConnection) (now : Time) (fast : Bool) :
    R c (c.retransmitOldest now fast) := by
  unfold TCPConnection.retransmitOldest
  split
  · exact h.refl c
  · rename_i oldest _
    dsimp only
    split_ifs
    · exact h.resend c oldest now
    · exact h.trans (h.resend c oldest now) (h.timer _ _)

/-- `_process_ack` keeps to `R` when the congestion window is free to move and retiring what is acknowledged
keeps to it. -/
theorem processAck {seg : TCPSegment} {now : Time} (hreno : ∀ c r, R c { c with reno := r })
    (hretire : seqGt seg.ack c.sendQueue.una = true → R c (c.retire seg now)) : R c (c.processAck seg now) := by
  cases hgt : seqGt seg.ack c.sendQueue.una with
  | true =>
    unfold TCPConnection.processAck
    rw [if_neg (by simp [hgt]), Leads.processNewAck_eq now hgt]
    apply h.trans (hretire hgt)
    apply h.trans (h.window (c.retire seg now) _)
    apply h.trans (h.timer _ _)
    exact h.flush _ now
  | false =>
    unfold TCPConnection.processAck
    rw [if_pos (by simp [hgt]), processOldAck_eq]
    apply fun hanswer => h.trans hanswer (h.flush _ now)
    have hcount : R c ((c.updatePeerWindow seg).1.countDuplicateAck seg).1 := by
      apply h.trans (h.window c _)
      unfold countDuplicateAck
      split_ifs
      · exact hreno _ _
      · exact h.refl _
    unfold answerOldAck
    dsimp only
    split_ifs
    · exact h.trans hcount (h.retransmitOldest _ now true)
    · exact h.trans hcount (h.retransmitOldest _ now false)
    · exact hcount

end Sending

/-! ### Timers -/

/-- `R` also allows what the timers do besides sending. -/
structure Timed (R : TCPConnection → TCPConnection → Prop) : Prop extends Sending R where
  sendAck : ∀ c now, R c (c.sendAck now)
  backoff : ∀ c, R c { c with reno := c.reno.onTimeout, rto := c.rto.backoff }
  delay : ∀ c delay timer, R c { c with persistDelay := delay, persistAt := timer }
  teardown : ∀ c, R c (c.teardown.notify .closed)

namespace Timed

variable {R : TCPConnection → TCPConnection → Prop} {c : TCPConnection} (h : Timed R)

include h

theorem onRetransmitTimeout (c : TCPConnection) (now : Time) : R c (c.onRetransmitTimeout now) := by
  unfold TCPConnection.onRetransmitTimeout
  split
  · exact h.timer c none
  · dsimp only
    split_ifs
    · exact h.teardown c
    · exact h.trans (h.backoff c) (h.trans (h.resend _ _ now) (h.timer _ _))

theorem onPersistTimeout (c : TCPConnection) (now : Time) : R c (c.onPersistTimeout now) := by
  unfold TCPConnection.onPersistTimeout
  split_ifs
  · exact h.trans (h.relax c) (h.flush _ now)
  · exact h.persist c none
  · apply fun hsent => h.trans hsent (h.delay _ _ _)
    split
    · exact h.resend c _ now
    · dsimp only
      split_ifs with hempty
      · exact h.refl c
      · exact h.transmitData now hempty

theorem afterDelayedAck (c : TCPConnection) (now : Time) :
    R (if due c.delayedAckAt now then c.sendAck now else c) (c.onTick now) := by
  have hif : ∀ (b d : TCPConnection) (due : Bool), R b d → R b (if due = true then d else b) := by
    intro b d due hd
    split_ifs
    · exact hd
    · exact h.refl b
  unfold TCPConnection.onTick
  dsimp only
  generalize (if due c.delayedAckAt now = true then c.sendAck now else c) = b
  have hretx := hif b _ (due b.retransmitAt now) (h.onRetransmitTimeout b now)
  generalize (if due b.retransmitAt now = true then b.onRetransmitTimeout now else b) = d at hretx ⊢
  have hprobe := hif d _ (due d.persistAt now) (h.onPersistTimeout d now)
  generalize (if due d.persistAt now = true then d.onPersistTimeout now else d) = f at hprobe ⊢
  apply h.trans (h.trans hretx hprobe)
  split_ifs
  · exact h.teardown f
  · exact h.refl f

theorem onTick (c : TCPConnection) (now : Time) : R c (c.onTick now) := by
  apply h.trans _ (h.afterDelayedAck c now)
  split_ifs
  · exact h.sendAck c now
  · exact h.refl c

end Timed

/-! ### Inbound segments -/

/-- The connection whose `_process_ack` is called: in SYN_SENT it has adopted the peer's SYN. -/
def ackTaker (c : TCPConnection) (seg : TCPSegment) (now : Time) : TCPConnection :=
  if c.state = .synSent then
    { (c.stamp now).adopted seg with
      peerWindow := seg.window <<< ((c.stamp now).adopted seg).sndWscale }
  else c.stamp now

theorem ackTaker_spec (c : TCPConnection) (seg : TCPSegment) (now : Time) :
    (c.ackTaker seg now).sendQueue = c.sendQueue ∧ (c.ackTaker seg now).retxQueue = c.retxQueue ∧
      (c.ackTaker seg now).rto = c.rto ∧ (c.ackTaker seg now).reno = c.reno ∧
      (c.ackTaker seg now).persistDelay = c.persistDelay := by
  unfold ackTaker
  split_ifs <;> exact ⟨rfl, rfl, rfl, rfl, rfl⟩

theorem takesAck_of_synchronised {c : TCPConnection} (seg : TCPSegment) (hsync : c.state.isSynchronised = true) :
    c.takesAck seg = (c.processes seg && seg.isAck) := by
  have hstate : c.takesAck seg = (seg.isAck && !seg.isRst && (!seg.isSyn && c.acceptable seg)) := by
    revert hsync
    unfold takesAck
    cases hst : c.state <;> simp [TcpState.isSynchronised]
  rw [hstate, processes, hsync]
  cases seg.isAck <;> cases seg.isRst <;> cases seg.isSyn <;> simp

/-- `R` also allows what `on_segment` does about a segment besides `_process_ack`. -/
structure Answering (R : TCPConnection → TCPConnection → Prop) : Prop extends Sending R where
  stamp : ∀ c now, R c (c.stamp now)
  sendAck : ∀ c now, R c (c.sendAck now)
  reject : ∀ c seg now, R c (c.reject seg now)
  handleRst : ∀ c, R c c.handleRst
  maybeAdvanceAfterAck : ∀ c seg now, R c (c.maybeAdvanceAfterAck seg now)
  handleData : ∀ c seg now, R c (c.handleData seg now)
  handleFin : ∀ c seg now, R c (c.handleFin seg now)

namespace Answering

variable {R : TCPConnection → TCPConnection → Prop} {c : TCPConnection} {seg : TCPSegment} (h : Answering R)

include h

theorem afterAck (c : TCPConnection) (seg : TCPSegment) (now : Time) :
    R c (let d := if seg.payload ≠ [] then c.handleData seg now else c
      if seg.isFin then d.handleFin seg now else d) := by
  have hdata : R c (if seg.payload ≠ [] then c.handleData seg now else c) := by
    split_ifs
    · exact h.handleData c seg now
    · exact h.refl c
  by_cases hfin : seg.isFin = true
  · simp only [hfin, if_true]
    exact h.trans hdata (h.handleFin _ seg now)
  · simp only [hfin, Bool.false_eq_true, if_false]
    exact hdata

theorem onSegment (seg : TCPSegment) (srcIp : Option Bytes) (draw : SeqNo) (now : Time)
    (hsync : c.state.isSynchronised = true) :
    c.processes seg = true ∧ seg.isAck = true ∧
        R ((c.stamp now).processAck seg now) (c.onSegment seg srcIp draw now).1 ∨
      (c.processes seg && seg.isAck) = false ∧ R c (c.onSegment seg srcIp draw now).1 := by
  have hstamp := h.stamp c now
  cases hproc : c.processes seg with
  | false =>
    refine .inr ⟨rfl, ?_⟩
    rcases onSegment_of_not_processes srcIp draw now hsync hproc with ⟨-, heq⟩ | heq | heq <;> rw [heq]
    · exact h.trans hstamp (h.handleRst _)
    · exact h.trans hstamp (h.reject _ seg now)
    · exact h.trans hstamp (h.sendAck _ now)
  | true =>
    rw [onSegment_of_processes srcIp draw now hproc]
    have hafter := h.afterAck ((c.stamp now).ackProcessed seg now) seg now
    unfold ackProcessed at hafter ⊢
    cases hack : seg.isAck with
    | true =>
      rw [hack, if_pos rfl] at hafter
      exact .inl ⟨rfl, rfl, h.trans (h.maybeAdvanceAfterAck _ seg now) hafter⟩
    | false =>
      rw [hack, if_neg Bool.false_ne_true] at hafter
      exact .inr ⟨rfl, h.trans hstamp (h.trans (h.maybeAdvanceAfterAck _ seg now) hafter)⟩

end Answering

/-- `R` also allows the handshake: what answers a SYN, a SYN+ACK and the last ACK. -/
structure Handshaking (R : TCPConnection → TCPConnection → Prop) : Prop extends Answering R where
  simultaneousOpen : ∀ c seg now, R c (c.handleSimultaneousOpen seg now)
  established : ∀ c now, c.state = .synSent →
    R c ({ c.sendAck now with state := .established }.notify .established)
  completed : ∀ c, c.state = .synReceived → R c ({ c with state := .established }.notify .established)

theorem Handshaking.onSegment {R : TCPConnection → TCPConnection → Prop} (h : Handshaking R) (c : TCPConnection)
    (seg : TCPSegment) (srcIp : Option Bytes) (draw : SeqNo) (now : Time) :
    c.takesAck seg = true ∧ R ((c.ackTaker seg now).processAck seg now) (c.onSegment seg srcIp draw now).1 ∨
      c.takesAck seg = false ∧ R c (c.onSegment seg srcIp draw now).1 := by
  have hstamp := h.stamp c now
  cases hsync : c.state.isSynchronised with
  | true =>
    rcases h.toAnswering.onSegment seg srcIp draw now hsync with ⟨hproc, hack, hafter⟩ | ⟨hno, hafter⟩
    · left
      rw [ackTaker, if_neg (TcpState.ne_of_isSynchronised hsync).2.2.1, takesAck_of_synchronised seg hsync,
        hproc, hack]
      exact ⟨rfl, hafter⟩
    · exact .inr ⟨(takesAck_of_synchronised seg hsync).trans hno, hafter⟩
  | false =>
    unfold TCPConnection.onSegment dispatch takesAck ackTaker
    cases hst : c.state with
    | closed =>
      right
      simp only [show (c.stamp now).state = .closed from hst, if_true, Bool.and_false, true_and]
      exact h.trans hstamp (h.reject _ seg now)
    | listen =>
      right
      simp only [show (c.stamp now).state = .listen from hst, reduceCtorEq, if_false, if_true, Bool.and_false,
        true_and]
      split_ifs
      · exact h.trans hstamp (h.handleRst _)
      · exact hstamp
    | synSent =>
      simp only [show (c.stamp now).state = .synSent from hst, reduceCtorEq, if_false, if_true]
      cases hrst : seg.isRst with
      | true => exact .inr ⟨by simp, h.trans hstamp (h.handleRst _)⟩
      | false =>
        cases hsyn : seg.isSyn with
        | false => exact .inr ⟨by simp, hstamp⟩
        | true =>
          cases hack : seg.isAck with
          | false =>
            refine .inr ⟨by simp, ?_⟩
            simp only [Bool.false_eq_true, if_false, if_true]
            exact h.trans hstamp (h.simultaneousOpen _ seg now)
          | true =>
            simp only [Bool.false_eq_true, if_false, if_true, handleSynAck]
            cases hge : seqGe seg.ack (seqAdd c.iss 1) with
            | false =>
              refine .inr ⟨by simp, ?_⟩
              rw [if_pos (by simp [TCPConnection.stamp, hge])]
              exact h.trans hstamp (h.reject _ seg now)
            | true =>
              refine .inl ⟨by simp, ?_⟩
              rw [if_neg (by simp [TCPConnection.stamp, hge])]
              apply h.established
              exact (ackFrame_processAck _ seg now).state.trans hst
    | synReceived =>
      simp only [show (c.stamp now).state = .synReceived from hst, reduceCtorEq, if_false, if_true]
      cases hrst : seg.isRst with
      | true => exact .inr ⟨by simp, h.trans hstamp (h.handleRst _)⟩
      | false =>
        cases hsyn : seg.isSyn with
        | true => exact .inr ⟨by simp, h.trans hstamp (h.retransmitOldest _ now false)⟩
        | false =>
          cases hack : seg.isAck with
          | false => exact .inr ⟨by simp, hstamp⟩
          | true =>
            simp only [Bool.false_eq_true, if_false, if_true, handleFinalAckOfHandshake]
            cases hge : seqGe seg.ack (seqAdd c.iss 1) with
            | false =>
              refine .inr ⟨by simp, ?_⟩
              rw [if_pos (by simp [TCPConnection.stamp, hge])]
              exact hstamp
            | true =>
              refine .inl ⟨by simp, ?_⟩
              rw [if_neg (by simp [TCPConnection.stamp, hge])]
              apply h.completed
              exact (ackFrame_processAck _ seg now).state.trans hst
    | _ => simp [hst, TcpState.isSynchronised] at hsync

end MiniTcp.TCPConnection
