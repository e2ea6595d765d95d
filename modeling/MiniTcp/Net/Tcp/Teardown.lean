import MiniTcp.Net.Tcp.Ending
import MiniTcp.Net.Tcp.Footprint
import MiniTcp.Net.Tcp.Persistence

/-!
# What a closed connection keeps

`_teardown` empties the queues and disarms three timers, but not the persist timer; and the ACK that ends
LAST_ACK tears the connection down in the middle of `on_segment`, so the payload of the same segment goes into
the emptied receive queue and may start the delayed-ACK timer. `ClosesClean` says for each way to close when
neither happens, and `quiet_iff` that a run in which every close does so, and no other run, has its connection
empty and quiet whenever it is closed.
-/

namespace MiniTcp

namespace ReceiveQueue

variable {q : ReceiveQueue} {seq : SeqNo} {payload : Bytes}

/-- There is nothing to read and nothing parked. -/
def Empty (q : ReceiveQueue) : Prop := q.readable = [] ∧ q.ooo.data = []

theorem empty_clear (q : ReceiveQueue) : q.clear.Empty := ⟨rfl, rfl⟩

theorem Accounted.clear (h : q.Accounted) : q.clear.Accounted where
  within := Nat.zero_le _
  tidy := ⟨List.nodup_nil, by simp [ReceiveQueue.clear, ReorderQueue.clear], rfl⟩
  limit := h.limit
  bounded := Nat.zero_le _

theorem Accounted.insert_empty_iff (h : q.Accounted) (hempty : q.Empty) (hcap : 0 < q.capacity) :
    (q.insert seq payload).1.Empty ↔ payload = [] ∨ payload.length ≤ seqDiff q.nxt seq := by
  refine ⟨fun hafter => ?_, fun hbehind => ?_⟩
  · by_contra hnot
    rw [not_or, not_le] at hnot
    obtain ⟨hnil, hlt⟩ := hnot
    have hheld : q.heldOutOfOrder = 0 := by
      rw [heldOutOfOrder, h.tidy.counted, hempty.2]
      rfl
    have hwindow : q.window = q.capacity := by
      have havail : q.available = 0 := by
        have hlen := congrArg List.length hempty.1
        simpa [readable, available] using hlen
      simp [window, havail, hheld]
    cases hgt : seqGt seq q.nxt with
    | false =>
      have htakes : q.takesIn seq payload = true := by simp [takesIn, hnil, hgt, hlt, hwindow, hcap.ne']
      obtain ⟨more, hmore, hread⟩ := h.within.insert_of_takesIn htakes
      rw [hafter.1, hempty.1, List.nil_append] at hread
      exact hmore hread.symm
    | true =>
      have hne : seq ≠ q.nxt := by
        rintro rfl
        exact Serial.not_lt_self _ (seqGt_iff.mp hgt)
      have hpos := List.length_pos_iff.mpr hnil
      -- what is parked fits, since nothing else is
      have hdata := hafter.2
      rw [ReceiveQueue.insert, if_neg hnil, if_neg hne, if_pos hgt, hwindow] at hdata
      have hfit : ∀ part : Bytes, part ≠ [] → part.length ≤ q.capacity →
          (q.ooo.insert seq part).1.data ≠ [] := by
        intro part hpart hle
        have hpeek : (q.ooo.peek seq).isSome = false := by simp [ReorderQueue.peek, hempty.2]
        have hroom : ¬ q.ooo.bytesBuffered + part.length > q.ooo.capacity := by
          rw [h.limit, show q.ooo.bytesBuffered = 0 from hheld]
          omega
        simp [ReorderQueue.insert, hpart, hpeek, hroom]
      dsimp only at hdata
      split_ifs at hdata with _ htake
      · simp [hnil, hcap.ne'] at htake
      · exact hfit _ htake (by simp) hdata
      · exact hfit _ hnil (by omega) hdata
  · obtain ⟨n, heq⟩ := insert_of_behind hbehind
    rw [heq]
    exact hempty

end ReceiveQueue

namespace TCPConnection

variable {c d : TCPConnection} {seg : TCPSegment} {now : Time}

/-- Empty queues, and no timer. -/
structure Clean (c : TCPConnection) : Prop where
  buf : c.sendQueue.buf = []
  recvQueue : c.recvQueue.Empty
  retxQueue : c.retxQueue.segments = []
  retransmitAt : c.retransmitAt = none
  delayedAckAt : c.delayedAckAt = none
  persistAt : c.persistAt = none
  timeWaitUntil : c.timeWaitUntil = none

namespace Clean

theorem congr (h : c.Clean) (hbuf : d.sendQueue.buf = c.sendQueue.buf) (hrecv : d.recvQueue = c.recvQueue)
    (hretx : d.retxQueue = c.retxQueue) (hat : d.retransmitAt = c.retransmitAt)
    (hack : d.delayedAckAt = c.delayedAckAt) (hpersist : d.persistAt = c.persistAt)
    (hwait : d.timeWaitUntil = c.timeWaitUntil) : d.Clean where
  buf := hbuf.trans h.buf
  recvQueue := hrecv ▸ h.recvQueue
  retxQueue := by rw [hretx]; exact h.retxQueue
  retransmitAt := hat.trans h.retransmitAt
  delayedAckAt := hack.trans h.delayedAckAt
  persistAt := hpersist.trans h.persistAt
  timeWaitUntil := hwait.trans h.timeWaitUntil

theorem of_teardown (h : c.persistAt = none) (n : Notice) : (c.teardown.notify n).Clean where
  buf := rfl
  recvQueue := c.recvQueue.empty_clear
  retxQueue := rfl
  retransmitAt := rfl
  delayedAckAt := rfl
  persistAt := h
  timeWaitUntil := rfl

theorem onTick (h : c.Clean) (now : Time) : c.onTick now = c := by
  unfold TCPConnection.onTick
  simp [due, h.delayedAckAt, h.retransmitAt, h.persistAt, h.timeWaitUntil]

theorem reject (h : c.Clean) (seg : TCPSegment) (now : Time) : (c.reject seg now).Clean := by
  unfold TCPConnection.reject
  split_ifs
  · exact h
  · rw [transmit_untracked _ _ _ _ _ (by decide)]
    exact h.congr rfl rfl rfl rfl rfl rfl rfl
  · rw [transmit_untracked _ _ _ _ _ (by decide)]
    exact h.congr rfl rfl rfl rfl rfl rfl rfl

end Clean

/-! ### The persist timer -/

theorem flushLoop_persistAt (now : Time) (fuel : Nat) (c : TCPConnection) :
    (flushLoop now fuel c).persistAt = c.persistAt := by
  induction fuel generalizing c with
  | zero => rfl
  | succ fuel ih =>
    unfold flushLoop
    dsimp only
    split_ifs with _ hempty
    · rfl
    · rfl
    · rw [transmitData_eq _ now hempty]
      rfl
    · rw [ih, transmitData_eq _ now hempty]
      rfl

/-- `_flush` leaves the persist timer disarmed before an open window, and when there is nothing to send. -/
theorem flush_persistAt_iff (hsync : c.state.isSynchronised = true) :
    (c.flush now).persistAt = none ↔
      c.peerWindow ≠ 0 ∨ c.sendQueue.unsent = 0 ∧ c.sendQueue.inFlight = 0 := by
  unfold flush armPersistTimer
  rw [if_neg (by simp [hsync])]
  by_cases hshut : c.peerWindow = 0
  · rw [if_pos hshut]
    by_cases hwork : c.sendQueue.unsent = 0 ∧ c.sendQueue.inFlight = 0
    · simp [hwork]
    · rw [if_neg hwork]
      cases hat : c.persistAt <;> simp [hat, hshut, hwork]
  · rw [if_neg hshut, flushLoop_persistAt]
    simp [hshut]

theorem onPersistTimeout_of_closed (hst : c.state = .closed) (now : Time) :
    ∃ delay, c.onPersistTimeout now = { c with persistAt := none, persistDelay := delay } := by
  unfold onPersistTimeout
  split_ifs
  · refine ⟨DEFAULT_PERSIST_DELAY, ?_⟩
    unfold flush
    rw [if_pos (by simp [hst, TcpState.isSynchronised])]
  · exact ⟨c.persistDelay, rfl⟩
  · simp_all [TcpState.isSynchronised]

/-! ### A tick that closes -/

theorem retransmitted_of_givesUp (hgives : c.givesUp now = true) :
    ∃ b : TCPConnection, b.persistAt = c.persistAt ∧ c.retransmitted now = b.teardown.notify .closed := by
  have hack : SameOffer c (if due c.delayedAckAt now then c.sendAck now else c) := by
    split_ifs
    · exact sameOffer_sendAck c now
    · exact ⟨rfl, rfl, rfl, rfl, rfl, rfl⟩
  unfold givesUp at hgives
  unfold retransmitted
  dsimp only
  generalize (if due c.delayedAckAt now = true then c.sendAck now else c) = b at hack ⊢
  refine ⟨b, hack.persistAt, ?_⟩
  rw [← hack.retransmitAt, ← hack.retxQueue, Bool.and_eq_true, Option.any_eq_true] at hgives
  obtain ⟨hdue, oldest, hold, hmax⟩ := hgives
  rw [if_pos hdue, onRetransmitTimeout, hold]
  exact if_pos (by simpa using hmax)

/-- A tick that gives the connection up leaves it clean unless the persist timer is armed for later. -/
theorem onTick_clean_of_givesUp (hgives : c.givesUp now = true) :
    (c.onTick now).Clean ↔ c.persistAt = none ∨ due c.persistAt now = true := by
  obtain ⟨b, hpersist, heq⟩ := retransmitted_of_givesUp hgives
  rw [onTick_eq, heq]
  dsimp only
  have hat : (b.teardown.notify .closed).persistAt = c.persistAt := hpersist
  rw [hat]
  cases hdue : due c.persistAt now with
  | true =>
    obtain ⟨delay, hprobe⟩ := onPersistTimeout_of_closed (c := b.teardown.notify .closed) rfl now
    rw [if_pos rfl, hprobe]
    have hclean : ({ b.teardown.notify .closed with persistAt := none, persistDelay := delay } :
        TCPConnection).Clean := by
      constructor
      all_goals first
        | rfl
        | exact b.recvQueue.empty_clear
    exact iff_of_true hclean (.inr rfl)
  | false =>
    rw [if_neg Bool.false_ne_true]
    refine ⟨fun h => .inl (hat.symm.trans h.persistAt), fun h => ?_⟩
    exact .of_teardown (hpersist.trans (h.resolve_right Bool.false_ne_true)) _

theorem onTick_clean_of_timeWait (hgives : c.givesUp now = false) (hst : c.state = .timeWait)
    (hdue : due c.timeWaitUntil now = true) :
    (c.onTick now).Clean ↔ c.persistAt = none ∨ due c.persistAt now = true ∧ 0 < c.peerWindow := by
  obtain ⟨-, hwindow, hpersist, -⟩ := c.retransmitted_spec now
  have hstate := c.retransmitted_state now
  rw [hgives, if_neg Bool.false_ne_true] at hstate
  rw [onTick_eq]
  generalize c.retransmitted now = d at hwindow hpersist hstate
  dsimp only
  have hsync : d.state.isSynchronised = true := by
    rw [hstate.1, hst]
    rfl
  have hframe := sendFrame_onPersistTimeout d now
  have hprobe : (if due d.persistAt now = true then d.onPersistTimeout now else d).persistAt = none ↔
      c.persistAt = none ∨ due c.persistAt now = true ∧ 0 < c.peerWindow := by
    rw [hpersist]
    cases hat : due c.persistAt now with
    | false => simp [hpersist]
    | true =>
      have hne : c.persistAt ≠ none := by
        intro hnone
        simp [hnone, due] at hat
      rw [if_pos rfl]
      rcases Nat.eq_zero_or_pos c.peerWindow with hshut | hopen
      · rw [onPersistTimeout_persistAt now hsync (hwindow.trans hshut)]
        simp [hne, hshut]
      · have hsync' : ({ d with persistAt := none, persistDelay := DEFAULT_PERSIST_DELAY } :
            TCPConnection).state.isSynchronised = true := hsync
        unfold onPersistTimeout
        rw [if_pos (show 0 < d.peerWindow by omega)]
        exact iff_of_true ((flush_persistAt_iff hsync').mpr (.inl (show d.peerWindow ≠ 0 by omega)))
          (.inr ⟨rfl, hopen⟩)
  have hends : (if due d.persistAt now = true then d.onPersistTimeout now else d).state = .timeWait ∧
      (if due d.persistAt now = true then d.onPersistTimeout now else d).timeWaitUntil = c.timeWaitUntil := by
    split_ifs
    · exact ⟨hframe.state.trans (hstate.1.trans hst), hframe.timeWaitUntil.trans hstate.2⟩
    · exact ⟨hstate.1.trans hst, hstate.2⟩
  generalize (if due d.persistAt now = true then d.onPersistTimeout now else d) = f at hprobe hends ⊢
  rw [if_pos ⟨hends.1, by rw [hends.2]; exact hdue⟩, ← hprobe]
  exact ⟨fun h => h.persistAt, fun h => .of_teardown h _⟩

/-! ### A segment that closes -/

/-- Closed, with nothing to send; bytes that came in may still be held. -/
structure TornDown (c : TCPConnection) : Prop where
  state : c.state = .closed
  buf : c.sendQueue.buf = []
  retxQueue : c.retxQueue.segments = []
  retransmitAt : c.retransmitAt = none
  timeWaitUntil : c.timeWaitUntil = none

theorem TornDown.clean_iff (h : c.TornDown) (hack : c.recvQueue.Empty → c.delayedAckAt = none) :
    c.Clean ↔ c.persistAt = none ∧ c.recvQueue.Empty := by
  refine ⟨fun hclean => ⟨hclean.persistAt, hclean.recvQueue⟩, fun ⟨hpersist, hempty⟩ => ?_⟩
  exact ⟨h.buf, hempty, h.retxQueue, h.retransmitAt, hack hempty, hpersist, h.timeWaitUntil⟩

theorem sendAck_of_closed (hst : c.state = .closed) (now : Time) :
    c.sendAck now = { c with delayedAckAt := none } :=
  if_pos (.inl hst)

/-- A closed connection takes a payload in, and starts the delayed-ACK timer for nothing else. -/
theorem TornDown.handleData (h : c.TornDown) (hack : c.delayedAckAt = none) (seg : TCPSegment) (now : Time) :
    (c.handleData seg now).TornDown ∧ (c.handleData seg now).persistAt = c.persistAt ∧
      ((c.recvQueue.insert seg.seq seg.payload).2 = 0 → (c.handleData seg now).delayedAckAt = none) := by
  have hacked : ∀ (d : TCPConnection) (newly : Nat), d.TornDown → d.delayedAckAt = none →
      (d.acknowledgeData newly now).TornDown ∧ (d.acknowledgeData newly now).persistAt = d.persistAt ∧
        (newly = 0 → (d.acknowledgeData newly now).delayedAckAt = none) := by
    intro d newly hd hnone
    unfold acknowledgeData
    split_ifs with hdelay
    · rw [hnone]
      exact ⟨⟨hd.state, hd.buf, hd.retxQueue, hd.retransmitAt, hd.timeWaitUntil⟩, rfl,
        fun hzero => absurd hzero hdelay.2⟩
    · rw [sendAck_of_closed hd.state]
      exact ⟨⟨hd.state, hd.buf, hd.retxQueue, hd.retransmitAt, hd.timeWaitUntil⟩, rfl, fun _ => rfl⟩
  unfold TCPConnection.handleData
  dsimp only
  have hsame : ∀ (queue : ReceiveQueue) (n : Nat) (notices : List Notice),
      TornDown { c with recvQueue := queue, bytesReceived := n, notices := notices } := fun _ _ _ =>
    ⟨h.state, h.buf, h.retxQueue, h.retransmitAt, h.timeWaitUntil⟩
  split_ifs
  · exact hacked _ _ (hsame _ _ _) hack
  · exact hacked _ _ (hsame _ _ _) hack
  · exact ⟨hsame _ _ _, rfl, fun _ => hack⟩
  · exact ⟨hsame _ _ _, rfl, fun _ => hack⟩

/-- The FIN of a closed connection moves `rcv_nxt` at most, and disarms the delayed-ACK timer. -/
theorem handleFin_of_closed (hst : c.state = .closed) (seg : TCPSegment) (now : Time) :
    ∃ nxt, c.handleFin seg now =
      { c with delayedAckAt := none, recvQueue := { c.recvQueue with nxt := nxt } } := by
  have hack := sendAck_of_closed (c := { c with recvQueue := { c.recvQueue with nxt := seqAdd c.recvQueue.nxt 1 } })
    hst now
  have hconsume : c.consumeFin now = { c with
      delayedAckAt := none
      recvQueue := { c.recvQueue with nxt := seqAdd c.recvQueue.nxt 1 } } := by
    unfold consumeFin
    rw [hack]
    simp [hst]
  unfold handleFin
  dsimp only
  rw [sendAck_of_closed hst, hconsume]
  split_ifs <;> exact ⟨_, rfl⟩

/-- What the rest of a segment does to a connection that its ACK has torn down: it stays clean as far as the
persist timer is disarmed and no byte of the payload is at `rcv_nxt` or beyond. -/
theorem TornDown.clean_afterAck (h : c.TornDown) (hnone : c.delayedAckAt = none) (hacc : c.recvQueue.Accounted)
    (hempty : c.recvQueue.Empty) (hcap : 0 < c.recvQueue.capacity) :
    (let d := if seg.payload ≠ [] then c.handleData seg now else c
      if seg.isFin then d.handleFin seg now else d).Clean ↔
      c.persistAt = none ∧ (seg.payload = [] ∨ seg.payload.length ≤ seqDiff c.rcvNxt seg.seq) := by
  have hleft : (c.recvQueue.insert seg.seq seg.payload).1.Empty ↔
      seg.payload = [] ∨ seg.payload.length ≤ seqDiff c.rcvNxt seg.seq := hacc.insert_empty_iff hempty hcap
  have hdata : (if seg.payload ≠ [] then c.handleData seg now else c).TornDown ∧
      (if seg.payload ≠ [] then c.handleData seg now else c).persistAt = c.persistAt ∧
      (if seg.payload ≠ [] then c.handleData seg now else c).recvQueue =
        (c.recvQueue.insert seg.seq seg.payload).1 ∧
      ((if seg.payload ≠ [] then c.handleData seg now else c).recvQueue.Empty →
        (if seg.payload ≠ [] then c.handleData seg now else c).delayedAckAt = none) := by
    by_cases hne : seg.payload ≠ []
    · obtain ⟨hdown, hsame, hdelay⟩ := h.handleData hnone seg now
      have hins := handleData_recvQueue c seg now
      rw [if_pos hne]
      refine ⟨hdown, hsame, hins, fun hafter => hdelay ?_⟩
      rw [hins, hleft] at hafter
      obtain ⟨n, heq⟩ := ReceiveQueue.insert_of_behind hafter
      rw [heq]
    · rw [if_neg hne, ReceiveQueue.insert, if_pos (not_not.mp hne)]
      exact ⟨h, rfl, rfl, fun _ => hnone⟩
  dsimp only
  generalize (if seg.payload ≠ [] then c.handleData seg now else c) = d at hdata ⊢
  obtain ⟨hdown, hsame, hins, hdelay⟩ := hdata
  have hwhole : d.Clean ↔ c.persistAt = none ∧
      (seg.payload = [] ∨ seg.payload.length ≤ seqDiff c.rcvNxt seg.seq) := by
    rw [hdown.clean_iff hdelay, hsame, hins, hleft]
  split_ifs
  · obtain ⟨nxt, heq⟩ := handleFin_of_closed hdown.state seg now
    have hfin : ({ d with delayedAckAt := none, recvQueue := { d.recvQueue with nxt := nxt } } :
        TCPConnection).TornDown :=
      ⟨hdown.state, hdown.buf, hdown.retxQueue, hdown.retransmitAt, hdown.timeWaitUntil⟩
    rw [heq, hfin.clean_iff fun _ => rfl, ← hwhole, hdown.clean_iff hdelay]
    rfl
  · exact hwhole

theorem ackProcessed_of_lastAck (hends : c.EndsLastAck seg) (now : Time) :
    (c.stamp now).ackProcessed seg now = ((c.stamp now).processAck seg now).teardown.notify .closed := by
  obtain ⟨hst, -, -, hack, finSeq, hfin, hge⟩ := hends
  have hframe := ackFrame_processAck (c.stamp now) seg now
  unfold ackProcessed maybeAdvanceAfterAck
  rw [if_pos hack, hframe.finSeq, show (c.stamp now).finSeq = some finSeq from hfin, hframe.state,
    show (c.stamp now).state = .lastAck from hst]
  simp [hack, hge]

/-- The segment that ends LAST_ACK leaves the connection clean exactly when `_process_ack` leaves the persist
timer disarmed and no byte of the payload is at `rcv_nxt` or beyond. -/
theorem onSegment_clean_of_lastAck (hacc : c.recvQueue.Accounted) (hcap : 0 < c.recvQueue.capacity)
    (hends : c.EndsLastAck seg) (hrst : seg.isRst = false) (srcIp : Option Bytes) (draw : SeqNo) :
    (c.onSegment seg srcIp draw now).1.Clean ↔
      (seg.window ≠ 0 ∨ (c.sendQueue.acknowledge seg.ack).1.unsent = 0 ∧
        (c.sendQueue.acknowledge seg.ack).1.inFlight = 0) ∧
      (seg.payload = [] ∨ seg.payload.length ≤ seqDiff c.rcvNxt seg.seq) := by
  have hsync : c.state.isSynchronised = true := by
    rw [hends.1]
    rfl
  have hproc : c.processes seg = true := by
    simp [processes, hsync, hrst, hends.2.1, hends.2.2.1]
  obtain ⟨hqueue, hwindow, -, hstate, -⟩ := (c.stamp now).acked_spec seg now
  have hsync' : ((c.stamp now).acked seg now).state.isSynchronised = true := by
    rw [hstate]
    exact hsync
  have hpersist : (((c.stamp now).acked seg now).flush now).persistAt = none ↔ _ := flush_persistAt_iff hsync'
  rw [← processAck_eq_flush, hqueue, hwindow] at hpersist
  have hrecv : (((c.stamp now).processAck seg now).teardown.notify .closed).recvQueue = c.recvQueue.clear :=
    congrArg ReceiveQueue.clear (ackFrame_processAck (c.stamp now) seg now).recvQueue
  have hdown : (((c.stamp now).processAck seg now).teardown.notify .closed).TornDown :=
    ⟨rfl, rfl, rfl, rfl, rfl⟩
  rw [onSegment_of_processes srcIp draw now hproc, ackProcessed_of_lastAck hends]
  apply (hdown.clean_afterAck rfl (by rw [hrecv]; exact hacc.clear) (by rw [hrecv]; exact c.recvQueue.empty_clear)
    (by rw [hrecv]; exact hcap)).trans
  rw [rcvNxt, hrecv]
  apply and_congr_left'
  apply hpersist.trans
  simp [Nat.shiftLeft_eq_zero_iff, stamp]

end TCPConnection

open TCPConnection

theorem Action.not_listen {r : Bool} {e : Event} {q q' : Endpoint} (ha : Action r e q q') (hlisten : e ≠ .listen)
    (h : q.conn.state ≠ .listen) : q'.conn.state ≠ .listen := by
  cases ha with
  | quiet hq => exact hq.state.symm ▸ h
  | listen he => exact absurd he hlisten
  | connect _ hconn =>
    obtain ⟨-, rfl⟩ := connect_eq hconn
    nofun
  | simultaneousOpen =>
    rw [handleSimultaneousOpen_eq]
    nofun
  | push payload n now _ _ hne =>
    rw [transmitData_eq _ now hne]
    exact h
  | resend now =>
    rw [resend_eq]
    exact h
  | fin _ hstate => rcases hstate with ⟨-, rfl⟩ | ⟨-, rfl⟩ <;> nofun
  | @consumeFin _ _ _ now =>
    rcases finTaken_state q.conn now with hst | ⟨-, hst⟩
    · rw [Endpoint.put_conn, hst]
      exact h
    · exact (TcpState.ne_of_isSynchronised hst).2.1
  | advance =>
    unfold finAcknowledged
    split <;> nofun
  | establish => nofun
  | reset | expire | drop => nofun
  | abort =>
    rw [abort_eq]
    nofun
  | _ => exact h

namespace Endpoint

variable {p : Endpoint} {e : Event}

theorem clean_idle (h : p.conn.Clean) (hidle : p.conn.state = .closed ∨ p.conn.state = .listen) (e : Event) :
    (p.step e).conn.Clean ∨ (p.step e).conn.state = .synSent := by
  cases e with
  | connect draw now =>
    simp only [step]
    cases hconn : p.conn.connect draw now with
    | error err => exact .inl h
    | ok c =>
      obtain ⟨-, rfl⟩ := connect_eq hconn
      exact .inr rfl
  | listen =>
    simp only [step, TCPConnection.listen]
    split_ifs
    · exact .inl h
    · exact .inl (h.congr rfl rfl rfl rfl rfl rfl rfl)
  | send data now =>
    have hno : p.conn.canSend = false := by
      rcases hidle with hst | hst <;> simp [canSend, hst]
    exact .inl (by simpa [step, TCPConnection.send, hno] using h)
  | recv maxBytes now =>
    have hnone : p.conn.recvQueue.available = 0 := by
      simpa [ReceiveQueue.readable, ReceiveQueue.available] using congrArg List.length h.recvQueue.1
    exact .inl (by simpa [step, TCPConnection.recv, hnone] using h)
  | close now =>
    left
    simp only [step, put_conn, TCPConnection.close]
    rcases hidle with hst | hst <;> rw [hst] <;> exact h.congr rfl rfl rfl rfl rfl rfl rfl
  | abort now =>
    left
    simp only [step, put_conn, abort_eq]
    apply Clean.of_teardown
    split_ifs <;> exact h.persistAt
  | tick now =>
    left
    simp only [step, put_conn, h.onTick now]
    exact h
  | segment seg srcIp draw now =>
    left
    have hstamp : (p.conn.stamp now).Clean := h.congr rfl rfl rfl rfl rfl rfl rfl
    simp only [step, put_conn, onSegment, dispatch]
    rcases hidle with hst | hst
    · rw [if_pos (show (p.conn.stamp now).state = .closed from hst)]
      exact hstamp.reject seg now
    · rw [if_neg (by simp [stamp, hst]), if_pos (show (p.conn.stamp now).state = .listen from hst)]
      split_ifs
      · exact (Clean.of_teardown (c := { p.conn.stamp now with resetReceived := true }) h.persistAt
          .reset).congr rfl rfl rfl rfl rfl rfl rfl
      · exact hstamp

/-- The call, if it closes the connection, leaves the persist timer disarmed and no byte of a payload. -/
def ClosesClean (p : Endpoint) : Event → Prop
  | .segment seg _ _ _ =>
    if seg.isRst then p.conn.persistAt = none
    else (seg.window ≠ 0 ∨ (p.conn.sendQueue.acknowledge seg.ack).1.unsent = 0 ∧
        (p.conn.sendQueue.acknowledge seg.ack).1.inFlight = 0) ∧
      (seg.payload = [] ∨ seg.payload.length ≤ seqDiff p.conn.rcvNxt seg.seq)
  | .tick now =>
    if p.conn.givesUp now then p.conn.persistAt = none ∨ due p.conn.persistAt now = true
    else p.conn.persistAt = none ∨ due p.conn.persistAt now = true ∧ 0 < p.conn.peerWindow
  | _ => p.conn.persistAt = none

theorem clean_iff_closesClean (hp : endpoint.Reachable p) (hends : p.conn.Ends e)
    (hlisten : p.conn.state = .listen → p.conn.Clean) (hopen : p.conn.state ≠ .closed) :
    (p.step e).conn.Clean ↔ p.ClosesClean e := by
  have habort : ∀ now, (p.conn.abort now).Clean ↔ p.conn.persistAt = none := by
    intro now
    rw [abort_eq]
    constructor
    · intro hclean
      have hnone := hclean.persistAt
      simp only [notify, teardown] at hnone
      split_ifs at hnone <;> exact hnone
    · intro hnone
      apply Clean.of_teardown
      split_ifs <;> exact hnone
  cases e with
  | segment seg srcIp draw now =>
    cases hrst : seg.isRst with
    | true =>
      simp only [ClosesClean, step, put_conn, hrst, if_true, onSegment_of_rst srcIp draw now hopen hrst]
      refine ⟨fun hclean => hclean.persistAt, fun hnone => ?_⟩
      exact (Clean.of_teardown (c := { p.conn.stamp now with resetReceived := true }) hnone
        .reset).congr rfl rfl rfl rfl rfl rfl rfl
    | false =>
      obtain ⟨hacc, hcap, -⟩ := compact_of_reachable hp
      simp only [ClosesClean, step, put_conn, hrst, Bool.false_eq_true, if_false]
      exact onSegment_clean_of_lastAck hacc (by rw [hcap]; exact p.conn.cfg.receiveCapacity_pos)
        (hends.resolve_left (by simp [hrst])) hrst srcIp draw
  | tick now =>
    cases hgives : p.conn.givesUp now with
    | true =>
      simp only [ClosesClean, step, put_conn, hgives, if_true]
      exact onTick_clean_of_givesUp hgives
    | false =>
      obtain ⟨hst, hdue⟩ := hends.resolve_left (by simp [hgives])
      simp only [ClosesClean, step, put_conn, hgives, Bool.false_eq_true, if_false]
      exact onTick_clean_of_timeWait hgives hst hdue
  | close now =>
    simp only [step, put_conn, TCPConnection.close]
    rcases hends with hst | hst | hst
    · rw [hst]
      exact habort now
    · rw [hst]
      exact habort now
    · rw [hst]
      exact iff_of_true ((hlisten hst).congr rfl rfl rfl rfl rfl rfl rfl) (hlisten hst).persistAt
  | abort now => exact habort now
  | listen | connect | send | recv => exact hends.elim

/-! ### Runs -/

/-- When the connection is closed, its queues are empty, its timers are disarmed, and no tick transmits. -/
def Quiet (p : Endpoint) : Prop :=
  p.conn.state = .closed → p.conn.Clean ∧ ∀ now, (p.conn.onTick now).sent = p.conn.sent

theorem Quiet.of_clean (h : p.conn.Clean) : Quiet p := fun _ => ⟨h, fun now => by rw [h.onTick now]⟩

/-- If the call ends an open connection, it closes it clean. -/
def LeavesNothing (p : Endpoint) (e : Event) : Prop :=
  p.conn.state ≠ .closed → p.conn.Ends e → p.ClosesClean e

/-- A call leads to a quiet connection exactly when, if it closes the connection, it closes it clean. -/
theorem quiet_step_iff (hp : endpoint.Reachable p) (hlisten : p.conn.state = .listen → p.conn.Clean)
    (h : p.Quiet) (e : Event) : (p.step e).Quiet ↔ p.LeavesNothing e := by
  by_cases hclosed : p.conn.state = .closed
  · refine iff_of_true (fun hst => ?_) fun hopen => absurd hclosed hopen
    have hclean := (clean_idle (h hclosed).1 (.inl hclosed) e).resolve_right (by simp [hst])
    exact Quiet.of_clean hclean hst
  · constructor
    · intro hquiet hopen hends
      have hst := (ends_step_iff hopen e).mpr hends
      exact (clean_iff_closesClean hp hends hlisten hopen).mp (hquiet hst).1
    · intro hleaves hst
      have hends := (ends_step_iff hclosed e).mp hst
      exact Quiet.of_clean ((clean_iff_closesClean hp hends hlisten hclosed).mpr (hleaves hclosed hends)) hst

/-- In a run of a new connection it is empty and quiet whenever it is closed, exactly when every call that
closes it closes it clean. -/
theorem quiet_iff {es : List Event} (hp : p.Created) :
    endpoint.Always Quiet p es ↔ endpoint.Meets LeavesNothing p es := by
  apply endpoint.always_iff_meets (E := fun _ _ => True)
    (Q := fun q => endpoint.Reachable q ∧ (q.conn.state = .listen → q.conn.Clean))
  · rintro q e ⟨hq, hlisten⟩ hquiet - -
    refine ⟨hq.step endpoint e trivial, fun hst => ?_⟩
    by_cases hidle : q.conn.state = .closed ∨ q.conn.state = .listen
    · have hclean : q.conn.Clean := hidle.elim (fun hclosed => (hquiet hclosed).1) hlisten
      exact (clean_idle hclean hidle e).resolve_right (by rw [← endpoint_next, hst]; nofun)
    · rw [not_or] at hidle
      by_cases he : e = .listen
      · subst he
        simp [endpoint_next, step, TCPConnection.listen, hidle] at hst
      · have hnot := keeps_step (I := fun q => q.conn.state ≠ .listen)
          (fun _ _ hq ha => ha.not_listen he hq) hidle.2
        exact absurd hst hnot
  · rintro q e ⟨hq, hlisten⟩ hquiet -
    exact quiet_step_iff hq hlisten hquiet e
  · exact endpoint.meets_true p es
  · refine ⟨.init endpoint hp, fun hst => ?_⟩
    rcases hp with ⟨cfg, rfl⟩ | ⟨cfg, seg, draw, now, -, -, rfl⟩
    · cases hst
    · rw [passive, beginPassiveOpen_eq] at hst
      cases hst
  · intro hst
    rcases hp with ⟨cfg, rfl⟩ | ⟨cfg, seg, draw, now, -, -, rfl⟩
    · exact Quiet.of_clean ⟨rfl, ⟨rfl, rfl⟩, rfl, rfl, rfl, rfl, rfl⟩ hst
    · rw [passive, beginPassiveOpen_eq] at hst
      cases hst

/-- A connection that is opened and aborted. -/
theorem quiet_aborted :
    (Endpoint.new (.plain 100)).Created ∧
      (endpoint.run (.new (.plain 100)) [.connect 0 0, .abort 1]).conn.state = .closed ∧
      endpoint.Always Quiet (.new (.plain 100)) [.connect 0 0, .abort 1] :=
  ⟨.inl ⟨_, rfl⟩, by decide +kernel,
    (quiet_iff (.inl ⟨_, rfl⟩)).mpr ⟨fun _ hends => hends.elim, fun _ _ => rfl, trivial⟩⟩

/-- A client in LAST_ACK: the peer's FIN has come in, and its own has gone out. -/
def lastAckClient : Endpoint :=
  endpoint.run establishedClient
    [.segment { srcPort := 2000, dstPort := 1000, seq := 501, ack := 101, flags := FLAG_ACK ||| FLAG_FIN,
                window := 1000 } none 0 0,
      .close 0]

theorem reachable_lastAckClient : endpoint.Reachable lastAckClient :=
  reachable_establishedClient.run endpoint (endpoint.meets_true _ _)

/-- The ACK of its FIN, with a byte beyond the peer's. -/
def lateByte : Event :=
  .segment { srcPort := 2000, dstPort := 1000, seq := 502, ack := 102, flags := FLAG_ACK, window := 1000,
             payload := [9] } none 0 0

/-- A reset leaves the persist timer armed, and the segment that ends LAST_ACK leaves a byte to read. -/
theorem closed_not_quiet :
    (endpoint.Reachable waitingClient ∧
      (waitingClient.step (.segment strayReset none 0 0)).conn.state = .closed ∧
      (waitingClient.step (.segment strayReset none 0 0)).conn.persistAt = some (1 / 2)) ∧
    endpoint.Reachable lastAckClient ∧ lastAckClient.conn.state = .lastAck ∧
      (lastAckClient.step lateByte).conn.state = .closed ∧
      (lastAckClient.step lateByte).conn.recvQueue.readable = [9] :=
  ⟨⟨reachable_waitingClient, by decide +kernel⟩, reachable_lastAckClient, by decide +kernel⟩

end Endpoint

end MiniTcp
