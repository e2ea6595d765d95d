import MiniTcp.Net.Tcp.Outbound

/-!
# The receiving half of a connection that is never closed

`Inbound irs s r p` says that `p` has taken in the first `r` bytes of the stream `s` whose SYN was
numbered `irs`, and has acknowledged no more than these. Every action keeps it as long as every segment
that comes in is a piece of that stream.
-/

namespace MiniTcp

open Stream (At)
open TCPConnection

namespace TCPConnection

/-- The peer's initial number is known and the connection is open. -/
def Opened (c : TCPConnection) : Prop := c.state = .synReceived ∨ c.state.isSynchronised = true

theorem not_opened {c : TCPConnection} : ¬ c.Opened ↔
    c.state = .closed ∨ c.state = .listen ∨ c.state = .synSent := by
  unfold Opened
  cases c.state <;> simp [TcpState.isSynchronised]

theorem opened_of_answers {c : TCPConnection} (h : c.state.isSynchronised = true ∨
    c.delayedAckAt ≠ none ∧ c.state ≠ .closed ∧ c.state ≠ .listen)
    (hnone : c.state = .synSent → c.delayedAckAt = none) : c.Opened := by
  rcases h with hsync | ⟨hdelay, hclosed, hlisten⟩
  · exact .inr hsync
  by_contra hno
  rcases not_opened.mp hno with hst | hst | hst
  · exact hclosed hst
  · exact hlisten hst
  · exact hdelay (hnone hst)

theorem isAck_rejection {c : TCPConnection} {seg : TCPSegment} (h : c.Rejects seg)
    (hst : c.state = .synSent) : (c.rejection seg).isAck = false := by
  have hack : seg.isAck = true := by
    rcases h with hclosed | ⟨hsync, -⟩ | ⟨-, -, hack, -⟩
    · rw [hst] at hclosed
      cases hclosed
    · rw [hst] at hsync
      cases hsync
    · exact hack
  rw [rejection, if_pos hack]
  exact show (FLAG_RST &&& FLAG_ACK != 0) = false by decide

end TCPConnection

namespace Endpoint

/-- The first `r` bytes of `s` were taken in, and no more than these acknowledged. -/
structure Inbound (irs : SeqNo) (s : Bytes) (r : Nat) (p : Endpoint) : Prop where
  le : r ≤ s.length
  noFin : p.conn.finSeq = none
  waiting : p.conn.state = .synSent → r = 0 ∧ p.returned = [] ∧ p.conn.delayedAckAt = none ∧
    (∀ x ∈ p.conn.sent, x.isAck = false) ∧
    ∀ y ∈ p.conn.retxQueue.segments, (y.flags &&& FLAG_ACK != 0) = false
  idle : ¬ p.conn.Opened → p.conn.recvQueue.buf = [] ∧ p.returned <+: s
  holds : p.conn.Opened → p.conn.recvQueue.Holds irs s p.returned r
  acks : ∀ x ∈ p.conn.sent, Acks irs r x

variable {irs : SeqNo} {s t : Bytes} {n r : Nat} {p q : Endpoint}

theorem acks_resent {c : TCPConnection} {entry : OutstandingSegment} (hbasic : c.Basic)
    (hmem : entry ∈ c.retxQueue.segments)
    (hopen : c.Opened → Acks irs r (c.resentSegment entry))
    (hwait : c.state = .synSent → (entry.flags &&& FLAG_ACK != 0) = false) :
    Acks irs r (c.resentSegment entry) := by
  by_cases h : c.Opened
  · exact hopen h
  rcases not_opened.mp h with hst | hst | hst
  · rw [(hbasic.idle (.inl hst)).2] at hmem
    cases hmem
  · rw [(hbasic.idle (.inr hst)).2] at hmem
    cases hmem
  · exact .of_flags (.inl (hwait hst))

theorem acks_rejection (c : TCPConnection) (seg : TCPSegment) : Acks irs r (c.rejection seg) := by
  apply Acks.of_flags
  unfold TCPConnection.rejection
  split_ifs
  · exact .inr (show (FLAG_RST &&& FLAG_RST != 0) = true by decide)
  · exact .inr (show ((FLAG_RST ||| FLAG_ACK) &&& FLAG_RST != 0) = true by decide)

namespace Inbound

theorem returned_isPrefix (h : Inbound irs s r p) : p.returned <+: s := by
  by_cases hopen : p.conn.Opened
  · have hstream := (h.holds hopen).stream
    exact (List.prefix_append _ _).trans (hstream ▸ List.take_prefix r s)
  · exact (h.idle hopen).2

theorem received (h : Inbound irs s r p) : p.returned ++ p.conn.recvQueue.readable <+: s := by
  by_cases hopen : p.conn.Opened
  · rw [(h.holds hopen).stream]
    exact List.take_prefix r s
  · obtain ⟨hbuf, hret⟩ := h.idle hopen
    rw [ReceiveQueue.readable, hbuf, List.drop_nil, List.append_nil]
    exact hret

theorem of_isPrefix (h : Inbound irs s r p) (hst : s <+: t) : Inbound irs t r p where
  le := h.le.trans hst.length_le
  noFin := h.noFin
  waiting := h.waiting
  idle := fun hopen => ⟨(h.idle hopen).1, (h.idle hopen).2.trans hst⟩
  holds := fun hopen => (h.holds hopen).of_isPrefix hst
  acks := h.acks

theorem congr (h : Inbound irs s r p) (hret : q.returned = p.returned)
    (hfin : q.conn.finSeq = p.conn.finSeq) (hrecv : q.conn.recvQueue = p.conn.recvQueue)
    (hopen : q.conn.Opened ↔ p.conn.Opened)
    (hwait : q.conn.state = .synSent → p.conn.state = .synSent ∧
      (p.conn.delayedAckAt = none → q.conn.delayedAckAt = none) ∧
      (∀ x ∈ q.conn.sent, x ∈ p.conn.sent ∨ x.isAck = false) ∧
      ∀ y ∈ q.conn.retxQueue.segments, ∃ x ∈ p.conn.retxQueue.segments, y.flags = x.flags)
    (hsent : ∀ x ∈ q.conn.sent, x ∈ p.conn.sent ∨ Acks irs r x) : Inbound irs s r q where
  le := h.le
  noFin := hfin.trans h.noFin
  waiting := by
    intro hst
    obtain ⟨hst', hdelay, hplain, hretx⟩ := hwait hst
    obtain ⟨hr, hnil, hnone, hsyns, hflags⟩ := h.waiting hst'
    refine ⟨hr, hret.trans hnil, hdelay hnone, fun x hx => (hplain x hx).elim (hsyns x) id,
      fun y hy => ?_⟩
    obtain ⟨x, hx, heq⟩ := hretx y hy
    rw [heq]
    exact hflags x hx
  idle := by
    rw [hopen, hrecv, hret]
    exact h.idle
  holds := by
    rw [hopen, hrecv, hret]
    exact h.holds
  acks := fun x hx => (hsent x hx).elim (h.acks x) id

theorem emit (h : Inbound irs s r p) {x : TCPSegment} (hx : Acks irs r x)
    (hsyn : p.conn.state = .synSent → x.isAck = false) : Inbound irs s r (p.put (p.conn.emit x)) := by
  have hnew : ∀ y ∈ (p.conn.emit x).sent, y ∈ p.conn.sent ∨ y = x := fun y hy =>
    (List.mem_append.mp hy).imp_right List.mem_singleton.mp
  refine h.congr rfl rfl rfl Iff.rfl (fun hst => ⟨hst, id, fun y hy => ?_, fun y hy => ⟨y, hy, rfl⟩⟩)
    (fun y hy => ?_)
  · rcases hnew y hy with hold | rfl
    exacts [.inl hold, .inr (hsyn hst)]
  · rcases hnew y hy with hold | rfl
    exacts [.inl hold, .inr hx]

theorem teardown (h : Inbound irs s r p) {c : TCPConnection} (hstate : c.state = .closed)
    (hfin : c.finSeq = p.conn.finSeq) (hbuf : c.recvQueue.buf = [])
    (hsent : ∀ x ∈ c.sent, x ∈ p.conn.sent ∨ Acks irs r x) : Inbound irs s r (p.put c) where
  le := h.le
  noFin := hfin.trans h.noFin
  waiting := by simp [hstate]
  idle := fun _ => ⟨hbuf, h.returned_isPrefix⟩
  holds := fun hopen => absurd hopen (not_opened.mpr (.inl hstate))
  acks := fun x hx => (hsent x hx).elim (h.acks x) id

theorem opened {c : TCPConnection} (h : Inbound irs s r p) (hst : p.conn.state = .synSent)
    (hopen : c.Opened) (hfin : c.finSeq = p.conn.finSeq)
    (hrecv : ∃ capacity, c.recvQueue = .new irs capacity)
    (hsent : ∀ x ∈ c.sent, x ∈ p.conn.sent ∨ Acks irs r x) : Inbound irs s r (p.put c) where
  le := h.le
  noFin := hfin.trans h.noFin
  waiting := by
    intro hst'
    exact absurd hopen (not_opened.mpr (.inr (.inr hst')))
  idle := fun hno => absurd hopen hno
  holds := by
    intro
    obtain ⟨capacity, hrecv⟩ := hrecv
    obtain ⟨hr, hnil, -, -, -⟩ := h.waiting hst
    simp only [put_conn, put_returned]
    rw [hr, hnil, hrecv]
    exact ReceiveQueue.holds_new irs s capacity
  acks := fun x hx => (hsent x hx).elim (h.acks x) id

theorem acks_nxt (h : Inbound irs s r p) (hopen : p.conn.Opened) {x : TCPSegment}
    (hx : x.ack = p.conn.recvQueue.nxt) : Acks irs r x :=
  fun _ _ => ⟨r, le_rfl, hx.trans (h.holds hopen).nxt⟩

theorem simultaneousOpen (h : Inbound irs s r p) (hstate : p.conn.state = .synSent) {seg : TCPSegment}
    (hirs : seg.seq = irs) (now : Time) :
    Inbound irs s r (p.put (p.conn.handleSimultaneousOpen seg now)) := by
  rw [handleSimultaneousOpen_eq]
  refine h.opened hstate (.inl rfl) rfl ⟨p.conn.cfg.receiveCapacity, by rw [← hirs]; rfl⟩
    (fun x hx => ?_)
  rcases List.mem_append.mp hx with hold | hnew
  · exact .inl hold
  · rw [List.mem_singleton] at hnew
    refine .inr fun _ _ => ⟨0, Nat.zero_le _, ?_⟩
    rw [hnew, ← hirs]
    rfl

/-- A SYN+ACK is not an answer yet, whatever it makes of the receive queue. -/
theorem adopt (h : Inbound irs s r p) (hstate : p.conn.state = .synSent) (seg : TCPSegment) :
    Inbound irs s r (p.put ({ p.conn with
      irs := seg.seq
      recvQueue := .new seg.seq p.conn.cfg.receiveCapacity }.applyPeerOptions seg.options)) where
  le := h.le
  noFin := h.noFin
  waiting := fun _ => h.waiting hstate
  idle := fun _ => ⟨rfl, h.returned_isPrefix⟩
  holds := fun hopen => absurd hopen (not_opened.mpr (.inr (.inr hstate)))
  acks := h.acks

theorem establish (h : Inbound irs s r p)
    (hstate : p.conn.state = .synSent ∧ p.conn.recvQueue = .new irs p.conn.cfg.receiveCapacity ∨
      p.conn.state = .synReceived) (ack : SeqNo) (t : Time) :
    Inbound irs s r (p.put (p.conn.settled ack t)) := by
  have hsettled : (p.conn.settled ack t).finSeq = p.conn.finSeq ∧
      (p.conn.settled ack t).recvQueue = p.conn.recvQueue ∧
      (p.conn.settled ack t).sent = p.conn.sent := by
    unfold settled
    split_ifs
    · exact ⟨rfl, rfl, rfl⟩
    · exact ⟨rfl, rfl, rfl⟩
  obtain ⟨hfin, hrecv, hsent⟩ := hsettled
  have hkeep : ∀ x ∈ (p.conn.settled ack t).sent, x ∈ p.conn.sent ∨ Acks irs r x := by
    rw [hsent]
    exact fun _ => .inl
  rcases hstate with ⟨hst, hnew⟩ | hst
  · exact h.opened hst (.inr rfl) hfin ⟨_, hrecv.trans hnew⟩ hkeep
  · refine h.congr rfl hfin hrecv ?_ (fun hst' => by cases hst') hkeep
    exact ⟨fun _ => .inl hst, fun _ => .inr rfl⟩

theorem push (h : Inbound irs s r p) (hstate : p.conn.state.isSynchronised = true) {payload : Bytes}
    (hne : payload ≠ []) (now : Time) : Inbound irs s r (p.put (p.conn.transmitData payload now)) := by
  have hst := TcpState.ne_of_isSynchronised hstate
  rw [transmitData_eq _ now hne]
  refine h.congr rfl rfl rfl Iff.rfl (fun hst' => absurd hst' hst.2.2.1) (fun x hx => ?_)
  rcases List.mem_append.mp hx with hold | hnew
  · exact .inl hold
  · rw [List.mem_singleton] at hnew
    exact .inr (hnew ▸ h.acks_nxt (.inr hstate) rfl)

theorem resend (h : Inbound irs s r p) (hbasic : p.conn.Basic) {entry : OutstandingSegment}
    (hold : p.conn.retxQueue.oldest = some entry) (now : Time) :
    Inbound irs s r (p.put (p.conn.resend entry now)) := by
  have hmem : entry ∈ p.conn.retxQueue.segments := List.mem_of_mem_head? hold
  have hnew : ∀ x ∈ p.conn.sent ++ [p.conn.resentSegment entry], x ∈ p.conn.sent ∨
      x = p.conn.resentSegment entry := fun x hx =>
    (List.mem_append.mp hx).imp_right List.mem_singleton.mp
  rw [resend_eq]
  refine h.congr rfl rfl rfl Iff.rfl (fun hst => ⟨hst, id, fun x hx => ?_, fun y hy => ?_⟩)
    (fun x hx => ?_)
  · rcases hnew x hx with hsent | rfl
    exacts [.inl hsent, .inr ((h.waiting hst).2.2.2.2 entry hmem)]
  · rcases RetransmitQueue.mem_markRetransmitted hy with hsame | ⟨x, hx, rfl⟩
    · exact ⟨y, hsame, rfl⟩
    · exact ⟨x, hx, rfl⟩
  · rcases hnew x hx with hsent | rfl
    · exact .inl hsent
    · exact .inr (acks_resent hbasic hmem (fun hopen => h.acks_nxt hopen rfl)
        fun hst => (h.waiting hst).2.2.2.2 entry hmem)

/-- A direction without a FIN receives in the synchronised states only. -/
theorem sync_of_receiving (h : Inbound irs s r p) (hstate : p.conn.Receiving) :
    p.conn.state.isSynchronised = true := by
  rcases hstate with hsync | ⟨-, hfin⟩
  · exact hsync
  · exact absurd h.noFin hfin

theorem insert (h : Inbound irs s r p) (hsync : p.conn.state.isSynchronised = true) {payload : Bytes}
    {i : Nat} (hne : payload ≠ []) (hat : At s i payload) (hlen : s.length < 2 ^ 31) :
    ∃ r', r ≤ r' ∧ Inbound irs s r' (p.put { p.conn with
      recvQueue := (p.conn.recvQueue.insert (streamSeq irs i) payload).1 }) := by
  have hend := hat.length_le hne
  have hle := h.le
  have hholds := (h.holds (.inr hsync)).insert (by omega) hat (by omega) (by omega)
  have hr' := Nat.le_add_right r (p.conn.recvQueue.insert (streamSeq irs i) payload).2
  refine ⟨_, hr', ?_⟩
  exact
    { le := hholds.le
      noFin := h.noFin
      waiting := fun hst => absurd hst (TcpState.ne_of_isSynchronised hsync).2.2.1
      idle := fun hno => absurd (.inr hsync) hno
      holds := fun _ => hholds
      acks := fun x hx => (h.acks x hx).mono hr' }

theorem read (h : Inbound irs s r p) (n : Nat) :
    Inbound irs s r { p.put { p.conn with recvQueue := (p.conn.recvQueue.read n).1 } with
      returned := p.returned ++ (p.conn.recvQueue.read n).2 } := by
  by_cases hopen : p.conn.Opened
  · exact
      { le := h.le
        noFin := h.noFin
        waiting := fun hst => absurd hopen (not_opened.mpr (.inr (.inr hst)))
        idle := fun hno => absurd hopen hno
        holds := fun _ => (h.holds hopen).read n
        acks := h.acks }
  · obtain ⟨hbuf, hret⟩ := h.idle hopen
    obtain ⟨hnone, hbuf'⟩ := ReceiveQueue.read_of_buf_nil hbuf n
    have hsame : p.returned ++ (p.conn.recvQueue.read n).2 = p.returned := by
      rw [hnone, List.append_nil]
    exact
      { le := h.le
        noFin := h.noFin
        waiting := by
          rw [hsame]
          exact h.waiting
        idle := by
          rw [hsame]
          exact fun _ => ⟨hbuf', hret⟩
        holds := fun hyes => absurd hyes hopen
        acks := h.acks }

/-- Every action keeps the receiving half in order, as long as every segment that comes in is a piece
of the peer's stream. -/
theorem action {b : Bool} {e : Event} {q q' : Endpoint} (hbasic : q.conn.Basic)
    (h : Inbound irs s r q) (ha : Action b e q q') (hlisten : e ≠ .listen)
    (hconnect : ∀ draw now, e ≠ .connect draw now)
    (hclose : ∀ now, e = .close now → ¬ (q.conn.state = .established ∨ q.conn.state = .closeWait))
    (hseg : ∀ seg, e.inbound = some seg → seg.IsPiece irs s) (hlen : s.length < 2 ^ 31) :
    ∃ r', r ≤ r' ∧ Inbound irs s r' q' := by
  cases ha with
  | quiet hq =>
    refine ⟨r, le_rfl, h.congr rfl hq.finSeq hq.recvQueue ?_ (fun hst => ?_) ?_⟩
    · rw [put_conn, Opened, Opened, hq.state]
    · rw [put_conn, hq.state] at hst
      rw [put_conn, hq.retxQueue]
      refine ⟨hst, hq.delayed, ?_, fun y hy => ⟨y, hy, rfl⟩⟩
      rw [hq.sent]
      exact fun _ => .inl
    · rw [put_conn, hq.sent]
      exact fun _ => .inl
  | ack hstate =>
    have hopen := opened_of_answers hstate fun hst => (h.waiting hst).2.2.1
    refine ⟨r, le_rfl, h.emit (h.acks_nxt hopen rfl) fun hst => ?_⟩
    exact absurd hopen (not_opened.mpr (.inr (.inr hst)))
  | delay t hstate =>
    have hst := TcpState.ne_of_isSynchronised (h.sync_of_receiving hstate)
    refine ⟨r, le_rfl, h.congr rfl rfl rfl Iff.rfl (fun hst' => ?_) (fun _ => .inl)⟩
    exact absurd hst' hst.2.2.1
  | reject _ _ _ hstate =>
    exact ⟨r, le_rfl, h.emit (acks_rejection _ _) (isAck_rejection hstate)⟩
  | listen he => exact absurd he hlisten
  | connect he => exact absurd he (hconnect _ _)
  | fin he hstate =>
    exact absurd (hstate.imp (·.1) (·.1)) (hclose _ he)
  | simultaneousOpen he hstate hsyn =>
    exact ⟨r, le_rfl, h.simultaneousOpen hstate ((hseg _ (he ▸ rfl)).syn hsyn) _⟩
  | adopt he hstate => exact ⟨r, le_rfl, h.adopt hstate _⟩
  | retire t he hack hrst hstate =>
    refine ⟨r, le_rfl, h.congr rfl rfl rfl Iff.rfl (fun hst => ?_) (fun _ => .inl)⟩
    exact absurd hst (TcpState.ne_of_isSynchronised hstate).2.2.1
  | @establish seg _ _ _ t he hack hrst hstate =>
    refine ⟨r, le_rfl, h.establish ?_ seg.ack t⟩
    rcases hstate with ⟨hst, hsyn, hnew⟩ | ⟨hst, -⟩
    · exact .inl ⟨hst, (hseg seg (he ▸ rfl)).syn hsyn ▸ hnew⟩
    · exact .inr hst
  | push payload n now hstate hpeek hne => exact ⟨r, le_rfl, h.push hstate hne now⟩
  | resend now hold => exact ⟨r, le_rfl, h.resend hbasic hold now⟩
  | arm | disarm | write =>
    exact ⟨r, le_rfl, h.congr rfl rfl rfl Iff.rfl
      (fun hst => ⟨hst, id, fun _ => .inl, fun y hy => ⟨y, hy, rfl⟩⟩) (fun _ => .inl)⟩
  | @insert seg _ _ _ he hrst hstate hne =>
    obtain ⟨i, hi, hat⟩ := (hseg seg (he ▸ rfl)).data hne
    rw [hi]
    exact h.insert (h.sync_of_receiving hstate) hne hat hlen
  | @consumeFin seg _ _ _ he _ hfin =>
    have hno : seg.isFin = false := (hseg seg (he ▸ rfl)).noFin
    rw [hno] at hfin
    cases hfin
  | advance _ _ _ hfin => rw [h.noFin] at hfin; cases hfin
  | reset | expire => exact ⟨r, le_rfl, h.teardown rfl rfl rfl (fun _ => .inl)⟩
  | abort =>
    refine ⟨r, le_rfl, h.teardown ?_ ?_ ?_ (fun x hx => ?_)⟩
    · rw [abort_eq]; rfl
    · rw [abort_eq]; split_ifs <;> rfl
    · rw [abort_eq]; rfl
    · rcases mem_sent_abort _ hx with hold | rfl
      · exact .inl hold
      · exact .inr (.of_flags (.inr (show ((FLAG_RST ||| FLAG_ACK) &&& FLAG_RST != 0) = true by decide)))
  | drop _ hstate =>
    have hno : ¬ q.conn.Opened := not_opened.mpr (hstate.imp_right .inl)
    exact ⟨r, le_rfl, h.teardown rfl rfl (h.idle hno).1 (fun _ => .inl)⟩
  | read => exact ⟨r, le_rfl, h.read _⟩

end Inbound

theorem Inbound.step {e : Event} (h : Inbound irs s r p) (hbasic : p.conn.Basic) (he : e.IsStreaming)
    (hseg : ∀ seg, e.inbound = some seg → seg.IsPiece irs s) (hlen : s.length < 2 ^ 31) :
    ∃ r', r ≤ r' ∧ Inbound irs s r' (p.step e) := by
  have hkept : (p.step e).conn.Basic ∧ ∃ r', r ≤ r' ∧ Inbound irs s r' (p.step e) := by
    refine keeps_step (I := fun q => q.conn.Basic ∧ ∃ r', r ≤ r' ∧ Inbound irs s r' q) ?_
      ⟨hbasic, r, le_rfl, h⟩
    rintro q q' ⟨hb, r₁, hr₁, h₁⟩ ha
    obtain ⟨r₂, hr₂, h₂⟩ := h₁.action hb ha he.ne_listen he.ne_connect
      (fun now hnow => absurd hnow (he.ne_close now)) hseg hlen
    exact ⟨hb.action ha, r₂, hr₁.trans hr₂, h₂⟩
  exact hkept.2

end Endpoint

end MiniTcp
