import MiniTcp.Net.Tcp.ActionStep

/-!
# What the sending methods do, field by field

The methods that put a segment into the log and into the retransmission queue, written out as one
record update each. Everything after this module reasons about the fields and no longer unfolds
`transmit`.
-/

namespace MiniTcp

namespace RetransmitQueue

/-- The queue after `add`, whether or not the entry fitted. -/
def added (q : RetransmitQueue) (seq : SeqNo) (flags : Flags) (payload : Bytes) (now : Time) :
    RetransmitQueue :=
  (q.add seq flags payload now).getD q

variable {q : RetransmitQueue} {seq : SeqNo} {flags : Flags} {payload : Bytes} {now : Time}

theorem add_eq_some (h : q.bytesOutstanding + payload.length ≤ q.capacity) :
    q.add seq flags payload now = some { q with
      segments := q.segments ++
        [{ seq := seq, flags := flags, payload := payload, sentAt := now }] } := by
  rw [add, if_neg (by omega)]

@[simp] theorem added_capacity : (q.added seq flags payload now).capacity = q.capacity := by
  unfold added add
  split_ifs <;> rfl

theorem added_cases (q : RetransmitQueue) (seq : SeqNo) (flags : Flags) (payload : Bytes)
    (now : Time) : (q.add seq flags payload now = none ∧ q.added seq flags payload now = q) ∨
    ((q.add seq flags payload now).isSome ∧ q.bytesOutstanding + payload.length ≤ q.capacity ∧
      (q.added seq flags payload now).segments = q.segments ++
        [{ seq := seq, flags := flags, payload := payload, sentAt := now }]) := by
  unfold added
  by_cases h : q.bytesOutstanding + payload.length ≤ q.capacity
  · rw [add_eq_some h]
    exact .inr ⟨rfl, h, rfl⟩
  · rw [add, if_pos (by omega)]
    exact .inl ⟨rfl, rfl⟩

@[simp] theorem acknowledge_capacity (ack : SeqNo) : (q.acknowledge ack).1.capacity = q.capacity := rfl

@[simp] theorem markRetransmitted_capacity : (q.markRetransmitted now).capacity = q.capacity := by
  unfold markRetransmitted
  split <;> rfl

@[simp] theorem markRetransmitted_eq_nil :
    (q.markRetransmitted now).segments = [] ↔ q.segments = [] := by
  unfold markRetransmitted
  split
  · rfl
  · rename_i h
    simp [h]

theorem mem_markRetransmitted {y : OutstandingSegment}
    (h : y ∈ (q.markRetransmitted now).segments) :
    y ∈ q.segments ∨ ∃ x ∈ q.segments, y = x.retransmitted now := by
  unfold markRetransmitted at h
  split at h
  · exact .inl h
  · rename_i entry rest hsegs
    rw [hsegs]
    rcases List.mem_cons.mp h with rfl | hrest
    · exact .inr ⟨entry, List.mem_cons_self, rfl⟩
    · exact .inl (List.mem_cons_of_mem _ hrest)

end RetransmitQueue

/-- The entry under which a transmitted segment is remembered. -/
def TCPSegment.entry (seg : TCPSegment) (now : Time) : OutstandingSegment :=
  { seq := seg.seq, flags := seg.flags, payload := seg.payload, sentAt := now }

@[simp] theorem TCPSegment.entry_seqLen (seg : TCPSegment) (now : Time) :
    (seg.entry now).seqLen = seg.seqLen := rfl

@[simp] theorem TCPSegment.entry_seqEnd (seg : TCPSegment) (now : Time) :
    (seg.entry now).seqEnd = seg.seqEnd := rfl

namespace TCPConnection

variable (c : TCPConnection)

/-- `c` with a segment handed out and remembered. -/
def tracking (seg : TCPSegment) (now : Time) : TCPConnection :=
  { c with
    segmentsSent := c.segmentsSent + 1
    bytesSent := c.bytesSent + seg.payload.length
    sent := c.sent ++ [seg]
    retxQueue := c.retxQueue.added seg.seq seg.flags seg.payload now
    untracked := if (c.retxQueue.add seg.seq seg.flags seg.payload now).isSome then c.untracked
      else c.untracked ++ [seg]
    retransmitAt :=
      if (c.retxQueue.added seg.seq seg.flags seg.payload now).segments = [] then none
      else some (now + c.rto.rto) }

theorem mem_tracking (c : TCPConnection) (x : TCPSegment) (now : Time) :
    (∀ y ∈ (c.tracking x now).sent, y ∈ c.sent ∨ y = x) ∧
      ∀ y ∈ (c.tracking x now).retxQueue.segments, y ∈ c.retxQueue.segments ∨
        y.seq = x.seq ∧ y.flags = x.flags ∧ y.payload = x.payload := by
  constructor
  · intro y hy
    exact (List.mem_append.mp hy).imp_right List.mem_singleton.mp
  · intro y hy
    rcases RetransmitQueue.added_cases c.retxQueue x.seq x.flags x.payload now with
      ⟨-, hsame⟩ | ⟨-, -, hsegs⟩
    · exact .inl (hsame ▸ hy)
    · rw [tracking, hsegs] at hy
      rcases List.mem_append.mp hy with hold | hnew
      · exact .inl hold
      · obtain rfl := List.mem_singleton.mp hnew
        exact .inr ⟨rfl, rfl, rfl⟩

theorem tracking_new {c : TCPConnection} (x : TCPSegment) (now : Time) (hsent : c.sent = [])
    (hretx : c.retxQueue.segments = []) :
    (∀ y ∈ (c.tracking x now).sent, y = x) ∧
      ∀ y ∈ (c.tracking x now).retxQueue.segments, y.seq = x.seq ∧ y.flags = x.flags ∧
        y.payload = x.payload := by
  constructor
  · intro y hy
    rw [tracking, hsent] at hy
    exact List.mem_singleton.mp hy
  · intro y hy
    rcases RetransmitQueue.added_cases c.retxQueue x.seq x.flags x.payload now with
      ⟨-, hsame⟩ | ⟨-, -, hsegs⟩
    · rw [tracking, hsame, hretx] at hy
      cases hy
    · rw [tracking, hsegs, hretx] at hy
      obtain rfl := List.mem_singleton.mp hy
      exact ⟨rfl, rfl, rfl⟩

theorem transmit_eq_tracking (seq : SeqNo) {flags : Flags} {payload : Bytes} (now : Time)
    (ack : Option SeqNo) (options : TCPOptions)
    (h : (flags &&& (FLAG_SYN ||| FLAG_FIN) != 0 || payload ≠ []) = true) :
    c.transmit seq flags payload now ack options =
      c.tracking (c.segmentOf seq flags payload (ack.getD c.recvQueue.nxt) options) now := by
  rw [transmit_tracked c seq now ack options h, track_eq]
  rfl

/-- The segment that carries new data. -/
def dataSegment (payload : Bytes) : TCPSegment :=
  c.segmentOf c.sendQueue.nxt (FLAG_ACK ||| FLAG_PSH) payload c.recvQueue.nxt {}

theorem transmitData_eq {payload : Bytes} (now : Time) (hne : payload ≠ []) :
    c.transmitData payload now =
      { c.tracking (c.dataSegment payload) now with
        sendQueue := { c.sendQueue with nxt := seqAdd c.sendQueue.nxt payload.length } } := by
  unfold transmitData
  rw [transmit_eq_tracking c c.sendQueue.nxt now none {} (by simp [hne])]
  rfl

/-- The segment that carries the FIN. -/
def finSegment : TCPSegment :=
  c.segmentOf c.sendQueue.nxt (FLAG_ACK ||| FLAG_FIN) [] c.recvQueue.nxt {}

theorem sendFin_eq (now : Time) :
    c.sendFin now =
      { c.tracking c.finSegment now with
        finSeq := some c.sendQueue.nxt
        sendQueue := { c.sendQueue with nxt := seqAdd c.sendQueue.nxt 1 } } := by
  unfold sendFin
  dsimp only
  rw [transmit_eq_tracking _ c.sendQueue.nxt now none {} (by decide)]
  rfl

/-- The SYN+ACK that answers `seg`. -/
def synAckSegment (seg : TCPSegment) : TCPSegment :=
  c.segmentOf c.iss (FLAG_SYN ||| FLAG_ACK) [] (seqAdd seg.seq 1) c.synOptions

/-- The connection that has taken the peer's initial number and options from `seg`. -/
def adopted (seg : TCPSegment) : TCPConnection :=
  { c with
    irs := seg.seq
    recvQueue := .new seg.seq c.cfg.receiveCapacity }.applyPeerOptions seg.options

theorem handleSimultaneousOpen_eq (seg : TCPSegment) (now : Time) :
    c.handleSimultaneousOpen seg now =
      { (c.adopted seg).tracking ((c.adopted seg).synAckSegment seg) now with
        peerWindow := seg.window
        state := .synReceived } := by
  unfold handleSimultaneousOpen
  dsimp only
  rw [transmit_eq_tracking _ _ now _ _ (by decide)]
  rfl

/-- A connection as `_begin_passive_open` has it before the SYN+ACK goes out. -/
def answering (seg : TCPSegment) (draw : SeqNo) : TCPConnection :=
  { c with
    irs := seg.seq
    iss := c.chooseIss draw
    sendQueue := .new (c.chooseIss draw) c.cfg.sendCapacity
    recvQueue := .new seg.seq c.cfg.receiveCapacity
    reno := .new c.cfg.mss none none
    peerWindow := seg.window }.applyPeerOptions seg.options

theorem beginPassiveOpen_eq (seg : TCPSegment) (draw : SeqNo) (now : Time) :
    c.beginPassiveOpen seg draw now =
      { (c.answering seg draw).tracking ((c.answering seg draw).synAckSegment seg) now with
        sendQueue := { SendQueue.new (c.chooseIss draw) c.cfg.sendCapacity with
          nxt := seqAdd (c.chooseIss draw) 1 }
        state := .synReceived } := by
  unfold beginPassiveOpen
  dsimp only
  rw [transmit_eq_tracking _ _ now _ _ (by decide)]
  rfl

/-- A connection as `connect` has it before the SYN goes out. -/
def opening (draw : SeqNo) : TCPConnection :=
  { c with
    iss := c.chooseIss draw
    sendQueue := .new (c.chooseIss draw) c.cfg.sendCapacity
    recvQueue := .new 0 c.cfg.receiveCapacity
    reno := .new c.cfg.mss none none }

/-- The SYN of an active open. -/
def synSegment : TCPSegment := c.segmentOf c.iss FLAG_SYN [] c.recvQueue.nxt c.synOptions

theorem connect_eq {c : TCPConnection} {draw : SeqNo} {now : Time} {c' : TCPConnection}
    (h : c.connect draw now = .ok c') : c.state = .closed ∧
      c' = { (c.opening draw).tracking (c.opening draw).synSegment now with
        sendQueue := { SendQueue.new (c.chooseIss draw) c.cfg.sendCapacity with
          nxt := seqAdd (c.chooseIss draw) 1 }
        state := .synSent
        synSentAt := some now } := by
  unfold connect at h
  split_ifs at h with hstate
  · refine ⟨not_not.mp hstate, ?_⟩
    dsimp only at h
    rw [transmit_eq_tracking _ _ now _ _ (by decide)] at h
    exact (Except.ok.inj h).symm

/-- The segment a resend of `entry` hands out. -/
def resentSegment (entry : OutstandingSegment) : TCPSegment :=
  c.segmentOf entry.seq entry.flags entry.payload c.recvQueue.nxt {}

theorem resend_eq (entry : OutstandingSegment) (now : Time) :
    c.resend entry now =
      { c with
        retransmissions := c.retransmissions + 1
        retxQueue := c.retxQueue.markRetransmitted now
        segmentsSent := c.segmentsSent + 1
        bytesSent := c.bytesSent + entry.payload.length
        sent := c.sent ++ [c.resentSegment entry] } := by
  unfold resend
  rw [transmit_untracked _ _ _ _ _ (by rfl)]
  rfl

/-! ### The sequence space of what is sent -/

theorem dataSegment_seqLen (payload : Bytes) : (c.dataSegment payload).seqLen = payload.length := by
  have hsyn : ((FLAG_ACK ||| FLAG_PSH) &&& FLAG_SYN != 0) = false := by decide
  have hfin : ((FLAG_ACK ||| FLAG_PSH) &&& FLAG_FIN != 0) = false := by decide
  simp only [TCPSegment.seqLen, TCPSegment.isSyn, TCPSegment.isFin, dataSegment, segmentOf, hsyn, hfin,
    Bool.false_eq_true, if_false, Nat.add_zero]

theorem finSegment_seqLen : c.finSegment.seqLen = 1 := by
  have hsyn : ((FLAG_ACK ||| FLAG_FIN) &&& FLAG_SYN != 0) = false := by decide
  have hfin : ((FLAG_ACK ||| FLAG_FIN) &&& FLAG_FIN != 0) = true := by decide
  simp only [TCPSegment.seqLen, TCPSegment.isSyn, TCPSegment.isFin, finSegment, segmentOf, hsyn, hfin,
    Bool.false_eq_true, if_false, if_true, List.length_nil]

theorem synSegment_seqLen : c.synSegment.seqLen = 1 := by
  have hsyn : (FLAG_SYN &&& FLAG_SYN != 0) = true := by decide
  have hfin : (FLAG_SYN &&& FLAG_FIN != 0) = false := by decide
  simp only [TCPSegment.seqLen, TCPSegment.isSyn, TCPSegment.isFin, synSegment, segmentOf, hsyn, hfin,
    Bool.false_eq_true, if_false, if_true, List.length_nil]

theorem synAckSegment_seqLen (seg : TCPSegment) : (c.synAckSegment seg).seqLen = 1 := by
  have hsyn : ((FLAG_SYN ||| FLAG_ACK) &&& FLAG_SYN != 0) = true := by decide
  have hfin : ((FLAG_SYN ||| FLAG_ACK) &&& FLAG_FIN != 0) = false := by decide
  simp only [TCPSegment.seqLen, TCPSegment.isSyn, TCPSegment.isFin, synAckSegment, segmentOf, hsyn, hfin,
    Bool.false_eq_true, if_false, if_true, List.length_nil]

/-- The segment `abort` sends. -/
def abortSegment : TCPSegment :=
  c.segmentOf c.sendQueue.nxt (FLAG_RST ||| FLAG_ACK) [] c.recvQueue.nxt {}

theorem abort_eq (now : Time) :
    c.abort now = ((if c.state ≠ .closed ∧ c.state ≠ .listen then c.emit c.abortSegment
      else c).teardown).notify .closed := by
  unfold abort
  rw [transmit_untracked _ _ _ _ _ (by decide)]
  rfl

theorem mem_sent_abort {now : Time} {x : TCPSegment} (h : x ∈ (c.abort now).sent) :
    x ∈ c.sent ∨ x = c.abortSegment := by
  rw [abort_eq] at h
  split_ifs at h
  · exact (List.mem_append.mp h).imp_right List.mem_singleton.mp
  · exact .inl h

theorem send_ok {data : Bytes} {now : Time} {r : TCPConnection × Nat} (h : c.send data now = .ok r) :
    (c.state = .established ∨ c.state = .closeWait) ∧ (r = (c, 0) ∨
      (c.sendQueue.write data).2 ≠ 0 ∧
        r = ({ c with sendQueue := (c.sendQueue.write data).1 }.flush now,
          (c.sendQueue.write data).2)) := by
  unfold send at h
  by_cases hcan : c.canSend = true
  · have hstate : c.state = .established ∨ c.state = .closeWait := by
      simpa [canSend, Classical.or_iff_not_imp_left] using hcan
    refine ⟨hstate, ?_⟩
    rw [if_neg (by simp [hcan])] at h
    by_cases hdata : data = []
    · rw [if_pos hdata] at h
      exact .inl (Except.ok.inj h).symm
    · rw [if_neg hdata] at h
      have hspec := (c.sendQueue.write_spec data).1
      rcases hwrite : c.sendQueue.write data with ⟨queue, written⟩
      rw [hwrite] at h hspec
      obtain rfl := Except.ok.inj h
      by_cases hwritten : written = 0
      · refine .inl (Prod.ext ((if_neg (not_not.mpr hwritten)).trans ?_) hwritten)
        dsimp only at hspec
        rw [hspec, hwritten, List.take_zero, List.append_nil, Nat.add_zero]
      · exact .inr ⟨hwritten, Prod.ext (if_pos hwritten) rfl⟩
  · rw [if_pos (by simpa using hcan)] at h
    cases h

/-- Taking the peer's FIN leaves the sending side alone, except that TIME_WAIT stops retransmitting. -/
theorem finTaken_spec (now : Time) :
    (c.finTaken now).sendQueue = c.sendQueue ∧ (c.finTaken now).sent = c.sent ∧
      (c.finTaken now).untracked = c.untracked ∧ (c.finTaken now).iss = c.iss ∧
      (c.finTaken now).finSeq = c.finSeq ∧
      (c.finTaken now).recvQueue = { c.recvQueue with nxt := seqAdd c.recvQueue.nxt 1 } ∧
      ((c.finTaken now).retxQueue = c.retxQueue ∨ (c.finTaken now).state = .timeWait ∧
        (c.finTaken now).retxQueue = c.retxQueue.clear) := by
  unfold finTaken
  dsimp only
  split
  · exact ⟨rfl, rfl, rfl, rfl, rfl, rfl, .inl rfl⟩
  · split_ifs
    · exact ⟨rfl, rfl, rfl, rfl, rfl, rfl, .inr ⟨rfl, rfl⟩⟩
    · exact ⟨rfl, rfl, rfl, rfl, rfl, rfl, .inl rfl⟩
  · exact ⟨rfl, rfl, rfl, rfl, rfl, rfl, .inr ⟨rfl, rfl⟩⟩
  · exact ⟨rfl, rfl, rfl, rfl, rfl, rfl, .inr ⟨rfl, rfl⟩⟩
  · exact ⟨rfl, rfl, rfl, rfl, rfl, rfl, .inl rfl⟩

theorem finTaken_state (now : Time) : (c.finTaken now).state = c.state ∨
    c.state.isSynchronised = true ∧ (c.finTaken now).state.isSynchronised = true := by
  unfold finTaken
  dsimp only
  split
  · rename_i hst
    exact .inr ⟨by rw [hst]; rfl, rfl⟩
  · rename_i hst
    rw [hst]
    split_ifs <;> exact .inr ⟨rfl, rfl⟩
  · rename_i hst
    exact .inr ⟨by rw [hst]; rfl, rfl⟩
  · rename_i hst
    exact .inr ⟨by rw [hst]; rfl, rfl⟩
  · exact .inl rfl

end TCPConnection

end MiniTcp
