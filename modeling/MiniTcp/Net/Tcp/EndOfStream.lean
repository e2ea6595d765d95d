import MiniTcp.Net.Tcp.FinAck
import MiniTcp.Net.Tcp.Receive

/-!
# After the peer's FIN

A connection that has taken the peer's FIN is at the end of its inbound stream: `recv()` on an empty
buffer reports it as such. `on_segment` does not look at this. It hands payload and FIN on in all seven
synchronised states, so what arrives at `rcv_nxt` after the FIN is taken like anything else.
`ended_iff` says which segments leave the end of the stream where it is: those that bring neither a
byte nor a FIN for `rcv_nxt`, and do not end CLOSING through the disagreement of `FinAck`.
-/

namespace MiniTcp

namespace TCPConnection

variable {c : TCPConnection} {seg : TCPSegment}

/-! ### What a segment is to the connection -/

/-- `on_segment` gets as far as the segment's ACK, payload and FIN. -/
def processes (c : TCPConnection) (seg : TCPSegment) : Bool :=
  c.state.isSynchronised && !seg.isRst && !seg.isSyn && c.acceptable seg

/-- The segment acknowledges our FIN, as `_maybe_advance_after_ack` reads it. -/
def acksFin (c : TCPConnection) (seg : TCPSegment) : Bool :=
  seg.isAck && c.finSeq.any fun finSeq => seqGe seg.ack (seqAdd finSeq 1)

/-- The state once the ACK is processed. -/
def stateAfterAck (c : TCPConnection) (seg : TCPSegment) : TcpState :=
  if c.acksFin seg then
    match c.state with
    | .finWait1 => .finWait2
    | .closing => .timeWait
    | .lastAck => .closed
    | state => state
  else c.state

/-- The receive queue once the ACK is processed: the end of LAST_ACK drops what it held. -/
def queueAfterAck (c : TCPConnection) (seg : TCPSegment) : ReceiveQueue :=
  if c.state = .lastAck ∧ c.acksFin seg = true then c.recvQueue.clear else c.recvQueue

/-- The segment has a FIN that `_handle_fin` finds neither ahead of `rcv_nxt` nor behind it. -/
def finDue (c : TCPConnection) (seg : TCPSegment) : Bool :=
  seg.isFin && !seqGt (seqAdd seg.seq seg.payload.length) c.recvQueue.nxt &&
    !seqLt (seqAdd seg.seq seg.payload.length) c.recvQueue.nxt

/-- The segment has a byte or a FIN for `rcv_nxt`. -/
def BringsMore (c : TCPConnection) (seg : TCPSegment) : Prop :=
  (c.queueAfterAck seg).takesIn seg.seq seg.payload = true ∨ c.finDue seg = true

/-! ### The parts of the data path -/

theorem handleData_recvQueue (c : TCPConnection) (seg : TCPSegment) (now : Time) :
    (c.handleData seg now).recvQueue = (c.recvQueue.insert seg.seq seg.payload).1 := by
  have hack : ∀ (b : TCPConnection) (newly : Nat),
      (b.acknowledgeData newly now).recvQueue = b.recvQueue := by
    intro b newly
    unfold acknowledgeData
    split_ifs
    · split <;> rfl
    · exact (sendFrame_sendAck b now).recvQueue
  unfold handleData
  dsimp only
  split_ifs
  · exact hack _ _
  · exact hack _ _
  · rfl
  · rfl

theorem consumeFin_spec (c : TCPConnection) (now : Time) :
    (c.consumeFin now).recvQueue = { c.recvQueue with nxt := seqAdd c.recvQueue.nxt 1 } ∧
      ((c.consumeFin now).state = .closed ↔ c.state = .closed) := by
  have hframe := sendFrame_sendAck
    { c with recvQueue := { c.recvQueue with nxt := seqAdd c.recvQueue.nxt 1 } } now
  have hrecv := hframe.recvQueue
  have hstate := hframe.state
  unfold consumeFin
  dsimp only at hrecv hstate ⊢
  generalize ({ c with recvQueue := { c.recvQueue with nxt := seqAdd c.recvQueue.nxt 1 } } :
    TCPConnection).sendAck now = d at hrecv hstate ⊢
  rw [← hrecv, ← hstate]
  split_ifs with h1 h2 h3 h4 h5
  · exact ⟨rfl, by simp [h1]⟩
  · exact ⟨rfl, by simp [enterTimeWait, h2]⟩
  · exact ⟨rfl, by simp [h2]⟩
  · exact ⟨rfl, by simp [enterTimeWait, h4]⟩
  · exact ⟨rfl, by simp [enterTimeWait, h5]⟩
  · exact ⟨rfl, Iff.rfl⟩

theorem handleFin_of_not_due (now : Time) (hfin : seg.isFin = true) (hdue : c.finDue seg = false) :
    c.handleFin seg now = c.sendAck now := by
  unfold handleFin
  dsimp only
  unfold finDue at hdue
  rw [hfin, Bool.true_and] at hdue
  cases hgt : seqGt (seqAdd seg.seq seg.payload.length) c.recvQueue.nxt with
  | true => rw [if_pos rfl]
  | false =>
    rw [hgt, Bool.not_false, Bool.true_and, Bool.not_eq_false'] at hdue
    rw [if_neg Bool.false_ne_true, if_pos hdue]

theorem handleFin_of_due (now : Time) (hdue : c.finDue seg = true) :
    c.handleFin seg now = c.consumeFin now := by
  unfold handleFin
  dsimp only
  unfold finDue at hdue
  simp only [Bool.and_eq_true, Bool.not_eq_true'] at hdue
  rw [if_neg (by rw [hdue.1.2]; decide), if_neg (by rw [hdue.2]; decide)]

/-- `_process_ack` and `_maybe_advance_after_ack`, as `on_segment` calls them. -/
def ackProcessed (c : TCPConnection) (seg : TCPSegment) (now : Time) : TCPConnection :=
  (if seg.isAck then c.processAck seg now else c).maybeAdvanceAfterAck seg now

theorem ackProcessed_spec (c : TCPConnection) (seg : TCPSegment) (now : Time) :
    (c.ackProcessed seg now).state = c.stateAfterAck seg ∧
      (c.ackProcessed seg now).recvQueue = c.queueAfterAck seg ∧
      (c.ackProcessed seg now).sndUna =
        if seg.isAck = true ∧ seqGt seg.ack c.sndUna = true then seg.ack else c.sndUna := by
  unfold ackProcessed stateAfterAck queueAfterAck acksFin
  by_cases hack : seg.isAck = true
  swap
  · simp only [hack, Bool.false_eq_true, if_false, Bool.false_and, and_false, false_and]
    unfold maybeAdvanceAfterAck
    split
    · exact ⟨rfl, rfl, rfl⟩
    · rw [if_pos (by simp [hack])]
      exact ⟨rfl, rfl, rfl⟩
  simp only [hack, if_true, Bool.true_and, true_and]
  have hframe := ackFrame_processAck c seg now
  have huna : (c.processAck seg now).sndUna = if seqGt seg.ack c.sndUna then seg.ack else c.sndUna :=
    processAck_una c seg now
  rw [← hframe.state, ← hframe.recvQueue, ← huna, ← hframe.finSeq]
  generalize c.processAck seg now = d
  unfold maybeAdvanceAfterAck
  cases hfin : d.finSeq with
  | none => simp
  | some finSeq =>
    by_cases hge : seqGe seg.ack (seqAdd finSeq 1) = true
    · simp only [hack, hge, Bool.not_true, Bool.false_eq_true, if_false, Option.any_some, if_true]
      cases hst : d.state <;> simp [hst, enterTimeWait, teardown, notify, sndUna, SendQueue.clear]
    · simp [hack, hge]

theorem ackProcessed_finSeq (c : TCPConnection) (seg : TCPSegment) (now : Time) :
    (c.ackProcessed seg now).finSeq = c.finSeq := by
  have hack : (if seg.isAck then c.processAck seg now else c).finSeq = c.finSeq := by
    split_ifs
    · exact (ackFrame_processAck c seg now).finSeq
    · rfl
  rw [← hack]
  unfold ackProcessed maybeAdvanceAfterAck
  split
  · rfl
  · split_ifs <;> rfl

/-- A processed segment: the ACK, then the payload, then the FIN. -/
theorem onSegment_of_processes (srcIp : Option Bytes) (draw : SeqNo) (now : Time)
    (hproc : c.processes seg = true) :
    (c.onSegment seg srcIp draw now).1 =
      (let d := (c.stamp now).ackProcessed seg now
      let d := if seg.payload ≠ [] then d.handleData seg now else d
      if seg.isFin then d.handleFin seg now else d) := by
  unfold processes at hproc
  simp only [Bool.and_eq_true, Bool.not_eq_true'] at hproc
  obtain ⟨⟨⟨hsync, hrst⟩, hsyn⟩, hacc⟩ := hproc
  rw [onSegment_eq_onSynchronised srcIp draw now hsync hrst hsyn]
  unfold onSynchronised
  rw [if_neg (by rw [show (c.stamp now).acceptable seg = c.acceptable seg from rfl, hacc]; decide)]
  rfl

/-- A segment that is not processed closes the connection, or is answered with at most one segment. -/
theorem onSegment_of_not_processes (srcIp : Option Bytes) (draw : SeqNo) (now : Time)
    (hsync : c.state.isSynchronised = true) (hproc : c.processes seg = false) :
    seg.isRst = true ∧ (c.onSegment seg srcIp draw now).1 = (c.stamp now).handleRst ∨
      (c.onSegment seg srcIp draw now).1 = (c.stamp now).reject seg now ∨
      (c.onSegment seg srcIp draw now).1 = (c.stamp now).sendAck now := by
  cases hrst : seg.isRst with
  | true =>
    rw [onSegment_of_rst srcIp draw now (TcpState.ne_of_isSynchronised hsync).1 hrst]
    exact .inl ⟨rfl, rfl⟩
  | false =>
    cases hsyn : seg.isSyn with
    | true => exact .inr (.inl (by rw [onSegment_of_syn srcIp draw now hsync hrst hsyn]))
    | false =>
      have hacc : (c.stamp now).acceptable seg = false := by
        change c.acceptable seg = false
        simpa [processes, hsync, hrst, hsyn] using hproc
      right
      right
      rw [onSegment_eq_onSynchronised srcIp draw now hsync hrst hsyn]
      simp [onSynchronised, hacc, hrst]

/-! ### One segment -/

/-- The end of the inbound stream stays where it is: `rcv_nxt` does not move, nothing becomes readable
(a connection that closes drops what it held), and what changes the state is a reset or the
acknowledgement of our FIN; CLOSING goes to TIME_WAIT only with `snd_una` past our FIN. -/
structure Ended (c : TCPConnection) (seg : TCPSegment) (c' : TCPConnection) : Prop where
  rcvNxt : c'.rcvNxt = c.rcvNxt
  readable : c'.recvQueue.readable =
    if c.state ≠ .closed ∧ c'.state = .closed then [] else c.recvQueue.readable
  state : c'.state ≠ c.state → seg.isRst = true ∨ c.acksFin seg = true
  closing : c.state = .closing → c'.state = .timeWait →
    ∃ finSeq, c.finSeq = some finSeq ∧ seqGe c'.sndUna (seqAdd finSeq 1) = true

/-- The segment leaves the end of the stream where it is: if it is processed, it has nothing for
`rcv_nxt`, and in CLOSING its ACK is not a far one. -/
def KeepsEnd (c : TCPConnection) (seg : TCPSegment) : Prop :=
  c.processes seg = true → ¬ c.BringsMore seg ∧
    (c.state = .closing → seg.isAck = true → ∀ finSeq, c.FinOutstanding finSeq →
      ¬ c.FarAck finSeq seg.ack)

/-- At the end of the stream, or beyond it. -/
def AtEnd (c : TCPConnection) : Prop := c.peerClosed = true ∨ c.state = .closed

theorem synchronised_of_peerClosed (h : c.peerClosed = true) : c.state.isSynchronised = true := by
  simp only [peerClosed, Bool.or_eq_true, decide_eq_true_eq] at h
  rcases h with ((h | h) | h) | h <;> rw [h] <;> rfl

theorem Ended.of_sendFrame {c' : TCPConnection} (h : SendFrame c c') : Ended c seg c' where
  rcvNxt := congrArg (·.nxt) h.recvQueue
  readable := by
    rw [h.recvQueue, h.state]
    exact (if_neg fun hst => hst.1 hst.2).symm
  state := fun hne => absurd h.state hne
  closing := by
    intro hst htw
    rw [h.state, hst] at htw
    cases htw

theorem ended_of_not_processes (srcIp : Option Bytes) (draw : SeqNo) (now : Time) (hend : c.AtEnd)
    (hproc : c.processes seg = false) : Ended c seg (c.onSegment seg srcIp draw now).1 := by
  have hstamp : SendFrame c (c.stamp now) := by constructor <;> rfl
  by_cases hclosed : c.state = .closed
  · rw [onSegment_of_closed srcIp draw now hclosed]
    exact .of_sendFrame (hstamp.trans (sendFrame_reject _ seg now))
  · have hsync := synchronised_of_peerClosed (hend.resolve_right hclosed)
    rcases onSegment_of_not_processes srcIp draw now hsync hproc with ⟨hrst, heq⟩ | heq | heq <;> rw [heq]
    · exact
        { rcvNxt := rfl
          readable := (if_pos ⟨hclosed, rfl⟩).symm
          state := fun _ => .inl hrst
          closing := fun _ htw => (by cases htw) }
    · exact .of_sendFrame (hstamp.trans (sendFrame_reject _ seg now))
    · exact .of_sendFrame (hstamp.trans (sendFrame_sendAck _ now))

/-! What a processed segment does, once its ACK and its payload are dealt with. -/

/-- `d` is the connection between the payload and the FIN. -/
structure PayloadDone (c : TCPConnection) (seg : TCPSegment) (d : TCPConnection) : Prop where
  state : d.state = c.stateAfterAck seg
  una : d.sndUna = if seg.isAck = true ∧ seqGt seg.ack c.sndUna = true then seg.ack else c.sndUna
  recvQueue : d.recvQueue = ((c.queueAfterAck seg).insert seg.seq seg.payload).1

theorem onSegment_payloadDone (srcIp : Option Bytes) (draw : SeqNo) (now : Time)
    (hproc : c.processes seg = true) :
    ∃ d, c.PayloadDone seg d ∧ d.finSeq = c.finSeq ∧
      (c.onSegment seg srcIp draw now).1 = if seg.isFin then d.handleFin seg now else d := by
  rw [onSegment_of_processes srcIp draw now hproc]
  dsimp only
  obtain ⟨hst, hqueue, huna⟩ := (c.stamp now).ackProcessed_spec seg now
  have hfin := (c.stamp now).ackProcessed_finSeq seg now
  by_cases hne : seg.payload ≠ []
  · have hframe := handleData_frame ((c.stamp now).ackProcessed seg now) seg now
    rw [if_pos hne]
    refine ⟨_, ⟨hframe.1.trans hst, ?_, by rw [handleData_recvQueue, hqueue]; rfl⟩,
      hframe.2.1.trans hfin, rfl⟩
    rw [sndUna, hframe.2.2]
    exact huna
  · rw [if_neg hne]
    refine ⟨_, ⟨hst, huna, ?_⟩, hfin, rfl⟩
    rw [ReceiveQueue.insert, if_pos (not_not.mp hne)]
    exact hqueue

theorem stateAfterAck_eq_closed (hopen : c.state ≠ .closed) :
    c.stateAfterAck seg = .closed ↔ c.state = .lastAck ∧ c.acksFin seg = true := by
  unfold stateAfterAck
  split_ifs with hacks
  · cases hst : c.state <;> simp_all
  · simp [hopen, hacks]

theorem queueAfterAck_spec (seg : TCPSegment) (hopen : c.state ≠ .closed) (hwithin : c.recvQueue.Within) :
    (c.queueAfterAck seg).Within ∧ (c.queueAfterAck seg).nxt = c.recvQueue.nxt ∧
      (c.queueAfterAck seg).readable =
        if c.state ≠ .closed ∧ c.stateAfterAck seg = .closed then [] else c.recvQueue.readable := by
  unfold queueAfterAck
  by_cases hlast : c.state = .lastAck ∧ c.acksFin seg = true
  · rw [if_pos hlast, if_pos ⟨hopen, (stateAfterAck_eq_closed hopen).mpr hlast⟩]
    exact ⟨Nat.zero_le _, rfl, rfl⟩
  · rw [if_neg hlast, if_neg fun h => hlast ((stateAfterAck_eq_closed hopen).mp h.2)]
    exact ⟨hwithin, rfl, rfl⟩

theorem handleFin_readable (c : TCPConnection) (seg : TCPSegment) (now : Time)
    (hfin : seg.isFin = true) :
    (c.handleFin seg now).recvQueue.readable = c.recvQueue.readable ∧
      ((c.handleFin seg now).state = .closed ↔ c.state = .closed) := by
  cases hdue : c.finDue seg with
  | true =>
    rw [handleFin_of_due now hdue]
    obtain ⟨hrecv, hst⟩ := c.consumeFin_spec now
    exact ⟨by rw [hrecv]; rfl, hst⟩
  | false =>
    rw [handleFin_of_not_due now hfin hdue]
    have hframe := sendFrame_sendAck c now
    exact ⟨by rw [hframe.recvQueue], by rw [hframe.state]⟩

theorem not_ended_of_finDue {d : TCPConnection} (now : Time)
    (hnxt : d.recvQueue.nxt = c.recvQueue.nxt) (hdue : c.finDue seg = true) :
    ¬ Ended c seg (if seg.isFin then d.handleFin seg now else d) := by
  have hfin : seg.isFin = true := by
    unfold finDue at hdue
    rw [Bool.and_eq_true, Bool.and_eq_true] at hdue
    exact hdue.1.1
  have hdue' : d.finDue seg = true := by
    unfold finDue at hdue ⊢
    rw [hnxt]
    exact hdue
  intro hended
  rw [if_pos hfin, handleFin_of_due now hdue'] at hended
  have hmoved := hended.rcvNxt
  rw [rcvNxt, (d.consumeFin_spec now).1, hnxt, rcvNxt] at hmoved
  exact seqAdd_one_ne _ hmoved

namespace PayloadDone

variable {d : TCPConnection}

theorem not_ended_of_takesIn (h : c.PayloadDone seg d) (now : Time) (hopen : c.state ≠ .closed)
    (hwithin : c.recvQueue.Within)
    (htakes : (c.queueAfterAck seg).takesIn seg.seq seg.payload = true) :
    ¬ Ended c seg (if seg.isFin then d.handleFin seg now else d) := by
  obtain ⟨hwithin', -, hread⟩ := queueAfterAck_spec seg hopen hwithin
  obtain ⟨more, hne, hmore⟩ := hwithin'.insert_of_takesIn htakes
  intro hended
  have hgrown := hended.readable
  have hlast : (if seg.isFin then d.handleFin seg now else d).recvQueue.readable =
      d.recvQueue.readable ∧
      ((if seg.isFin then d.handleFin seg now else d).state = .closed ↔ d.state = .closed) := by
    split_ifs with hfin
    · exact d.handleFin_readable seg now hfin
    · exact ⟨rfl, Iff.rfl⟩
  rw [hlast.1, h.recvQueue, hmore, hread] at hgrown
  simp only [hlast.2, h.state] at hgrown
  exact hne (List.append_right_eq_self.mp hgrown)

theorem queue_of_not_takesIn (h : c.PayloadDone seg d) (hopen : c.state ≠ .closed)
    (hwithin : c.recvQueue.Within) (htakes : (c.queueAfterAck seg).takesIn seg.seq seg.payload = false) :
    d.recvQueue.nxt = c.recvQueue.nxt ∧ d.recvQueue.readable =
      if c.state ≠ .closed ∧ c.stateAfterAck seg = .closed then [] else c.recvQueue.readable := by
  obtain ⟨hwithin', hnxt, hread⟩ := queueAfterAck_spec seg hopen hwithin
  obtain ⟨hnxt', hread'⟩ := hwithin'.insert_of_not_takesIn htakes
  rw [h.recvQueue, hnxt', hread', hnxt, hread]
  exact ⟨rfl, rfl⟩

theorem ended_iff_ack (h : c.PayloadDone seg d) (now : Time)
    (hnxt : d.recvQueue.nxt = c.recvQueue.nxt) (hread : d.recvQueue.readable =
      if c.state ≠ .closed ∧ c.stateAfterAck seg = .closed then [] else c.recvQueue.readable)
    (hdue : c.finDue seg = false) :
    Ended c seg (if seg.isFin then d.handleFin seg now else d) ↔
      (c.state = .closing → seg.isAck = true → ∀ finSeq, c.FinOutstanding finSeq →
        ¬ c.FarAck finSeq seg.ack) := by
  have hframe : SendFrame d (if seg.isFin then d.handleFin seg now else d) := by
    split_ifs with hfin
    · rw [handleFin_of_not_due now hfin (by unfold finDue at hdue ⊢; rw [hnxt]; exact hdue)]
      exact sendFrame_sendAck d now
    · exact .refl d
  generalize (if seg.isFin then d.handleFin seg now else d) = d' at hframe ⊢
  have hst : d'.state = c.stateAfterAck seg := hframe.state.trans h.state
  have huna : d'.sndUna =
      if seg.isAck = true ∧ seqGt seg.ack c.sndUna = true then seg.ack else c.sndUna :=
    hframe.una.trans h.una
  constructor
  · intro hended hclosing hack finSeq hout hfar
    have hge := hout.ge_of_far hfar
    have hacks : c.acksFin seg = true := by simp [acksFin, hack, hout.1, hge]
    have htw : d'.state = .timeWait := by rw [hst, stateAfterAck, if_pos hacks, hclosing]
    obtain ⟨f, hf, hpast⟩ := hended.closing hclosing htw
    obtain rfl : finSeq = f := Option.some.inj (hout.1.symm.trans hf)
    rw [huna, if_neg fun h => (hout.ahead_iff hge).mp h.2 hfar, hout.2] at hpast
    cases hpast
  · intro hack
    refine ⟨?_, ?_, ?_, ?_⟩
    · rw [rcvNxt, hframe.recvQueue, hnxt, rcvNxt]
    · rw [hframe.recvQueue, hread, hst]
    · intro hne
      rw [hst, stateAfterAck] at hne
      split_ifs at hne with hacks
      · exact .inr hacks
      · exact absurd rfl hne
    · intro hclosing htw
      have hacks : c.acksFin seg = true := by
        by_contra hno
        rw [hst, stateAfterAck, if_neg hno, hclosing] at htw
        cases htw
      simp only [acksFin, Bool.and_eq_true, Option.any_eq_true] at hacks
      obtain ⟨hisAck, finSeq, hfin, hge⟩ := hacks
      refine ⟨finSeq, hfin, ?_⟩
      rw [huna]
      split_ifs with hahead
      · exact hge
      · by_contra hbehind
        have hout : c.FinOutstanding finSeq := ⟨hfin, by simpa using hbehind⟩
        exact hahead ⟨hisAck, (hout.ahead_iff hge).mpr (hack hclosing hisAck finSeq hout)⟩

end PayloadDone

/-- A segment that is processed leaves the end of the stream where it is exactly when it has nothing for
`rcv_nxt` and its ACK does not end CLOSING too early. -/
theorem ended_iff_of_processes (srcIp : Option Bytes) (draw : SeqNo) (now : Time)
    (hpeer : c.peerClosed = true) (hwithin : c.recvQueue.Within) (hproc : c.processes seg = true) :
    Ended c seg (c.onSegment seg srcIp draw now).1 ↔ ¬ c.BringsMore seg ∧
      (c.state = .closing → seg.isAck = true → ∀ finSeq, c.FinOutstanding finSeq →
        ¬ c.FarAck finSeq seg.ack) := by
  have hopen := (TcpState.ne_of_isSynchronised (synchronised_of_peerClosed hpeer)).1
  obtain ⟨d, hdone, -, heq⟩ := onSegment_payloadDone srcIp draw now hproc
  rw [heq]
  unfold BringsMore
  cases htakes : (c.queueAfterAck seg).takesIn seg.seq seg.payload with
  | true => exact iff_of_false (hdone.not_ended_of_takesIn now hopen hwithin htakes) (by simp)
  | false =>
    obtain ⟨hnxt, hread⟩ := hdone.queue_of_not_takesIn hopen hwithin htakes
    cases hdue : c.finDue seg with
    | true => exact iff_of_false (not_ended_of_finDue now hnxt hdue) (by simp)
    | false =>
      rw [hdone.ended_iff_ack now hnxt hread hdue]
      simp

theorem ended_iff (srcIp : Option Bytes) (draw : SeqNo) (now : Time) (hend : c.AtEnd)
    (hwithin : c.recvQueue.Within) : Ended c seg (c.onSegment seg srcIp draw now).1 ↔ c.KeepsEnd seg := by
  unfold KeepsEnd
  cases hproc : c.processes seg with
  | false =>
    exact iff_of_true (ended_of_not_processes srcIp draw now hend hproc) fun h => (by cases h)
  | true =>
    have hpeer : c.peerClosed = true := by
      refine hend.resolve_right fun hclosed => ?_
      simp [processes, hclosed, TcpState.isSynchronised] at hproc
    rw [ended_iff_of_processes srcIp draw now hpeer hwithin hproc]
    simp

end TCPConnection

/-! ### Runs -/

namespace Endpoint

open TCPConnection

variable {r : Bool} {e : Event} {p q q' : Endpoint}

theorem within_action (h : q.conn.recvQueue.Within) (ha : Action r e q q') : q'.conn.recvQueue.Within := by
  cases ha with
  | quiet hq => exact hq.recvQueue.symm ▸ h
  | connect _ hconn =>
    obtain ⟨-, rfl⟩ := connect_eq hconn
    exact le_rfl
  | simultaneousOpen =>
    rw [handleSimultaneousOpen_eq]
    exact le_rfl
  | adopt => exact le_rfl
  | establish t =>
    unfold settled
    split_ifs <;> exact h
  | push payload n now _ _ hne =>
    rw [transmitData_eq _ now hne]
    exact h
  | resend now =>
    rw [resend_eq]
    exact h
  | fin =>
    rw [sendFin_eq]
    exact h
  | insert => exact h.insert _ _
  | @consumeFin _ _ _ now =>
    rw [put_conn, (finTaken_spec q.conn now).2.2.2.2.2.1]
    exact h
  | advance =>
    unfold finAcknowledged
    split
    · exact h
    · exact h
    · exact Nat.zero_le _
  | reset | expire => exact Nat.zero_le _
  | abort =>
    rw [abort_eq]
    exact Nat.zero_le _
  | read => exact h.read _
  | _ => exact h

theorem within_of_reachable (hp : endpoint.Reachable p) : p.conn.recvQueue.Within := by
  refine reachable_induction (I := fun p => p.conn.recvQueue.Within) ?_
    (fun _ _ _ => within_action) hp
  rintro q (⟨cfg, rfl⟩ | ⟨cfg, seg, draw, now, -, -, rfl⟩)
  · exact le_rfl
  · rw [passive, beginPassiveOpen_eq]
    exact le_rfl

theorem atEnd_action (hseg : e.inbound.isSome = true) (h : q.conn.AtEnd) (ha : Action r e q q') :
    q'.conn.AtEnd := by
  have hnot : q.conn.state ≠ .synSent ∧ q.conn.state ≠ .synReceived ∧ q.conn.state ≠ .finWait1 ∧
      q.conn.state ≠ .established ∧ q.conn.state ≠ .finWait2 := by
    unfold AtEnd peerClosed at h
    cases hst : q.conn.state <;> simp [hst] at h ⊢
  have hcongr : ∀ {d : TCPConnection}, d.state = q.conn.state → d.AtEnd := by
    intro d hst
    unfold AtEnd peerClosed at h ⊢
    rw [hst]
    exact h
  cases ha with
  | quiet hq => exact hcongr hq.state
  | simultaneousOpen _ hstate => exact absurd hstate hnot.1
  | adopt _ hstate => exact absurd hstate hnot.1
  | establish t _ _ _ hstate => exact absurd hstate (not_or.mpr ⟨fun h => hnot.1 h.1, fun h => hnot.2.1 h.1⟩)
  | push payload n now _ _ hne =>
    rw [transmitData_eq _ now hne]
    exact hcongr rfl
  | resend now =>
    rw [resend_eq]
    exact hcongr rfl
  | @consumeFin _ _ _ now =>
    unfold finTaken
    dsimp only
    split
    · rename_i hst
      exact absurd hst hnot.2.2.2.1
    · rename_i hst
      exact absurd hst hnot.2.2.1
    · rename_i hst
      exact absurd hst hnot.2.2.2.2
    · exact .inl rfl
    · exact hcongr rfl
  | advance =>
    unfold finAcknowledged
    split
    · rename_i hst
      exact absurd hst hnot.2.2.1
    · exact .inl rfl
    · exact .inr rfl
  | reset => exact .inr rfl
  | listen he | connect he | fin he | expire he | drop he | write he | read he =>
    rw [he] at hseg
    cases hseg
  | abort he =>
    rcases he with he | ⟨he, -⟩
    · rw [he] at hseg
      cases hseg
    · rw [he] at hseg
      cases hseg
  | _ => exact hcongr rfl

/-- The segment an event brings in, if any, leaves the end of the stream where it is. -/
def StreamEnded (p : Endpoint) (e : Event) : Prop :=
  ∀ seg, e.inbound = some seg → Ended p.conn seg (p.step e).conn

/-- The segment an event brings in, if any, has nothing for `rcv_nxt`. -/
def NothingMore (p : Endpoint) (e : Event) : Prop := ∀ seg, e.inbound = some seg → p.conn.KeepsEnd seg

/-- Over any sequence of inbound segments after the peer's FIN, every one leaves the end of the stream
where it is exactly when every one has nothing for `rcv_nxt`. -/
theorem streamEnded_iff (hp : endpoint.Reachable p) (hpeer : p.conn.peerClosed = true) {es : List Event}
    (hes : ∀ e ∈ es, e.inbound.isSome = true) :
    endpoint.Meets StreamEnded p es ↔ endpoint.Meets NothingMore p es := by
  refine endpoint.meets_iff_meets (E := fun _ e => e.inbound.isSome = true)
    (Q := fun q => q.conn.AtEnd ∧ q.conn.recvQueue.Within) ?_ ?_ ?_ ⟨.inl hpeer, within_of_reachable hp⟩
  · rintro q e ⟨hend, hwithin⟩ hseg -
    exact keeps_step (I := fun q => q.conn.AtEnd ∧ q.conn.recvQueue.Within)
      (fun _ _ h ha => ⟨atEnd_action hseg h.1 ha, within_action h.2 ha⟩) ⟨hend, hwithin⟩
  · rintro q e ⟨hend, hwithin⟩ -
    unfold StreamEnded NothingMore
    refine forall_congr' fun seg => imp_congr_right fun hin => ?_
    cases e with
    | segment seg' srcIp draw now =>
      obtain rfl := Option.some.inj hin
      exact ended_iff srcIp draw now hend hwithin
    | _ => cases hin
  · exact (endpoint.meets_const p es).mpr hes

theorem rcvNxt_of_streamEnded {es : List Event} (hes : ∀ e ∈ es, e.inbound.isSome = true)
    (h : endpoint.Meets StreamEnded p es) : (endpoint.run p es).conn.rcvNxt = p.conn.rcvNxt := by
  have hboth := (endpoint.meets_and p es).mpr ⟨h, (endpoint.meets_const p es).mpr hes⟩
  refine endpoint.run_induction (P := fun q => q.conn.rcvNxt = p.conn.rcvNxt) ?_ rfl hboth
  rintro q e hq ⟨hended, hseg⟩
  obtain ⟨seg, hin⟩ := Option.isSome_iff_exists.mp hseg
  apply (hended seg hin).rcvNxt.trans hq

/-- The peer's FIN. -/
def peerFin : TCPSegment :=
  { srcPort := 2000, dstPort := 1000, seq := 501, ack := 101, flags := FLAG_ACK ||| FLAG_FIN, window := 1000 }

/-- A client whose peer has closed. -/
def halfClosed : Endpoint := endpoint.run establishedClient [.segment peerFin none 0 0]

theorem reachable_halfClosed : endpoint.Reachable halfClosed :=
  reachable_establishedClient.run endpoint (endpoint.meets_true _ _)

/-- An ACK of nothing new, numbered like the byte after the FIN. -/
def ackAfterFin : TCPSegment :=
  { srcPort := 2000, dstPort := 1000, seq := 502, ack := 101, flags := FLAG_ACK, window := 500 }

/-- An ACK, and then the FIN again. -/
theorem streamEnded_of_old_fin :
    endpoint.Reachable halfClosed ∧ halfClosed.conn.peerClosed = true ∧
      halfClosed.conn.processes ackAfterFin = true ∧
      endpoint.Meets StreamEnded halfClosed
        [.segment ackAfterFin none 0 0, .segment peerFin none 0 0] := by
  refine ⟨reachable_halfClosed, by decide, by decide,
    (streamEnded_iff reachable_halfClosed (by decide) (by decide)).mpr ⟨?_, ?_, trivial⟩⟩
  · intro seg hin
    obtain rfl := Option.some.inj hin
    refine fun _ => ⟨?_, fun hclosing => absurd hclosing (by decide)⟩
    unfold BringsMore
    decide
  · intro seg hin
    obtain rfl := Option.some.inj hin
    exact fun hproc => absurd hproc (by decide)

/-- A byte numbered like the one after the FIN. -/
def byteAfterFin : TCPSegment :=
  { srcPort := 2000, dstPort := 1000, seq := 502, ack := 101, flags := FLAG_ACK, window := 1000,
    payload := [7] }

/-- A second FIN, after the first. -/
def secondFin : TCPSegment :=
  { srcPort := 2000, dstPort := 1000, seq := 502, ack := 101, flags := FLAG_ACK ||| FLAG_FIN, window := 1000 }

/-- A byte after the FIN moves `rcv_nxt` and can be read, and a second FIN takes a connection whose own
FIN is not acknowledged from CLOSING to TIME_WAIT. -/
theorem stream_goes_on :
    endpoint.Reachable halfClosed ∧ halfClosed.conn.state = .closeWait ∧
      ¬ StreamEnded halfClosed (.segment byteAfterFin none 0 0) ∧
      (halfClosed.step (.segment byteAfterFin none 0 0)).conn.rcvNxt ≠ halfClosed.conn.rcvNxt ∧
      (halfClosed.step (.segment byteAfterFin none 0 0)).conn.recvQueue.readable = [7] ∧
      (let closing := endpoint.run establishedClient [.close 0, .segment peerFin none 0 0]
      closing.conn.state = .closing ∧
        (closing.step (.segment secondFin none 0 0)).conn.state = .timeWait ∧
        seqGe (closing.step (.segment secondFin none 0 0)).conn.sndUna 102 = false) := by
  refine ⟨reachable_halfClosed, by decide, fun h => ?_, by decide, by decide, by decide, by decide,
    by decide⟩
  exact absurd (h byteAfterFin rfl).rcvNxt (by decide)

end Endpoint

end MiniTcp
