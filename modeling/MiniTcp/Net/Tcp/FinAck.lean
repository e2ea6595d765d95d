import MiniTcp.Net.Tcp.Acknowledge

/-!
# Two readings of one acknowledgement number

An ACK that `on_segment` takes in a closing state is read twice. `_process_ack` moves `snd_una` to its
number when that is ahead of `snd_una`; `_maybe_advance_after_ack` takes our FIN for acknowledged when
the same number is at or ahead of the one after the FIN. Each comparison looks half a ring ahead of its
own reference point, so a number just beyond the half that `snd_una` looks at may still lie within the
half that the FIN looks at. `ackPathsAgree_iff` says which numbers these are.
-/

namespace MiniTcp

namespace TCPConnection

variable {c : TCPConnection} {seg : TCPSegment} {finSeq : SeqNo}

/-- Our FIN was sent under `finSeq`, and `snd_una` is not past it. -/
def FinOutstanding (c : TCPConnection) (finSeq : SeqNo) : Prop :=
  c.finSeq = some finSeq ∧ seqGe c.sndUna (seqAdd finSeq 1) = false

/-- The states that the acknowledgement of our FIN ends. -/
def AwaitsFinAck (c : TCPConnection) : Prop :=
  c.state = .finWait1 ∨ c.state = .closing ∨ c.state = .lastAck

/-- Where `on_segment` takes the segment's ACK and `_maybe_advance_after_ack` then changes the state,
`_process_ack` has moved `snd_una` past our FIN. -/
def AckPathsAgree (c : TCPConnection) (seg : TCPSegment) (now : Time) : Prop :=
  c.state.isSynchronised = true → c.takesAck seg = true →
    ((c.processAck seg now).maybeAdvanceAfterAck seg now).state ≠ c.state →
      ∃ finSeq, c.finSeq = some finSeq ∧
        seqGe (c.processAck seg now).sndUna (seqAdd finSeq 1) = true

/-- The ACK number is so far ahead of `snd_una` that it counts as behind it, but less than half the ring
ahead of the number after our FIN. -/
def FarAck (c : TCPConnection) (finSeq ack : SeqNo) : Prop :=
  2 ^ 31 ≤ Serial.gap c.sndUna ack ∧
    Serial.gap c.sndUna ack < 2 ^ 31 + Serial.gap c.sndUna (seqAdd finSeq 1)

theorem FinOutstanding.gap (h : c.FinOutstanding finSeq) :
    0 < Serial.gap c.sndUna (seqAdd finSeq 1) ∧ Serial.gap c.sndUna (seqAdd finSeq 1) ≤ 2 ^ 31 := by
  obtain ⟨-, hge⟩ := h
  rw [← Bool.not_eq_true, seqGe_iff, Serial.le_iff_gap, Serial.gap_from c.sndUna, Serial.gap_self] at hge
  have hlt := Serial.gap_lt c.sndUna (seqAdd finSeq 1)
  split_ifs at hge <;> omega

/-- An ACK number at or ahead of the one after our FIN is also ahead of `snd_una`, unless it is far. -/
theorem FinOutstanding.ahead_iff (h : c.FinOutstanding finSeq) {ack : SeqNo}
    (hge : seqGe ack (seqAdd finSeq 1) = true) :
    seqGt ack c.sndUna = true ↔ ¬ c.FarAck finSeq ack := by
  obtain ⟨hpos, hhalf⟩ := h.gap
  have hlt := Serial.gap_lt c.sndUna ack
  rw [seqGe_iff, Serial.le_iff_gap, Serial.gap_from c.sndUna] at hge
  rw [seqGt_iff, Serial.Lt, FarAck]
  split_ifs at hge <;> omega

theorem FinOutstanding.ge_of_far (h : c.FinOutstanding finSeq) {ack : SeqNo}
    (hfar : c.FarAck finSeq ack) : seqGe ack (seqAdd finSeq 1) = true := by
  obtain ⟨hpos, hhalf⟩ := h.gap
  obtain ⟨hlow, hhigh⟩ := hfar
  rw [seqGe_iff, Serial.le_iff_gap, Serial.gap_from c.sndUna, if_pos (by omega)]
  omega

/-- `_maybe_advance_after_ack` changes the state exactly when the state awaits the acknowledgement of our
FIN and the ACK number is at or past the one after it. -/
theorem maybeAdvanceAfterAck_state (hfin : c.finSeq = some finSeq) (hack : seg.isAck = true)
    (now : Time) : (c.maybeAdvanceAfterAck seg now).state ≠ c.state ↔
      c.AwaitsFinAck ∧ seqGe seg.ack (seqAdd finSeq 1) = true := by
  unfold maybeAdvanceAfterAck AwaitsFinAck
  simp only [hfin, hack, Bool.not_true, Bool.false_eq_true, if_false]
  cases hge : seqGe seg.ack (seqAdd finSeq 1) with
  | false => simp
  | true =>
    cases hst : c.state <;> simp [enterTimeWait, teardown, notify, hst]

/-- With our FIN outstanding, the two paths agree on a segment unless its ACK is taken in a state that
awaits the acknowledgement of the FIN and its number is a far one. -/
theorem ackPathsAgree_iff (h : c.FinOutstanding finSeq) (seg : TCPSegment) (now : Time) :
    c.AckPathsAgree seg now ↔
      ¬ (c.AwaitsFinAck ∧ c.takesAck seg = true ∧ c.FarAck finSeq seg.ack) := by
  have hframe := ackFrame_processAck c seg now
  have hone : (∃ f, c.finSeq = some f ∧ seqGe (c.processAck seg now).sndUna (seqAdd f 1) = true) ↔
      seqGe (c.processAck seg now).sndUna (seqAdd finSeq 1) = true := by
    simp [h.1]
  have hawait : (c.processAck seg now).AwaitsFinAck ↔ c.AwaitsFinAck := by
    rw [AwaitsFinAck, hframe.state, AwaitsFinAck]
  rw [AckPathsAgree, hone]
  by_cases htakes : c.takesAck seg = true
  swap
  · simp [htakes]
  have hack : seg.isAck = true := by
    unfold takesAck at htakes
    rw [Bool.and_eq_true, Bool.and_eq_true] at htakes
    exact htakes.1.1
  have hstate := maybeAdvanceAfterAck_state (hframe.finSeq.trans h.1) hack now
  rw [hframe.state, hawait] at hstate
  rw [hstate]
  have huna : (c.processAck seg now).sndUna = if seqGt seg.ack c.sndUna then seg.ack else c.sndUna :=
    processAck_una c seg now
  constructor
  · rintro hagree ⟨hst, -, hfar⟩
    have hge := h.ge_of_far hfar
    have hbehind : seqGt seg.ack c.sndUna = false := by
      rw [← Bool.not_eq_true, h.ahead_iff hge]
      exact not_not.mpr hfar
    have hsync : c.state.isSynchronised = true := by
      rcases hst with hst | hst | hst <;> rw [hst] <;> rfl
    have hpast := hagree hsync htakes ⟨hst, hge⟩
    rw [huna, hbehind, if_neg Bool.false_ne_true, h.2] at hpast
    cases hpast
  · rintro hno - - ⟨hst, hge⟩
    have hahead := (h.ahead_iff hge).mpr fun hfar => hno ⟨hst, htakes, hfar⟩
    rw [huna, if_pos hahead]
    exact hge

end TCPConnection

namespace Endpoint

open TCPConnection

/-- A client that sent three bytes and its FIN, none of them acknowledged. -/
def finSent : Endpoint := endpoint.run establishedClient [.send [1, 2, 3] 0, .close 0]

theorem reachable_finSent : endpoint.Reachable finSent :=
  reachable_establishedClient.run endpoint (endpoint.meets_true _ _)

/-- The ACK of everything the client sent. -/
def finalAck : TCPSegment :=
  { srcPort := 2000, dstPort := 1000, seq := 501, ack := 105, flags := FLAG_ACK, window := 1000 }

theorem finOutstanding_finSent : finSent.conn.FinOutstanding 104 :=
  ⟨by decide, by decide⟩

theorem ackPathsAgree_finalAck :
    finSent.conn.FinOutstanding 104 ∧ finSent.conn.AckPathsAgree finalAck 0 :=
  ⟨finOutstanding_finSent,
    (ackPathsAgree_iff finOutstanding_finSent finalAck 0).mpr fun h => absurd h.2.2.1 (by decide)⟩

/-- An ACK whose number is half the ring ahead of `snd_una`. -/
def halfRingAck : TCPSegment :=
  { srcPort := 2000, dstPort := 1000, seq := 501, ack := 0x80000065, flags := FLAG_ACK, window := 1000 }

/-- The client goes to FIN_WAIT_2 on it, with its data and its FIN still outstanding. -/
theorem halfRingAck_disagrees :
    endpoint.Reachable finSent ∧ finSent.conn.FinOutstanding 104 ∧
      ¬ finSent.conn.AckPathsAgree halfRingAck 0 ∧
      (finSent.step (.segment halfRingAck none 0 0)).conn.state = .finWait2 ∧
      (finSent.step (.segment halfRingAck none 0 0)).conn.sndUna = 101 := by
  refine ⟨reachable_finSent, ⟨by decide, by decide⟩, ?_, by decide, by decide⟩
  intro hagree
  obtain ⟨finSeq, hfin, hpast⟩ := hagree (by decide) (by decide) (by decide)
  obtain rfl : 104 = finSeq := Option.some.inj hfin
  revert hpast
  decide

end Endpoint

end MiniTcp
