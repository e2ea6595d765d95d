import MiniTcp.Net.Tcp.Timing
import MiniTcp.Net.Tcp.Offer

/-!
# Progress and the backoff

An ACK that advances `snd_una` is to cancel the backoff of the retransmission timeout. When every segment it
retires was sent more than once, `recompute` does so. Otherwise the first one that was sent once is measured,
and a new estimate replaces the timeout. But a measurement of zero, which a coarse clock gives for a segment
that is acknowledged within one tick of it, is dropped by `sample` before it sets anything, and nothing calls
`recompute` in its place.
-/

namespace MiniTcp

open TCPConnection

namespace RTOEstimator

variable (e : RTOEstimator)

/-- The timeout without backoff: what the estimate gives, or the initial value before the first sample, within
the bounds. -/
def baseline : Time :=
  match e.srtt with
  | none => min (max DEFAULT_INITIAL_RTO e.minRto) e.maxRto
  | some srtt => min (max (srtt + 4 * e.rttvar.getD 0) e.minRto) e.maxRto

theorem recompute_rto : e.recompute.rto = e.recompute.baseline := by
  unfold recompute baseline
  cases e.srtt <;> simp [clamped]

theorem sample_rto {rtt : Time} (h : 0 < rtt) : (e.sample rtt).rto = (e.sample rtt).baseline := by
  unfold sample baseline
  rw [if_neg (not_le.mpr h)]
  rfl

theorem sample_of_nonpos {rtt : Time} (h : rtt ≤ 0) : e.sample rtt = e := if_pos h

end RTOEstimator

namespace TCPConnection

variable {c d : TCPConnection} {seg : TCPSegment} {now : Time}

/-! ### Which segments advance `snd_una` -/

def KeepsUna (c d : TCPConnection) : Prop := d.sndUna = c.sndUna

theorem KeepsUna.handshaking : Handshaking KeepsUna where
  refl _ := rfl
  trans h h' := h'.trans h
  emit _ _ _ _ _ := rfl
  remember _ _ _ _ := rfl
  nxt _ _ := rfl
  count _ _ := rfl
  persist _ _ := rfl
  relax _ := rfl
  window _ _ := rfl
  stamp _ _ := rfl
  sendAck c now := (sendFrame_sendAck c now).una
  reject c seg now := (sendFrame_reject c seg now).una
  handleRst _ := rfl
  maybeAdvanceAfterAck c seg now := (Trailing.maybeAdvanceAfterAck c seg now).una
  handleData c seg now := (Trailing.handleData c seg now).una
  handleFin c seg now := (Trailing.handleFin c seg now).una
  simultaneousOpen c seg now := by
    rw [handleSimultaneousOpen_eq]
    rfl
  established c now _ := (sendFrame_sendAck c now).una
  completed _ _ := rfl

theorem onSegment_una (c : TCPConnection) (seg : TCPSegment) (srcIp : Option Bytes) (draw : SeqNo)
    (now : Time) : (c.onSegment seg srcIp draw now).1.sndUna =
      if c.takesAck seg && seqGt seg.ack c.sndUna then seg.ack else c.sndUna := by
  have hqueue := (c.ackTaker_spec seg now).1
  rcases KeepsUna.handshaking.onSegment c seg srcIp draw now with ⟨htakes, h⟩ | ⟨htakes, h⟩
  · rw [h, sndUna, processAck_una, hqueue, htakes, Bool.true_and]
    rfl
  · rw [h, htakes, Bool.false_and, if_neg Bool.false_ne_true]

/-! ### The timeout after progress -/

/-- The first segment that the ACK covers and that was sent only once, if there is one, was sent before now. -/
def Measured (c : TCPConnection) (ack : SeqNo) (now : Time) : Prop :=
  ∀ entry, (c.retxQueue.acknowledge ack).2.find? (·.retransmits = 0) = some entry → entry.sentAt < now

theorem estimate_baseline_iff (acked : List OutstandingSegment) :
    (c.estimate acked now).rto = (c.estimate acked now).baseline ↔
      (∀ entry, acked.find? (·.retransmits = 0) = some entry → entry.sentAt < now) ∨
        c.rto.rto = c.rto.baseline := by
  unfold estimate
  cases hfind : acked.find? (·.retransmits = 0) with
  | none => simp [c.rto.recompute_rto]
  | some entry =>
    simp only [Option.some.injEq, forall_eq']
    by_cases hlt : entry.sentAt < now
    · have hpos : 0 < max (now - entry.sentAt) 0 := by
        rw [lt_max_iff, sub_pos]
        exact .inl hlt
      simp [hlt, c.rto.sample_rto hpos]
    · have hzero : max (now - entry.sentAt) 0 ≤ 0 := by
        rw [max_le_iff, sub_nonpos]
        exact ⟨not_lt.mp hlt, le_refl 0⟩
      rw [c.rto.sample_of_nonpos hzero]
      simp [hlt]

/-- After a segment whose ACK advances `snd_una` the timeout is without backoff exactly when the segment that is
measured was sent before now, or nothing was backed off. -/
theorem backoff_cancelled_iff {srcIp : Option Bytes} {draw : SeqNo}
    (hadv : (c.onSegment seg srcIp draw now).1.sndUna ≠ c.sndUna) :
    (c.onSegment seg srcIp draw now).1.rto.rto = (c.onSegment seg srcIp draw now).1.rto.baseline ↔
      c.Measured seg.ack now ∨ c.rto.rto = c.rto.baseline := by
  have hnew : (c.takesAck seg && seqGt seg.ack c.sndUna) = true := by
    by_contra hno
    rw [onSegment_una, if_neg hno] at hadv
    exact hadv rfl
  rw [onSegment_rto, if_pos hnew]
  exact estimate_baseline_iff _

end TCPConnection

namespace Endpoint

/-- A byte that is sent again after a second, and four seconds later a second byte. -/
def lateClient : Endpoint := endpoint.run establishedClient [.send [1] 0, .tick 1, .send [2] 5]

theorem reachable_lateClient : endpoint.Reachable lateClient :=
  reachable_establishedClient.run endpoint (endpoint.meets_true _ _)

/-- The acknowledgement of both. -/
def bothAcked : TCPSegment :=
  { srcPort := 2000, dstPort := 1000, seq := 501, ack := 103, flags := FLAG_ACK, window := 1000 }

/-- A second after the second byte its round trip is measured, and the backoff is gone. -/
theorem backoff_cancelled_lateClient :
    (lateClient.conn.onSegment bothAcked none 0 6).1.sndUna ≠ lateClient.conn.sndUna ∧
      lateClient.conn.rto.rto = 2 ∧
      (lateClient.conn.onSegment bothAcked none 0 6).1.rto.rto =
        (lateClient.conn.onSegment bothAcked none 0 6).1.rto.baseline := by
  refine ⟨by decide +kernel, by decide +kernel, (backoff_cancelled_iff (by decide +kernel)).mpr (.inl ?_)⟩
  intro entry hentry
  have hsent : ((lateClient.conn.retxQueue.acknowledge bothAcked.ack).2.find? (·.retransmits = 0)).map (·.sentAt) =
      some 5 := by decide +kernel
  rw [hentry, Option.map_some, Option.some_inj] at hsent
  rw [hsent]
  decide +kernel

/-- While the clock still shows the time of the second byte, the doubled timeout stays. -/
theorem backoff_survives_progress :
    endpoint.Reachable lateClient ∧
      (lateClient.conn.onSegment bothAcked none 0 5).1.sndUna = 103 ∧ lateClient.conn.sndUna = 101 ∧
      (lateClient.conn.onSegment bothAcked none 0 5).1.retxQueue.segments.length = 0 ∧
      (lateClient.conn.onSegment bothAcked none 0 5).1.rto.rto = 2 ∧
      (lateClient.conn.onSegment bothAcked none 0 5).1.rto.baseline = 1 :=
  ⟨reachable_lateClient, by decide +kernel⟩

end Endpoint

end MiniTcp
