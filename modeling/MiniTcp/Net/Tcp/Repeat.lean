import MiniTcp.Net.Tcp.Calm

/-!
# ACKs that repeat `snd_una`

An ACK that repeats `snd_una` while data is in flight is counted, whatever else the segment is. Outside
recovery and with an open window the third in a row is what an inbound segment can do to start a fast
retransmission, and nothing else about it can (`onSegment_untroubled_iff`). The calls from outside and a tick
on which neither the retransmission timer nor the persist timer expires leave congestion control alone.
-/

namespace MiniTcp

open TCPConnection

namespace RenoCongestion

variable {r : RenoCongestion}

theorem onDuplicateAck_spec (h : r.state ≠ .fastRecovery) (ack : Option SeqNo) :
    ((r.onDuplicateAck ack).1.state = .fastRecovery ↔ r.duplicateAcks = 2) ∧
      ((r.onDuplicateAck ack).2 = true ↔ r.duplicateAcks = 2) := by
  unfold onDuplicateAck
  rw [if_neg h]
  split_ifs with hthree
  · have : r.duplicateAcks = 2 := by omega
    simp [this]
  · have : r.duplicateAcks ≠ 2 := by omega
    simp [this, h]

theorem onDuplicateAck_duplicateAcks (h : r.state ≠ .fastRecovery) (ack : Option SeqNo) :
    (r.onDuplicateAck ack).1.duplicateAcks = r.duplicateAcks + 1 := by
  unfold onDuplicateAck
  rw [if_neg h]
  split_ifs <;> rfl

theorem onAck_duplicateAcks (h : r.state ≠ .fastRecovery) {acked : Int} (hpos : 0 < acked) (ack : Option SeqNo) :
    (r.onAck acked ack).duplicateAcks = 0 := by
  unfold onAck
  rw [if_neg (by omega)]
  cases hst : r.state with
  | fastRecovery => exact absurd hst h
  | slowStart => rfl
  | congestionAvoidance => rfl

theorem onAck_state (h : r.state ≠ .fastRecovery) (acked : Int) (ack : Option SeqNo) :
    (r.onAck acked ack).state ≠ .fastRecovery := by
  unfold onAck
  by_cases hle : acked ≤ 0
  · rw [if_pos hle]
    exact h
  · rw [if_neg hle]
    cases hst : r.state with
    | fastRecovery => exact absurd hst h
    | slowStart =>
      dsimp only
      split_ifs <;> simp
    | congestionAvoidance => simp

end RenoCongestion

namespace TCPConnection

variable {c d : TCPConnection} {seg : TCPSegment}

theorem retransmitOldest_reno (c : TCPConnection) (now : Time) (fast : Bool) :
    (c.retransmitOldest now fast).reno = c.reno := by
  unfold retransmitOldest
  split
  · rfl
  · dsimp only
    split_ifs
    · rw [resend_eq]
    · rw [resend_eq]

/-- The segment's ACK is taken, and it is the third in a row to repeat `snd_una` while something is in
flight. -/
def ThirdRepeat (c : TCPConnection) (seg : TCPSegment) : Prop :=
  c.takesAck seg = true ∧ seg.ack = c.sndUna ∧ 0 < c.sendQueue.inFlight ∧ c.reno.duplicateAcks = 2

instance (c : TCPConnection) (seg : TCPSegment) : Decidable (ThirdRepeat c seg) :=
  inferInstanceAs (Decidable (_ ∧ _))

/-- Outside recovery, the third repetition is the one that is answered with a fast retransmission. -/
theorem countDuplicateAck_fast_iff (hreno : c.reno.state ≠ .fastRecovery) :
    ((c.updatePeerWindow seg).1.countDuplicateAck seg).2 = true ↔
      seg.ack = c.sndUna ∧ 0 < c.sendQueue.inFlight ∧ c.reno.duplicateAcks = 2 := by
  have hsecond := (RenoCongestion.onDuplicateAck_spec hreno (some seg.ack)).2
  unfold countDuplicateAck
  by_cases hdup : seg.ack = c.sendQueue.una ∧ 0 < c.sendQueue.inFlight
  · rw [if_pos (show seg.ack = (c.updatePeerWindow seg).1.sendQueue.una ∧
      0 < (c.updatePeerWindow seg).1.sendQueue.inFlight from hdup)]
    exact hsecond.trans ⟨fun h => ⟨hdup.1, hdup.2, h⟩, fun h => h.2.2⟩
  · rw [if_neg (show ¬ (seg.ack = (c.updatePeerWindow seg).1.sendQueue.una ∧
      0 < (c.updatePeerWindow seg).1.sendQueue.inFlight) from hdup)]
    exact iff_of_false Bool.false_ne_true fun h => hdup ⟨h.1, h.2.1⟩

/-- With an open window and outside recovery, an ACK leads into recovery or causes a retransmission only
as the third duplicate, and that one does lead into recovery. -/
theorem processAck_recovery (hreno : c.reno.state ≠ .fastRecovery) (hwindow : c.peerWindow ≠ 0)
    (now : Time) :
    (seg.ack = c.sndUna ∧ 0 < c.sendQueue.inFlight ∧ c.reno.duplicateAcks = 2 →
      (c.processAck seg now).reno.state = .fastRecovery) ∧
    (¬ (seg.ack = c.sndUna ∧ 0 < c.sendQueue.inFlight ∧ c.reno.duplicateAcks = 2) →
      (c.processAck seg now).reno.state ≠ .fastRecovery ∧
        (c.processAck seg now).retransmissions = c.retransmissions) := by
  obtain ⟨-, -, hretx, hcount⟩ := c.counted_spec seg
  obtain ⟨hstate, -⟩ := RenoCongestion.onDuplicateAck_spec hreno (some seg.ack)
  have hopen : (c.updatePeerWindow seg).2 = false := by simp [updatePeerWindow, hwindow]
  have hfast : ((c.updatePeerWindow seg).1.countDuplicateAck seg).2 = true ↔
      seg.ack = c.sndUna ∧ 0 < c.sendQueue.inFlight ∧ c.reno.duplicateAcks = 2 := countDuplicateAck_fast_iff hreno
  unfold processAck
  by_cases hold : seqGt seg.ack c.sendQueue.una = true
  · have hne : seg.ack ≠ c.sndUna := by
      rintro heq
      rw [heq, seqGt_iff] at hold
      exact Serial.not_lt_self _ hold
    have hflush := Calm.flush (((c.retire seg now).updatePeerWindow seg).1.armRetransmitTimer now) now
    rw [if_neg (by simp [hold]), Leads.processNewAck_eq now hold, hflush.reno, hflush.retransmissions]
    exact ⟨fun h => absurd h.1 hne, fun _ => ⟨RenoCongestion.onAck_state hreno _ _, rfl⟩⟩
  · have hflush := Calm.flush (c.answerOldAck seg now) now
    rw [if_pos (show (!seqGt seg.ack c.sendQueue.una) = true by simpa using hold), processOldAck_eq,
      hflush.reno, hflush.retransmissions]
    unfold answerOldAck
    dsimp only
    rw [hopen, Bool.false_and]
    constructor
    · intro hthird
      rw [if_pos (hfast.mpr hthird), retransmitOldest_reno, hcount, if_pos ⟨hthird.1, hthird.2.1⟩]
      exact hstate.mpr hthird.2.2
    · intro hthird
      rw [if_neg fun h => hthird (hfast.mp h), if_neg Bool.false_ne_true, hcount]
      refine ⟨?_, hretx⟩
      split_ifs with hdup
      · exact fun h => hthird ⟨hdup.1, hdup.2, hstate.mp h⟩
      · exact hreno

/-- With an open window and outside recovery, a segment leads into recovery or causes a retransmission exactly
when it is the third repetition. -/
theorem onSegment_untroubled_iff (srcIp : Option Bytes) (draw : SeqNo) (now : Time)
    (hstate : c.state.isSynchronised = true) (hreno : c.reno.state ≠ .fastRecovery) (hwindow : c.peerWindow ≠ 0) :
    ((c.onSegment seg srcIp draw now).1.reno.state ≠ .fastRecovery ∧
        (c.onSegment seg srcIp draw now).1.retransmissions = c.retransmissions) ↔ ¬ ThirdRepeat c seg := by
  have hcalm : Calm (if c.takesAck seg = true then (c.stamp now).processAck seg now else c)
      (c.onSegment seg srcIp draw now).1 := calm_onSegment srcIp draw now (.inl hstate)
  have hafter := @processAck_recovery (c.stamp now) seg hreno hwindow now
  rw [hcalm.reno, hcalm.retransmissions]
  unfold ThirdRepeat
  by_cases htakes : c.takesAck seg = true
  · rw [if_pos htakes]
    by_cases hthird : seg.ack = c.sndUna ∧ 0 < c.sendQueue.inFlight ∧ c.reno.duplicateAcks = 2
    · exact iff_of_false (fun h => h.1 (hafter.1 hthird)) fun h => h ⟨htakes, hthird⟩
    · exact iff_of_true (hafter.2 hthird) fun h => hthird h.2
  · rw [if_neg htakes]
    exact iff_of_true ⟨hreno, rfl⟩ fun h => htakes h.1

/-! ### Calls -/

theorem calm_send (p : Endpoint) (data : Bytes) (now : Time) :
    Calm p.conn (p.step (.send data now)).conn := by
  simp only [Endpoint.step]
  cases hsend : p.conn.send data now with
  | error err => exact .refl _
  | ok r =>
    obtain ⟨-, rfl | ⟨-, rfl⟩⟩ := send_ok _ hsend
    · exact .refl _
    · have h := Calm.flush { p.conn with sendQueue := (p.conn.sendQueue.write data).1 } now
      exact ⟨h.reno, h.retransmissions, h.peerWindow, h.sndWscale⟩

theorem calm_recv (c : TCPConnection) (maxBytes : Nat) (now : Time) :
    Calm c (c.recv maxBytes now).1 := by
  unfold recv
  split_ifs
  · exact .refl c
  · dsimp only
    split_ifs
    · have h := Calm.sendAck { c with recvQueue := (c.recvQueue.read maxBytes).1 } now
      exact ⟨h.reno, h.retransmissions, h.peerWindow, h.sndWscale⟩
    · exact ⟨rfl, rfl, rfl, rfl⟩

theorem calm_tick {now : Time} (hretx : due c.retransmitAt now = false)
    (hpersist : due c.persistAt now = false) : Calm c (c.onTick now) := by
  have hack : ∀ b : TCPConnection, (b.sendAck now).retransmitAt = b.retransmitAt ∧
      (b.sendAck now).persistAt = b.persistAt := by
    intro b
    unfold sendAck
    dsimp only
    split_ifs
    · exact ⟨rfl, rfl⟩
    · rw [transmit_untracked _ _ _ _ _ (by decide)]
      exact ⟨rfl, rfl⟩
  have hdelayed : Calm c (if due c.delayedAckAt now = true then c.sendAck now else c) ∧
      due (if due c.delayedAckAt now = true then c.sendAck now else c).retransmitAt now = false ∧
      due (if due c.delayedAckAt now = true then c.sendAck now else c).persistAt now = false := by
    split_ifs
    · exact ⟨.sendAck c now, by rw [(hack c).1, hretx], by rw [(hack c).2, hpersist]⟩
    · exact ⟨.refl c, hretx, hpersist⟩
  unfold onTick
  dsimp only
  obtain ⟨hcalm, hretx', hpersist'⟩ := hdelayed
  generalize (if due c.delayedAckAt now = true then c.sendAck now else c) = d at hcalm hretx' hpersist' ⊢
  simp only [hretx', hpersist', Bool.false_eq_true, if_false]
  refine hcalm.trans ?_
  split_ifs
  · exact ⟨rfl, rfl, rfl, rfl⟩
  · exact .refl d

end TCPConnection

namespace Endpoint

/-- A SYN, and the ACK that ends the handshake after an answer with the number 700. -/
def openingSyn : TCPSegment :=
  { srcPort := 1000, dstPort := 2000, seq := 100, ack := 1, flags := FLAG_SYN, window := 65535,
    options := { mss := some 1460, sackPermitted := true } }

def openingAck : TCPSegment :=
  { srcPort := 1000, dstPort := 2000, seq := 101, ack := 701, flags := FLAG_ACK, window := 65535 }

end Endpoint

end MiniTcp
