import MiniTcp.Net.Tcp.EndOfStream
import MiniTcp.Net.Tcp.RightEdge

/-!
# How much can be in flight

A window field has 16 bits and is shifted by at most 14, so a peer offers at most `MAX_OFFER` bytes, which
is less than a quarter of the ring. As long as `snd_una` stays where it is, `_flush` keeps what is in flight
within the offer, the persist timer adds at most one byte, and `close()` the FIN (`Paced`). An ACK that is
genuine is then never half a ring ahead of `snd_una`.
-/

namespace MiniTcp

open TCPConnection

/-- The largest window a segment can advertise. -/
def MAX_OFFER : Nat := 0xFFFF * 2 ^ 14

theorem SendQueue.length_peek_le (q : SendQueue) (seq : SeqNo) (n : Nat) : (q.peek seq n).length ≤ n := by
  unfold SendQueue.peek
  dsimp only
  split_ifs
  · exact Nat.zero_le n
  · exact List.length_take_le _ _

namespace TCPConnection

variable {b c d : TCPConnection} {seg : TCPSegment} {now : Time}

/-! ### What the peer offers -/

/-- The peer's window is one that a segment can advertise. -/
structure Offered (c : TCPConnection) : Prop where
  scale : c.sndWscale ≤ 14
  window : c.peerWindow ≤ MAX_OFFER

theorem shift_le_maxOffer {window scale : Nat} (hwindow : window ≤ 0xFFFF) (hscale : scale ≤ 14) :
    window <<< scale ≤ MAX_OFFER := by
  rw [Nat.shiftLeft_eq]
  exact Nat.mul_le_mul hwindow (Nat.pow_le_pow_right (by decide) hscale)

namespace Offered

theorem congr (h : c.Offered) (hscale : d.sndWscale = c.sndWscale) (hwindow : d.peerWindow = c.peerWindow) :
    d.Offered := ⟨hscale ▸ h.scale, hwindow ▸ h.window⟩

theorem of_sendFrame (h : c.Offered) (hframe : SendFrame c d) : d.Offered :=
  h.congr hframe.sndWscale hframe.peerWindow

theorem processAck (hscale : c.sndWscale ≤ 14) (hwindow : seg.window ≤ 0xFFFF) (now : Time) :
    (c.processAck seg now).Offered := by
  obtain ⟨hpeer, hkept⟩ := processAck_peerWindow c seg now
  refine ⟨hkept ▸ hscale, ?_⟩
  rw [hpeer]
  exact shift_le_maxOffer hwindow hscale

theorem adopted_scale (h : c.Offered) (seg : TCPSegment) : (c.adopted seg).sndWscale ≤ 14 := by
  unfold adopted applyPeerOptions
  dsimp only
  split
  · exact Nat.min_le_right _ _
  · exact h.scale

theorem onSegment (h : c.Offered) (hwindow : seg.window ≤ 0xFFFF) (srcIp : Option Bytes) (draw : SeqNo)
    (now : Time) : (c.onSegment seg srcIp draw now).1.Offered := by
  by_cases hopen : c.state.isSynchronised = true ∨ c.state = .closed
  · obtain ⟨hignored, htaken⟩ := window_onSegment c seg srcIp draw now hopen
    cases htakes : c.takesAck seg with
    | false => exact h.congr (hignored htakes).sndWscale (hignored htakes).peerWindow
    | true =>
      obtain ⟨hpeer, hscale, -⟩ := htaken htakes
      refine ⟨hscale ▸ h.scale, ?_⟩
      rw [hpeer]
      exact shift_le_maxOffer hwindow h.scale
  have hstamp : (c.stamp now).Offered := h.congr rfl rfl
  have hadopted := hstamp.adopted_scale seg
  unfold TCPConnection.onSegment
  refine dispatch_cases (P := Offered) (c.stamp now) seg srcIp draw now (fun hclosed => absurd (.inr hclosed) hopen)
    (fun _ _ => h.congr rfl rfl) (fun _ _ => hstamp) (fun _ _ _ _ => ?_) (fun _ _ _ _ => ?_)
    (fun _ _ _ => hstamp.of_sendFrame (sendFrame_retransmitOldest _ now false))
    (fun _ _ _ => hstamp.of_sendFrame (sendFrame_reject _ seg now)) (fun _ _ _ => hstamp) (fun _ _ _ _ => ?_)
    (fun _ _ _ _ => hstamp) (fun _ _ hsync => absurd (.inl hsync) hopen)
  · unfold handleSynAck
    split_ifs
    · exact hstamp.of_sendFrame (sendFrame_reject _ seg now)
    · have hdone := Offered.processAck (c := { (c.stamp now).adopted seg with
        peerWindow := seg.window <<< ((c.stamp now).adopted seg).sndWscale }) hadopted hwindow now
      exact (hdone.of_sendFrame (sendFrame_sendAck _ now)).congr rfl rfl
  · rw [handleSimultaneousOpen_eq]
    exact ⟨hadopted, hwindow.trans (by decide)⟩
  · unfold handleFinalAckOfHandshake
    split_ifs
    · exact hstamp
    · exact (Offered.processAck hstamp.scale hwindow now).congr rfl rfl

end Offered

/-! ### A stretch in which nothing new is sent -/

/-- The connection has stopped sending for good. -/
def Stopped (c : TCPConnection) : Prop := c.state = .closed ∨ c.state = .timeWait

/-- What is in flight is the same, and the retransmission queue is not emptied, unless the connection
stops. -/
structure Lull (c d : TCPConnection) : Prop where
  una : d.sendQueue.una = c.sendQueue.una
  nxt : d.sendQueue.nxt = c.sendQueue.nxt
  finSeq : d.finSeq = c.finSeq
  stopped : c.Stopped → d.Stopped
  retx : d.Stopped ∨ (c.retxQueue.segments ≠ [] → d.retxQueue.segments ≠ [])

namespace Lull

theorem refl (c : TCPConnection) : Lull c c := ⟨rfl, rfl, rfl, id, .inr id⟩

theorem trans (h : Lull b c) (h' : Lull c d) : Lull b d where
  una := h'.una.trans h.una
  nxt := h'.nxt.trans h.nxt
  finSeq := h'.finSeq.trans h.finSeq
  stopped := fun hb => h'.stopped (h.stopped hb)
  retx := by
    rcases h'.retx with hd | hd
    · exact .inl hd
    · rcases h.retx with hc | hc
      · exact .inl (h'.stopped hc)
      · exact .inr fun hne => hd (hc hne)

theorem of_eq (hstate : d.state = c.state) (hsend : d.sendQueue = c.sendQueue)
    (hfin : d.finSeq = c.finSeq) (hretx : d.retxQueue = c.retxQueue) : Lull c d where
  una := by rw [hsend]
  nxt := by rw [hsend]
  finSeq := hfin
  stopped := by
    rw [Stopped, Stopped, hstate]
    exact id
  retx := by
    rw [hretx]
    exact .inr id

theorem of_stopped (hsend : d.sendQueue.una = c.sendQueue.una ∧ d.sendQueue.nxt = c.sendQueue.nxt)
    (hfin : d.finSeq = c.finSeq) (hstop : d.Stopped) : Lull c d :=
  ⟨hsend.1, hsend.2, hfin, fun _ => hstop, .inl hstop⟩

theorem sendAck (c : TCPConnection) (now : Time) : Lull c (c.sendAck now) := by
  unfold TCPConnection.sendAck
  dsimp only
  split_ifs
  · exact .of_eq rfl rfl rfl rfl
  · rw [transmit_untracked _ _ _ _ _ (by decide)]
    exact .of_eq rfl rfl rfl rfl

theorem reject (c : TCPConnection) (seg : TCPSegment) (now : Time) : Lull c (c.reject seg now) := by
  unfold TCPConnection.reject
  split_ifs
  · exact .refl c
  · rw [transmit_untracked _ _ _ _ _ (by decide)]
    exact .of_eq rfl rfl rfl rfl
  · rw [transmit_untracked _ _ _ _ _ (by decide)]
    exact .of_eq rfl rfl rfl rfl

theorem resend (c : TCPConnection) (entry : OutstandingSegment) (now : Time) :
    Lull c (c.resend entry now) := by
  rw [resend_eq]
  refine ⟨rfl, rfl, rfl, id, .inr ?_⟩
  dsimp only
  rw [ne_eq, ne_eq, RetransmitQueue.markRetransmitted_eq_nil]
  exact id

theorem retransmitOldest (c : TCPConnection) (now : Time) (fast : Bool) :
    Lull c (c.retransmitOldest now fast) := by
  unfold TCPConnection.retransmitOldest
  split
  · exact .refl c
  · rename_i oldest _
    dsimp only
    split_ifs
    · exact resend c oldest now
    · exact (resend c oldest now).trans (.of_eq rfl rfl rfl rfl)

theorem handleData (c : TCPConnection) (seg : TCPSegment) (now : Time) :
    Lull c (c.handleData seg now) := by
  have hack : ∀ (b : TCPConnection) (newly : Nat), Lull b (b.acknowledgeData newly now) := by
    intro b newly
    unfold acknowledgeData
    split_ifs
    · split <;> exact .of_eq rfl rfl rfl rfl
    · exact sendAck b now
  unfold TCPConnection.handleData
  dsimp only
  split_ifs
  · refine Lull.trans ?_ (hack _ _)
    exact .of_eq rfl rfl rfl rfl
  · refine Lull.trans ?_ (hack _ _)
    exact .of_eq rfl rfl rfl rfl
  · exact .of_eq rfl rfl rfl rfl
  · exact .of_eq rfl rfl rfl rfl

theorem maybeAdvanceAfterAck (c : TCPConnection) (seg : TCPSegment) (now : Time) :
    Lull c (c.maybeAdvanceAfterAck seg now) := by
  unfold TCPConnection.maybeAdvanceAfterAck
  split
  · exact .refl c
  · split_ifs with _ _ h1
    · exact .refl c
    · exact .refl c
    · refine ⟨rfl, rfl, rfl, fun hstop => ?_, .inr id⟩
      rcases hstop with hst | hst <;> rw [h1] at hst <;> cases hst
    · exact .of_stopped ⟨rfl, rfl⟩ rfl (.inr rfl)
    · exact .of_stopped ⟨rfl, rfl⟩ rfl (.inl rfl)
    · exact .refl c

theorem handleFin (c : TCPConnection) (seg : TCPSegment) (now : Time) :
    Lull c (c.handleFin seg now) := by
  have hack : Lull c
      (({ c with recvQueue := { c.recvQueue with nxt := seqAdd c.recvQueue.nxt 1 } } :
        TCPConnection).sendAck now) := by
    refine Lull.trans ?_ (sendAck _ now)
    exact .of_eq rfl rfl rfl rfl
  unfold TCPConnection.handleFin
  dsimp only
  split_ifs
  · exact sendAck c now
  · exact sendAck c now
  · unfold consumeFin
    dsimp only
    generalize (({ c with recvQueue := { c.recvQueue with nxt := seqAdd c.recvQueue.nxt 1 } } :
      TCPConnection).sendAck now) = d at hack ⊢
    have hmove : ∀ st, d.state ≠ .closed ∧ d.state ≠ .timeWait → Lull d { d with state := st } :=
      fun st hst => ⟨rfl, rfl, rfl, fun h => (h.elim hst.1 hst.2).elim, .inr id⟩
    split_ifs with h1 h2
    · exact hack.trans (hmove _ (by simp [h1]))
    · exact hack.trans (.of_stopped ⟨rfl, rfl⟩ rfl (.inr rfl))
    · exact hack.trans (hmove _ (by simp [h2]))
    · exact hack.trans (.of_stopped ⟨rfl, rfl⟩ rfl (.inr rfl))
    · exact hack.trans (.of_stopped ⟨rfl, rfl⟩ rfl (.inr rfl))
    · exact hack

theorem afterAck (c : TCPConnection) (seg : TCPSegment) (now : Time) : Lull c (c.afterAck seg now) :=
  afterAck_keeps refl trans maybeAdvanceAfterAck handleData handleFin c seg now

end Lull

/-! ### What is in flight -/

/-- What is in flight is within the largest offer, but for a byte that is remembered and the FIN. -/
def Paced (c : TCPConnection) : Prop :=
  ¬ c.Stopped → Serial.gap c.sendQueue.una c.sendQueue.nxt ≤
    MAX_OFFER + (if c.retxQueue.segments = [] then 0 else 1) + if c.finSeq = none then 0 else 1

theorem maxOffer_lt : MAX_OFFER + 2 < 2 ^ 30 := by decide

namespace Paced

theorem gap_lt (h : c.Paced) (hstop : ¬ c.Stopped) :
    Serial.gap c.sendQueue.una c.sendQueue.nxt < 2 ^ 30 := by
  have hle := h hstop
  have hmax := maxOffer_lt
  split_ifs at hle <;> omega

theorem of_lull (h : c.Paced) (hl : Lull c d) : d.Paced := by
  intro hstop
  have hle := h fun hc => hstop (hl.stopped hc)
  have hretx := hl.retx.resolve_left hstop
  rw [hl.una, hl.nxt, hl.finSeq]
  refine hle.trans (Nat.add_le_add_right (Nat.add_le_add_left ?_ _) _)
  by_cases hnil : c.retxQueue.segments = []
  · simp [hnil]
  · rw [if_neg hnil, if_neg (hretx hnil)]

theorem of_le (h : Serial.gap c.sendQueue.una c.sendQueue.nxt ≤ MAX_OFFER) : c.Paced := fun _ =>
  h.trans ((Nat.le_add_right _ _).trans (Nat.le_add_right _ _))

theorem inFlight (h : c.Paced) (hstop : ¬ c.Stopped) :
    c.sendQueue.inFlight = Serial.gap c.sendQueue.una c.sendQueue.nxt := by
  have hlt := h.gap_lt hstop
  rw [SendQueue.inFlight, seqDiff_eq, Serial.diff_of_nonneg (by omega), Int.toNat_natCast]

theorem gap_transmitData {payload : Bytes} (hne : payload ≠ [])
    (hlt : Serial.gap c.sendQueue.una c.sendQueue.nxt + payload.length < 2 ^ 32) (now : Time) :
    Serial.gap (c.transmitData payload now).sendQueue.una (c.transmitData payload now).sendQueue.nxt =
      Serial.gap c.sendQueue.una c.sendQueue.nxt + payload.length := by
  rw [transmitData_eq c now hne]
  exact Serial.gap_shift_add hlt

theorem effectiveWindow_le (hoffer : c.Offered) (hmss : c.reno.mss ≤ 0xFFFF) :
    c.reno.effectiveWindow c.peerWindow ≤ MAX_OFFER :=
  max_le ((min_le_right _ _).trans hoffer.window) (hmss.trans (by decide))

theorem flushLoop (now : Time) (fuel : Nat) (c : TCPConnection) (h : c.Paced) (hoffer : c.Offered)
    (hmss : c.reno.mss ≤ 0xFFFF) : (TCPConnection.flushLoop now fuel c).Paced := by
  induction fuel generalizing c with
  | zero => exact h
  | succ fuel ih =>
    unfold TCPConnection.flushLoop
    split_ifs with hfull
    · exact h
    · dsimp only
      have hpush : c.nextPayload.1 ≠ [] → (c.transmitData c.nextPayload.1 now).Paced := by
        intro hne hstop
        have hstop' : ¬ c.Stopped := by
          rw [Stopped, (sendFrame_transmitData c c.nextPayload.1 now).state] at hstop
          exact hstop
        have hflight := h.inFlight hstop'
        have hwindow := effectiveWindow_le hoffer hmss
        have hmax := maxOffer_lt
        have hlen : c.nextPayload.1.length ≤
            c.reno.effectiveWindow c.peerWindow - c.sendQueue.inFlight :=
          (SendQueue.length_peek_le _ _ _).trans (min_le_left _ _)
        refine of_le ?_ hstop
        rw [gap_transmitData hne (by omega)]
        omega
      split_ifs with hnil
      · exact h
      · exact hpush hnil
      · have hcalm := Calm.transmitData c c.nextPayload.1 now
        exact ih _ (hpush hnil) (hoffer.congr hcalm.sndWscale hcalm.peerWindow) (hcalm.reno ▸ hmss)

theorem flush (h : c.Paced) (hoffer : c.Offered) (hmss : c.reno.mss ≤ 0xFFFF) (now : Time) :
    (c.flush now).Paced := by
  unfold TCPConnection.flush
  split_ifs
  · exact h
  · unfold armPersistTimer
    split_ifs
    · exact h
    · split <;> exact h
  · apply flushLoop
    · exact h
    · exact hoffer.congr rfl rfl
    · exact hmss

end Paced

/-! ### Inbound segments -/

theorem answerOldAck_steady (hscale : c.sndWscale ≤ 14) (hmss : c.reno.mss ≤ 0xFFFF)
    (hwindow : seg.window ≤ 0xFFFF) (now : Time) : Lull c (c.answerOldAck seg now) ∧
      (c.answerOldAck seg now).Offered ∧ (c.answerOldAck seg now).reno.mss ≤ 0xFFFF := by
  obtain ⟨hpeer, hkept, -, hreno⟩ := counted_spec c seg
  have hcount : Lull c ((c.updatePeerWindow seg).1.countDuplicateAck seg).1 := by
    unfold countDuplicateAck
    split_ifs
    · exact .of_eq rfl rfl rfl rfl
    · exact .of_eq rfl rfl rfl rfl
  have hoffer : ((c.updatePeerWindow seg).1.countDuplicateAck seg).1.Offered :=
    ⟨hkept ▸ hscale, hpeer ▸ shift_le_maxOffer hwindow hscale⟩
  have hmss' : ((c.updatePeerWindow seg).1.countDuplicateAck seg).1.reno.mss ≤ 0xFFFF := by
    rw [hreno]
    split_ifs
    · rw [RenoCongestion.onDuplicateAck_mss]
      exact hmss
    · exact hmss
  have hresend := fun fast => And.intro (hcount.trans (.retransmitOldest _ now fast))
    (And.intro (hoffer.of_sendFrame (sendFrame_retransmitOldest _ now fast))
      (retransmitOldest_reno ((c.updatePeerWindow seg).1.countDuplicateAck seg).1 now fast ▸ hmss'))
  unfold answerOldAck
  dsimp only
  split_ifs
  · exact hresend true
  · exact hresend false
  · exact ⟨hcount, hoffer, hmss'⟩

theorem Paced.onSegment (h : c.Paced) (hoffer : c.Offered) (hmss : c.reno.mss ≤ 0xFFFF)
    (hwindow : seg.window ≤ 0xFFFF) (hsync : c.state.isSynchronised = true) (srcIp : Option Bytes)
    (draw : SeqNo) (now : Time)
    (huna : (c.onSegment seg srcIp draw now).1.sendQueue.una = c.sendQueue.una) :
    (c.onSegment seg srcIp draw now).1.Paced := by
  have hstamp : Lull c (c.stamp now) := .of_eq rfl rfl rfl rfl
  cases hproc : c.processes seg with
  | false =>
    rcases onSegment_of_not_processes srcIp draw now hsync hproc with ⟨-, heq⟩ | heq | heq <;> rw [heq]
    · exact h.of_lull (.of_stopped ⟨rfl, rfl⟩ rfl (.inl rfl))
    · exact h.of_lull (hstamp.trans (.reject _ seg now))
    · exact h.of_lull (hstamp.trans (.sendAck _ now))
  | true =>
    rw [onSegment_of_processes srcIp draw now hproc] at huna ⊢
    unfold ackProcessed at huna ⊢
    dsimp only at huna ⊢
    by_cases hack : seg.isAck = true
    swap
    · simp only [hack, Bool.false_eq_true, if_false] at huna ⊢
      exact h.of_lull (hstamp.trans (.afterAck _ seg now))
    simp only [hack, if_true] at huna ⊢
    change (((c.stamp now).processAck seg now).afterAck seg now).sendQueue.una = c.sendQueue.una at huna
    have hlull := Lull.afterAck ((c.stamp now).processAck seg now) seg now
    -- an ACK ahead of `snd_una` would have moved it
    have hold : seqGt seg.ack (c.stamp now).sendQueue.una = false := by
      rw [hlull.una, processAck_una] at huna
      split_ifs at huna with hgt
      · rw [huna] at hgt
        exact absurd (seqGt_iff.mp hgt) (Serial.not_lt_self _)
      · simpa using hgt
    have hsame : (c.stamp now).processAck seg now = ((c.stamp now).answerOldAck seg now).flush now := by
      rw [TCPConnection.processAck, hold]
      rfl
    obtain ⟨hlull', hoffer', hmss'⟩ :=
      answerOldAck_steady (c := c.stamp now) hoffer.scale hmss hwindow now
    rw [hsame] at hlull ⊢
    exact Paced.of_lull ((h.of_lull (hstamp.trans hlull')).flush hoffer' hmss' now) hlull

/-! ### The application and the timers -/

/-- What keeps the timers within the offer. -/
structure Steady (c : TCPConnection) : Prop where
  paced : c.Paced
  offered : c.Offered
  mss : c.reno.mss ≤ 0xFFFF
  capacity : c.retxQueue.capacity = 2 ^ 20

namespace Steady

theorem sendAck (h : c.Steady) (now : Time) : (c.sendAck now).Steady := by
  refine ⟨h.paced.of_lull (.sendAck c now), h.offered.of_sendFrame (sendFrame_sendAck c now),
    (Calm.sendAck c now).reno ▸ h.mss, ?_⟩
  unfold TCPConnection.sendAck
  dsimp only
  split_ifs
  · exact h.capacity
  · rw [transmit_untracked _ _ _ _ _ (by decide)]
    exact h.capacity

theorem resend (h : c.Steady) (entry : OutstandingSegment) (now : Time) : (c.resend entry now).Steady := by
  refine ⟨h.paced.of_lull (.resend c entry now), h.offered.of_sendFrame (sendFrame_resend c entry now),
    ?_, ?_⟩
  · rw [resend_eq]
    exact h.mss
  · rw [resend_eq]
    exact RetransmitQueue.markRetransmitted_capacity.trans h.capacity

theorem onRetransmitTimeout (h : c.Steady) (now : Time) : (c.onRetransmitTimeout now).Steady := by
  unfold TCPConnection.onRetransmitTimeout
  split
  · exact ⟨h.paced, h.offered.congr rfl rfl, h.mss, h.capacity⟩
  · rename_i oldest _
    dsimp only
    split_ifs
    · exact ⟨h.paced.of_lull (.of_stopped ⟨rfl, rfl⟩ rfl (.inl rfl)), h.offered.congr rfl rfl, h.mss,
        h.capacity⟩
    · have hbacked : ({ c with reno := c.reno.onTimeout, rto := c.rto.backoff } :
          TCPConnection).Steady := ⟨h.paced, h.offered.congr rfl rfl, h.mss, h.capacity⟩
      have hsent := hbacked.resend oldest now
      exact ⟨hsent.paced, hsent.offered.congr rfl rfl, hsent.mss, hsent.capacity⟩

theorem probe (h : c.Steady) (hnone : c.retxQueue.segments = []) (now : Time) {payload : Bytes}
    (hne : payload ≠ []) (hone : payload.length ≤ 1) : (c.transmitData payload now).Paced := by
  intro hstop
  have hstop' : ¬ c.Stopped := by
    rw [Stopped, (sendFrame_transmitData c payload now).state] at hstop
    exact hstop
  have hgap := h.paced.gap_lt hstop'
  have hle := h.paced hstop'
  have hkept : (c.transmitData payload now).retxQueue.segments ≠ [] := by
    rw [transmitData_eq c now hne]
    rcases RetransmitQueue.added_cases c.retxQueue (c.dataSegment payload).seq
      (c.dataSegment payload).flags (c.dataSegment payload).payload now with ⟨hrefused, -⟩ | ⟨-, -, hsegs⟩
    · rw [RetransmitQueue.add, if_neg] at hrefused
      · cases hrefused
      · have hbytes : c.retxQueue.bytesOutstanding = 0 := by
          rw [RetransmitQueue.bytesOutstanding, hnone]
          rfl
        rw [hbytes, h.capacity]
        show ¬ 0 + payload.length > 2 ^ 20
        omega
    · simp [tracking, hsegs]
  rw [Paced.gap_transmitData hne (by omega), if_neg hkept,
    (sendFrame_transmitData c payload now).finSeq]
  rw [hnone, if_pos rfl] at hle
  omega

theorem onPersistTimeout (h : c.Steady) (now : Time) : (c.onPersistTimeout now).Paced := by
  unfold TCPConnection.onPersistTimeout
  split_ifs
  · apply Paced.flush
    · exact h.paced
    · exact h.offered.congr rfl rfl
    · exact h.mss
  · exact h.paced
  · dsimp only
    split
    · rename_i oldest _
      exact (h.resend oldest now).paced
    · rename_i hold
      split_ifs with hnil
      · exact h.paced
      · exact h.probe (List.head?_eq_none_iff.mp hold) now hnil (SendQueue.length_peek_le _ _ _)

theorem onTick (h : c.Steady) (now : Time) : (c.onTick now).Paced := by
  unfold TCPConnection.onTick
  dsimp only
  have hack : (if due c.delayedAckAt now = true then c.sendAck now else c).Steady := by
    split_ifs
    · exact h.sendAck now
    · exact h
  generalize (if due c.delayedAckAt now = true then c.sendAck now else c) = b at hack ⊢
  have hretx : (if due b.retransmitAt now = true then b.onRetransmitTimeout now else b).Steady := by
    split_ifs
    · exact hack.onRetransmitTimeout now
    · exact hack
  generalize (if due b.retransmitAt now = true then b.onRetransmitTimeout now else b) = b at hretx ⊢
  have hprobe : (if due b.persistAt now = true then b.onPersistTimeout now else b).Paced := by
    split_ifs
    · exact hretx.onPersistTimeout now
    · exact hretx.paced
  generalize (if due b.persistAt now = true then b.onPersistTimeout now else b) = b at hprobe ⊢
  split_ifs
  · exact hprobe.of_lull (.of_stopped ⟨rfl, rfl⟩ rfl (.inl rfl))
  · exact hprobe

theorem sendFin (h : c.Steady) (hstop : ¬ c.Stopped) (hnone : c.finSeq = none) (now : Time)
    (st : TcpState) : ({ c.sendFin now with state := st } : TCPConnection).Paced := by
  have hgap := h.paced.gap_lt hstop
  have hle := h.paced hstop
  intro
  rw [sendFin_eq]
  dsimp only
  rw [seqAdd, Serial.gap_shift_add (by omega), if_neg (Option.some_ne_none _)]
  rw [if_pos hnone] at hle
  by_cases hnil : c.retxQueue.segments = []
  · rw [if_pos hnil] at hle
    omega
  · have hkept : (c.tracking c.finSegment now).retxQueue.segments ≠ [] := by
      rcases RetransmitQueue.added_cases c.retxQueue c.finSegment.seq c.finSegment.flags
        c.finSegment.payload now with ⟨-, hsame⟩ | ⟨-, -, hsegs⟩
      · rw [tracking, hsame]
        exact hnil
      · simp [tracking, hsegs]
    rw [if_neg hnil] at hle
    rw [if_neg hkept]
    omega

theorem close (h : c.Steady) (hfin : c.canSend = true → c.finSeq = none) (now : Time) :
    (c.close now).Paced := by
  unfold TCPConnection.close
  split
  · rename_i hst
    exact h.sendFin (by simp [Stopped, hst]) (hfin (by simp [canSend, hst])) now _
  · rename_i hst
    exact h.sendFin (by simp [Stopped, hst]) (hfin (by simp [canSend, hst])) now _
  · exact fun hstop => absurd (.inl rfl) hstop
  · exact fun hstop => absurd (.inl rfl) hstop
  all_goals first | exact h.paced | exact fun hstop => absurd (.inl rfl) hstop

end Steady

end TCPConnection

theorem Endpoint.paced_own {e : Event} {p : Endpoint} (he : e.IsOwn) (h : p.conn.Steady)
    (hfin : p.conn.canSend = true → p.conn.finSeq = none) : (p.step e).conn.Paced := by
  cases e with
  | send data now =>
    simp only [Endpoint.step]
    cases hsend : p.conn.send data now with
    | error err => exact h.paced
    | ok r =>
      obtain ⟨-, rfl | ⟨-, rfl⟩⟩ := send_ok _ hsend
      · exact h.paced
      · have hwritten : Lull p.conn { p.conn with sendQueue := (p.conn.sendQueue.write data).1 } :=
          ⟨p.conn.sendQueue.write_una data, p.conn.sendQueue.write_nxt data, rfl, id, .inr id⟩
        exact (h.paced.of_lull hwritten).flush (h.offered.congr rfl rfl) h.mss now
  | recv maxBytes now =>
    simp only [Endpoint.step, Endpoint.put_conn, recv]
    split_ifs
    · exact h.paced
    · exact Paced.of_lull (c := { p.conn with recvQueue := (p.conn.recvQueue.read maxBytes).1 }) h.paced
        (.sendAck _ now)
    · exact h.paced
  | close now => exact h.close hfin now
  | abort now => exact fun hstop => absurd (.inl rfl) hstop
  | tick now => exact h.onTick now
  | listen => exact he.elim
  | connect draw now => exact he.elim
  | segment seg srcIp draw now => exact he.elim

/-! ### What goes out -/

theorem Emission.window_le {r : Bool} {e : Event} {p q : Endpoint} {x : TCPSegment}
    (hx : Emission r e p q x) : x.window ≤ 0xFFFF := by
  cases hx with
  | rejection =>
    unfold TCPConnection.rejection
    split_ifs <;> exact Nat.min_le_right _ _
  | _ => exact Nat.min_le_right _ _

end MiniTcp
