import MiniTcp.Net.Tcp.Flush
import MiniTcp.Net.Tcp.RightEdge

/-!
# New data and the window the peer offers

`effective_window` never goes below one segment, so a window smaller than that does not hold `_flush` back: the
limit for new bytes is the offer or one segment, whichever is more. `overshoots_iff` says when this makes a
difference: the offer is less than a segment and less than what is buffered, and less than that much is in flight.

What a call of `_flush` does to its own queue is carried through every event once, for any bound (`within_of_flushes`).
So every byte that is not a repetition is numbered below `snd_una + max(peer_window, mss)`, and below
`snd_una + peer_window` where no `_flush` meets a queue that makes it overshoot (`within_offer_or_segment`).
-/

namespace MiniTcp

/-- Every byte of the segment is numbered below `una + offer`. -/
def TCPSegment.Below (una : SeqNo) (offer : Nat) (x : TCPSegment) : Prop :=
  ∀ i < x.payload.length, Serial.gap una (seqAdd x.seq i) < offer

namespace TCPConnection

variable {b c d : TCPConnection} {seg : TCPSegment} {now : Time} {Q R : TCPSegment → Prop}

/-- From `c` to `d` every segment handed out that has a payload satisfies `Q`. -/
def Sends (Q : TCPSegment → Prop) (c d : TCPConnection) : Prop :=
  ∃ segs, d.sent = c.sent ++ segs ∧ ∀ x ∈ segs, x.payload ≠ [] → Q x

/-- The segment repeats an outstanding one: the same bytes under the same number. -/
def Repeats (c : TCPConnection) (x : TCPSegment) : Prop :=
  ∃ entry ∈ c.retxQueue.segments, x.seq = entry.seq ∧ x.payload = entry.payload

namespace Sends

theorem of_eq (h : d.sent = c.sent) : Sends Q c d :=
  ⟨[], by rw [h, List.append_nil], fun _ hx => absurd hx List.not_mem_nil⟩

theorem refl (c : TCPConnection) : Sends Q c c := of_eq rfl

theorem trans (h : Sends Q b c) (h' : Sends Q c d) : Sends Q b d := by
  obtain ⟨segs, hsent, hall⟩ := h
  obtain ⟨segs', hsent', hall'⟩ := h'
  refine ⟨segs ++ segs', by rw [hsent', hsent, List.append_assoc], fun x hx => ?_⟩
  rcases List.mem_append.mp hx with hx | hx
  · exact hall x hx
  · exact hall' x hx

theorem mono (h : Sends Q c d) (hQR : ∀ x, Q x → R x) : Sends R c d := by
  obtain ⟨segs, hsent, hall⟩ := h
  exact ⟨segs, hsent, fun x hx hne => hQR x (hall x hx hne)⟩

theorem of_payload_nil {x : TCPSegment} (hsent : d.sent = c.sent ++ [x]) (hnil : x.payload = []) :
    Sends Q c d := by
  refine ⟨[x], hsent, fun y hy hne => ?_⟩
  rw [List.mem_singleton.mp hy] at hne
  exact absurd hnil hne

theorem of_trailing (h : Trailing c d) : Sends Q c d := by
  obtain ⟨segs, hsent, hzero⟩ := h.sent
  refine ⟨segs, hsent, fun x hx hne => ?_⟩
  have hlen := List.sum_eq_zero_iff_forall_eq_nat.mp hzero _
    (List.mem_map_of_mem (f := fun y : TCPSegment => y.payload.length) hx)
  exact absurd (List.length_eq_zero_iff.mp hlen) hne

end Sends

theorem sends_resend {entry : OutstandingSegment} (h : entry ∈ c.retxQueue.segments) (now : Time) :
    Sends c.Repeats c (c.resend entry now) := by
  rw [resend_eq]
  refine ⟨[c.resentSegment entry], rfl, fun x hx _ => ?_⟩
  obtain rfl := List.mem_singleton.mp hx
  exact ⟨entry, h, rfl, rfl⟩

theorem sends_retransmitOldest (c : TCPConnection) (now : Time) (fast : Bool) :
    Sends c.Repeats c (c.retransmitOldest now fast) := by
  unfold retransmitOldest
  split
  · exact .refl c
  · rename_i oldest hold
    have h := sends_resend (c := c) (List.mem_of_mem_head? hold) now
    dsimp only
    split_ifs
    · exact h
    · apply h.trans
      exact .of_eq rfl

/-! ### `_flush` under an offer -/

/-- `_flush` goes beyond the offer: it is less than a segment and less than what is buffered, and less than
that much is in flight. -/
def Overshoots (mss : Nat) (q : SendQueue) (offer : Nat) : Prop :=
  0 < offer ∧ offer < min mss q.buffered ∧ seqLe q.una q.nxt = true ∧ q.inFlight < min mss q.buffered

theorem below_nextPayload {offer : Nat} (hne : c.nextPayload.1 ≠ [])
    (hlimit : c.reno.effectiveWindow c.peerWindow ≤ offer ∨ c.sendQueue.buffered ≤ offer) :
    (c.dataSegment c.nextPayload.1).Below c.sendQueue.una offer := by
  have hpos := List.length_pos_iff.mpr hne
  have hoffset : ¬ seqDiff c.sendQueue.nxt c.sendQueue.una < 0 := by
    intro hneg
    apply hne
    unfold nextPayload SendQueue.peek
    dsimp only
    rw [if_pos (.inl hneg)]
  have hhalf : 2 * Serial.gap c.sendQueue.una c.sendQueue.nxt < 2 ^ 32 := by
    rw [seqDiff_eq] at hoffset
    exact Serial.diff_nonneg_iff.mp (not_lt.mp hoffset)
  have hle : seqLe c.sendQueue.una c.sendQueue.nxt = true := by
    rw [seqLe_iff, Serial.le_iff_gap]
    exact hhalf
  have hflight := inFlight_of_le hle
  have hallowed : c.nextPayload.2 =
      min (c.reno.effectiveWindow c.peerWindow - c.sendQueue.inFlight) c.peerMss := rfl
  have hlen : c.nextPayload.1.length =
      min c.nextPayload.2 (c.sendQueue.buf.length - c.sendQueue.inFlight) := by
    rw [nextPayload_eq hle, List.length_take, List.length_drop]
  rw [SendQueue.buffered] at hlimit
  intro i hi
  -- the byte is numbered `gap + i` from `snd_una` on, or less when that goes round the ring
  have hnum : Serial.gap c.sendQueue.una (seqAdd c.sendQueue.nxt i) ≤ c.sendQueue.inFlight + i := by
    rw [hflight]
    conv_lhs => rw [← Serial.shift_gap c.sendQueue.una c.sendQueue.nxt]
    rw [seqAdd, Serial.shift_shift, Serial.gap_shift_mod]
    exact Nat.mod_le _ _
  have hlt : i < c.nextPayload.1.length := hi
  show Serial.gap c.sendQueue.una (seqAdd c.sendQueue.nxt i) < offer
  omega

theorem sends_flushLoop {offer : Nat} (now : Time) (fuel : Nat) (c : TCPConnection)
    (hlimit : c.reno.effectiveWindow c.peerWindow ≤ offer ∨ c.sendQueue.buffered ≤ offer) :
    Sends (·.Below c.sendQueue.una offer) c (flushLoop now fuel c) := by
  induction fuel generalizing c with
  | zero => exact .refl c
  | succ fuel ih =>
    unfold flushLoop
    dsimp only
    split_ifs with hfull hnil hshort
    · exact .refl c
    · exact .refl c
    all_goals
      have hsend : Sends (·.Below c.sendQueue.una offer) c (c.transmitData c.nextPayload.1 now) := by
        rw [transmitData_eq c now hnil]
        refine ⟨[c.dataSegment c.nextPayload.1], rfl, fun x hx _ => ?_⟩
        obtain rfl := List.mem_singleton.mp hx
        exact below_nextPayload hnil hlimit
    · exact hsend
    · have hcalm := Calm.transmitData c c.nextPayload.1 now
      have hframe := sendFrame_transmitData c c.nextPayload.1 now
      have hrest := ih (c.transmitData c.nextPayload.1 now) (by
        rw [SendQueue.buffered, hframe.buf, hcalm.reno, hcalm.peerWindow]
        exact hlimit)
      rw [hframe.una] at hrest
      exact hsend.trans hrest

/-- With this queue and offer, and segments of this size, every `_flush` stays below the bound. -/
def FlushesBelow (bound : Nat → Nat) (mss : Nat) (q : SendQueue) (offer : Nat) : Prop :=
  ∀ (d : TCPConnection) (now : Time), d.reno.mss = mss → d.sendQueue = q → d.peerWindow = offer → 0 < offer →
    Sends (·.Below q.una (bound offer)) d (d.flush now)

theorem flushesBelow_segment (mss : Nat) (q : SendQueue) (offer : Nat) :
    FlushesBelow (max · mss) mss q offer := by
  rintro d now rfl rfl rfl hopen
  unfold flush
  split_ifs with hsync hzero
  · exact .refl d
  · omega
  refine Sends.trans (c := { d with persistAt := none, persistDelay := DEFAULT_PERSIST_DELAY }) (.of_eq rfl) ?_
  have hwindow : d.reno.effectiveWindow d.peerWindow ≤ max d.peerWindow d.reno.mss :=
    max_le_max_right _ (min_le_right _ _)
  exact sends_flushLoop now _ _ (.inl hwindow)

theorem sends_flush (now : Time) (hopen : 0 < c.peerWindow)
    (h : ¬ Overshoots c.reno.mss c.sendQueue c.peerWindow) :
    Sends (·.Below c.sendQueue.una c.peerWindow) c (c.flush now) := by
  unfold flush
  split_ifs with hsync hzero
  · exact .refl c
  · omega
  refine Sends.trans (c := { c with persistAt := none, persistDelay := DEFAULT_PERSIST_DELAY })
    (.of_eq rfl) ?_
  generalize hd : ({ c with persistAt := none, persistDelay := DEFAULT_PERSIST_DELAY } : TCPConnection) = d
  have hwindow : d.reno.effectiveWindow d.peerWindow =
      max (min c.reno.cwnd c.peerWindow) c.reno.mss := by
    rw [← hd]
    rfl
  have hqueue : d.sendQueue = c.sendQueue := by rw [← hd]
  rw [← hqueue]
  by_cases hlimit : d.reno.effectiveWindow d.peerWindow ≤ c.peerWindow ∨ d.sendQueue.buffered ≤ c.peerWindow
  · exact sends_flushLoop now _ d hlimit
  -- the window is one segment, and nothing more fits into it or nothing more is buffered
  have hstop : flushLoop now (d.sendQueue.buf.length + 1) d = d := by
    unfold flushLoop
    dsimp only
    split_ifs with hfull hnil
    · rfl
    · rfl
    all_goals
      exfalso
      rw [hqueue] at hlimit hfull
      apply h
      have hhalf : seqLe c.sendQueue.una c.sendQueue.nxt = true := by
        by_contra hno
        apply hnil
        unfold nextPayload SendQueue.peek
        dsimp only
        rw [seqLe_iff, Serial.le_iff_gap, ← Serial.diff_nonneg_iff, not_le, ← seqDiff_eq] at hno
        rw [hqueue, if_pos (.inl hno)]
      refine ⟨hopen, by omega, hhalf, ?_⟩
      rw [lt_min_iff]
      refine ⟨by omega, ?_⟩
      by_contra hall
      apply hnil
      rw [nextPayload_eq (by rw [hqueue]; exact hhalf), hqueue, List.drop_eq_nil_of_le (not_lt.mp hall),
        List.take_nil]
  rw [hstop]
  exact .refl d

theorem flushesBelow_offer {mss offer : Nat} {q : SendQueue} (h : ¬ Overshoots mss q offer) :
    FlushesBelow id mss q offer := by
  rintro d now rfl rfl rfl hopen
  exact sends_flush now hopen h

theorem overshoots_iff (now : Time) (hsync : c.state.isSynchronised = true) (hopen : 0 < c.peerWindow)
    (hmss : 1 ≤ c.peerMss) (hwindow : c.reno.effectiveWindow c.peerWindow < 2 ^ 31) :
    Sends (·.Below c.sendQueue.una c.peerWindow) c (c.flush now) ↔
      ¬ Overshoots c.reno.mss c.sendQueue c.peerWindow := by
  refine ⟨?_, sends_flush now hopen⟩
  rintro ⟨segs, hsent, hbelow⟩ ⟨-, hnarrow, hle, hflight⟩
  obtain ⟨⟨segs', hsent', hconsecutive, hsegs, hbytes, -⟩, -⟩ :=
    (flush_sends now hsync hle hmss hwindow).1 hopen
  obtain rfl : segs = segs' := List.append_cancel_left (hsent.symm.trans hsent')
  -- the byte at the offer, or the first unsent one when that lies beyond
  have hreach : max c.peerWindow c.sendQueue.inFlight < c.reach := by
    have hmss' := c.reno.mss_le_effectiveWindow c.peerWindow
    unfold reach
    omega
  have hreach' : c.reach ≤ max c.sendQueue.inFlight c.sendQueue.buf.length := by
    unfold reach SendQueue.buffered
    omega
  have hlen : (segs.flatMap (·.payload)).length = c.reach - c.sendQueue.inFlight := by
    rw [hbytes, List.length_drop, List.length_take]
    omega
  obtain ⟨x, hx, i, hi, heq⟩ := hconsecutive.exists_byte
    (k := max c.peerWindow c.sendQueue.inFlight - c.sendQueue.inFlight) (by omega)
  have hgap := hbelow x hx (hsegs x hx).1 i hi
  have hnum : seqAdd x.seq i = seqAdd c.sendQueue.una (max c.peerWindow c.sendQueue.inFlight) := by
    rw [heq]
    conv_lhs => rw [← Serial.shift_gap c.sendQueue.una c.sendQueue.nxt, ← inFlight_of_le hle]
    rw [seqAdd, Serial.shift_shift, seqAdd]
    congr 1
    omega
  have hsmall : c.reach < 2 ^ 31 := by
    have hhalf := (inFlight_of_le hle).symm
    rw [seqLe_iff, Serial.le_iff_gap] at hle
    unfold reach
    omega
  rw [hnum, seqAdd, Serial.gap_shift (by omega)] at hgap
  omega

/-! ### Inbound segments -/

/-- The connection as `_process_ack` hands it to `_flush`. -/
def acked (c : TCPConnection) (seg : TCPSegment) (now : Time) : TCPConnection :=
  if seqGt seg.ack c.sendQueue.una then ((c.retire seg now).updatePeerWindow seg).1.armRetransmitTimer now
  else c.answerOldAck seg now

theorem processAck_eq_flush (c : TCPConnection) (seg : TCPSegment) (now : Time) :
    c.processAck seg now = (c.acked seg now).flush now := by
  unfold processAck acked
  cases hgt : seqGt seg.ack c.sendQueue.una with
  | true => exact Leads.processNewAck_eq now hgt
  | false => rfl

theorem retransmitOldest_sendQueue (c : TCPConnection) (now : Time) (fast : Bool) :
    (c.retransmitOldest now fast).sendQueue = c.sendQueue := by
  unfold retransmitOldest
  split
  · rfl
  · rw [resend_eq]
    dsimp only
    split_ifs <;> rfl

/-- What `_flush` finds: the queue after the ACK, the window of the segment, the same segment size; nothing
new was sent on the way. -/
theorem acked_spec (c : TCPConnection) (seg : TCPSegment) (now : Time) :
    (c.acked seg now).sendQueue = (c.sendQueue.acknowledge seg.ack).1 ∧
      (c.acked seg now).peerWindow = seg.window <<< c.sndWscale ∧
      (c.acked seg now).reno.mss = c.reno.mss ∧ (c.acked seg now).state = c.state ∧
      Sends c.Repeats c (c.acked seg now) := by
  unfold acked
  cases hgt : seqGt seg.ack c.sendQueue.una with
  | true => exact ⟨rfl, rfl, RenoCongestion.onAck_mss _ _ _, rfl, .of_eq rfl⟩
  | false =>
    have hqueue : (c.sendQueue.acknowledge seg.ack).1 = c.sendQueue := by
      rw [SendQueue.acknowledge, hgt]
      rfl
    rw [if_neg Bool.false_ne_true, hqueue]
    obtain ⟨hwindow, -, -, hreno⟩ := c.counted_spec seg
    have hmss : ((c.updatePeerWindow seg).1.countDuplicateAck seg).1.reno.mss = c.reno.mss := by
      rw [hreno]
      split_ifs
      · exact RenoCongestion.onDuplicateAck_mss _ _
      · rfl
    have hcount : ((c.updatePeerWindow seg).1.countDuplicateAck seg).1.sendQueue = c.sendQueue ∧
        ((c.updatePeerWindow seg).1.countDuplicateAck seg).1.state = c.state ∧
        ((c.updatePeerWindow seg).1.countDuplicateAck seg).1.sent = c.sent ∧
        ((c.updatePeerWindow seg).1.countDuplicateAck seg).1.retxQueue = c.retxQueue := by
      unfold countDuplicateAck
      split_ifs <;> exact ⟨rfl, rfl, rfl, rfl⟩
    unfold answerOldAck
    dsimp only
    generalize ((c.updatePeerWindow seg).1.countDuplicateAck seg).1 = d at hwindow hmss hcount ⊢
    obtain ⟨hsend, hstate, hsent, hretx⟩ := hcount
    have hresend : ∀ fast, (d.retransmitOldest now fast).sendQueue = c.sendQueue ∧
        (d.retransmitOldest now fast).peerWindow = seg.window <<< c.sndWscale ∧
        (d.retransmitOldest now fast).reno.mss = c.reno.mss ∧
        (d.retransmitOldest now fast).state = c.state ∧
        Sends c.Repeats c (d.retransmitOldest now fast) := by
      intro fast
      have hframe := sendFrame_retransmitOldest d now fast
      refine ⟨(d.retransmitOldest_sendQueue now fast).trans hsend, hframe.peerWindow.trans hwindow, ?_,
        hframe.state.trans hstate, (Sends.of_eq hsent).trans ?_⟩
      · rw [retransmitOldest_reno]
        exact hmss
      · have h := sends_retransmitOldest d now fast
        unfold Repeats at h
        rwa [hretx] at h
    split_ifs
    · exact hresend true
    · exact hresend false
    · exact ⟨hsend, hwindow, hmss, hstate, .of_eq hsent⟩

/-- Outside the synchronised states `_process_ack` sends nothing new, for `_flush` does nothing there. -/
theorem sends_processAck_of_not_synchronised (hsync : c.state.isSynchronised = false) (seg : TCPSegment)
    (now : Time) : Sends c.Repeats c (c.processAck seg now) := by
  obtain ⟨-, -, -, hstate, hsends⟩ := c.acked_spec seg now
  rw [processAck_eq_flush, flush, if_pos (by rw [hstate, hsync]; rfl)]
  exact hsends

theorem sends_onSegment_of_not_takesAck (srcIp : Option Bytes) (draw : SeqNo) (now : Time)
    (htakes : c.takesAck seg = false) : Sends c.Repeats c (c.onSegment seg srcIp draw now).1 := by
  have hstamp : Sends c.Repeats c (c.stamp now) := .of_eq rfl
  have htrail : ∀ {d : TCPConnection}, Trailing (c.stamp now) d → Sends c.Repeats c d :=
    fun h => hstamp.trans (.of_trailing h)
  refine onSegment_of_not_takesAck_cases (P := Sends c.Repeats c) srcIp draw now htakes
    (htrail (.reject _ seg now)) (fun _ => .of_eq rfl) hstamp ?_
    (hstamp.trans (sends_retransmitOldest (c.stamp now) now false)) (htrail (.sendAck _ now))
    (htrail (.afterAck _ seg now))
  rw [handleSimultaneousOpen_eq]
  exact .of_payload_nil rfl rfl

theorem sends_onSegment_of_handshake (srcIp : Option Bytes) (draw : SeqNo) (now : Time)
    (htakes : c.takesAck seg = true) (hsync : c.state.isSynchronised = false) :
    Sends c.Repeats c (c.onSegment seg srcIp draw now).1 := by
  obtain ⟨a, -, hsent, hretx, hstate, htrail⟩ := onSegment_of_takesAck srcIp draw now htakes
  have hsends := sends_processAck_of_not_synchronised (hstate ▸ hsync) seg now
  have hsame : a.Repeats = c.Repeats := by
    unfold Repeats
    rw [hretx]
  rw [hsame] at hsends
  exact (Sends.of_eq hsent).trans (hsends.trans (.of_trailing htrail))

/-! ### The timers -/

/-- What `_flush` and the timers look at is the same. -/
structure SameOffer (c d : TCPConnection) : Prop where
  sendQueue : d.sendQueue = c.sendQueue
  peerWindow : d.peerWindow = c.peerWindow
  mss : d.reno.mss = c.reno.mss
  persistAt : d.persistAt = c.persistAt
  retransmitAt : d.retransmitAt = c.retransmitAt
  retxQueue : d.retxQueue = c.retxQueue

theorem sameOffer_sendAck (c : TCPConnection) (now : Time) : SameOffer c (c.sendAck now) := by
  unfold sendAck
  dsimp only
  split_ifs
  · exact ⟨rfl, rfl, rfl, rfl, rfl, rfl⟩
  · rw [transmit_untracked _ _ _ _ _ (by decide)]
    exact ⟨rfl, rfl, rfl, rfl, rfl, rfl⟩

theorem onRetransmitTimeout_spec (c : TCPConnection) (now : Time) :
    Sends c.Repeats c (c.onRetransmitTimeout now) ∧
      (c.onRetransmitTimeout now).peerWindow = c.peerWindow ∧
      (c.onRetransmitTimeout now).persistAt = c.persistAt ∧
      if c.retxQueue.oldest.any (MAX_RETRANSMITS ≤ ·.retransmits) then
        (c.onRetransmitTimeout now).state = .closed
      else (c.onRetransmitTimeout now).sendQueue = c.sendQueue ∧
        (c.onRetransmitTimeout now).reno.mss = c.reno.mss := by
  unfold onRetransmitTimeout
  cases hold : c.retxQueue.oldest with
  | none => exact ⟨.of_eq rfl, rfl, rfl, rfl, rfl⟩
  | some oldest =>
    have hmem : oldest ∈ c.retxQueue.segments := List.mem_of_mem_head? hold
    dsimp only
    rw [Option.any_some]
    by_cases hmax : oldest.retransmits ≥ MAX_RETRANSMITS
    · rw [if_pos hmax, if_pos (decide_eq_true hmax)]
      exact ⟨.of_eq rfl, rfl, rfl, rfl⟩
    · rw [if_neg hmax, if_neg (by simpa using hmax)]
      have hsend := sends_resend (c := { c with reno := c.reno.onTimeout, rto := c.rto.backoff }) hmem now
      rw [resend_eq] at hsend ⊢
      exact ⟨(Sends.of_eq rfl).trans hsend, rfl, rfl, rfl, rfl⟩

/-- The retransmission timer is due and the oldest segment was sent too often. -/
def givesUp (c : TCPConnection) (now : Time) : Bool :=
  due c.retransmitAt now && c.retxQueue.oldest.any (MAX_RETRANSMITS ≤ ·.retransmits)

/-- The connection once `on_tick` is done with the delayed ACK and the retransmission timer. -/
def retransmitted (c : TCPConnection) (now : Time) : TCPConnection :=
  let c := if due c.delayedAckAt now then c.sendAck now else c
  if due c.retransmitAt now then c.onRetransmitTimeout now else c

/-- What `on_tick` does after that: the persist timer, then the end of TIME_WAIT. -/
theorem onTick_eq (c : TCPConnection) (now : Time) :
    c.onTick now =
      let d := c.retransmitted now
      let f := if due d.persistAt now then d.onPersistTimeout now else d
      if f.state = .timeWait ∧ due f.timeWaitUntil now then f.teardown.notify .closed else f := rfl

theorem retransmitted_spec (c : TCPConnection) (now : Time) :
    Sends c.Repeats c (c.retransmitted now) ∧ (c.retransmitted now).peerWindow = c.peerWindow ∧
      (c.retransmitted now).persistAt = c.persistAt ∧
      if c.givesUp now then (c.retransmitted now).state = .closed
      else (c.retransmitted now).sendQueue = c.sendQueue ∧
        (c.retransmitted now).reno.mss = c.reno.mss := by
  have hack : SameOffer c (if due c.delayedAckAt now then c.sendAck now else c) ∧
      Sends c.Repeats c (if due c.delayedAckAt now then c.sendAck now else c) := by
    split_ifs
    · exact ⟨sameOffer_sendAck c now, .of_trailing (.sendAck c now)⟩
    · exact ⟨⟨rfl, rfl, rfl, rfl, rfl, rfl⟩, .refl c⟩
  unfold retransmitted givesUp
  dsimp only
  generalize (if due c.delayedAckAt now = true then c.sendAck now else c) = b at hack ⊢
  obtain ⟨⟨hqueue, hoffer, hmss, hpersist, hretx, hsegs⟩, hbefore⟩ := hack
  rw [← hretx, ← hsegs]
  cases hdue : due b.retransmitAt now with
  | false => exact ⟨hbefore, hoffer, hpersist, hqueue, hmss⟩
  | true =>
    obtain ⟨hsends, hoffer', hpersist', hrest⟩ := b.onRetransmitTimeout_spec now
    have hrepeats : Sends c.Repeats b (b.onRetransmitTimeout now) := by
      unfold Repeats at hsends ⊢
      rwa [hsegs] at hsends
    rw [if_pos rfl, Bool.true_and]
    refine ⟨hbefore.trans hrepeats, hoffer'.trans hoffer, hpersist'.trans hpersist, ?_⟩
    cases hmax : b.retxQueue.oldest.any (MAX_RETRANSMITS ≤ ·.retransmits) with
    | true =>
      rw [if_pos hmax] at hrest
      exact hrest
    | false =>
      rw [if_neg (by rw [hmax]; decide)] at hrest
      exact ⟨hrest.1.trans hqueue, hrest.2.trans hmss⟩

theorem trailing_expire (c : TCPConnection) (now : Time) :
    Trailing c (if c.state = .timeWait ∧ due c.timeWaitUntil now then c.teardown.notify .closed else c) := by
  split_ifs
  · exact ⟨rfl, rfl, .inr rfl, fun _ => rfl, ⟨[], (List.append_nil _).symm, rfl⟩, rfl, rfl⟩
  · exact .refl c

end TCPConnection

/-! ### Events -/

namespace Endpoint

open TCPConnection

variable {p : Endpoint} {e : Event} {bound : Nat → Nat}

/-- A call that runs `_flush` in a synchronised state, with the queue and the window `_flush` finds: for a
segment those after its ACK, for `send` those with the new bytes. A tick runs it when the persist timer is
due and the connection is not given up first. -/
def flushes (c : TCPConnection) : Event → Option (SendQueue × Nat)
  | .send data _ =>
    if c.canSend && (c.sendQueue.write data).2 != 0 then some ((c.sendQueue.write data).1, c.peerWindow)
    else none
  | .segment seg _ _ _ =>
    if c.state.isSynchronised && c.takesAck seg then
      some ((c.sendQueue.acknowledge seg.ack).1, seg.window <<< c.sndWscale)
    else none
  | .tick now =>
    if due c.persistAt now && !c.givesUp now then some (c.sendQueue, c.peerWindow) else none
  | _ => none

/-- `_flush` does not meet a queue that makes it overshoot. -/
def KeepsOffer (p : Endpoint) (e : Event) : Prop :=
  ∀ q offer, flushes p.conn e = some (q, offer) → ¬ Overshoots p.conn.reno.mss q offer

/-- With an open window, everything the call puts on the wire is a repetition of an outstanding segment or
lies below `snd_una + bound peer_window`. -/
def Within (bound : Nat → Nat) (p : Endpoint) (e : Event) : Prop :=
  0 < (p.step e).conn.peerWindow →
    Sends (fun x => p.conn.Repeats x ∨ x.Below (p.step e).conn.sndUna (bound (p.step e).conn.peerWindow))
      p.conn (p.step e).conn

/-- New data stay below `snd_una + peer_window`. -/
def WithinOffer : Endpoint → Event → Prop := Within id

/-- Every `_flush` that the call can run stays below the bound. -/
def Flushes (bound : Nat → Nat) (p : Endpoint) (e : Event) : Prop :=
  ∀ q offer, flushes p.conn e = some (q, offer) → FlushesBelow bound p.conn.reno.mss q offer

theorem within_of_flush {c d c' : TCPConnection} {now : Time} (hbefore : Sends c.Repeats c d)
    (hafter : Trailing (d.flush now) c') (hwindow : c'.peerWindow = d.peerWindow)
    (h : FlushesBelow bound d.reno.mss d.sendQueue d.peerWindow) (hopen : 0 < c'.peerWindow) :
    Sends (fun x => c.Repeats x ∨ x.Below c'.sndUna (bound c'.peerWindow)) c c' := by
  have huna : c'.sndUna = d.sendQueue.una := hafter.una.trans (sendFrame_flush d now).una
  rw [hwindow] at hopen ⊢
  rw [huna]
  refine (hbefore.mono fun _ => .inl).trans (Sends.trans ?_ (.of_trailing hafter))
  exact (h d now rfl rfl rfl hopen).mono fun _ => .inr

theorem within_segment {seg : TCPSegment} {srcIp : Option Bytes} {draw : SeqNo} {now : Time}
    (h : p.Flushes bound (.segment seg srcIp draw now)) : p.Within bound (.segment seg srcIp draw now) := by
  intro hopen
  simp only [Endpoint.step, put_conn] at hopen ⊢
  cases htakes : p.conn.takesAck seg with
  | false => exact (sends_onSegment_of_not_takesAck srcIp draw now htakes).mono fun _ => .inl
  | true =>
    cases hsync : p.conn.state.isSynchronised with
    | false => exact (sends_onSegment_of_handshake srcIp draw now htakes hsync).mono fun _ => .inl
    | true =>
      obtain ⟨hqueue, hoffer, hmss, -, hbefore⟩ := (p.conn.stamp now).acked_spec seg now
      have hafter := onSegment_of_synchronised srcIp draw now hsync htakes
      have hcalm : Calm (if p.conn.takesAck seg = true then (p.conn.stamp now).processAck seg now else p.conn)
          (p.conn.onSegment seg srcIp draw now).1 := calm_onSegment srcIp draw now (.inl hsync)
      rw [if_pos htakes] at hcalm
      have hflush := Calm.flush ((p.conn.stamp now).acked seg now) now
      rw [processAck_eq_flush] at hafter hcalm
      refine within_of_flush (d := (p.conn.stamp now).acked seg now) ?_ hafter
        (hcalm.peerWindow.trans hflush.peerWindow) ?_ hopen
      · exact (Sends.of_eq (d := p.conn.stamp now) rfl).trans hbefore
      · rw [hqueue, hoffer, hmss]
        apply h
        simp only [flushes, hsync, htakes, Bool.and_self, if_true]
        rfl

theorem within_tick {now : Time} (h : p.Flushes bound (.tick now)) : p.Within bound (.tick now) := by
  intro hopen
  simp only [Endpoint.step, put_conn] at hopen ⊢
  have hsame := SameWindow.onTick p.conn now
  obtain ⟨hbefore, hoffer, hpersist, hrest⟩ := p.conn.retransmitted_spec now
  rw [hsame.peerWindow] at hopen
  rw [onTick_eq] at hsame ⊢
  dsimp only at hsame ⊢
  generalize p.conn.retransmitted now = d at hbefore hoffer hpersist hrest hsame ⊢
  rw [hpersist] at hsame ⊢
  cases hdue : due p.conn.persistAt now with
  | false =>
    rw [if_neg Bool.false_ne_true]
    exact (hbefore.trans (.of_trailing (trailing_expire d now))).mono fun _ => .inl
  | true =>
    have hpos : 0 < d.peerWindow := hoffer ▸ hopen
    rw [hdue, if_pos rfl, onPersistTimeout, if_pos hpos] at hsame
    rw [if_pos rfl, onPersistTimeout, if_pos hpos]
    have hbefore' : Sends p.conn.Repeats p.conn
        { d with persistAt := none, persistDelay := DEFAULT_PERSIST_DELAY } :=
      hbefore.trans (.of_eq rfl)
    cases hgone : p.conn.givesUp now with
    | true =>
      -- the connection was given up, and `_flush` does nothing
      rw [if_pos hgone] at hrest
      have hstop : ({ d with persistAt := none, persistDelay := DEFAULT_PERSIST_DELAY } :
          TCPConnection).flush now =
          { d with persistAt := none, persistDelay := DEFAULT_PERSIST_DELAY } := by
        rw [TCPConnection.flush, if_pos (by rw [hrest]; rfl)]
      rw [hstop]
      exact (hbefore'.trans (.of_trailing (trailing_expire _ now))).mono fun _ => .inl
    | false =>
      rw [if_neg (by rw [hgone]; decide)] at hrest
      apply within_of_flush hbefore' (trailing_expire _ now) (hsame.peerWindow.trans hoffer.symm)
      · show FlushesBelow bound d.reno.mss d.sendQueue d.peerWindow
        rw [hrest.1, hrest.2, hoffer]
        apply h
        simp only [flushes, hdue, hgone, Bool.not_false, Bool.and_self, if_true]
      · rw [hsame.peerWindow]
        exact hopen

theorem within_send {data : Bytes} {now : Time} (h : p.Flushes bound (.send data now)) :
    p.Within bound (.send data now) := by
  intro hopen
  simp only [Endpoint.step] at hopen ⊢
  cases hsend : p.conn.send data now with
  | error err => exact .of_eq rfl
  | ok r =>
    rw [hsend] at hopen
    obtain ⟨hstate, rfl | ⟨hwritten, rfl⟩⟩ := send_ok _ hsend
    · exact .of_eq rfl
    · have hcalm := Calm.flush { p.conn with sendQueue := (p.conn.sendQueue.write data).1 } now
      apply within_of_flush (d := { p.conn with sendQueue := (p.conn.sendQueue.write data).1 })
        (.of_eq rfl) (.refl _) hcalm.peerWindow
      · apply h
        have hcan : p.conn.canSend = true := by
          unfold canSend
          rcases hstate with hst | hst <;> rw [hst] <;> rfl
        simp only [flushes, hcan, Bool.true_and, bne_iff_ne, ne_eq, hwritten, not_false_eq_true, if_true]
      · exact hopen

theorem within_of_flushes (h : p.Flushes bound e) : p.Within bound e := by
  cases e with
  | segment seg srcIp draw now => exact within_segment h
  | tick now => exact within_tick h
  | send data now => exact within_send h
  | listen =>
    intro
    simp only [Endpoint.step, TCPConnection.listen]
    split_ifs <;> exact .of_eq rfl
  | connect draw now =>
    intro
    simp only [Endpoint.step]
    cases hconn : p.conn.connect draw now with
    | error err => exact .of_eq rfl
    | ok c =>
      obtain ⟨-, rfl⟩ := connect_eq hconn
      exact .of_payload_nil rfl rfl
  | recv maxBytes now =>
    intro
    simp only [Endpoint.step, put_conn, recv]
    split_ifs
    · exact .of_eq rfl
    · exact Sends.trans (c := { p.conn with recvQueue := (p.conn.recvQueue.read maxBytes).1 }) (.of_eq rfl)
        (.of_trailing (.sendAck _ now))
    · exact .of_eq rfl
  | abort now =>
    intro
    simp only [Endpoint.step, put_conn]
    rw [abort_eq]
    split_ifs
    · exact .of_payload_nil rfl rfl
    · exact .of_eq rfl
  | close now =>
    intro
    simp only [Endpoint.step, put_conn, close]
    split
    · rw [sendFin_eq]
      exact .of_payload_nil rfl rfl
    · rw [sendFin_eq]
      exact .of_payload_nil rfl rfl
    · rw [abort_eq]
      split_ifs
      · exact .of_payload_nil rfl rfl
      · exact .of_eq rfl
    · rw [abort_eq]
      split_ifs
      · exact .of_payload_nil rfl rfl
      · exact .of_eq rfl
    all_goals exact .of_eq rfl

/-- Whatever a connection sends for the first time under an open window is numbered below `snd_una + mss`, or below
`snd_una + peer_window` where that is more; and always below the latter in a call that does not overshoot. -/
theorem within_offer_or_segment (hp : endpoint.Reachable p) (e : Event) :
    p.Within (max · p.conn.cfg.mss) e ∧ (p.KeepsOffer e → p.WithinOffer e) := by
  constructor
  · rw [← (TCPConnection.basic_of_reachable hp).mss]
    exact within_of_flushes fun q offer _ => flushesBelow_segment _ q offer
  · intro h
    exact within_of_flushes fun q offer hflush => flushesBelow_offer (h q offer hflush)

/-- The established client, once its peer offers two bytes. -/
def offeredTwo : Endpoint :=
  establishedClient.step (.segment
    { srcPort := 2000, dstPort := 1000, seq := 501, ack := 101, flags := FLAG_ACK, window := 2 } none 0 0)

theorem reachable_offeredTwo : endpoint.Reachable offeredTwo := by
  rw [offeredTwo, ← endpoint_next]
  apply reachable_establishedClient.step
  trivial

/-- Five new bytes go out at once although the peer offers room for two. -/
theorem five_bytes_under_an_offer_of_two :
    endpoint.Reachable offeredTwo ∧ offeredTwo.conn.peerWindow = 2 ∧ offeredTwo.conn.sndUna = 101 ∧
      offeredTwo.conn.sndNxt = 101 ∧
      (offeredTwo.step (.send [1, 2, 3, 4, 5] 0)).conn.sent =
        offeredTwo.conn.sent ++ [offeredTwo.conn.dataSegment [1, 2, 3, 4, 5]] ∧
      ¬ offeredTwo.WithinOffer (.send [1, 2, 3, 4, 5] 0) := by
  have hsent : (offeredTwo.step (.send [1, 2, 3, 4, 5] 0)).conn.sent =
      offeredTwo.conn.sent ++ [offeredTwo.conn.dataSegment [1, 2, 3, 4, 5]] := by decide
  refine ⟨reachable_offeredTwo, by decide, by decide, by decide, hsent, fun h => ?_⟩
  obtain ⟨segs, hsegs, hall⟩ := h (by decide)
  obtain rfl := List.append_cancel_left (hsent.symm.trans hsegs)
  rcases hall _ List.mem_cons_self (by decide) with ⟨entry, hentry, -⟩ | hbelow
  · rw [show offeredTwo.conn.retxQueue.segments = [] by decide] at hentry
    exact absurd hentry List.not_mem_nil
  · exact absurd (hbelow 2 (by decide)) (by decide)

/-- They stay below one segment. -/
theorem within_segment_offeredTwo :
    offeredTwo.conn.cfg.mss = 1460 ∧
      offeredTwo.Within (max · offeredTwo.conn.cfg.mss) (.send [1, 2, 3, 4, 5] 0) :=
  ⟨by decide, (within_offer_or_segment reachable_offeredTwo _).1⟩

end Endpoint

end MiniTcp
