import MiniTcp.Net.Tcp.AckFlow
import MiniTcp.Net.Tcp.Footprint
import MiniTcp.Net.Tcp.Offer
import MiniTcp.Net.Tcp.Output

/-!
# One side of a perfect wire

What a call does at one of two established connections between which nothing is lost or reordered. As long as
its window stays open the connection is `Smooth`: in-order data arrives and is taken whole, everything in
flight is buffered. `Linked c d` says how it hangs together with the other side, in both directions. Each of
the methods keeps that, where an inbound segment is split in two: its ACK is taken first and its data
afterwards, so the two are parameters of their own.
-/

namespace MiniTcp

open TCPConnection

namespace ReceiveQueue

variable {q : ReceiveQueue} {payload : Bytes}

theorem insert_of_next (h : q.Within) (hooo : q.ooo.data = []) (hne : payload ≠ [])
    (hroom : (q.insert q.nxt payload).1.window ≠ 0) :
    q.insert q.nxt payload = (q.extend payload, payload.length) := by
  have hpeek : ∀ seq, q.ooo.peek seq = none := by
    intro seq
    simp [ReorderQueue.peek, hooo]
  have haccept : q.insert q.nxt payload = if q.window = 0 then (q, 0)
      else (q.extend (payload.take q.window), (payload.take q.window).length) := by
    rw [insert, if_neg hne, if_pos rfl, accept]
    split_ifs
    · rfl
    · dsimp only
      rw [drain]
      simp only [extend, ReorderQueue.take, hpeek, Nat.add_zero]
  rw [haccept] at hroom ⊢
  split_ifs at hroom ⊢ with hfull
  · exact absurd hfull hroom
  · -- a piece that was cut off would have filled the queue
    have hwhole : payload.length ≤ q.window := by
      by_contra hcut
      apply hroom
      have hlen : (payload.take q.window).length = q.window := by
        rw [List.length_take]
        omega
      have havailable := available_extend h (payload.take q.window)
      have hheld : (q.extend (payload.take q.window)).heldOutOfOrder = q.heldOutOfOrder := rfl
      have hcapacity : (q.extend (payload.take q.window)).capacity = q.capacity := rfl
      have hwindow : q.window = q.capacity - (q.available + q.heldOutOfOrder) := rfl
      rw [window, hcapacity, havailable, hheld, hlen]
      omega
    rw [List.take_of_length_le hwhole]

end ReceiveQueue

/-- An ordinary segment of an established connection, with a window that a peer can use. -/
structure TCPSegment.Plain (x : TCPSegment) : Prop where
  isAck : x.isAck = true
  isRst : x.isRst = false
  isSyn : x.isSyn = false
  isFin : x.isFin = false
  window_ne : x.window ≠ 0
  window_le : x.window ≤ 0xFFFF

theorem TCPSegment.Plain.shift_ne {x : TCPSegment} (h : x.Plain) (scale : Nat) : x.window <<< scale ≠ 0 := by
  rw [Nat.shiftLeft_eq, Nat.mul_ne_zero_iff]
  exact ⟨h.window_ne, (Nat.two_pow_pos _).ne'⟩

namespace TCPConnection

variable {c d : TCPConnection} {now : Time}

/-- Whether a repetition of `snd_una` has been counted. -/
def counted (c : TCPConnection) : Bool := c.reno.duplicateAcks ≠ 0

/-- Whether an ACK is held back. -/
def owes (c : TCPConnection) : Bool := c.delayedAckAt.isSome

/-- One side of a perfect wire: established, with an open window and room of its own, everything in flight
still buffered and nothing parked. -/
structure Smooth (c : TCPConnection) : Prop where
  established : c.state = .established
  buffered : Serial.gap c.sndUna c.sndNxt ≤ c.sendQueue.buf.length
  offered : c.Offered
  open_ne : c.peerWindow ≠ 0
  mss : c.reno.mss ≤ 0xFFFF
  peerMss : 1 ≤ c.peerMss
  within : c.recvQueue.Within
  parked : c.recvQueue.ooo.data = []
  capacity_pos : 0 < c.recvQueue.capacity
  capacity_lt : c.recvQueue.capacity < 2 ^ 31
  room : c.advertisedWindow ≠ 0

namespace Smooth

theorem synchronised (h : c.Smooth) : c.state.isSynchronised = true := by
  rw [h.established]
  rfl

theorem plain {seq ack : SeqNo} {flags : Flags} {payload : Bytes} (h : c.Smooth)
    (hflags : flags = FLAG_ACK ∨ flags = FLAG_ACK ||| FLAG_PSH) :
    (c.segmentOf seq flags payload ack {}).Plain := by
  have hbits : (flags &&& FLAG_ACK != 0) = true ∧ (flags &&& FLAG_RST != 0) = false ∧
      (flags &&& FLAG_SYN != 0) = false ∧ (flags &&& FLAG_FIN != 0) = false := by
    rcases hflags with rfl | rfl <;> decide
  exact ⟨hbits.1, hbits.2.1, hbits.2.2.1, hbits.2.2.2, h.room, Nat.min_le_right _ _⟩

/-- The rest of the connection does not matter, and the queues may change where it does not show. -/
theorem of_frame (h : c.Smooth) (hframe : SendFrame c d) (hreno : d.reno.mss = c.reno.mss)
    (hbuffered : Serial.gap d.sndUna d.sndNxt ≤ d.sendQueue.buf.length) : d.Smooth where
  established := hframe.state.trans h.established
  buffered := hbuffered
  offered := h.offered.of_sendFrame hframe
  open_ne := hframe.peerWindow ▸ h.open_ne
  mss := hreno ▸ h.mss
  peerMss := hframe.peerMss ▸ h.peerMss
  within := hframe.recvQueue ▸ h.within
  parked := hframe.recvQueue ▸ h.parked
  capacity_pos := hframe.recvQueue ▸ h.capacity_pos
  capacity_lt := hframe.recvQueue ▸ h.capacity_lt
  room := by
    rw [advertisedWindow, hframe.recvQueue, hframe.cfg]
    exact h.room

end Smooth

/-! ### `_flush` -/

/-- What `_flush` hands out acknowledges `rcv_nxt` and offers the window of the moment; an ACK that is held
back stays so. -/
theorem sends_flush_plain (h : c.Smooth) (now : Time) :
    Sends (fun x => x.ack = c.rcvNxt ∧ x.Plain) c (c.flush now) ∧ (c.flush now).delayedAckAt = c.delayedAckAt := by
  have hloop : ∀ (fuel : Nat) (d : TCPConnection), d.cfg = c.cfg → d.recvQueue = c.recvQueue →
      Sends (fun x => x.ack = c.rcvNxt ∧ x.Plain) d (flushLoop now fuel d) ∧
        (flushLoop now fuel d).delayedAckAt = d.delayedAckAt := by
    intro fuel
    induction fuel with
    | zero => exact fun d _ _ => ⟨.refl d, rfl⟩
    | succ fuel ih =>
      intro d hcfg hrecv
      unfold flushLoop
      dsimp only
      split_ifs with hfull hnil hshort
      · exact ⟨.refl d, rfl⟩
      · exact ⟨.refl d, rfl⟩
      all_goals
        have hsend : Sends (fun x => x.ack = c.rcvNxt ∧ x.Plain) d (d.transmitData d.nextPayload.1 now) ∧
            (d.transmitData d.nextPayload.1 now).delayedAckAt = d.delayedAckAt := by
          rw [transmitData_eq d now hnil]
          refine ⟨⟨[d.dataSegment d.nextPayload.1], rfl, fun x hx _ => ?_⟩, rfl⟩
          obtain rfl := List.mem_singleton.mp hx
          have hsame : d.dataSegment d.nextPayload.1 = c.segmentOf d.sendQueue.nxt (FLAG_ACK ||| FLAG_PSH)
              d.nextPayload.1 c.recvQueue.nxt {} := by
            rw [dataSegment, segmentOf, segmentOf, advertisedWindow, advertisedWindow, hcfg, hrecv]
          rw [hsame]
          exact ⟨rfl, h.plain (.inr rfl)⟩
      · exact hsend
      · have hframe := sendFrame_transmitData d d.nextPayload.1 now
        have hrest := ih _ (hframe.cfg.trans hcfg) (hframe.recvQueue.trans hrecv)
        exact ⟨hsend.1.trans hrest.1, hrest.2.trans hsend.2⟩
  unfold flush
  rw [if_neg (by rw [h.synchronised]; decide), if_neg h.open_ne]
  obtain ⟨hsends, hheld⟩ := hloop (c.sendQueue.buf.length + 1)
    { c with persistAt := none, persistDelay := DEFAULT_PERSIST_DELAY } rfl rfl
  exact ⟨hsends, hheld⟩

/-- `_flush` on a perfect wire: the segments continue at `snd_nxt`, and the connection stays smooth. -/
theorem Smooth.flush (h : c.Smooth) (hnear : 2 * Serial.gap c.sndUna c.sndNxt < 2 ^ 32) (now : Time) :
    ∃ segs, (c.flush now).sent = c.sent ++ segs ∧ Consecutive c.sndNxt segs ∧
      (∀ x ∈ segs, x.payload ≠ [] ∧ x.ack = c.rcvNxt ∧ x.Plain) ∧
      Serial.gap c.sndUna (c.flush now).sndNxt =
        Serial.gap c.sndUna c.sndNxt + (segs.flatMap (·.payload)).length ∧
      2 * Serial.gap c.sndUna (c.flush now).sndNxt < 2 ^ 32 ∧ (c.flush now).Smooth := by
  have hle : seqLe c.sendQueue.una c.sendQueue.nxt = true := by
    rw [seqLe_iff, Serial.le_iff_gap]
    exact hnear
  have hflight : c.sendQueue.inFlight = Serial.gap c.sndUna c.sndNxt := inFlight_of_le hle
  have hwindow := Paced.effectiveWindow_le h.offered h.mss
  have hlimit : MAX_OFFER < 2 ^ 31 := by decide
  have hbuffered := h.buffered
  have hbuf : c.sendQueue.buffered = c.sendQueue.buf.length := rfl
  obtain ⟨segs, hsent, hconsecutive, hsegs, hbytes, hqueue⟩ :=
    ((flush_sends now h.synchronised hle h.peerMss (by omega)).1 (Nat.pos_of_ne_zero h.open_ne)).1
  obtain ⟨⟨segs', hsent', hplain⟩, -⟩ := sends_flush_plain h now
  obtain rfl : segs = segs' := List.append_cancel_left (hsent.symm.trans hsent')
  have hreach : c.reach = max c.sendQueue.inFlight
      (min (c.reno.effectiveWindow c.peerWindow) c.sendQueue.buffered) := rfl
  have hgap : Serial.gap c.sndUna (c.flush now).sndNxt = c.reach := by
    rw [sndNxt, hqueue]
    exact Serial.gap_shift (by omega)
  have hlen : (segs.flatMap (·.payload)).length = c.reach - c.sendQueue.inFlight := by
    rw [hbytes, List.length_drop, List.length_take]
    omega
  refine ⟨segs, hsent, hconsecutive, fun x hx => ⟨(hsegs x hx).1, hplain x hx (hsegs x hx).1⟩, ?_, ?_, ?_⟩
  · rw [hgap, hlen]
    omega
  · rw [hgap]
    omega
  · apply h.of_frame (sendFrame_flush c now) (congrArg RenoCongestion.mss (Calm.flush c now).reno)
    rw [sndUna, (sendFrame_flush c now).una, (sendFrame_flush c now).buf]
    change Serial.gap c.sndUna (c.flush now).sndNxt ≤ _
    omega

/-! ### Both directions at one side -/

theorem maybeAdvanceAfterAck_of_established (h : c.state = .established) (seg : TCPSegment) (now : Time) :
    c.maybeAdvanceAfterAck seg now = c := by
  unfold maybeAdvanceAfterAck
  simp only [h, reduceCtorEq, if_false]
  split
  · rfl
  · split_ifs <;> rfl

theorem sendAck_established (h : c.state = .established) (now : Time) :
    c.sendAck now = ({ c with delayedAckAt := none } : TCPConnection).emit
      (c.segmentOf c.sndNxt FLAG_ACK [] c.rcvNxt {}) := by
  unfold sendAck
  dsimp only
  rw [if_neg (by rw [h]; decide), transmit_untracked _ _ _ _ _ (by decide)]
  rfl

/-- `c` and what it shares with `d`: `acks` and `data` are what is under way from `d`, of which `c` has still
to take the ACKs and the data, `toPeer` is what is under way to `d`, and `owed` says whether `c` owes an ACK. -/
structure Linked (c d : TCPConnection) (owed : Bool) (acks data toPeer : List Carried) : Prop where
  smooth : c.Smooth
  outward : Flow c.sndUna c.sndNxt d.rcvNxt c.counted d.owes toPeer acks
  inward : Flow d.sndUna d.sndNxt c.rcvNxt d.counted owed data toPeer

namespace Linked

variable {acks data toPeer : List Carried} {owed u : Bool} {x : Carried}

theorem congr {c' : TCPConnection} (h : Linked c d owed acks data toPeer) (hsmooth : c'.Smooth)
    (hsend : c'.sendQueue.una = c.sendQueue.una ∧ c'.sendQueue.nxt = c.sendQueue.nxt)
    (hrecv : c'.recvQueue.nxt = c.recvQueue.nxt) (hreno : c'.reno = c.reno) :
    Linked c' d owed acks data toPeer where
  smooth := hsmooth
  outward := by
    rw [sndUna, sndNxt, hsend.1, hsend.2, counted, hreno]
    exact h.outward
  inward := by
    rw [rcvNxt, hrecv]
    exact h.inward

theorem flush (h : Linked c d owed acks data toPeer) (now : Time) :
    ∃ segs, (c.flush now).sent = c.sent ++ segs ∧ (∀ y ∈ segs, y.Plain) ∧
      Linked (c.flush now) d owed acks data (toPeer ++ segs.map (⟨·, false⟩)) := by
  obtain ⟨segs, hsent, hconsecutive, hsegs, hgap, hnear, hsmooth⟩ := h.smooth.flush h.outward.near now
  have hframe := sendFrame_flush c now
  have hmap : (segs.map (⟨·, false⟩ : TCPSegment → Carried)).map (·.seg) = segs := by
    rw [List.map_map]
    exact List.map_id _
  refine ⟨segs, hsent, fun y hy => (hsegs y hy).2.2, hsmooth, ?_, ?_⟩
  · rw [sndUna, hframe.una, counted, (Calm.flush c now).reno]
    apply h.outward.push hnear
    · rw [hgap, Carried.bytes, List.flatMap_map]
    · rwa [hmap]
  · rw [rcvNxt, hframe.recvQueue]
    apply h.inward.answer_data
    intro y hy
    obtain ⟨z, hz, rfl⟩ := List.mem_map.mp hy
    exact ⟨(hsegs z hz).2.1, (hsegs z hz).1⟩

theorem sendAck (h : Linked c d owed acks data toPeer) (hu : u = false → owed = true) (now : Time) :
    ∃ y, (c.sendAck now).sent = c.sent ++ [y] ∧ y.Plain ∧ (c.sendAck now).delayedAckAt = none ∧
      Linked (c.sendAck now) d false acks data (toPeer ++ [⟨y, u⟩]) := by
  rw [sendAck_established h.smooth.established now]
  refine ⟨_, rfl, h.smooth.plain (.inl rfl), rfl, ?_, ?_, ?_⟩
  · exact h.smooth.of_frame (by constructor <;> rfl) rfl h.smooth.buffered
  · have hpushed : Flow c.sndUna c.sndNxt d.rcvNxt c.counted d.owes
        (toPeer ++ [⟨c.segmentOf c.sndNxt FLAG_ACK [] c.rcvNxt {}, u⟩]) acks :=
      h.outward.push h.outward.near rfl ⟨rfl, trivial⟩
    exact hpushed
  · exact h.inward.answer rfl (fun _ => hu) nofun

/-- An ACK that repeats `snd_una` is counted, when it counts. -/
theorem acked_old (h : Linked c d owed (x :: acks) data toPeer) (hx : x.seg.Plain)
    (hreno : c.reno.state ≠ .fastRecovery)
    (hthird : ¬ (x.seg.ack = c.sndUna ∧ 0 < c.sendQueue.inFlight ∧ c.reno.duplicateAcks = 2))
    (hdata : x.seg.payload ≠ [] → ¬ (x.seg.ack = c.sndUna ∧ 0 < c.sendQueue.inFlight))
    (hack : x.seg.ack = c.sndUna) (now : Time) :
    Linked (c.acked x.seg now) d owed acks data toPeer ∧ (c.acked x.seg now).sent = c.sent ∧
      (c.acked x.seg now).delayedAckAt = c.delayedAckAt := by
  have hpeer := hx.shift_ne c.sndWscale
  have hoffer := shift_le_maxOffer hx.window_le h.smooth.offered.scale
  have hgt : seqGt x.seg.ack c.sendQueue.una = false := by
    rw [Bool.eq_false_iff, Ne, seqGt_iff, show x.seg.ack = c.sendQueue.una from hack]
    exact Serial.not_lt_self _
  have hopen : (c.updatePeerWindow x.seg).2 = false := by simp [updatePeerWindow, h.smooth.open_ne]
  have hfast : ((c.updatePeerWindow x.seg).1.countDuplicateAck x.seg).2 = false :=
    Bool.eq_false_iff.mpr fun hf => hthird ((countDuplicateAck_fast_iff hreno).mp hf)
  rw [TCPConnection.acked, if_neg (by rw [hgt]; exact Bool.false_ne_true)]
  unfold answerOldAck
  dsimp only
  rw [if_neg (by rw [hfast]; exact Bool.false_ne_true), hopen, Bool.false_and, if_neg Bool.false_ne_true]
  unfold countDuplicateAck
  split_ifs with hdup
  · have hpure : x.seg.payload = [] := not_not.mp fun hne => hdata hne hdup
    refine ⟨⟨?_, ?_, h.inward⟩, rfl, rfl⟩
    · exact { h.smooth with
        offered := ⟨h.smooth.offered.scale, hoffer⟩
        open_ne := hpeer
        mss := (RenoCongestion.onDuplicateAck_mss _ _).le.trans h.smooth.mss }
    · apply h.outward.repeat_ack hack (.inr ⟨?_, hpure⟩)
      rw [counted, decide_eq_true_eq]
      change (c.reno.onDuplicateAck (some x.seg.ack)).1.duplicateAcks ≠ 0
      rw [RenoCongestion.onDuplicateAck_duplicateAcks hreno]
      exact Nat.succ_ne_zero _
  · refine ⟨⟨?_, ?_, h.inward⟩, rfl, rfl⟩
    · exact { h.smooth with
        offered := ⟨h.smooth.offered.scale, hoffer⟩
        open_ne := hpeer }
    · exact h.outward.repeat_ack hack (.inl rfl)

/-- An ACK ahead of `snd_una` moves it. -/
theorem acked_new (h : Linked c d owed (x :: acks) data toPeer) (hx : x.seg.Plain)
    (hreno : c.reno.state ≠ .fastRecovery) (hack : x.seg.ack ≠ c.sndUna) (now : Time) :
    Linked (c.acked x.seg now) d owed acks data toPeer ∧ (c.acked x.seg now).sent = c.sent ∧
      (c.acked x.seg now).delayedAckAt = c.delayedAckAt := by
  have hpeer := hx.shift_ne c.sndWscale
  have hoffer := shift_le_maxOffer hx.window_le h.smooth.offered.scale
  have hnear := h.outward.near
  have hle := h.outward.ack_le
  have hpos : 0 < Serial.gap c.sndUna x.seg.ack :=
    Nat.pos_of_ne_zero fun hzero => hack (Serial.gap_eq_zero.mp hzero).symm
  have hlt : Serial.Lt c.sndUna x.seg.ack := ⟨hpos, by omega⟩
  have hgt : seqGt x.seg.ack c.sendQueue.una = true := seqGt_iff.mpr hlt
  have hnew := h.outward.new_ack
  -- `snd_nxt` is not behind the ACK, so it stays
  have hqueue : (c.sendQueue.acknowledge x.seg.ack).1 = { c.sendQueue with
      una := x.seg.ack
      buf := c.sendQueue.buf.drop (Serial.gap c.sendQueue.una x.seg.ack) } := by
    have hstay : seqLt c.sendQueue.nxt x.seg.ack ≠ true := by
      rw [Ne, seqLt_iff]
      intro hbehind
      have hback := Serial.gap_comm (Serial.ne_of_lt hbehind)
      have hhalf := hbehind.2
      have hfront := hnew.near
      change 2 * Serial.gap x.seg.ack c.sendQueue.nxt < 2 ^ 32 at hfront
      omega
    rw [SendQueue.acknowledge_of_gt hgt, if_neg hstay]
  have hcount : (c.sendQueue.acknowledge x.seg.ack).2 = Serial.gap c.sndUna x.seg.ack := by
    rw [SendQueue.acknowledge, hgt]
    change seqDiff x.seg.ack c.sndUna = _
    rw [seqDiff_eq, Serial.diff_of_lt hlt]
  have hreno' : (c.retire x.seg now).reno.duplicateAcks = 0 :=
    RenoCongestion.onAck_duplicateAcks hreno (by rw [hcount]; omega) _
  have hsend : (c.retire x.seg now).sendQueue = _ := hqueue
  have hgap : Serial.gap x.seg.ack c.sndNxt = Serial.gap c.sndUna c.sndNxt - Serial.gap c.sndUna x.seg.ack := by
    rw [Serial.gap_from c.sndUna, if_pos hle]
  rw [TCPConnection.acked, if_pos hgt]
  refine ⟨⟨?_, ?_, h.inward⟩, rfl, rfl⟩
  · refine { h.smooth with
      buffered := ?_
      offered := ⟨h.smooth.offered.scale, hoffer⟩
      open_ne := hpeer
      mss := (RenoCongestion.onAck_mss _ _ _).le.trans h.smooth.mss }
    change Serial.gap (c.retire x.seg now).sendQueue.una (c.retire x.seg now).sendQueue.nxt ≤
      (c.retire x.seg now).sendQueue.buf.length
    rw [hsend, List.length_drop]
    have hbuffered := h.smooth.buffered
    change Serial.gap x.seg.ack c.sndNxt ≤ c.sendQueue.buf.length - Serial.gap c.sndUna x.seg.ack
    omega
  · change Flow (c.retire x.seg now).sendQueue.una (c.retire x.seg now).sendQueue.nxt d.rcvNxt
      ((c.retire x.seg now).reno.duplicateAcks ≠ 0) d.owes toPeer acks
    rw [hsend, hreno']
    exact hnew

theorem acked (h : Linked c d owed (x :: acks) data toPeer) (hx : x.seg.Plain) (hreno : c.reno.state ≠ .fastRecovery)
    (hthird : ¬ (x.seg.ack = c.sndUna ∧ 0 < c.sendQueue.inFlight ∧ c.reno.duplicateAcks = 2))
    (hdata : x.seg.payload ≠ [] → ¬ (x.seg.ack = c.sndUna ∧ 0 < c.sendQueue.inFlight)) (now : Time) :
    Linked (c.acked x.seg now) d owed acks data toPeer ∧ (c.acked x.seg now).sent = c.sent ∧
      (c.acked x.seg now).delayedAckAt = c.delayedAckAt := by
  by_cases hack : x.seg.ack = c.sndUna
  · exact h.acked_old hx hreno hthird hdata hack now
  · exact h.acked_new hx hreno hack now

theorem acknowledgeData (h : Linked c d true acks data toPeer) (newly : Nat) (now : Time) :
    ∃ segs, (c.acknowledgeData newly now).sent = c.sent ++ segs ∧ (∀ y ∈ segs, y.Plain) ∧
      Linked (c.acknowledgeData newly now) d (c.acknowledgeData newly now).owes acks data
        (toPeer ++ segs.map (⟨·, false⟩)) := by
  unfold TCPConnection.acknowledgeData
  split_ifs
  · -- the ACK is held back, now or since earlier data
    have hheld : ∀ b : TCPConnection, b.delayedAckAt.isSome = true → Linked b d true acks data toPeer →
        ∃ segs, b.sent = b.sent ++ segs ∧ (∀ y ∈ segs, y.Plain) ∧
          Linked b d b.owes acks data (toPeer ++ segs.map (⟨·, false⟩)) := by
      intro b hsome hb
      refine ⟨[], (List.append_nil _).symm, fun y hy => absurd hy List.not_mem_nil, ?_⟩
      rw [owes, hsome, List.map_nil, List.append_nil]
      exact hb
    split
    · exact hheld _ rfl (h.congr (h.smooth.of_frame (by constructor <;> rfl) rfl h.smooth.buffered) ⟨rfl, rfl⟩ rfl rfl)
    · rename_i t htimer
      exact hheld c (by rw [htimer]; rfl) h
  · obtain ⟨y, hsent, hplain, htimer, hlinked⟩ := h.sendAck (u := false) (fun _ => rfl) now
    refine ⟨[y], hsent, fun z hz => List.mem_singleton.mp hz ▸ hplain, ?_⟩
    rw [owes, htimer]
    exact hlinked

/-- Data that arrives is what `rcv_nxt` waits for; it is taken whole, and acknowledged now or later. -/
theorem handleData (h : Linked c d owed acks (x :: data) toPeer) (hne : x.seg.payload ≠ [])
    (hroom : (c.handleData x.seg now).advertisedWindow ≠ 0) :
    ∃ segs, (c.handleData x.seg now).sent = c.sent ++ segs ∧ (∀ y ∈ segs, y.Plain) ∧
      Linked (c.handleData x.seg now) d (c.handleData x.seg now).owes acks data
        (toPeer ++ segs.map (⟨·, false⟩)) := by
  have hseq : x.seg.seq = c.recvQueue.nxt := h.inward.seq_eq
  have hcfg := (Outputs.handleData c x.seg now).cfg
  have hqueue := c.handleData_recvQueue x.seg now
  have hinsert : c.recvQueue.insert x.seg.seq x.seg.payload =
      (c.recvQueue.extend x.seg.payload, x.seg.payload.length) := by
    rw [hseq]
    apply ReceiveQueue.insert_of_next h.smooth.within h.smooth.parked hne
    intro hzero
    apply hroom
    rw [advertisedWindow, hqueue, hseq, hzero, Nat.zero_shiftRight, Nat.zero_min]
  have hlen : x.seg.payload.length ≠ 0 := (List.length_pos_iff.mpr hne).ne'
  rw [advertisedWindow, hqueue, hinsert, hcfg] at hroom
  unfold TCPConnection.handleData
  dsimp only
  rw [hinsert]
  dsimp only
  rw [if_pos hlen, if_pos (.inl hlen)]
  have htaken : Linked (TCPConnection.notify { c with
      recvQueue := c.recvQueue.extend x.seg.payload
      bytesReceived := c.bytesReceived + x.seg.payload.length } .data) d true acks data toPeer := by
    refine ⟨?_, h.outward, h.inward.take hne⟩
    exact { h.smooth with
      offered := ⟨h.smooth.offered.scale, h.smooth.offered.window⟩
      within := h.smooth.within.extend _
      room := hroom }
  exact htaken.acknowledgeData x.seg.payload.length now

theorem acceptable (h : Linked c d owed acks (x :: data) toPeer) (hx : x.seg.Plain) :
    c.acceptable x.seg = true := by
  have hseq : x.seg.seq = c.recvQueue.nxt := h.inward.seq_eq
  have hcapacity := h.smooth.capacity_lt
  have hend : x.seg.seqLen = x.seg.payload.length := by
    rw [TCPSegment.seqLen, hx.isSyn, hx.isFin]
    rfl
  have hlen : x.seg.payload.length < 2 ^ 31 := by
    have hcovered := h.inward.covered
    have hnear := h.inward.near
    rw [Carried.bytes_cons, List.length_append] at hcovered
    omega
  have hhigh : seqLt x.seg.seq (seqAdd c.recvQueue.nxt c.recvQueue.capacity) = true := by
    rw [hseq, seqLt_iff]
    exact Serial.lt_shift h.smooth.capacity_pos (by omega)
  unfold TCPConnection.acceptable
  rw [if_neg (by rw [h.smooth.synchronised]; decide)]
  dsimp only
  rw [if_neg h.smooth.capacity_pos.ne', hhigh]
  split_ifs with hempty
  · rw [Bool.and_true, seqGe_iff, hseq]
    exact .inl rfl
  · rw [Bool.true_and, seqGt_iff, TCPSegment.seqEnd, hend, hseq]
    have hne : x.seg.payload ≠ [] := fun hnil => hempty (by simp [hnil, hend])
    exact Serial.lt_shift (List.length_pos_iff.mpr hne) (by omega)

theorem onSegment (h : Linked c d c.owes (x :: acks) (x :: acks) toPeer) (hx : x.seg.Plain)
    (hreno : c.reno.state ≠ .fastRecovery)
    (hthird : ¬ (x.seg.ack = c.sndUna ∧ 0 < c.sendQueue.inFlight ∧ c.reno.duplicateAcks = 2))
    (hdata : x.seg.payload ≠ [] → ¬ (x.seg.ack = c.sndUna ∧ 0 < c.sendQueue.inFlight))
    (srcIp : Option Bytes) (draw : SeqNo) (now : Time)
    (hroom : (c.onSegment x.seg srcIp draw now).1.advertisedWindow ≠ 0) :
    ∃ segs, (c.onSegment x.seg srcIp draw now).1.sent = c.sent ++ segs ∧ (∀ y ∈ segs, y.Plain) ∧
      Linked (c.onSegment x.seg srcIp draw now).1 d (c.onSegment x.seg srcIp draw now).1.owes acks acks
        (toPeer ++ segs.map (⟨·, false⟩)) := by
  have hstamp : Linked (c.stamp now) d c.owes (x :: acks) (x :: acks) toPeer :=
    h.congr (h.smooth.of_frame (by constructor <;> rfl) rfl h.smooth.buffered) ⟨rfl, rfl⟩ rfl rfl
  obtain ⟨hacked, hsent, htimer⟩ := hstamp.acked hx hreno hthird hdata now
  obtain ⟨segs, hflushed, hplain, hlinked⟩ := hacked.flush now
  have hheld := (sends_flush_plain hacked.smooth now).2
  have hadvance : (((c.stamp now).acked x.seg now).flush now).maybeAdvanceAfterAck x.seg now =
      ((c.stamp now).acked x.seg now).flush now :=
    maybeAdvanceAfterAck_of_established hlinked.smooth.established x.seg now
  have heq : (c.onSegment x.seg srcIp draw now).1 =
      if x.seg.payload ≠ [] then (((c.stamp now).acked x.seg now).flush now).handleData x.seg now
      else ((c.stamp now).acked x.seg now).flush now := by
    rw [onSegment_eq_onSynchronised srcIp draw now h.smooth.synchronised hx.isRst hx.isSyn, onSynchronised,
      hstamp.acceptable hx, hx.isAck, hx.isFin, processAck_eq_flush]
    dsimp only
    rw [if_neg (by decide), if_pos rfl, hadvance, if_neg (by decide)]
  rw [hsent] at hflushed
  rw [htimer] at hheld
  rw [heq] at hroom ⊢
  split_ifs at hroom ⊢ with hnil
  · obtain ⟨more, hmore, hplain', hlinked'⟩ := hlinked.handleData hnil hroom
    refine ⟨segs ++ more, by rw [hmore, hflushed, List.append_assoc]; rfl, fun y hy => ?_, ?_⟩
    · exact (List.mem_append.mp hy).elim (hplain y) (hplain' y)
    · rwa [List.map_append, ← List.append_assoc]
  · refine ⟨segs, hflushed, hplain, hlinked.smooth, hlinked.outward, ?_⟩
    rw [owes, hheld]
    exact hlinked.inward.pass (not_not.mp hnil)

/-! ### Calls and timers -/

theorem send (h : Linked c d owed acks data toPeer) {bytes : Bytes} {written : Nat} {c' : TCPConnection}
    (hsend : c.send bytes now = .ok (c', written)) :
    ∃ segs, c'.sent = c.sent ++ segs ∧ (∀ y ∈ segs, y.Plain) ∧ c'.delayedAckAt = c.delayedAckAt ∧
      Linked c' d owed acks data (toPeer ++ segs.map (⟨·, false⟩)) := by
  have hquiet : ∃ segs, c.sent = c.sent ++ segs ∧ (∀ y ∈ segs, y.Plain) ∧ c.delayedAckAt = c.delayedAckAt ∧
      Linked c d owed acks data (toPeer ++ segs.map (⟨·, false⟩)) :=
    ⟨[], (List.append_nil _).symm, fun y hy => absurd hy List.not_mem_nil, rfl,
      by rwa [List.map_nil, List.append_nil]⟩
  obtain ⟨-, heq | ⟨-, heq⟩⟩ := send_ok _ hsend
  · obtain ⟨rfl, -⟩ := Prod.mk.inj heq
    exact hquiet
  · obtain ⟨rfl, -⟩ := Prod.mk.inj heq
    have hwrite : Linked ({ c with sendQueue := (c.sendQueue.write bytes).1 } : TCPConnection) d owed acks data
        toPeer := by
      refine h.congr { h.smooth with
        offered := ⟨h.smooth.offered.scale, h.smooth.offered.window⟩
        buffered := ?_ } ⟨SendQueue.write_una .., SendQueue.write_nxt ..⟩ rfl rfl
      change Serial.gap (c.sendQueue.write bytes).1.una (c.sendQueue.write bytes).1.nxt ≤
        (c.sendQueue.write bytes).1.buf.length
      rw [SendQueue.write_una, SendQueue.write_nxt, SendQueue.write_buf, List.length_append]
      exact h.smooth.buffered.trans (Nat.le_add_right _ _)
    obtain ⟨segs, hsent, hplain, hlinked⟩ := hwrite.flush now
    exact ⟨segs, hsent, hplain, (sends_flush_plain hwrite.smooth now).2, hlinked⟩

theorem recv (h : Linked c d c.owes acks data toPeer) (maxBytes : Nat) (now : Time)
    (hroom : (c.recv maxBytes now).1.advertisedWindow ≠ 0) :
    ∃ segs, (c.recv maxBytes now).1.sent = c.sent ++ segs ∧ (∀ y ∈ segs, y.Plain) ∧
      Linked (c.recv maxBytes now).1 d (c.recv maxBytes now).1.owes acks data
        (toPeer ++ segs.map (⟨·, true⟩)) := by
  have hread : (c.recvQueue.read maxBytes).1.nxt = c.recvQueue.nxt ∧
      (c.recvQueue.read maxBytes).1.ooo = c.recvQueue.ooo ∧
      (c.recvQueue.read maxBytes).1.capacity = c.recvQueue.capacity := by
    unfold ReceiveQueue.read
    split_ifs
    · exact ⟨rfl, rfl, rfl⟩
    · dsimp only
      split_ifs <;> exact ⟨rfl, rfl, rfl⟩
  unfold TCPConnection.recv at hroom ⊢
  by_cases hnone : c.recvQueue.available = 0
  · rw [if_pos hnone]
    exact ⟨[], (List.append_nil _).symm, fun y hy => absurd hy List.not_mem_nil,
      by rwa [List.map_nil, List.append_nil]⟩
  rw [if_neg hnone] at hroom ⊢
  dsimp only at hroom ⊢
  have hsmooth : ((c.recvQueue.read maxBytes).1.window >>> c.cfg.windowScale) ⊓ 0xFFFF ≠ 0 →
      Linked ({ c with recvQueue := (c.recvQueue.read maxBytes).1 } : TCPConnection) d c.owes acks data toPeer := by
    intro hopen
    refine h.congr ?_ ⟨rfl, rfl⟩ hread.1 rfl
    exact { h.smooth with
      offered := ⟨h.smooth.offered.scale, h.smooth.offered.window⟩
      within := h.smooth.within.read maxBytes
      parked := by rw [hread.2.1]; exact h.smooth.parked
      capacity_pos := by rw [hread.2.2]; exact h.smooth.capacity_pos
      capacity_lt := by rw [hread.2.2]; exact h.smooth.capacity_lt
      room := hopen }
  split_ifs at hroom ⊢ with hdata
  · have hframe := sendFrame_sendAck { c with recvQueue := (c.recvQueue.read maxBytes).1 } now
    rw [advertisedWindow, hframe.recvQueue, hframe.cfg] at hroom
    obtain ⟨y, hsent, hplain, htimer, hlinked⟩ := (hsmooth hroom).sendAck (u := true) nofun now
    refine ⟨[y], hsent, fun z hz => List.mem_singleton.mp hz ▸ hplain, ?_⟩
    rw [owes, htimer]
    exact hlinked
  · refine ⟨[], (List.append_nil _).symm, fun y hy => absurd hy List.not_mem_nil, ?_⟩
    rw [List.map_nil, List.append_nil]
    exact hsmooth hroom

theorem onTick (h : Linked c d c.owes acks data toPeer) (hretx : due c.retransmitAt now = false)
    (hpersist : due c.persistAt now = false) :
    ∃ segs, (c.onTick now).sent = c.sent ++ segs ∧ (∀ y ∈ segs, y.Plain) ∧
      Linked (c.onTick now) d (c.onTick now).owes acks data (toPeer ++ segs.map (⟨·, false⟩)) := by
  have hend : ∀ b : TCPConnection, due b.retransmitAt now = false → due b.persistAt now = false →
      b.state = .established → (let b := if due b.retransmitAt now then b.onRetransmitTimeout now else b
        let b := if due b.persistAt now then b.onPersistTimeout now else b
        if b.state = .timeWait ∧ due b.timeWaitUntil now then b.teardown.notify .closed else b) = b := by
    intro b hr hp hst
    simp only [hr, hp, hst, Bool.false_eq_true, if_false, reduceCtorEq, false_and]
  unfold TCPConnection.onTick
  by_cases hdelayed : due c.delayedAckAt now = true
  · have howes : c.owes = true := by
      unfold due at hdelayed
      cases htimer : c.delayedAckAt with
      | none =>
        rw [htimer] at hdelayed
        cases hdelayed
      | some t => rw [owes, htimer, Option.isSome_some]
    obtain ⟨y, hsent, hplain, htimer, hlinked⟩ := h.sendAck (u := false) (fun _ => howes) now
    rw [if_pos hdelayed, hend _ (by rw [sendAck_established h.smooth.established]; exact hretx)
      (by rw [sendAck_established h.smooth.established]; exact hpersist) hlinked.smooth.established]
    refine ⟨[y], hsent, fun z hz => List.mem_singleton.mp hz ▸ hplain, ?_⟩
    rw [owes, htimer]
    exact hlinked
  · rw [if_neg hdelayed, hend c hretx hpersist h.smooth.established]
    exact ⟨[], (List.append_nil _).symm, fun y hy => absurd hy List.not_mem_nil,
      by rwa [List.map_nil, List.append_nil]⟩

/-! ### The other side -/

theorem swap (h : Linked c d c.owes data data toPeer) (hd : d.Smooth) : Linked d c d.owes toPeer toPeer data :=
  ⟨hd, h.inward, h.outward⟩

end Linked

end TCPConnection

end MiniTcp
