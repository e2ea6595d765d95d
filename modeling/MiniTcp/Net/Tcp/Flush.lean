import MiniTcp.Net.Tcp.Calm
import MiniTcp.Net.Tcp.Effects
import MiniTcp.Net.Tcp.Reset

/-!
# What `_flush` sends

`_flush` cuts the unsent part of the buffer into segments. `reach` is the distance from `snd_una` at which
it stops: the effective window, or the end of the buffer, or where `snd_nxt` already is when that lies
beyond both, as after a FIN. `flush_sends` says that the segments are exactly the bytes up to there.
-/

namespace MiniTcp

/-- The segments are numbered one after another from `a` on. -/
def Consecutive : SeqNo → List TCPSegment → Prop
  | _, [] => True
  | a, seg :: segs => seg.seq = a ∧ Consecutive (seqAdd a seg.payload.length) segs

theorem Consecutive.exists_byte {a : SeqNo} {segs : List TCPSegment} (h : Consecutive a segs) {k : Nat}
    (hk : k < (segs.flatMap (·.payload)).length) :
    ∃ x ∈ segs, ∃ i < x.payload.length, seqAdd x.seq i = seqAdd a k := by
  induction segs generalizing a k with
  | nil => exact absurd hk (Nat.not_lt_zero _)
  | cons x segs ih =>
    obtain ⟨hseq, hrest⟩ := h
    by_cases hin : k < x.payload.length
    · exact ⟨x, List.mem_cons_self, k, hin, by rw [hseq]⟩
    · rw [List.flatMap_cons, List.length_append] at hk
      obtain ⟨y, hy, i, hi, heq⟩ := ih hrest (k := k - x.payload.length) (by omega)
      refine ⟨y, List.mem_cons_of_mem _ hy, i, hi, ?_⟩
      rw [heq, seqAdd, seqAdd, Serial.shift_shift, seqAdd]
      congr 1
      omega

namespace TCPConnection

variable {c d : TCPConnection} {now : Time}

/-- The distance from `snd_una` at which `_flush` stops. -/
def reach (c : TCPConnection) : Nat :=
  max c.sendQueue.inFlight (min (c.reno.effectiveWindow c.peerWindow) c.sendQueue.buffered)

/-- From `c` to `d` the buffered bytes from `snd_nxt` up to the distance `m` from `snd_una` were handed out,
in consecutive segments none of which is empty or longer than the peer takes. -/
def SendsUpTo (m : Nat) (c d : TCPConnection) : Prop :=
  ∃ segs, d.sent = c.sent ++ segs ∧ Consecutive c.sendQueue.nxt segs ∧
    (∀ seg ∈ segs, seg.payload ≠ [] ∧ seg.payload.length ≤ c.peerMss) ∧
    segs.flatMap (·.payload) = (c.sendQueue.buf.take m).drop c.sendQueue.inFlight ∧
    d.sendQueue = { c.sendQueue with nxt := seqAdd c.sendQueue.una m }

/-! ### One round -/

theorem inFlight_of_le (h : seqLe c.sendQueue.una c.sendQueue.nxt = true) :
    c.sendQueue.inFlight = Serial.gap c.sendQueue.una c.sendQueue.nxt := by
  rw [seqLe_iff, Serial.le_iff_gap] at h
  rw [SendQueue.inFlight, seqDiff_eq, Serial.diff_of_nonneg h, Int.toNat_natCast]

theorem nextPayload_eq (h : seqLe c.sendQueue.una c.sendQueue.nxt = true) :
    c.nextPayload.1 = (c.sendQueue.buf.drop c.sendQueue.inFlight).take c.nextPayload.2 := by
  have hflight := inFlight_of_le h
  rw [seqLe_iff, Serial.le_iff_gap] at h
  unfold nextPayload
  dsimp only
  unfold SendQueue.peek
  dsimp only
  rw [seqDiff_eq, Serial.diff_of_nonneg h, hflight, Int.toNat_natCast]
  split_ifs with hempty
  · rcases hempty with hneg | hzero
    · omega
    · rw [hzero, List.take_zero]
  · rfl

theorem transmitData_spec {payload : Bytes} (hne : payload ≠ [])
    (hle : seqLe c.sendQueue.una c.sendQueue.nxt = true)
    (hlt : c.sendQueue.inFlight + payload.length < 2 ^ 31) (now : Time) :
    seqLe (c.transmitData payload now).sendQueue.una (c.transmitData payload now).sendQueue.nxt = true ∧
      (c.transmitData payload now).sendQueue.inFlight = c.sendQueue.inFlight + payload.length := by
  have hflight := inFlight_of_le hle
  have hgap : Serial.gap (c.transmitData payload now).sendQueue.una
      (c.transmitData payload now).sendQueue.nxt = c.sendQueue.inFlight + payload.length := by
    rw [transmitData_eq c now hne, hflight]
    exact Serial.gap_shift_add (a := c.sendQueue.una) (b := c.sendQueue.nxt) (by omega)
  have hle' : seqLe (c.transmitData payload now).sendQueue.una
      (c.transmitData payload now).sendQueue.nxt = true := by
    rw [seqLe_iff, Serial.le_iff_gap, hgap]
    omega
  exact ⟨hle', (inFlight_of_le hle').trans hgap⟩

/-! ### The loop -/

theorem SendsUpTo.nothing (hle : seqLe c.sendQueue.una c.sendQueue.nxt = true) :
    SendsUpTo c.sendQueue.inFlight c c := by
  refine ⟨[], by simp, trivial, fun seg hseg => absurd hseg List.not_mem_nil, ?_, ?_⟩
  · rw [List.flatMap_nil, List.drop_take, Nat.sub_self, List.take_zero]
  · rw [inFlight_of_le hle, seqAdd, Serial.shift_gap]

theorem eq_take_length {bytes payload : Bytes} {n : Nat} (h : payload = bytes.take n) :
    payload = bytes.take payload.length := by
  conv_lhs => rw [h]
  rw [h, List.length_take, List.take_eq_take_min]

theorem SendsUpTo.round {payload : Bytes} {m : Nat} (now : Time) (hne : payload ≠ [])
    (hlen : payload.length ≤ c.peerMss) (hle : seqLe c.sendQueue.una c.sendQueue.nxt = true)
    (hlt : c.sendQueue.inFlight + payload.length < 2 ^ 31)
    (hpayload : payload = (c.sendQueue.buf.drop c.sendQueue.inFlight).take payload.length)
    (hm : c.sendQueue.inFlight + payload.length ≤ m)
    (h : SendsUpTo m (c.transmitData payload now) d) : SendsUpTo m c d := by
  have hflight := (transmitData_spec hne hle hlt now).2
  obtain ⟨segs, hsent, hconsecutive, hsegs, hbytes, hqueue⟩ := h
  rw [hflight] at hbytes
  rw [transmitData_eq c now hne] at hsent hconsecutive hbytes hqueue
  rw [(sendFrame_transmitData c payload now).peerMss] at hsegs
  refine ⟨c.dataSegment payload :: segs, ?_, ⟨rfl, hconsecutive⟩, ?_, ?_, hqueue⟩
  · rw [hsent]
    simp [tracking]
  · intro seg hseg
    rcases List.mem_cons.mp hseg with rfl | hseg
    · exact ⟨hne, hlen⟩
    · exact hsegs seg hseg
  · rw [List.flatMap_cons, hbytes]
    -- the slice is cut where the payload ends
    have hsplit : (c.sendQueue.buf.take m).drop c.sendQueue.inFlight =
        ((c.sendQueue.buf.drop c.sendQueue.inFlight).take payload.length) ++
          (c.sendQueue.buf.take m).drop (c.sendQueue.inFlight + payload.length) := by
      rw [← List.drop_drop, List.drop_take]
      conv_lhs => rw [← List.take_append_drop payload.length
        ((c.sendQueue.buf.drop c.sendQueue.inFlight).take (m - c.sendQueue.inFlight))]
      rw [List.take_take, Nat.min_eq_left (by omega)]
    rw [hsplit, ← hpayload]
    rfl

/-- The loop of `_flush` sends the bytes up to `reach`, whatever number of rounds it is given as long as it
covers the unsent bytes. -/
theorem flushLoop_sends (now : Time) (fuel : Nat) (c : TCPConnection)
    (hle : seqLe c.sendQueue.una c.sendQueue.nxt = true) (hmss : 1 ≤ c.peerMss)
    (hwindow : c.reno.effectiveWindow c.peerWindow < 2 ^ 31)
    (hfuel : c.sendQueue.buf.length - c.sendQueue.inFlight < fuel) :
    SendsUpTo c.reach c (flushLoop now fuel c) := by
  induction fuel generalizing c with
  | zero => exact absurd hfuel (Nat.not_lt_zero _)
  | succ fuel ih =>
    have hpayload := nextPayload_eq hle
    have hallowed : c.nextPayload.2 =
        min (c.reno.effectiveWindow c.peerWindow - c.sendQueue.inFlight) c.peerMss := rfl
    have hlen : c.nextPayload.1.length =
        min c.nextPayload.2 (c.sendQueue.buf.length - c.sendQueue.inFlight) := by
      rw [hpayload, List.length_take, List.length_drop]
    unfold flushLoop
    dsimp only
    split_ifs with hfull hnil hshort
    · have hreach : c.reach = c.sendQueue.inFlight := max_eq_left ((min_le_left _ _).trans hfull)
      rw [hreach]
      exact .nothing hle
    · -- the buffer has no unsent byte
      have hreach : c.reach = c.sendQueue.inFlight := by
        rw [hnil] at hlen
        simp only [List.length_nil] at hlen
        rw [reach, SendQueue.buffered]
        omega
      rw [hreach]
      exact .nothing hle
    · -- a short payload is the last one
      have hpos := List.length_pos_iff.mpr hnil
      have hlt : c.sendQueue.inFlight + c.nextPayload.1.length < 2 ^ 31 := by omega
      have hreach : c.reach = c.sendQueue.inFlight + c.nextPayload.1.length := by
        rw [reach, SendQueue.buffered]
        omega
      obtain ⟨hle', hflight⟩ := transmitData_spec hnil hle hlt now
      rw [hreach]
      refine .round now hnil (by omega) hle hlt (eq_take_length hpayload) (Nat.le_refl _) ?_
      rw [← hflight]
      exact .nothing hle'
    · have hpos := List.length_pos_iff.mpr hnil
      have hlt : c.sendQueue.inFlight + c.nextPayload.1.length < 2 ^ 31 := by omega
      obtain ⟨hle', hflight⟩ := transmitData_spec hnil hle hlt now
      have hcalm := Calm.transmitData c c.nextPayload.1 now
      have hframe := sendFrame_transmitData c c.nextPayload.1 now
      have hwindow' : (c.transmitData c.nextPayload.1 now).reno.effectiveWindow
          (c.transmitData c.nextPayload.1 now).peerWindow = c.reno.effectiveWindow c.peerWindow := by
        rw [hcalm.reno, hcalm.peerWindow]
      have hreach : (c.transmitData c.nextPayload.1 now).reach = c.reach := by
        rw [reach, reach, hflight, hwindow', SendQueue.buffered, SendQueue.buffered, hframe.buf]
        omega
      have hrest := ih _ hle' (hframe.peerMss ▸ hmss) (hwindow' ▸ hwindow) (by
        rw [hframe.buf, hflight]
        omega)
      rw [hreach] at hrest
      refine .round now hnil (by omega) hle hlt (eq_take_length hpayload) ?_ hrest
      rw [reach, SendQueue.buffered]
      omega

/-- More rounds than there are unsent bytes change nothing: the loop has ended by then. -/
theorem flushLoop_ends (now : Time) (fuel : Nat) (c : TCPConnection)
    (hle : seqLe c.sendQueue.una c.sendQueue.nxt = true)
    (hwindow : c.reno.effectiveWindow c.peerWindow < 2 ^ 31)
    (hfuel : c.sendQueue.buf.length - c.sendQueue.inFlight < fuel) :
    flushLoop now (fuel + 1) c = flushLoop now fuel c := by
  induction fuel generalizing c with
  | zero => exact absurd hfuel (Nat.not_lt_zero _)
  | succ fuel ih =>
    unfold flushLoop
    dsimp only
    split_ifs with hfull hnil hshort
    · rfl
    · rfl
    · rfl
    · have hpos := List.length_pos_iff.mpr hnil
      have hlen : c.nextPayload.1.length ≤ c.nextPayload.2 := by
        rw [nextPayload_eq hle]
        exact List.length_take_le _ _
      have hallowed : c.nextPayload.2 =
          min (c.reno.effectiveWindow c.peerWindow - c.sendQueue.inFlight) c.peerMss := rfl
      obtain ⟨hle', hflight⟩ := transmitData_spec hnil hle (by omega) now
      have hcalm := Calm.transmitData c c.nextPayload.1 now
      apply ih
      · exact hle'
      · rw [hcalm.reno, hcalm.peerWindow]
        exact hwindow
      · have hsome : c.sendQueue.inFlight < c.sendQueue.buf.length := by
          by_contra hnone
          apply hnil
          rw [nextPayload_eq hle, List.drop_eq_nil_of_le (not_lt.mp hnone), List.take_nil]
        rw [hflight, (sendFrame_transmitData c c.nextPayload.1 now).buf]
        omega

/-! ### `_flush` -/

/-- `_flush` of a synchronised connection with an open window sends exactly the buffered bytes up to the
effective window that are not in flight, in consecutive segments, and its loop ends by itself: more rounds
change nothing. Under a zero window it sends nothing. -/
theorem flush_sends (now : Time) (hsync : c.state.isSynchronised = true)
    (hle : seqLe c.sendQueue.una c.sendQueue.nxt = true) (hmss : 1 ≤ c.peerMss)
    (hwindow : c.reno.effectiveWindow c.peerWindow < 2 ^ 31) :
    (0 < c.peerWindow → SendsUpTo c.reach c (c.flush now) ∧
      ∀ fuel, c.sendQueue.buf.length < fuel →
        flushLoop now fuel { c with persistAt := none, persistDelay := DEFAULT_PERSIST_DELAY } =
          c.flush now) ∧
      (c.peerWindow = 0 → (c.flush now).sent = c.sent ∧ (c.flush now).sndNxt = c.sndNxt) := by
  have hunfold : c.flush now = if c.peerWindow = 0 then c.armPersistTimer now
      else flushLoop now (c.sendQueue.buf.length + 1)
        { c with persistAt := none, persistDelay := DEFAULT_PERSIST_DELAY } := by
    rw [flush, if_neg (by simp [hsync])]
  refine ⟨fun hopen => ?_, fun hzero => ?_⟩
  · rw [hunfold, if_neg (by omega)]
    refine ⟨flushLoop_sends now _ { c with persistAt := none, persistDelay := DEFAULT_PERSIST_DELAY }
      hle hmss hwindow (Nat.lt_succ_of_le (Nat.sub_le _ _)), fun fuel hfuel => ?_⟩
    induction fuel, hfuel using Nat.le_induction with
    | base => rfl
    | succ fuel hfuel ih =>
      rw [← ih]
      apply flushLoop_ends
      · exact hle
      · exact hwindow
      · exact Nat.lt_of_le_of_lt (Nat.sub_le _ _) hfuel
  · rw [hunfold, if_pos hzero]
    unfold armPersistTimer
    split_ifs
    · exact ⟨rfl, rfl⟩
    · split <;> exact ⟨rfl, rfl⟩

/-- An open connection with three bytes to send under a window of two. -/
def narrow : TCPConnection :=
  { Endpoint.establishedClient.conn with
    peerWindow := 2
    reno := { mss := 2, cwnd := 10, ssthresh := 10 }
    sendQueue := { una := 101, nxt := 101, buf := [1, 2, 3], capacity := 10 } }

theorem flush_sends_narrow : narrow.reach = 2 ∧ SendsUpTo narrow.reach narrow (narrow.flush 0) :=
  ⟨by decide, ((flush_sends 0 (by decide) (by decide) (by decide) (by decide)).1 (by decide)).1⟩

end TCPConnection

end MiniTcp
