import MiniTcp.Net.Tcp.Buffer
import MiniTcp.Lib.Machine

/-!
# The send queue is a window on the written stream

What a send queue is for, without sequence numbers: a stream that grows at its end and the position up to which
it is acknowledged. A `SendQueue` shows the stream from that position on (`Shows`); the residue of the position
is `una`, and every call does to the queue what it does to the stream (`shows_perform`), across any number of
wraps.
-/

namespace MiniTcp

/-- A stream of bytes, acknowledged up to a position of it. -/
structure WrittenStream where
  stream : Bytes
  acked : Nat
  acked_le : acked ≤ stream.length

namespace WrittenStream

/-- Nothing is written yet. -/
def empty : WrittenStream := ⟨[], 0, le_rfl⟩

variable (w : WrittenStream)

/-- What is not acknowledged yet. -/
def held : Bytes := w.stream.drop w.acked

/-- Add as many bytes as there is room for; the result is how many. -/
def write (capacity : Nat) (data : Bytes) : WrittenStream × Nat :=
  let n := min data.length (capacity - w.held.length)
  ({ stream := w.stream ++ data.take n
     acked := w.acked
     acked_le := by
      rw [List.length_append]
      exact Nat.le_add_right_of_le w.acked_le }, n)

/-- The `n` bytes from the position `k` after the acknowledged one, cut at the end of the stream. -/
def read (k n : Nat) : Bytes := (w.stream.drop (w.acked + k)).take n

/-- The next `n` bytes are acknowledged. -/
def acknowledge (n : Nat) : WrittenStream :=
  { stream := w.stream
    acked := min (w.acked + n) w.stream.length
    acked_le := Nat.min_le_right _ _ }

theorem length_held : w.held.length = w.stream.length - w.acked := List.length_drop

theorem held_write (capacity : Nat) (data : Bytes) :
    (w.write capacity data).1.held = w.held ++ data.take (w.write capacity data).2 := by
  rw [held, held]
  exact List.drop_append_of_le_length w.acked_le

theorem acked_acknowledge {n : Nat} (h : n ≤ w.held.length) : (w.acknowledge n).acked = w.acked + n := by
  have hle := w.acked_le
  rw [length_held] at h
  exact Nat.min_eq_left (by omega)

theorem held_acknowledge {n : Nat} (h : n ≤ w.held.length) : (w.acknowledge n).held = w.held.drop n := by
  rw [held, acked_acknowledge w h, held, List.drop_drop]
  rfl

end WrittenStream

namespace SendQueue

/-- A call, or a new place to transmit from. -/
inductive Call where
  | write (data : Bytes)
  | acknowledge (ack : SeqNo)
  | setNxt (nxt : SeqNo)

def perform (q : SendQueue) : Call → SendQueue
  | .write data => (q.write data).1
  | .acknowledge ack => (q.acknowledge ack).1
  | .setNxt nxt => { q with nxt := nxt }

/-- The same call on the stream; the number `ack` is counted from the acknowledged position. -/
def follow (iss : SeqNo) (capacity : Nat) (w : WrittenStream) : Call → WrittenStream
  | .write data => (w.write capacity data).1
  | .acknowledge ack => w.acknowledge (seqDiff ack (seqAdd iss w.acked)).toNat
  | .setNxt _ => w

/-- A queue and the stream written to it. -/
def machine (iss : SeqNo) (capacity : Nat) : Machine (SendQueue × WrittenStream) Call where
  init s := s = (new iss capacity, .empty)
  next s c := (s.1.perform c, follow iss capacity s.2 c)

/-- No number is acknowledged beyond what is buffered. -/
def Allowed (s : SendQueue × WrittenStream) : Call → Prop
  | .acknowledge ack => seqDiff ack s.1.una ≤ s.1.buf.length
  | _ => True

instance (s : SendQueue × WrittenStream) : (c : Call) → Decidable (Allowed s c)
  | .acknowledge ack => inferInstanceAs (Decidable (seqDiff ack s.1.una ≤ s.1.buf.length))
  | .write _ => inferInstanceAs (Decidable True)
  | .setNxt _ => inferInstanceAs (Decidable True)

/-- The queue shows the stream from the acknowledged position on. -/
structure Shows (iss : SeqNo) (capacity : Nat) (w : WrittenStream) (q : SendQueue) : Prop where
  capacity_eq : q.capacity = capacity
  una_eq : q.una = seqAdd iss w.acked
  buf_eq : q.buf = w.held
  length_le : q.buf.length ≤ capacity

variable {iss : SeqNo} {capacity : Nat} {w : WrittenStream} {q : SendQueue}

theorem shows_new (iss : SeqNo) (capacity : Nat) : Shows iss capacity .empty (new iss capacity) :=
  ⟨rfl, (Serial.shift_zero iss).symm, rfl, Nat.zero_le _⟩

/-! ### The calls -/

theorem write_snd (q : SendQueue) (data : Bytes) :
    (q.write data).2 = min data.length (q.capacity - q.buf.length) := by
  unfold write
  dsimp only
  split_ifs with hroom
  · rw [hroom, Nat.min_zero]
  · rw [List.length_take, Nat.min_comm]

theorem shows_write (h : Shows iss capacity w q) (data : Bytes) :
    Shows iss capacity (w.write capacity data).1 (q.write data).1 := by
  have hcount : (q.write data).2 = (w.write capacity data).2 := by
    rw [write_snd, h.capacity_eq, h.buf_eq]
    rfl
  have hle := (q.write_spec data).2.2
  have hlength := h.length_le
  refine ⟨?_, ?_, ?_, ?_⟩
  · rw [(q.write_spec data).1]
    exact h.capacity_eq
  · rw [write_una]
    exact h.una_eq
  · rw [write_buf, hcount, h.buf_eq, w.held_write]
  · rw [write_buf, List.length_append, List.length_take]
    rw [h.capacity_eq] at hle
    omega

theorem acknowledge_of_le {ack : SeqNo} (h : seqDiff ack q.una ≤ 0) : q.acknowledge ack = (q, 0) := by
  have hgt : seqGt ack q.una = false := by
    rw [← Bool.not_eq_true, seqGt_iff]
    intro hlt
    have hdiff := Serial.diff_of_lt hlt
    have hpos := hlt.1
    rw [seqDiff_eq] at h
    omega
  rw [acknowledge, hgt]
  rfl

theorem seqGt_of_pos {ack : SeqNo} (h : 0 < seqDiff ack q.una) :
    seqGt ack q.una = true ∧ (seqDiff ack q.una).toNat = Serial.gap q.una ack := by
  rw [seqDiff_eq] at h ⊢
  have hhalf := Serial.diff_nonneg_iff.mp h.le
  have hdiff := Serial.diff_of_nonneg hhalf
  rw [hdiff] at h ⊢
  exact ⟨seqGt_iff.mpr ⟨by omega, hhalf⟩, Int.toNat_natCast _⟩

theorem acknowledge_of_pos {ack : SeqNo} (h : 0 < seqDiff ack q.una) :
    (q.acknowledge ack).2 = seqDiff ack q.una ∧ (q.acknowledge ack).1.una = ack ∧
      (q.acknowledge ack).1.buf = q.buf.drop (seqDiff ack q.una).toNat := by
  obtain ⟨hgt, hgap⟩ := seqGt_of_pos h
  refine ⟨?_, ?_, ?_⟩
  · rw [acknowledge, hgt]
    rfl
  · rw [acknowledge_of_gt hgt]
  · rw [acknowledge_of_gt hgt, hgap]

theorem shows_acknowledge (h : Shows iss capacity w q) {ack : SeqNo} (hle : seqDiff ack q.una ≤ q.buf.length) :
    Shows iss capacity (w.acknowledge (seqDiff ack (seqAdd iss w.acked)).toNat) (q.acknowledge ack).1 := by
  rw [← h.una_eq]
  have hheld : (seqDiff ack q.una).toNat ≤ w.held.length := by
    rw [← h.buf_eq]
    omega
  rcases le_or_gt (seqDiff ack q.una) 0 with hold | hahead
  · rw [acknowledge_of_le hold, Int.toNat_of_nonpos hold]
    refine ⟨h.capacity_eq, ?_, ?_, h.length_le⟩
    · rw [w.acked_acknowledge (Nat.zero_le _)]
      exact h.una_eq
    · rw [w.held_acknowledge (Nat.zero_le _)]
      exact h.buf_eq
  · obtain ⟨-, huna, hbuf⟩ := acknowledge_of_pos hahead
    refine ⟨?_, ?_, ?_, ?_⟩
    · rw [acknowledge_capacity, h.capacity_eq]
    · have hmoved : seqAdd iss (w.acked + (seqDiff ack q.una).toNat) = Serial.shift q.una (Serial.gap q.una ack) := by
        rw [(seqGt_of_pos hahead).2, h.una_eq, seqAdd, seqAdd, Serial.shift_shift]
      rw [huna, w.acked_acknowledge hheld, hmoved, Serial.shift_gap]
    · rw [hbuf, w.held_acknowledge hheld, h.buf_eq]
    · exact (q.length_acknowledge_le ack).trans h.length_le

theorem shows_perform (h : Shows iss capacity w q) (c : Call) (hc : Allowed (q, w) c) :
    Shows iss capacity (follow iss capacity w c) (q.perform c) := by
  cases c with
  | write data => exact shows_write h data
  | acknowledge ack => exact shows_acknowledge h hc
  | setNxt nxt => exact ⟨h.capacity_eq, h.una_eq, h.buf_eq, h.length_le⟩

theorem peek_seqAdd (h : Shows iss capacity w q) (hcapacity : capacity < 2 ^ 31) (k n : Nat) :
    q.peek (seqAdd q.una k) n = w.read (k % 2 ^ 32) n := by
  have hgap : Serial.gap q.una (seqAdd q.una k) = k % 2 ^ 32 := Serial.gap_shift_mod q.una k
  have hlength := h.length_le
  have hread : w.read (k % 2 ^ 32) n = (q.buf.drop (k % 2 ^ 32)).take n := by
    rw [WrittenStream.read, ← List.drop_drop, h.buf_eq]
    rfl
  rw [peek, seqDiff_eq, hread]
  by_cases hhalf : k % 2 ^ 32 < 2 ^ 31
  · have hdiff : Serial.diff (seqAdd q.una k) q.una = (k % 2 ^ 32 : Nat) := by
      rw [Serial.diff_of_nonneg (by omega), hgap]
    rw [hdiff, Int.toNat_natCast]
    split_ifs with hstop
    · obtain rfl : n = 0 := by omega
      rw [List.take_zero]
    · rfl
  · have hneg : Serial.diff (seqAdd q.una k) q.una < 0 := by
      rw [← not_le, Serial.diff_nonneg_iff, hgap]
      omega
    rw [if_pos (.inl hneg), List.drop_eq_nil_of_le (by omega), List.take_nil]

/-- The send queue is a window on what was written: after any calls that acknowledge no more than is buffered,
it holds the stream from the acknowledged position on, and it reads, takes and drops at positions of it. -/
theorem sendQueue_window (iss : SeqNo) (hcapacity : capacity < 2 ^ 31) (cs : List Call)
    (h : (machine iss capacity).Meets Allowed (new iss capacity, .empty) cs) :
    let s := (machine iss capacity).run (new iss capacity, .empty) cs
    s.1.una = seqAdd iss s.2.acked ∧ s.1.buf = s.2.stream.drop s.2.acked ∧
      (∀ k n, s.1.peek (seqAdd s.1.una k) n = (s.2.stream.drop (s.2.acked + k % 2 ^ 32)).take n) ∧
      (∀ data, (s.1.write data).2 = min data.length (capacity - s.1.buf.length) ∧
        (s.1.write data).1.buf = s.1.buf ++ data.take (s.1.write data).2) ∧
      ∀ ack, (seqDiff ack s.1.una ≤ 0 → s.1.acknowledge ack = (s.1, 0)) ∧
        (0 < seqDiff ack s.1.una → (s.1.acknowledge ack).2 = seqDiff ack s.1.una ∧
          (s.1.acknowledge ack).1.una = ack ∧
          (s.1.acknowledge ack).1.buf = s.1.buf.drop (seqDiff ack s.1.una).toNat) := by
  have hshows := (machine iss capacity).run_induction (P := fun s => Shows iss capacity s.2 s.1)
    (s := (new iss capacity, .empty)) (fun s c hs hc => shows_perform hs c hc) (shows_new iss capacity) h
  refine ⟨hshows.una_eq, hshows.buf_eq, peek_seqAdd hshows hcapacity, fun data => ⟨?_, write_buf _ data⟩,
    fun ack => ⟨acknowledge_of_le, acknowledge_of_pos⟩⟩
  rw [write_snd, hshows.capacity_eq]

/-- A queue that starts one number before the wrap. -/
theorem sendQueue_window_wrap :
    let s := (machine 0xFFFFFFFF 4).run (new 0xFFFFFFFF 4, .empty)
      [.write [1, 2, 3], .acknowledge 1, .write [4, 5, 6, 7]]
    s.1.buf = s.2.stream.drop s.2.acked ∧ s.1.buf = [3, 4, 5, 6] :=
  ⟨(sendQueue_window 0xFFFFFFFF (show 4 < 2 ^ 31 by decide)
    [.write [1, 2, 3], .acknowledge 1, .write [4, 5, 6, 7]] (by decide)).2.1, by decide⟩

/-- A whole ring ahead is the same number: what is read there is not what the stream has. -/
theorem peek_ring :
    let s := (machine 0 4).run (new 0 4, .empty) [.write [1]]
    s.1.peek (seqAdd s.1.una (2 ^ 32)) 1 = [1] ∧ (s.2.stream.drop (s.2.acked + 2 ^ 32)).take 1 = [] := by
  decide

end SendQueue

end MiniTcp
