import MiniTcp.Lib.Stream
import MiniTcp.Net.Tcp.Buffer

/-!
# The receive queue puts a stream back together

The bytes of a stream `s` are numbered from the one after the SYN: byte `i` has the number
`streamSeq iss i`. `Holds iss s done r q` says that the receive queue `q` has taken in exactly the
first `r` bytes of `s`, of which `done` were already read, and that every parked payload is a piece of
`s` under its own number. Whatever piece of the stream is inserted, early, late or overlapping, the
queue goes on holding a prefix of the stream; reading moves bytes from the queue to `done`.
-/

namespace MiniTcp

open Stream (At)

/-- The sequence number of byte `i` of the stream that follows the SYN numbered `iss`. -/
def streamSeq (iss : SeqNo) (i : Nat) : SeqNo := seqAdd iss (1 + i)

section StreamSeq

variable {iss : SeqNo} {i j : Nat}

theorem streamSeq_zero (iss : SeqNo) : streamSeq iss 0 = seqAdd iss 1 := rfl

@[simp] theorem seqAdd_streamSeq (iss : SeqNo) (i n : Nat) :
    seqAdd (streamSeq iss i) n = streamSeq iss (i + n) := by
  rw [streamSeq, streamSeq, seqAdd, seqAdd, seqAdd, Serial.shift_shift, Nat.add_assoc]

theorem streamSeq_inj (hij : i < j + 2 ^ 32) (hji : j < i + 2 ^ 32) :
    streamSeq iss i = streamSeq iss j ↔ i = j := by
  rw [streamSeq, streamSeq, seqAdd, seqAdd, Serial.shift_inj (by omega) (by omega)]
  omega

theorem seqGt_streamSeq (hij : i < j + 2 ^ 31) (hji : j < i + 2 ^ 31) :
    seqGt (streamSeq iss i) (streamSeq iss j) = true ↔ j < i := by
  rw [seqGt_iff, streamSeq, streamSeq, seqAdd, seqAdd, Serial.lt_shift_iff (by omega) (by omega)]
  omega

theorem seqDiff_streamSeq (hij : i < j + 2 ^ 31) (hji : j < i + 2 ^ 31) :
    seqDiff (streamSeq iss i) (streamSeq iss j) = (i : Int) - j := by
  rw [seqDiff_eq, streamSeq, streamSeq, seqAdd, seqAdd, Serial.diff_shift (by omega) (by omega)]
  omega

theorem gap_streamSeq (h : i ≤ j) (hj : j < i + 2 ^ 32) :
    Serial.gap (streamSeq iss i) (streamSeq iss j) = j - i := by
  rw [streamSeq, streamSeq, seqAdd, seqAdd, Serial.gap_shift_shift (by omega) (by omega)]
  omega

end StreamSeq

namespace ReceiveQueue

/-- The queue has taken in the first `r` bytes of `s`, and `done` of them were read. -/
structure Holds (iss : SeqNo) (s done : Bytes) (r : Nat) (q : ReceiveQueue) : Prop where
  nxt : q.nxt = streamSeq iss r
  le : r ≤ s.length
  readPos : q.readPos ≤ q.buf.length
  stream : done ++ q.readable = s.take r
  parked : ∀ e ∈ q.ooo.data, e.2 ≠ [] ∧ ∃ i, e.1 = streamSeq iss i ∧ At s i e.2

variable {iss : SeqNo} {s t done payload : Bytes} {r i : Nat} {q : ReceiveQueue}

theorem holds_new (iss : SeqNo) (s : Bytes) (capacity : Nat) : Holds iss s [] 0 (.new iss capacity) where
  nxt := rfl
  le := Nat.zero_le _
  readPos := le_rfl
  stream := rfl
  parked := by simp [new]

namespace Holds

theorem of_isPrefix (h : Holds iss s done r q) (hst : s <+: t) : Holds iss t done r q where
  nxt := h.nxt
  le := h.le.trans hst.length_le
  readPos := h.readPos
  stream := by
    obtain ⟨u, rfl⟩ := hst
    rw [List.take_append_of_le_length h.le]
    exact h.stream
  parked := by
    intro e he
    obtain ⟨hne, i, hi, hat⟩ := h.parked e he
    exact ⟨hne, i, hi, hat.of_isPrefix hst⟩

theorem congr {q' : ReceiveQueue} (h : Holds iss s done r q) (hnxt : q'.nxt = q.nxt)
    (hbuf : q'.buf = q.buf) (hpos : q'.readPos = q.readPos)
    (hooo : ∀ e ∈ q'.ooo.data, e ∈ q.ooo.data ∨ e.2 ≠ [] ∧ ∃ i, e.1 = streamSeq iss i ∧ At s i e.2) :
    Holds iss s done r q' where
  nxt := hnxt.trans h.nxt
  le := h.le
  readPos := by rw [hpos, hbuf]; exact h.readPos
  stream := by
    rw [readable, hbuf, hpos]
    exact h.stream
  parked := by
    intro e he
    rcases hooo e he with hold | hnew
    · exact h.parked e hold
    · exact hnew

theorem extend (h : Holds iss s done r q) (hat : At s r payload) :
    Holds iss s done (r + payload.length) (q.extend payload) where
  nxt := by
    simp only [ReceiveQueue.extend]
    rw [h.nxt, seqAdd_streamSeq]
  le := by
    by_cases hnil : payload = []
    · simpa [hnil] using h.le
    · exact hat.length_le hnil
  readPos := by
    have := h.readPos
    simp only [ReceiveQueue.extend, List.length_append]
    omega
  stream := by
    have hread : (q.extend payload).readable = q.readable ++ payload := by
      simp only [readable, ReceiveQueue.extend]
      rw [List.drop_append_of_le_length h.readPos]
    rw [hread, ← List.append_assoc, h.stream, hat.take_append]
  parked := h.parked

theorem drain (hlen : s.length < 2 ^ 32) (fuel : Nat) (h : Holds iss s done r q) :
    Holds iss s done (r + (q.drain fuel).2) (q.drain fuel).1 := by
  induction fuel generalizing q r with
  | zero => exact h
  | succ fuel ih =>
    unfold ReceiveQueue.drain
    obtain ⟨hmem, hsub⟩ := q.ooo.take_spec q.nxt
    split
    · exact h
    · rename_i ooo data htake
      rw [htake] at hmem hsub
      obtain ⟨hne, i, hi, hat⟩ := h.parked _ (hmem data rfl)
      -- the number under which it was parked is the position the queue has reached
      have hir : i = r := by
        have hend := hat.length_le hne
        have hle := h.le
        rw [h.nxt] at hi
        exact ((streamSeq_inj (by omega) (by omega)).mp hi).symm
      have hnext : Holds iss s done (r + data.length)
          (({ q with ooo := ooo } : ReceiveQueue).extend data) :=
        Holds.extend (q := { q with ooo := ooo }) (h.congr rfl rfl rfl fun e he => .inl (hsub he))
          (hir ▸ hat)
      rw [← Nat.add_assoc]
      exact ih hnext

theorem accept (hlen : s.length < 2 ^ 32) (h : Holds iss s done r q) (hat : At s r payload) :
    Holds iss s done (r + (q.accept payload).2) (q.accept payload).1 := by
  unfold ReceiveQueue.accept
  split_ifs
  · exact h
  · rw [← Nat.add_assoc]
    exact drain hlen _ (h.extend (hat.take q.window))

theorem park (h : Holds iss s done r q) (hat : At s i payload) :
    Holds iss s done r
      (if payload = [] then q
        else { q with ooo := (q.ooo.insert (streamSeq iss i) payload).1 }) := by
  split_ifs with hnil
  · exact h
  · refine h.congr rfl rfl rfl fun e he => ?_
    rcases ReorderQueue.mem_insert he with hold | rfl
    · exact .inl hold
    · exact .inr ⟨hnil, i, rfl, hat⟩

/-- Whatever piece of the stream comes in from less than half the ring away, the queue goes on holding a
prefix of the stream, and the result is what the prefix grew by. -/
theorem insert (hlen : s.length < 2 ^ 32) (h : Holds iss s done r q) (hat : At s i payload)
    (hir : i < r + 2 ^ 31) (hri : r < i + 2 ^ 31) :
    Holds iss s done (r + (q.insert (streamSeq iss i) payload).2)
      (q.insert (streamSeq iss i) payload).1 := by
  by_cases hnil : payload = []
  · rw [ReceiveQueue.insert, if_pos hnil]
    exact h
  have hpos := List.length_pos_iff.mpr hnil
  have heq : streamSeq iss i = q.nxt ↔ i = r := by
    rw [h.nxt, streamSeq_inj (by omega) (by omega)]
  have hahead : seqGt (streamSeq iss i) q.nxt = true ↔ r < i := by
    rw [h.nxt, seqGt_streamSeq hir hri]
  have hoverlap : seqDiff q.nxt (streamSeq iss i) = (r : Int) - i := by
    rw [h.nxt, seqDiff_streamSeq hri hir]
  rw [ReceiveQueue.insert, if_neg hnil]
  rcases lt_trichotomy i r with hlt | rfl | hgt
  · -- late: what the queue already has is cut off
    rw [if_neg (by rw [heq]; omega), if_neg (by rw [hahead]; omega)]
    dsimp only
    rw [hoverlap]
    have hdup : Holds iss s done r { q with duplicates := q.duplicates + 1 } :=
      h.congr rfl rfl rfl fun e he => .inl he
    split_ifs
    · exact hdup
    · have hslice : sliceFrom payload ((r : Int) - i) = payload.drop (r - i) := by
        rw [sliceFrom, if_neg (by omega)]
        congr 1
        omega
      rw [hslice]
      apply accept hlen hdup
      have hdrop := hat.drop (r - i)
      rwa [Nat.add_sub_cancel' hlt.le] at hdrop
  · rw [if_pos (heq.mpr rfl)]
    exact accept hlen h hat
  · rw [if_neg (by rw [heq]; omega), if_pos (hahead.mpr hgt)]
    dsimp only
    have htrim : At s i (if payload.length > q.window then payload.take q.window else payload) := by
      split_ifs
      exacts [hat.take _, hat]
    have hpark := h.park htrim
    split_ifs at hpark ⊢ <;> exact hpark

theorem read (h : Holds iss s done r q) (n : Nat) :
    Holds iss s (done ++ (q.read n).2) r (q.read n).1 := by
  have hpos := h.readPos
  unfold ReceiveQueue.read
  split_ifs with hzero
  · rw [List.append_nil]
    exact h
  · dsimp only
    have hstop : q.readPos ≤ min (q.readPos + n) q.buf.length ∧
        min (q.readPos + n) q.buf.length ≤ q.buf.length := by omega
    generalize min (q.readPos + n) q.buf.length = stop at hstop ⊢
    have hstream : done ++ (q.buf.take stop).drop q.readPos ++ q.buf.drop stop = s.take r := by
      rw [List.append_assoc, ← h.stream, readable]
      conv_rhs => rw [← List.take_append_drop stop q.buf]
      rw [List.drop_append_of_le_length (by rw [List.length_take]; omega)]
    split_ifs
    · exact ⟨h.nxt, h.le, Nat.zero_le _, hstream, h.parked⟩
    · exact ⟨h.nxt, h.le, hstop.2, hstream, h.parked⟩

end Holds

theorem read_of_buf_nil (h : q.buf = []) (n : Nat) : (q.read n).2 = [] ∧ (q.read n).1.buf = [] := by
  unfold read
  split_ifs
  · exact ⟨rfl, h⟩
  · dsimp only
    split_ifs <;> simp [h]

end ReceiveQueue

end MiniTcp
