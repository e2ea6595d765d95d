import MiniTcp.Net.Tcp.Reorder

/-!
# `minitcp/net/tcp/buffer.py`: the send and receive byte streams

`SendQueue` holds bytes until they are acknowledged, `ReceiveQueue` holds bytes until the
application reads them and parks those that arrive early.
-/

namespace MiniTcp

/-! ### The send queue -/

/-- Outbound bytes awaiting acknowledgement; `buf[0]` sits at sequence number `una`. -/
structure SendQueue where
  una : SeqNo
  nxt : SeqNo
  buf : Bytes := []
  capacity : Nat
  bytesWritten : Nat := 0
  deriving DecidableEq

namespace SendQueue

variable (q : SendQueue)

/-- The queue of a connection whose first sequence number is `iss`. -/
def new (iss : SeqNo) (capacity : Nat) : SendQueue := { una := iss, nxt := iss, capacity := capacity }

/-- Append bytes; the result is how many were accepted. -/
def write (data : Bytes) : SendQueue × Nat :=
  let room := q.capacity - q.buf.length
  if room = 0 then (q, 0)
  else
    let chunk := data.take room
    ({ q with buf := q.buf ++ chunk, bytesWritten := q.bytesWritten + chunk.length }, chunk.length)

/-- Read buffered bytes from `seq` on, without consuming them. -/
def peek (seq : SeqNo) (length : Nat) : Bytes :=
  let offset := seqDiff seq q.una
  if offset < 0 ∨ length = 0 then [] else (q.buf.drop offset.toNat).take length

/-- Advance `una` to `ack` and drop the acknowledged prefix; the result is the distance moved. -/
def acknowledge (ack : SeqNo) : SendQueue × Int :=
  if !seqGt ack q.una then (q, 0)
  else
    let count := seqDiff ack q.una
    let drop := min count.toNat q.buf.length
    ({ q with
      una := ack
      nxt := if seqLt q.nxt ack then ack else q.nxt
      buf := q.buf.drop drop }, count)

/-- Move `nxt` back so bytes are transmitted again. -/
def rewind (seq : SeqNo) : SendQueue := { q with nxt := seq }

def buffered : Nat := q.buf.length

/-- Sequence numbers transmitted but not yet acknowledged. -/
def inFlight : Nat := (seqDiff q.nxt q.una).toNat

/-- Bytes buffered and not yet transmitted. -/
def unsent : Nat := q.buf.length - q.inFlight

/-- Room left for more bytes from the application. -/
def space : Nat := q.capacity - q.buf.length

def isEmpty : Bool := q.buf.isEmpty

def clear : SendQueue := { q with buf := [] }

theorem write_spec (data : Bytes) :
    (q.write data).1 = { q with
      buf := q.buf ++ data.take (q.write data).2
      bytesWritten := q.bytesWritten + (q.write data).2 } ∧
    (q.write data).2 ≤ data.length ∧ (q.write data).2 ≤ q.capacity - q.buf.length := by
  unfold write
  dsimp only
  split_ifs with hroom
  · simp
  · simp only [List.length_take]
    refine ⟨?_, by omega, by omega⟩
    rw [List.take_eq_take_min]

@[simp] theorem write_una (data : Bytes) : (q.write data).1.una = q.una := by rw [(q.write_spec data).1]

@[simp] theorem write_nxt (data : Bytes) : (q.write data).1.nxt = q.nxt := by rw [(q.write_spec data).1]

theorem write_buf (data : Bytes) : (q.write data).1.buf = q.buf ++ data.take (q.write data).2 := by
  conv_lhs => rw [(q.write_spec data).1]

/-- An ACK ahead of `una` moves it there, drops as many bytes as it moved, and pulls `nxt` along. -/
theorem acknowledge_of_gt {q : SendQueue} {ack : SeqNo} (h : seqGt ack q.una = true) :
    (q.acknowledge ack).1 = { q with
      una := ack
      nxt := if seqLt q.nxt ack then ack else q.nxt
      buf := q.buf.drop (Serial.gap q.una ack) } := by
  have hcount : (seqDiff ack q.una).toNat = Serial.gap q.una ack := by
    rw [seqDiff_eq, Serial.diff_of_lt (seqGt_iff.mp h), Int.toNat_natCast]
  have hdrop : q.buf.drop (min (Serial.gap q.una ack) q.buf.length) =
      q.buf.drop (Serial.gap q.una ack) := by
    rcases le_total (Serial.gap q.una ack) q.buf.length with hle | hle
    · rw [Nat.min_eq_left hle]
    · rw [Nat.min_eq_right hle, List.drop_length, List.drop_eq_nil_of_le hle]
  simp only [acknowledge, h, Bool.not_true, Bool.false_eq_true, if_false, hcount, hdrop]

@[simp] theorem acknowledge_capacity (ack : SeqNo) :
    (q.acknowledge ack).1.capacity = q.capacity := by
  unfold acknowledge
  split_ifs <;> rfl

theorem length_acknowledge_le (ack : SeqNo) : (q.acknowledge ack).1.buf.length ≤ q.buf.length := by
  by_cases h : seqGt ack q.una = true
  · rw [acknowledge_of_gt h, List.length_drop]
    exact Nat.sub_le _ _
  · simp [acknowledge, h]

end SendQueue

/-! ### The receive queue -/

/-- `xs[i:]` for an index that may be negative. -/
def sliceFrom (xs : Bytes) (i : Int) : Bytes :=
  xs.drop (if i < 0 then (xs.length + i).toNat else i.toNat)

/-- Inbound bytes: `buf` from `readPos` on can be read, `ooo` holds what arrived early. -/
structure ReceiveQueue where
  nxt : SeqNo
  buf : Bytes := []
  readPos : Nat := 0
  ooo : ReorderQueue
  capacity : Nat
  bytesReceived : Nat := 0
  duplicates : Nat := 0
  deriving DecidableEq

namespace ReceiveQueue

variable (q : ReceiveQueue)

/-- The queue of a connection whose peer started at `irs`; the peer's SYN took one number. -/
def new (irs : SeqNo) (capacity : Nat) : ReceiveQueue :=
  { nxt := seqAdd irs 1, ooo := { capacity := capacity }, capacity := capacity }

/-- Bytes the application can read right now. -/
def available : Nat := q.buf.length - q.readPos

def heldOutOfOrder : Nat := q.ooo.bytesBuffered

/-- Bytes the queue is willing to accept. -/
def window : Nat := q.capacity - (q.available + q.heldOutOfOrder)

/-- Place `data` at the end of the in-order part. -/
def extend (data : Bytes) : ReceiveQueue :=
  { q with
    buf := q.buf ++ data
    nxt := seqAdd q.nxt data.length
    bytesReceived := q.bytesReceived + data.length }

/-- The loop of `_accept` that pulls in what the holding area can now supply. Each round takes one
parked entry, so their number bounds the rounds. -/
def drain : Nat → ReceiveQueue → ReceiveQueue × Nat
  | 0, q => (q, 0)
  | fuel + 1, q =>
    match q.ooo.take q.nxt with
    | (_, none) => (q, 0)
    | (ooo, some data) =>
      let (q, newly) := drain fuel (({ q with ooo := ooo } : ReceiveQueue).extend data)
      (q, data.length + newly)

/-- `_accept`: take what fits of a payload that starts at `nxt`, then drain the holding area. -/
def accept (payload : Bytes) : ReceiveQueue × Nat :=
  if q.window = 0 then (q, 0)
  else
    let chunk := payload.take q.window
    let q := q.extend chunk
    let (q, newly) := drain (q.ooo.data.length + 1) q
    (q, chunk.length + newly)

/-- Accept a segment payload; the result is how many bytes were newly placed in order. -/
def insert (seq : SeqNo) (payload : Bytes) : ReceiveQueue × Nat :=
  if payload = [] then (q, 0)
  else if seq = q.nxt then q.accept payload
  else if seqGt seq q.nxt then
    -- ahead of the stream: park what fits into the free room
    let payload := if payload.length > q.window then payload.take q.window else payload
    if payload = [] then (q, 0) else ({ q with ooo := (q.ooo.insert seq payload).1 }, 0)
  else
    let overlap := seqDiff q.nxt seq
    let q := { q with duplicates := q.duplicates + 1 }
    if overlap ≥ payload.length then (q, 0)
    -- the source calls itself with what is left, which now starts at `nxt` and is not empty
    else q.accept (sliceFrom payload overlap)

/-- Consume up to `maxBytes` of in-order data. -/
def read (maxBytes : Nat) : ReceiveQueue × Bytes :=
  if maxBytes = 0 then (q, [])
  else
    let stop := min (q.readPos + maxBytes) q.buf.length
    let chunk := (q.buf.take stop).drop q.readPos
    if stop > 65536 ∧ stop * 2 > q.buf.length then
      ({ q with buf := q.buf.drop stop, readPos := 0 }, chunk)
    else ({ q with readPos := stop }, chunk)

def discardBefore (seq : SeqNo) : ReceiveQueue := { q with ooo := (q.ooo.discardBefore seq).1 }

def clear : ReceiveQueue := { q with buf := [], readPos := 0, ooo := q.ooo.clear }

/-- The bytes the application can read right now. -/
def readable : Bytes := q.buf.drop q.readPos

end ReceiveQueue

end MiniTcp
