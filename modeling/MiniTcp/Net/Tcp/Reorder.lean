import MiniTcp.Net.Tcp.Segment

/-!
# `minitcp/net/tcp/reorder.py`: the holding area for early segments

The dictionary of the source is a list of key and payload pairs in insertion order; `insert` adds a
key only when it is absent.
-/

namespace MiniTcp

/-- Segments that arrived ahead of their turn, by sequence number. -/
structure ReorderQueue where
  data : List (SeqNo × Bytes) := []
  capacity : Nat
  bytesBuffered : Nat := 0
  duplicates : Nat := 0
  overflows : Nat := 0
  deriving DecidableEq

namespace ReorderQueue

variable (q : ReorderQueue)

/-- The payload parked under exactly `seq`. -/
def peek (seq : SeqNo) : Option Bytes := q.data.lookup seq

/-- Park `payload`; the result says whether it was accepted. -/
def insert (seq : SeqNo) (payload : Bytes) : ReorderQueue × Bool :=
  if payload = [] then (q, true)
  else if (q.peek seq).isSome then ({ q with duplicates := q.duplicates + 1 }, false)
  else if q.bytesBuffered + payload.length > q.capacity then
    ({ q with overflows := q.overflows + 1 }, false)
  else
    ({ q with
      data := q.data ++ [(seq, payload)]
      bytesBuffered := q.bytesBuffered + payload.length }, true)

/-- Remove and return the payload parked under exactly `seq`. -/
def take (seq : SeqNo) : ReorderQueue × Option Bytes :=
  match q.peek seq with
  | none => (q, none)
  | some data =>
    ({ q with
      data := q.data.filter (·.1 != seq)
      bytesBuffered := q.bytesBuffered - data.length }, some data)

/-- Drop everything that starts before `seq`. -/
def discardBefore (seq : SeqNo) : ReorderQueue × Nat :=
  let stale := q.data.filter (seqLt ·.1 seq)
  ({ q with
    data := q.data.filter (!seqLt ·.1 seq)
    bytesBuffered := q.bytesBuffered - (stale.map (·.2.length)).sum }, stale.length)

def clear : ReorderQueue := { q with data := [], bytesBuffered := 0 }

/-! ### What the operations can do -/

theorem mem_insert {q : ReorderQueue} {seq : SeqNo} {payload : Bytes} {e : SeqNo × Bytes}
    (h : e ∈ (q.insert seq payload).1.data) : e ∈ q.data ∨ e = (seq, payload) := by
  unfold insert at h
  split_ifs at h
  · exact .inl h
  · exact .inl h
  · exact .inl h
  · simpa using h

theorem mem_of_peek {q : ReorderQueue} {seq : SeqNo} {payload : Bytes}
    (h : q.peek seq = some payload) : (seq, payload) ∈ q.data := by
  obtain ⟨l, r, hdata, -⟩ := List.lookup_eq_some_iff.mp h
  rw [hdata]
  simp

theorem take_spec (q : ReorderQueue) (seq : SeqNo) :
    (∀ payload, (q.take seq).2 = some payload → (seq, payload) ∈ q.data) ∧
      (q.take seq).1.data ⊆ q.data := by
  unfold take
  split
  · simp
  · rename_i payload hpeek
    refine ⟨fun p hp => ?_, fun e he => (List.mem_filter.mp he).1⟩
    obtain rfl : payload = p := by simpa using hp
    exact mem_of_peek hpeek

theorem length_take_lt {q : ReorderQueue} {seq : SeqNo} {payload : Bytes}
    (h : (q.take seq).2 = some payload) : (q.take seq).1.data.length < q.data.length := by
  unfold take at h ⊢
  split at h
  · cases h
  · rename_i p hpeek
    exact List.length_filter_lt_length_iff_exists.mpr
      ⟨(seq, p), mem_of_peek hpeek, by simp⟩

end ReorderQueue

end MiniTcp
