import MiniTcp.Lib.Machine
import MiniTcp.Net.Tcp.Reassembly

/-!
# A receive queue over its whole life

`receiver` is the machine of one receive queue: payloads are inserted, in whatever order the network
brings them, and the application reads. A `Receiver` also keeps what the reads have returned.
`delivers_stream` is what the queue is for: fed with slices of a stream, each from less than half the
ring away, it hands out the stream from its beginning and nothing else.
-/

namespace MiniTcp

/-- A call into a receive queue. -/
inductive ReceiverCall where
  | insert (seq : SeqNo) (payload : Bytes)
  | read (maxBytes : Nat)

/-- A receive queue and what its reads have returned. -/
structure Receiver where
  queue : ReceiveQueue
  returned : Bytes := []

namespace Receiver

/-- The queue of a connection whose peer started at `irs`. -/
def new (irs : SeqNo) (capacity : Nat) : Receiver := { queue := .new irs capacity }

/-- What one call does. -/
def step (p : Receiver) : ReceiverCall → Receiver
  | .insert seq payload => { p with queue := (p.queue.insert seq payload).1 }
  | .read maxBytes =>
    { queue := (p.queue.read maxBytes).1, returned := p.returned ++ (p.queue.read maxBytes).2 }

end Receiver

/-- All runs of one receive queue. The constructor raises unless the capacity is positive. -/
def receiver : Machine Receiver ReceiverCall where
  init p := ∃ irs capacity, 0 < capacity ∧ p = .new irs capacity
  next := Receiver.step

@[simp] theorem receiver_next (p : Receiver) (e : ReceiverCall) : receiver.next p e = p.step e := rfl

namespace Receiver

variable {irs : SeqNo} {s : Bytes} {p : Receiver} {r : Nat}

/-- How many bytes of the stream the queue has taken in order. -/
def position (irs : SeqNo) (q : ReceiveQueue) : Nat := Serial.gap (seqAdd irs 1) q.nxt

/-- Every inserted payload is a slice of `s` under its own number, from less than half the ring away. -/
def Slices (irs : SeqNo) (s : Bytes) (p : Receiver) : ReceiverCall → Prop
  | .insert seq payload => ∃ offset, seq = streamSeq irs offset ∧ Stream.At s offset payload ∧
      offset < position irs p.queue + 2 ^ 31 ∧ position irs p.queue < offset + 2 ^ 31
  | .read _ => True

theorem position_of_holds {done : Bytes} {q : ReceiveQueue} (hlen : s.length < 2 ^ 32)
    (h : q.Holds irs s done r) : position irs q = r := by
  have hle := h.le
  rw [position, h.nxt, ← streamSeq_zero, gap_streamSeq (Nat.zero_le _) (by omega), Nat.sub_zero]

/-- The queue has taken in the first bytes of the stream, as many as its position says. -/
def Delivers (irs : SeqNo) (s : Bytes) (p : Receiver) : Prop :=
  p.queue.Holds irs s p.returned (position irs p.queue)

theorem delivers_new (irs : SeqNo) (s : Bytes) (capacity : Nat) (hlen : s.length < 2 ^ 32) :
    Delivers irs s (new irs capacity) := by
  have h := ReceiveQueue.holds_new irs s capacity
  rw [Delivers, new, position_of_holds hlen h]
  exact h

theorem Delivers.insert (h : Delivers irs s p) (hlen : s.length < 2 ^ 32) {seq : SeqNo} {payload : Bytes}
    (hslice : Slices irs s p (.insert seq payload)) :
    (p.queue.insert seq payload).1.Holds irs s p.returned
      (position irs p.queue + (p.queue.insert seq payload).2) := by
  obtain ⟨offset, rfl, hat, hnear, hnear'⟩ := hslice
  exact ReceiveQueue.Holds.insert hlen h hat hnear hnear'

theorem Delivers.step (h : Delivers irs s p) (hlen : s.length < 2 ^ 32) {e : ReceiverCall}
    (he : Slices irs s p e) : Delivers irs s (p.step e) := by
  cases e with
  | insert seq payload =>
    have hholds := h.insert hlen he
    rw [Delivers, Receiver.step, position_of_holds hlen hholds]
    exact hholds
  | read maxBytes =>
    have hholds := ReceiveQueue.Holds.read h maxBytes
    rw [Delivers, Receiver.step, position_of_holds hlen hholds]
    exact hholds

theorem Delivers.run (h : Delivers irs s p) (hlen : s.length < 2 ^ 32) {es : List ReceiverCall}
    (hes : receiver.Meets (Slices irs s) p es) : Delivers irs s (receiver.run p es) :=
  receiver.run_induction (P := Delivers irs s) (fun _ _ hq he => hq.step hlen he) h hes

/-- In every run that inserts slices of a stream shorter than `2^32`, what the reads have returned and
what can be read are together the first bytes of the stream, up to `nxt`, and the next insert returns
what it adds to them. -/
theorem delivers_stream (capacity : Nat) (hlen : s.length < 2 ^ 32) {es : List ReceiverCall}
    (hes : receiver.Meets (Slices irs s) (new irs capacity) es) (p : Receiver)
    (hp : p = receiver.run (new irs capacity) es) :
    position irs p.queue ≤ s.length ∧
      p.returned ++ p.queue.readable = s.take (position irs p.queue) ∧
      ∀ seq payload, Slices irs s p (.insert seq payload) →
        position irs (p.queue.insert seq payload).1 =
          position irs p.queue + (p.queue.insert seq payload).2 := by
  have hholds : Delivers irs s p := hp ▸ (delivers_new irs s capacity hlen).run hlen hes
  exact ⟨hholds.le, hholds.stream,
    fun seq payload hslice => position_of_holds hlen (hholds.insert hlen hslice)⟩

/-- Eight bytes numbered across the wrap: a piece that comes early, one that nests in it, a read, and a
late piece that overlaps both. -/
def wrappedCalls : List ReceiverCall :=
  [.insert 1 [4, 5, 6], .insert 2 [5], .insert 0xfffffffe [1], .read 5, .insert 0xfffffffe [1, 2, 3],
    .insert 3 [6, 7, 8]]

theorem meets_wrappedCalls :
    receiver.Meets (Slices 0xfffffffd [1, 2, 3, 4, 5, 6, 7, 8]) (new 0xfffffffd 8) wrappedCalls :=
  ⟨⟨3, by decide, by decide, by decide, by decide⟩, ⟨4, by decide, by decide, by decide, by decide⟩,
    ⟨0, by decide, by decide, by decide, by decide⟩, trivial,
    ⟨0, by decide, by decide, by decide, by decide⟩,
    ⟨5, by decide, by decide, by decide, by decide⟩, trivial⟩

theorem wrapped_delivers_stream :
    (receiver.run (new 0xfffffffd 8) wrappedCalls).returned ++
        (receiver.run (new 0xfffffffd 8) wrappedCalls).queue.readable =
      ([1, 2, 3, 4, 5, 6, 7, 8] : Bytes).take 8 :=
  (delivers_stream 8 (by decide) meets_wrappedCalls _ rfl).2.1

end Receiver

end MiniTcp
