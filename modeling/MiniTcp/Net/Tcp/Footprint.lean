import MiniTcp.Net.Tcp.Holding
import MiniTcp.Net.Tcp.Reset

/-!
# The memory a receive queue takes

A receive queue of capacity `C` holds at most `C` bytes that count: what can be read and what is parked.
The in-order buffer also holds bytes that were read and not yet dropped. `read` drops them once they are
more than 65536 and more than half of the buffer, so between two reads they are at most the larger of 65536
and `C`. `footprint` has both bounds for every reachable connection and for every state its drain loop
passes through.
-/

namespace MiniTcp

namespace ReceiveQueue

variable {q : ReceiveQueue} {capacity : Nat}

/-- What can be read and what is parked fit into `capacity`, the counter of the holding area is right, and
the whole in-order buffer is bounded. -/
structure Fits (capacity : Nat) (q : ReceiveQueue) : Prop where
  used : q.available + q.heldOutOfOrder ≤ capacity
  counted : q.ooo.bytesBuffered = (q.ooo.data.map (·.2.length)).sum
  physical : q.buf.length ≤ capacity + max 65536 capacity

/-- The invariant behind `Fits`: the bytes read and not yet dropped are bounded too. -/
structure Compact (capacity : Nat) (q : ReceiveQueue) : Prop where
  accounted : q.Accounted
  limit : q.capacity = capacity
  consumed : q.readPos ≤ max 65536 capacity

theorem Compact.fits (h : q.Compact capacity) : q.Fits capacity where
  used := h.limit ▸ h.accounted.bounded
  counted := h.accounted.tidy.counted
  physical := by
    have hused := h.accounted.bounded
    have hconsumed := h.consumed
    rw [h.limit] at hused
    unfold available at hused
    omega

/-! ### The operations keep it -/

theorem compact_new (irs : SeqNo) (capacity : Nat) : Compact capacity (.new irs capacity) where
  accounted := accounted_new irs capacity
  limit := rfl
  consumed := Nat.zero_le _

theorem drain_readPos (fuel : Nat) (q : ReceiveQueue) : (q.drain fuel).1.readPos = q.readPos := by
  induction fuel generalizing q with
  | zero => rfl
  | succ fuel ih =>
    unfold ReceiveQueue.drain
    split
    · rfl
    · apply ih

theorem accept_readPos (q : ReceiveQueue) (payload : Bytes) : (q.accept payload).1.readPos = q.readPos := by
  unfold ReceiveQueue.accept
  split_ifs
  · rfl
  · apply drain_readPos

theorem insert_readPos (q : ReceiveQueue) (seq : SeqNo) (payload : Bytes) :
    (q.insert seq payload).1.readPos = q.readPos := by
  by_cases hdue : payload = [] ∨ seqGt seq q.nxt = true ∨ payload.length ≤ seqDiff q.nxt seq
  · exact (insert_of_not_due hdue).2.2
  · rw [not_or, not_or, not_le, Bool.not_eq_true] at hdue
    obtain ⟨d, hinsert⟩ := insert_of_due hdue.1 hdue.2.1 hdue.2.2
    rw [hinsert]
    apply accept_readPos

theorem Compact.insert (h : q.Compact capacity) (seq : SeqNo) (payload : Bytes) :
    (q.insert seq payload).1.Compact capacity := by
  obtain ⟨hacc, hcap⟩ := h.accounted.insert seq payload
  refine ⟨hacc, hcap.trans h.limit, ?_⟩
  rw [insert_readPos]
  exact h.consumed

theorem Compact.read (h : q.Compact capacity) (n : Nat) : (q.read n).1.Compact capacity := by
  obtain ⟨hacc, hcap, -⟩ := h.accounted.read n
  refine ⟨hacc, hcap.trans h.limit, ?_⟩
  have hbounded := hacc.bounded
  rw [hcap, h.limit] at hbounded
  have hconsumed := h.consumed
  unfold ReceiveQueue.read at hbounded ⊢
  split_ifs at hbounded ⊢ with hzero
  · exact hconsumed
  · dsimp only at hbounded ⊢
    split_ifs at hbounded ⊢ with hdrop
    · exact Nat.zero_le _
    · unfold available at hbounded
      dsimp only at hbounded ⊢
      omega

theorem Compact.clear (h : q.Compact capacity) : q.clear.Compact capacity where
  accounted :=
    { within := Nat.le_refl _
      tidy := ⟨List.nodup_nil, fun _ he => absurd he List.not_mem_nil, rfl⟩
      limit := h.accounted.limit
      bounded := Nat.zero_le _ }
  limit := h.limit
  consumed := Nat.zero_le _

theorem Compact.congr {q' : ReceiveQueue} (h : q.Compact capacity) (hbuf : q'.buf = q.buf)
    (hpos : q'.readPos = q.readPos) (hooo : q'.ooo = q.ooo) (hcap : q'.capacity = q.capacity) :
    q'.Compact capacity := by
  obtain ⟨⟨hwithin, htidy, hlimit, hbounded⟩, hcapacity, hconsumed⟩ := h
  refine ⟨⟨?_, ?_, ?_, ?_⟩, ?_, ?_⟩
  · rwa [Within, hbuf, hpos]
  · rwa [hooo]
  · rwa [hooo, hcap]
  · rwa [available, heldOutOfOrder, hbuf, hpos, hooo, hcap]
  · rwa [hcap]
  · rwa [hpos]

/-! ### The drain loop -/

/-- The state of `_accept` after some rounds of its loop. -/
def inAccept (q : ReceiveQueue) (payload : Bytes) (rounds : Nat) : ReceiveQueue :=
  ((q.extend (payload.take q.window)).drain rounds).1

theorem accept_eq_inAccept (q : ReceiveQueue) (payload : Bytes) :
    (q.accept payload).1 = if q.window = 0 then q else q.inAccept payload (q.ooo.data.length + 1) := by
  unfold ReceiveQueue.accept
  split_ifs <;> rfl

theorem Compact.inAccept (h : q.Compact capacity) (payload : Bytes) (rounds : Nat) :
    (q.inAccept payload rounds).Compact capacity := by
  obtain ⟨hacc, hcap, -⟩ := (h.accounted.extend (List.length_take_le q.window payload)).drain rounds
  refine ⟨hacc, hcap.trans h.limit, ?_⟩
  rw [ReceiveQueue.inAccept, drain_readPos]
  exact h.consumed

end ReceiveQueue

/-! ### Connections -/

namespace Endpoint

open TCPConnection ReceiveQueue

variable {r : Bool} {e : Event} {p q q' : Endpoint}

/-- The receive queue keeps to the capacity that was configured. -/
def Compact (p : Endpoint) : Prop := p.conn.recvQueue.Compact p.conn.cfg.receiveCapacity

theorem compact_action (h : q.Compact) (ha : Action r e q q') : q'.Compact := by
  unfold Compact
  rw [ha.cfg]
  cases ha with
  | quiet hq =>
    rw [put_conn, hq.recvQueue]
    exact h
  | connect _ hconn =>
    obtain ⟨-, rfl⟩ := connect_eq hconn
    apply compact_new
  | simultaneousOpen =>
    rw [handleSimultaneousOpen_eq]
    apply compact_new
  | adopt => apply compact_new
  | establish t =>
    unfold settled
    split_ifs <;> exact h
  | push payload n now _ _ hne =>
    rw [transmitData_eq _ now hne]
    exact h
  | resend now =>
    rw [resend_eq]
    exact h
  | fin =>
    rw [sendFin_eq]
    exact h
  | insert => apply ReceiveQueue.Compact.insert h
  | @consumeFin _ _ _ now =>
    rw [put_conn, (finTaken_spec q.conn now).2.2.2.2.2.1]
    exact ReceiveQueue.Compact.congr h rfl rfl rfl rfl
  | advance =>
    unfold finAcknowledged
    split
    · exact h
    · exact h
    · apply ReceiveQueue.Compact.clear h
  | reset | expire => apply ReceiveQueue.Compact.clear h
  | abort =>
    rw [abort_eq]
    split_ifs
    · apply ReceiveQueue.Compact.clear h
    · apply ReceiveQueue.Compact.clear h
  | read => apply ReceiveQueue.Compact.read h
  | _ => exact h

theorem compact_of_reachable (hp : endpoint.Reachable p) : p.Compact := by
  refine reachable_induction (I := Compact) ?_ (fun _ _ _ => compact_action) hp
  rintro q (⟨cfg, rfl⟩ | ⟨cfg, seg, draw, now, -, -, rfl⟩)
  · apply compact_new
  · rw [passive, Compact, beginPassiveOpen_eq]
    apply compact_new

/-- In every reachable state, and in every state the drain loop passes through from there, what can be read
and what is parked take at most the configured capacity `C` together, the counter of the holding area is
the sum of the payloads in it, and the in-order buffer is at most `C + max 65536 C` bytes long. -/
theorem footprint (hp : endpoint.Reachable p) :
    p.conn.recvQueue.Fits p.conn.cfg.receiveCapacity ∧
      ∀ duplicates payload rounds,
        ({ p.conn.recvQueue with duplicates := duplicates }.inAccept payload rounds).Fits
          p.conn.cfg.receiveCapacity := by
  have h := compact_of_reachable hp
  refine ⟨ReceiveQueue.Compact.fits h, fun duplicates payload rounds => ?_⟩
  have hq : ({ p.conn.recvQueue with duplicates := duplicates } : ReceiveQueue).Compact
      p.conn.cfg.receiveCapacity := ReceiveQueue.Compact.congr h rfl rfl rfl rfl
  apply (hq.inAccept payload rounds).fits

/-- A client that has parked two bytes. -/
theorem footprint_parked :
    let p := endpoint.run establishedClient [.segment
      { srcPort := 2000, dstPort := 1000, seq := 503, ack := 101, flags := FLAG_ACK, payload := [3, 4] }
      none 0 0]
    p.conn.recvQueue.heldOutOfOrder = 2 ∧ p.conn.recvQueue.Fits p.conn.cfg.receiveCapacity :=
  ⟨by decide, (footprint (reachable_establishedClient.run endpoint (endpoint.meets_true _ _))).1⟩

end Endpoint

end MiniTcp
