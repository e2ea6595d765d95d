import MiniTcp.Net.Tcp.Connection
import MiniTcp.Net.Tcp.Receive
import MiniTcp.Net.Tcp.Delivery

/-!
# Room in the receive queue

What is parked counts against the same capacity as what can be read. `Accounted` is the bookkeeping every
receive queue keeps, whatever is inserted: the counters are right, and what can be read and what is
parked fit into the capacity together. `always_flowing_iff` asks when the byte that everything waits for
still has room: early payloads are trimmed to the size of the free room, wherever they start, so one of
them can take all of it.
-/

namespace MiniTcp

/-! ### The holding area -/

namespace ReorderQueue

/-- How many bytes a list of parked payloads has. -/
def held (data : List (SeqNo × Bytes)) : Nat := (data.map (·.2.length)).sum

/-- Every payload is parked under its own number and is not empty, and the counter counts the bytes. -/
structure Tidy (q : ReorderQueue) : Prop where
  keys : (q.data.map (·.1)).Nodup
  nonempty : ∀ e ∈ q.data, e.2 ≠ []
  counted : q.bytesBuffered = held q.data

variable {q : ReorderQueue} {seq : SeqNo} {payload : Bytes}

theorem Tidy.peek_eq_none (h : q.peek seq = none) : seq ∉ q.data.map (·.1) := by
  intro hmem
  obtain ⟨e, he, rfl⟩ := List.mem_map.mp hmem
  exact absurd rfl (bne_iff_ne.mp (List.lookup_eq_none_iff.mp h e he))

theorem Tidy.take (h : q.Tidy) (htake : (q.take seq).2 = some payload) :
    ∃ l r, q.data = l ++ (seq, payload) :: r ∧ (q.take seq).1.data = l ++ r := by
  unfold ReorderQueue.take at htake ⊢
  split at htake
  · cases htake
  · rename_i found hpeek
    obtain rfl : found = payload := Option.some.inj htake
    obtain ⟨l, r, hdata, hl⟩ := List.lookup_eq_some_iff.mp hpeek
    refine ⟨l, r, hdata, ?_⟩
    have hkeys := h.keys
    rw [hdata, List.map_append, List.map_cons, List.nodup_middle, List.nodup_cons, ← List.map_append]
      at hkeys
    have hrest : ∀ e ∈ l ++ r, (e.1 != seq) = true := by
      intro e he
      refine bne_iff_ne.mpr fun heq => hkeys.1 ?_
      rw [← heq]
      exact List.mem_map_of_mem (f := (·.1)) he
    dsimp only
    rw [hdata, List.filter_append, List.filter_cons_of_neg (by simp), ← List.filter_append,
      List.filter_eq_self.mpr hrest]

@[simp] theorem held_append (l r : List (SeqNo × Bytes)) : held (l ++ r) = held l + held r := by
  simp [held]

@[simp] theorem held_cons (e : SeqNo × Bytes) (l : List (SeqNo × Bytes)) :
    held (e :: l) = e.2.length + held l := by
  simp [held]

theorem Tidy.bytes_take (h : q.Tidy) (htake : (q.take seq).2 = some payload) :
    payload ≠ [] ∧ (q.take seq).1.bytesBuffered + payload.length = q.bytesBuffered ∧
      (q.take seq).1.Tidy := by
  obtain ⟨l, r, hdata, hrest⟩ := h.take htake
  have hcount : (q.take seq).1.bytesBuffered = q.bytesBuffered - payload.length := by
    unfold ReorderQueue.take at htake ⊢
    split at htake
    · cases htake
    · obtain rfl := Option.some.inj htake
      rfl
  have hsum := h.counted
  rw [hdata, held_append, held_cons] at hsum
  dsimp only at hsum
  refine ⟨h.nonempty (seq, payload) (by rw [hdata]; simp), by omega, ?_, ?_, ?_⟩
  · have hkeys := h.keys
    rw [hdata, List.map_append, List.map_cons, List.nodup_middle, List.nodup_cons] at hkeys
    rw [hrest, List.map_append]
    exact hkeys.2
  · intro e he
    refine h.nonempty e ?_
    rw [hrest] at he
    rw [hdata]
    rcases List.mem_append.mp he with hl | hr
    · exact List.mem_append_left _ hl
    · exact List.mem_append_right _ (List.mem_cons_of_mem _ hr)
  · rw [hcount, hrest, held_append]
    omega

theorem insert_of_free (hne : payload ≠ []) (hfree : q.peek seq = none)
    (hroom : q.bytesBuffered + payload.length ≤ q.capacity) :
    (q.insert seq payload).1 = { q with
      data := q.data ++ [(seq, payload)]
      bytesBuffered := q.bytesBuffered + payload.length } := by
  rw [insert, if_neg hne, if_neg (by simp [hfree]), if_neg (by omega)]

theorem insert_of_not_free (hno : payload = [] ∨ (q.peek seq).isSome = true) :
    (q.insert seq payload).1.data = q.data ∧
      (q.insert seq payload).1.bytesBuffered = q.bytesBuffered ∧
      (q.insert seq payload).1.capacity = q.capacity := by
  unfold insert
  split_ifs with hnil hpeek
  · exact ⟨rfl, rfl, rfl⟩
  · exact ⟨rfl, rfl, rfl⟩
  · rcases hno with hno | hno
    · exact absurd hno hnil
    · exact absurd hno hpeek
  · rcases hno with hno | hno
    · exact absurd hno hnil
    · exact absurd hno hpeek

theorem Tidy.congr {q' : ReorderQueue} (h : q.Tidy) (hdata : q'.data = q.data)
    (hbytes : q'.bytesBuffered = q.bytesBuffered) : q'.Tidy where
  keys := by rw [hdata]; exact h.keys
  nonempty := by rw [hdata]; exact h.nonempty
  counted := by rw [hdata, hbytes]; exact h.counted

theorem Tidy.park (h : q.Tidy) (hne : payload ≠ []) (hfree : q.peek seq = none) :
    ({ q with
      data := q.data ++ [(seq, payload)]
      bytesBuffered := q.bytesBuffered + payload.length } : ReorderQueue).Tidy where
  keys := by
    rw [List.map_append, List.map_singleton, List.nodup_append_comm, List.singleton_append,
      List.nodup_cons]
    exact ⟨Tidy.peek_eq_none hfree, h.keys⟩
  nonempty := by
    intro e he
    rcases List.mem_append.mp he with hold | hnew
    · exact h.nonempty e hold
    · obtain rfl := List.mem_singleton.mp hnew
      exact hne
  counted := by
    rw [held_append, h.counted]
    simp [held]

end ReorderQueue

/-! ### The receive queue -/

namespace ReceiveQueue

open ReorderQueue (held)

variable {q : ReceiveQueue} {seq : SeqNo} {payload : Bytes}

/-- The counters are right, and what can be read and what is parked fit into the capacity together. -/
structure Accounted (q : ReceiveQueue) : Prop where
  within : q.Within
  tidy : q.ooo.Tidy
  limit : q.ooo.capacity = q.capacity
  bounded : q.available + q.heldOutOfOrder ≤ q.capacity

theorem accounted_new (irs : SeqNo) (capacity : Nat) : Accounted (.new irs capacity) where
  within := le_rfl
  tidy := ⟨List.nodup_nil, by simp [new], rfl⟩
  limit := rfl
  bounded := Nat.zero_le _

theorem available_extend (h : q.Within) (data : Bytes) :
    (q.extend data).available = q.available + data.length := by
  unfold Within at h
  simp only [available, extend, List.length_append]
  omega

theorem Accounted.drain (h : q.Accounted) (fuel : Nat) :
    (q.drain fuel).1.Accounted ∧ (q.drain fuel).1.capacity = q.capacity ∧
      (q.drain fuel).1.available = q.available + (q.drain fuel).2 ∧
      (q.drain fuel).1.heldOutOfOrder + (q.drain fuel).2 = q.heldOutOfOrder := by
  induction fuel generalizing q with
  | zero => exact ⟨h, rfl, rfl, rfl⟩
  | succ fuel ih =>
    unfold ReceiveQueue.drain
    split
    · exact ⟨h, rfl, rfl, rfl⟩
    · rename_i ooo data htake
      have hsome : (q.ooo.take q.nxt).2 = some data := by rw [htake]
      obtain ⟨-, hbytes, htidy⟩ := h.tidy.bytes_take hsome
      rw [htake] at hbytes htidy
      have hlimit : ooo.capacity = q.capacity := by
        have hsame : (q.ooo.take q.nxt).1.capacity = q.ooo.capacity := by
          unfold ReorderQueue.take
          split <;> rfl
        rw [htake] at hsame
        exact hsame.trans h.limit
      have hwithin : ({ q with ooo := ooo } : ReceiveQueue).Within := h.within
      have havail := available_extend hwithin data
      have hbounded := h.bounded
      have hnext : (({ q with ooo := ooo } : ReceiveQueue).extend data).Accounted :=
        { within := hwithin.extend data
          tidy := htidy
          limit := hlimit
          bounded := by
            rw [havail]
            simp only [heldOutOfOrder, available, ReceiveQueue.extend] at hbounded hbytes ⊢
            omega }
      obtain ⟨hacc, hcap, havail', hheld⟩ := ih hnext
      refine ⟨hacc, hcap, ?_, ?_⟩
      · rw [havail', havail]
        simp only [available]
        omega
      · simp only [heldOutOfOrder, ReceiveQueue.extend] at hheld hbytes ⊢
        omega

theorem Accounted.extend (h : q.Accounted) (hroom : payload.length ≤ q.window) : (q.extend payload).Accounted where
  within := h.within.extend _
  tidy := h.tidy
  limit := h.limit
  bounded := by
    have hwindow : q.window = q.capacity - (q.available + q.heldOutOfOrder) := rfl
    have hbounded := h.bounded
    rw [available_extend h.within]
    simp only [heldOutOfOrder, ReceiveQueue.extend] at hbounded hwindow ⊢
    omega

/-- With room, `_accept` places at least one byte; without, it does nothing. -/
theorem Accounted.accept (h : q.Accounted) (hne : payload ≠ []) :
    (q.accept payload).1.Accounted ∧ (q.accept payload).1.capacity = q.capacity ∧
      (q.window = 0 → q.accept payload = (q, 0)) ∧
      (q.window ≠ 0 → 0 < (q.accept payload).2 ∧ 0 < (q.accept payload).1.available) := by
  have hpos := List.length_pos_iff.mpr hne
  unfold ReceiveQueue.accept
  split_ifs with hfull
  · exact ⟨h, rfl, fun _ => rfl, fun hroom => absurd hfull hroom⟩
  · have havail := available_extend h.within (payload.take q.window)
    have hlen : (payload.take q.window).length = min q.window payload.length := List.length_take
    have hnext : (q.extend (payload.take q.window)).Accounted := h.extend (by omega)
    obtain ⟨hacc, hcap, havail', -⟩ := hnext.drain ((q.extend (payload.take q.window)).ooo.data.length + 1)
    refine ⟨hacc, hcap, fun hzero => absurd hzero hfull, fun _ => ⟨?_, ?_⟩⟩
    · dsimp only
      omega
    · dsimp only
      omega

theorem insert_of_early (hne : payload ≠ []) (hgt : seqGt seq q.nxt = true) :
    (q.insert seq payload).1 =
      if payload.take q.window = [] then q
      else { q with ooo := (q.ooo.insert seq (payload.take q.window)).1 } := by
  have heq : seq ≠ q.nxt := (Serial.ne_of_lt (seqGt_iff.mp hgt)).symm
  have htrim : (if payload.length > q.window then payload.take q.window else payload) =
      payload.take q.window := by
    split_ifs with hlong
    · rfl
    · rw [List.take_of_length_le (by omega)]
  rw [insert, if_neg hne, if_neg heq, if_pos hgt]
  dsimp only
  rw [htrim]
  split_ifs <;> rfl

theorem Accounted.insert (h : q.Accounted) (seq : SeqNo) (payload : Bytes) :
    (q.insert seq payload).1.Accounted ∧ (q.insert seq payload).1.capacity = q.capacity := by
  by_cases hne : payload = []
  · rw [ReceiveQueue.insert, if_pos hne]
    exact ⟨h, rfl⟩
  by_cases hgt : seqGt seq q.nxt = true
  · rw [insert_of_early hne hgt]
    split_ifs with hnil
    · exact ⟨h, rfl⟩
    · have hbounded := h.bounded
      have hroom : (payload.take q.window).length ≤ q.window := List.length_take_le _ _
      have hwindow : q.window = q.capacity - (q.available + q.heldOutOfOrder) := rfl
      by_cases hfree : q.ooo.peek seq = none
      · have hlimit := h.limit
        have hheld : q.ooo.bytesBuffered = q.heldOutOfOrder := rfl
        rw [ReorderQueue.insert_of_free hnil hfree (by omega)]
        refine ⟨⟨h.within, h.tidy.park hnil hfree, h.limit, ?_⟩, rfl⟩
        simp only [available, heldOutOfOrder] at hbounded hwindow ⊢
        omega
      · have htaken : payload.take q.window = [] ∨ (q.ooo.peek seq).isSome = true :=
          .inr (Option.isSome_iff_ne_none.mpr hfree)
        obtain ⟨hdata, hbytes, hcap⟩ := ReorderQueue.insert_of_not_free htaken
        refine ⟨⟨h.within, h.tidy.congr hdata hbytes, hcap.trans h.limit, ?_⟩, rfl⟩
        simp only [available, heldOutOfOrder, hbytes] at hbounded ⊢
        exact hbounded
  · by_cases hlen : (payload.length : Int) ≤ seqDiff q.nxt seq
    · have heq : seq ≠ q.nxt := by
        rintro rfl
        have hpos := List.length_pos_iff.mpr hne
        rw [seqDiff_eq, Serial.diff_self] at hlen
        omega
      rw [ReceiveQueue.insert, if_neg hne, if_neg heq, if_neg hgt]
      dsimp only
      rw [if_pos hlen]
      exact ⟨⟨h.within, h.tidy, h.limit, h.bounded⟩, rfl⟩
    · obtain ⟨d, hinsert⟩ := insert_of_due hne (by simpa using hgt) (by omega)
      have hq : ({ q with duplicates := d } : ReceiveQueue).Accounted :=
        ⟨h.within, h.tidy, h.limit, h.bounded⟩
      have hfresh : q.fresh seq payload ≠ [] := fresh_ne_nil hne (by omega)
      rw [hinsert]
      obtain ⟨hacc, hcap, -⟩ := hq.accept hfresh
      exact ⟨hacc, hcap⟩

theorem Accounted.read (h : q.Accounted) (n : Nat) :
    (q.read n).1.Accounted ∧ (q.read n).1.capacity = q.capacity ∧ (q.read n).1.ooo = q.ooo ∧
      (q.read n).1.nxt = q.nxt ∧ (q.read n).1.available ≤ q.available := by
  have hwithin := h.within
  have hbounded := h.bounded
  unfold Within at hwithin
  unfold ReceiveQueue.read
  split_ifs with hzero
  · exact ⟨h, rfl, rfl, rfl, le_rfl⟩
  · dsimp only
    split_ifs
    · refine ⟨⟨Nat.zero_le _, h.tidy, h.limit, ?_⟩, rfl, rfl, rfl, ?_⟩
      · simp only [available, heldOutOfOrder, List.length_drop] at hbounded ⊢
        omega
      · simp only [available, List.length_drop]
        omega
    · refine ⟨⟨Nat.min_le_right _ _, h.tidy, h.limit, ?_⟩, rfl, rfl, rfl, ?_⟩
      · simp only [available, heldOutOfOrder] at hbounded ⊢
        omega
      · simp only [available]
        omega

/-! ### Room for the next byte -/

/-- When nothing is left to read, the next byte expected is accepted. -/
def Flowing (q : ReceiveQueue) : Prop :=
  q.available = 0 → ∀ payload, payload ≠ [] → 0 < (q.insert q.nxt payload).2

theorem Accounted.flowing_iff (h : q.Accounted) : q.Flowing ↔ (q.available = 0 → q.window ≠ 0) := by
  have hinsert : ∀ payload, payload ≠ [] → q.insert q.nxt payload = q.accept payload := by
    intro payload hne
    rw [ReceiveQueue.insert, if_neg hne, if_pos rfl]
  constructor
  · intro hflow hzero hfull
    have hpos := hflow hzero [0] (by simp)
    have hne : ([0] : Bytes) ≠ [] := by simp
    rw [hinsert _ hne, (h.accept hne).2.2.1 hfull] at hpos
    exact absurd hpos (lt_irrefl 0)
  · intro hroom hzero payload hne
    rw [hinsert _ hne]
    exact ((h.accept hne).2.2.2 (hroom hzero)).1

end ReceiveQueue

namespace Receiver

open ReceiveQueue

variable {p : Receiver}

/-- The `_acceptable` test of an open connection with this queue admits a segment with this payload. -/
def Admits (p : Receiver) : ReceiverCall → Prop
  | .insert seq payload => ∃ (c : TCPConnection) (seg : TCPSegment), c.state.isSynchronised = true ∧
      c.recvQueue = p.queue ∧ seg.seq = seq ∧ seg.payload = payload ∧ c.acceptable seg = true
  | .read _ => True

/-- A payload that comes early when nothing is left to read, under a free number, is shorter than the
room. -/
def LeavesRoom (p : Receiver) : ReceiverCall → Prop
  | .insert seq payload => p.queue.available = 0 → seqGt seq p.queue.nxt = true →
      p.queue.ooo.peek seq = none → payload.length < p.queue.window
  | .read _ => True

theorem accounted_step (h : p.queue.Accounted) (e : ReceiverCall) : (p.step e).queue.Accounted := by
  cases e with
  | insert seq payload => exact (h.insert seq payload).1
  | read maxBytes => exact (h.read maxBytes).1

theorem flowing_of_due {q : ReceiveQueue} {seq : SeqNo} {payload : Bytes} (h : q.Accounted)
    (hflow : q.available = 0 → q.window ≠ 0) (hne : payload ≠ []) (hgt : seqGt seq q.nxt = false)
    (hlt : seqDiff q.nxt seq < payload.length) :
    (q.insert seq payload).1.available = 0 → (q.insert seq payload).1.window ≠ 0 := by
  obtain ⟨d, hinsert⟩ := insert_of_due hne hgt hlt
  have hq : ({ q with duplicates := d } : ReceiveQueue).Accounted :=
    ⟨h.within, h.tidy, h.limit, h.bounded⟩
  have hfresh : q.fresh seq payload ≠ [] := fresh_ne_nil hne hlt
  obtain ⟨-, -, hfull, hroom⟩ := hq.accept hfresh
  rw [hinsert]
  by_cases hzero : q.window = 0
  · rw [hfull hzero]
    exact hflow
  · exact fun hnone => absurd hnone (hroom hzero).2.ne'

/-- A call keeps room for the next byte exactly when it does not park a payload into the last of it. -/
theorem flowing_step_iff (h : p.queue.Accounted) (hflow : p.queue.Flowing) (e : ReceiverCall) :
    (p.step e).queue.Flowing ↔ LeavesRoom p e := by
  rw [(accounted_step h e).flowing_iff]
  rw [h.flowing_iff] at hflow
  cases e with
  | read maxBytes =>
    refine iff_of_true ?_ trivial
    obtain ⟨-, hcap, hooo, -, hless⟩ := h.read maxBytes
    intro hzero
    have hbounded := h.bounded
    simp only [Receiver.step, window, heldOutOfOrder, hcap, hooo] at hzero hflow hbounded ⊢
    omega
  | insert seq payload =>
    unfold LeavesRoom
    simp only [Receiver.step]
    by_cases hne : payload = []
    · rw [ReceiveQueue.insert, if_pos hne, hne]
      exact iff_of_true hflow fun hzero _ _ => Nat.pos_of_ne_zero (hflow hzero)
    by_cases hgt : seqGt seq p.queue.nxt = true
    · have hpos := List.length_pos_iff.mpr hne
      rw [insert_of_early hne hgt]
      simp only [hgt, true_imp_iff]
      by_cases hnil : payload.take p.queue.window = []
      · rw [if_pos hnil]
        refine iff_of_true hflow fun hzero _ => ?_
        exact absurd (List.take_eq_nil_iff.mp hnil) (not_or.mpr ⟨hflow hzero, hne⟩)
      · rw [if_neg hnil]
        have hlimit := h.limit
        have hlen : (payload.take p.queue.window).length = min p.queue.window payload.length :=
          List.length_take
        have hwindow : p.queue.window =
            p.queue.capacity - (p.queue.available + p.queue.ooo.bytesBuffered) := rfl
        generalize payload.take p.queue.window = piece at hnil hlen ⊢
        cases hpeek : p.queue.ooo.peek seq with
        | none =>
          have hnonzero := List.length_pos_iff.mpr hnil
          rw [ReorderQueue.insert_of_free hnil hpeek (by omega)]
          simp only [true_imp_iff]
          refine imp_congr_right fun hzero => ?_
          simp only [available, window, heldOutOfOrder] at hzero hlen hwindow ⊢
          omega
        | some parked =>
          obtain ⟨-, hbytes, -⟩ := ReorderQueue.insert_of_not_free (q := p.queue.ooo)
            (.inr (Option.isSome_iff_exists.mpr ⟨parked, hpeek⟩) :
              piece = [] ∨ (p.queue.ooo.peek seq).isSome = true)
          refine iff_of_true ?_ fun _ h => (by cases h)
          simp only [available, window, heldOutOfOrder, hbytes] at hflow ⊢
          exact hflow
    · refine iff_of_true ?_ fun _ h => absurd h hgt
      by_cases hlt : seqDiff p.queue.nxt seq < payload.length
      · exact flowing_of_due h hflow hne (by simpa using hgt) hlt
      · have heq : seq ≠ p.queue.nxt := by
          rintro rfl
          have hpos := List.length_pos_iff.mpr hne
          rw [seqDiff_eq, Serial.diff_self] at hlt
          omega
        rw [ReceiveQueue.insert, if_neg hne, if_neg heq, if_neg hgt]
        dsimp only
        rw [if_pos (by omega)]
        exact hflow

/-- Over any sequence of calls, the next byte expected has room in every state with nothing to read
exactly when no call parks a payload into the last of the room. -/
theorem always_flowing_iff (irs : SeqNo) {capacity : Nat} (hcap : 0 < capacity)
    (es : List ReceiverCall) :
    receiver.Always (·.queue.Flowing) (new irs capacity) es ↔
      receiver.Meets LeavesRoom (new irs capacity) es := by
  have hnew := accounted_new irs capacity
  refine receiver.always_iff_meets (E := fun _ _ => True) (Q := fun p => p.queue.Accounted) ?_ ?_
    (receiver.meets_true _ _) hnew ?_
  · exact fun p e h _ _ _ => accounted_step h e
  · exact fun p e h hflow _ => flowing_step_iff h hflow e
  · exact hnew.flowing_iff.mpr fun _ => (show capacity - (0 + 0) ≠ 0 by omega)

/-- An early payload that leaves a byte of room, and the byte it waits for. -/
theorem flowing_of_short_payload :
    receiver.Always (·.queue.Flowing) (new 500 4) [.insert 503 [3, 4], .insert 501 [1, 2], .read 4] :=
  (always_flowing_iff 500 (by decide) _).mpr
    ⟨fun _ _ _ => (by decide), fun _ h => absurd h (by decide), trivial, trivial⟩

/-- An open connection with the given receive queue. -/
def openWith (q : ReceiveQueue) : TCPConnection :=
  { TCPConnection.new (.plain 100) with state := .established, recvQueue := q }

/-- A queue of four bytes is given the four bytes after the next one. The segment straddles the window's
edge, so it is admitted; all four are parked, and the byte at `nxt` is refused ever after. -/
theorem early_payload_wedges :
    let calls : List ReceiverCall := [.insert 502 [2, 3, 4, 5]]
    receiver.init (new 500 4) ∧ receiver.Meets Admits (new 500 4) calls ∧
      (receiver.run (new 500 4) calls).queue.available = 0 ∧
      (receiver.run (new 500 4) calls).queue.nxt = 501 ∧
      (receiver.run (new 500 4) calls).queue.insert 501 [1] =
        ((receiver.run (new 500 4) calls).queue, 0) := by
  refine ⟨⟨500, 4, by decide, rfl⟩, ⟨?_, trivial⟩, by decide, by decide, by decide⟩
  exact ⟨openWith (.new 500 4),
    { srcPort := 2000, dstPort := 1000, seq := 502, flags := FLAG_ACK, payload := [2, 3, 4, 5] },
    rfl, rfl, rfl, rfl, by decide⟩

end Receiver

end MiniTcp
