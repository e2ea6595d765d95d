import MiniTcp.Net.Tcp.Holding

/-!
# What stays parked after its bytes were delivered

`_accept` moves `nxt` over a payload and then takes what is parked under exactly `nxt`, again and again.
A piece whose start is passed over in between is never looked at again. `always_nothingStale` says what keeps
this from happening: neither the payload that is accepted nor a piece that is drained after it may run
past the start of another parked piece.
-/

namespace MiniTcp

namespace ReceiveQueue

open ReorderQueue (held)

variable {q : ReceiveQueue} {seq : SeqNo} {payload : Bytes}

/-- Everything parked starts beyond `nxt`, what is counted as parked is undelivered, and when nothing is
left to read or to deliver the window is the whole capacity. -/
structure NothingStale (q : ReceiveQueue) : Prop where
  ahead : ∀ e ∈ q.ooo.data, seqGt e.1 q.nxt = true
  undelivered : q.heldOutOfOrder = held (q.ooo.data.filter (seqGt ·.1 q.nxt))
  window : q.available = 0 → (∀ e ∈ q.ooo.data, seqGt e.1 q.nxt = false) → q.window = q.capacity

theorem Accounted.nothingStale (h : q.Accounted) (hahead : ∀ e ∈ q.ooo.data, seqGt e.1 q.nxt = true) :
    q.NothingStale where
  ahead := hahead
  undelivered := by
    rw [List.filter_eq_self.mpr hahead]
    exact h.tidy.counted
  window := by
    intro havail hnone
    have hnil : q.ooo.data = [] := by
      refine List.eq_nil_iff_forall_not_mem.mpr fun e he => ?_
      have hgt := hahead e he
      rw [hnone e he] at hgt
      exact Bool.false_ne_true hgt
    have hzero : q.heldOutOfOrder = 0 := by
      rw [heldOutOfOrder, h.tidy.counted, hnil]
      rfl
    rw [ReceiveQueue.window, havail, hzero]
    omega

/-! ### Running past a start -/

/-- The number `k` is one of the `len` numbers from `a` on, but not `a` itself. -/
def Inside (a : SeqNo) (len : Nat) (k : SeqNo) : Prop := 0 < Serial.gap a k ∧ Serial.gap a k < len

/-- Parked pieces, laid end to end from `a` on, reach `k`. -/
inductive Adjoins (data : List (SeqNo × Bytes)) (a : SeqNo) : SeqNo → Prop
  | start : Adjoins data a a
  | next {k : SeqNo} {piece : Bytes} (h : Adjoins data a k) (hmem : (k, piece) ∈ data) :
      Adjoins data a (seqAdd k piece.length)

/-- None of the pieces that follow one another from `a` on runs past the start of a parked piece. -/
def Disjoint (data : List (SeqNo × Bytes)) (a : SeqNo) : Prop :=
  ∀ k piece, Adjoins data a k → (k, piece) ∈ data → ∀ e ∈ data, ¬ Inside k piece.length e.1

/-- The loop of `_accept` ends with nothing parked at or before `nxt`, if it starts so and the pieces do
not overlap. All numbers are counted from `a`, which lies less than half the ring behind what is parked. -/
theorem drain_ahead {data : List (SeqNo × Bytes)} {a b : SeqNo} {d : Nat} (fuel : Nat)
    (hfuel : q.ooo.data.length < fuel) (htidy : q.ooo.Tidy) (hsub : q.ooo.data ⊆ data)
    (hdisj : Disjoint data b) (hadj : Adjoins data b q.nxt) (hnxt : q.nxt = Serial.shift a d)
    (hoff : ∀ e ∈ q.ooo.data, d ≤ Serial.gap a e.1 ∧ 2 * Serial.gap a e.1 < 2 ^ 32) :
    ∀ e ∈ (q.drain fuel).1.ooo.data, seqGt e.1 (q.drain fuel).1.nxt = true := by
  -- a parked number lies as far beyond `nxt` as its count from `a` exceeds that of `nxt`
  have hgap : ∀ e ∈ q.ooo.data, Serial.gap q.nxt e.1 = Serial.gap a e.1 - d := by
    intro e he
    obtain ⟨hle, hhalf⟩ := hoff e he
    conv_lhs => rw [hnxt, ← Serial.shift_gap a e.1]
    exact Serial.gap_shift_shift hle (by omega)
  induction fuel generalizing q d with
  | zero => exact absurd hfuel (Nat.not_lt_zero _)
  | succ fuel ih =>
    unfold ReceiveQueue.drain
    split
    · rename_i htake
      intro e he
      have hne : e.1 ≠ q.nxt := by
        rintro heq
        have hnone : q.ooo.peek q.nxt = none := by
          unfold ReorderQueue.take at htake
          split at htake
          · assumption
          · cases htake
        exact ReorderQueue.Tidy.peek_eq_none hnone (heq ▸ List.mem_map_of_mem (f := (·.1)) he)
      have hpos : Serial.gap q.nxt e.1 ≠ 0 := fun hzero => hne (Serial.gap_eq_zero.mp hzero).symm
      have hhalf := (hoff e he).2
      rw [seqGt_iff, Serial.Lt]
      have := hgap e he
      dsimp only
      omega
    · rename_i ooo piece htake
      have hsome : (q.ooo.take q.nxt).2 = some piece := by rw [htake]
      obtain ⟨l, r, hdata, hrest⟩ := htidy.take hsome
      obtain ⟨-, -, htidy'⟩ := htidy.bytes_take hsome
      rw [htake] at hrest htidy'
      dsimp only at hrest htidy'
      have hmem : (q.nxt, piece) ∈ q.ooo.data := by rw [hdata]; simp
      have hrest' : ∀ e ∈ ooo.data, e ∈ q.ooo.data ∧ e.1 ≠ q.nxt := by
        intro e he
        have hkeys := htidy.keys
        rw [hdata, List.map_append, List.map_cons, List.nodup_middle, List.nodup_cons,
          ← List.map_append] at hkeys
        rw [hrest] at he
        refine ⟨?_, fun heq => hkeys.1 (heq ▸ List.mem_map_of_mem (f := (·.1)) he)⟩
        rw [hdata]
        rcases List.mem_append.mp he with hl | hr
        · exact List.mem_append_left _ hl
        · exact List.mem_append_right _ (List.mem_cons_of_mem _ hr)
      have hoff' : ∀ e ∈ ooo.data,
          d + piece.length ≤ Serial.gap a e.1 ∧ 2 * Serial.gap a e.1 < 2 ^ 32 := by
        intro e he
        obtain ⟨hold, hne⟩ := hrest' e he
        obtain ⟨hle, hhalf⟩ := hoff e hold
        have hapart := hdisj q.nxt piece hadj (hsub hmem) e (hsub hold)
        have hpos : Serial.gap q.nxt e.1 ≠ 0 := fun hzero => hne (Serial.gap_eq_zero.mp hzero).symm
        rw [Inside] at hapart
        have := hgap e hold
        omega
      have hnxt' : seqAdd q.nxt piece.length = Serial.shift a (d + piece.length) := by
        rw [hnxt, seqAdd, Serial.shift_shift]
      refine ih (q := ({ q with ooo := ooo } : ReceiveQueue).extend piece) (d := d + piece.length) ?_
        htidy' (fun e he => hsub (hrest' e he).1) (hadj.next (hsub hmem)) hnxt' hoff' ?_
      · have hlen := ReorderQueue.length_take_lt hsome
        rw [htake] at hlen
        dsimp only [ReceiveQueue.extend] at hlen ⊢
        omega
      · intro e he
        obtain ⟨hle, hhalf⟩ := hoff' e he
        show Serial.gap (seqAdd q.nxt piece.length) e.1 = _
        conv_lhs => rw [hnxt', ← Serial.shift_gap a e.1]
        exact Serial.gap_shift_shift hle (by omega)

/-- Accepting `n` bytes at `nxt` passes over no start. -/
def PassesNone (q : ReceiveQueue) (n : Nat) : Prop :=
  (∀ e ∈ q.ooo.data, ¬ Inside q.nxt n e.1) ∧ Disjoint q.ooo.data (seqAdd q.nxt n)

theorem accept_ahead (h : q.Accounted) (hahead : ∀ e ∈ q.ooo.data, seqGt e.1 q.nxt = true)
    (hpass : q.PassesNone (payload.take q.window).length) :
    ∀ e ∈ (q.accept payload).1.ooo.data, seqGt e.1 (q.accept payload).1.nxt = true := by
  unfold ReceiveQueue.accept
  split_ifs
  · exact hahead
  · refine drain_ahead (a := q.nxt) (b := seqAdd q.nxt (payload.take q.window).length) _
      (Nat.lt_succ_self _) h.tidy (List.Subset.refl _) hpass.2 .start rfl fun e he => ?_
    have hgt := seqGt_iff.mp (hahead e he)
    have hapart := hpass.1 e he
    rw [Inside] at hapart
    rw [Serial.Lt] at hgt
    omega

end ReceiveQueue

/-! ### Runs -/

namespace Receiver

open ReceiveQueue

variable {p : Receiver}

/-- A payload that is not ahead of `nxt` is accepted without passing over the start of a parked piece, and
so is what is drained after it. -/
def OvertakesNone (p : Receiver) : ReceiverCall → Prop
  | .insert seq payload => seqGt seq p.queue.nxt = false →
      p.queue.PassesNone ((p.queue.fresh seq payload).take p.queue.window).length
  | .read _ => True

theorem ahead_step (h : p.queue.Accounted) (hahead : ∀ e ∈ p.queue.ooo.data, seqGt e.1 p.queue.nxt = true)
    {e : ReceiverCall} (he : OvertakesNone p e) :
    ∀ x ∈ (p.step e).queue.ooo.data, seqGt x.1 (p.step e).queue.nxt = true := by
  cases e with
  | read maxBytes =>
    obtain ⟨-, -, hooo, hnxt, -⟩ := h.read maxBytes
    simp only [Receiver.step]
    rw [hooo, hnxt]
    exact hahead
  | insert seq payload =>
    simp only [Receiver.step]
    by_cases hne : payload = []
    · rw [ReceiveQueue.insert, if_pos hne]
      exact hahead
    by_cases hgt : seqGt seq p.queue.nxt = true
    · rw [insert_of_early hne hgt]
      split_ifs
      · exact hahead
      · intro x hx
        rcases ReorderQueue.mem_insert hx with hold | rfl
        · exact hahead x hold
        · exact hgt
    · by_cases hlt : seqDiff p.queue.nxt seq < payload.length
      · obtain ⟨d, hinsert⟩ := insert_of_due hne (by simpa using hgt) hlt
        have hq : ({ p.queue with duplicates := d } : ReceiveQueue).Accounted :=
          ⟨h.within, h.tidy, h.limit, h.bounded⟩
        rw [hinsert]
        exact accept_ahead hq hahead (he (by simpa using hgt))
      · have heq : seq ≠ p.queue.nxt := by
          rintro rfl
          have hpos := List.length_pos_iff.mpr hne
          rw [seqDiff_eq, Serial.diff_self] at hlt
          omega
        rw [ReceiveQueue.insert, if_neg hne, if_neg heq, if_neg hgt]
        dsimp only
        rw [if_pos (by omega)]
        exact hahead

/-- In every run in which no accepted or drained piece passes over the start of a parked one, nothing
stale is parked in any state. -/
theorem always_nothingStale (irs : SeqNo) (capacity : Nat) {es : List ReceiverCall}
    (hes : receiver.Meets OvertakesNone (new irs capacity) es) :
    receiver.Always (·.queue.NothingStale) (new irs capacity) es := by
  refine receiver.always_of_meets (P := fun p => p.queue.Accounted ∧
    ∀ x ∈ p.queue.ooo.data, seqGt x.1 p.queue.nxt = true) ?_ ?_ ?_ hes
  · exact fun q h => h.1.nothingStale h.2
  · exact fun q e h he => ⟨accounted_step h.1 e, ahead_step h.1 h.2 he⟩
  · exact ⟨accounted_new irs capacity, by simp [new, ReceiveQueue.new]⟩

theorem disjoint_singleton (x : SeqNo × Bytes) (a : SeqNo) : ReceiveQueue.Disjoint [x] a := by
  intro k piece _ hmem e he hinside
  obtain rfl := List.mem_singleton.mp hmem
  obtain rfl := List.mem_singleton.mp he
  rw [Inside, Serial.gap_self] at hinside
  exact absurd hinside.1 (lt_irrefl 0)

/-- Two bytes that come early, and then the five before them. -/
def adjoiningCalls : List ReceiverCall := [.insert 506 [6, 7], .insert 501 [1, 2, 3, 4, 5], .read 10]

theorem nothingStale_of_adjoining :
    receiver.Always (·.queue.NothingStale) (new 500 20) adjoiningCalls := by
  refine always_nothingStale 500 20 ⟨fun h => absurd h (by decide), fun _ => ⟨?_, ?_⟩, trivial, trivial⟩
  · intro e he
    obtain rfl := List.mem_singleton.mp he
    unfold Inside
    decide
  · exact disjoint_singleton (506, [6, 7]) _

/-- The same two bytes, and then ten bytes that contain them. Everything is delivered and read, and the
two stay parked behind `nxt` and go on taking room. -/
theorem contained_piece_stays :
    let calls : List ReceiverCall :=
      [.insert 506 [6, 7], .insert 501 [1, 2, 3, 4, 5, 6, 7, 8, 9, 10], .read 10]
    receiver.init (new 500 20) ∧ receiver.Meets Admits (new 500 20) calls ∧
      (receiver.run (new 500 20) calls).returned = [1, 2, 3, 4, 5, 6, 7, 8, 9, 10] ∧
      (receiver.run (new 500 20) calls).queue.nxt = 511 ∧
      (receiver.run (new 500 20) calls).queue.ooo.data = [(506, [6, 7])] ∧
      (receiver.run (new 500 20) calls).queue.available = 0 ∧
      (receiver.run (new 500 20) calls).queue.window = 18 ∧
      ¬ (receiver.run (new 500 20) calls).queue.NothingStale := by
  refine ⟨⟨500, 20, by decide, rfl⟩, ⟨?_, ?_, trivial, trivial⟩, by decide, by decide, by decide,
    by decide, by decide, fun h => ?_⟩
  · exact ⟨openWith (.new 500 20),
      { srcPort := 2000, dstPort := 1000, seq := 506, flags := FLAG_ACK, payload := [6, 7] },
      rfl, rfl, rfl, rfl, by decide⟩
  · exact ⟨openWith ((ReceiveQueue.new 500 20).insert 506 [6, 7]).1,
      { srcPort := 2000, dstPort := 1000, seq := 501, flags := FLAG_ACK,
        payload := [1, 2, 3, 4, 5, 6, 7, 8, 9, 10] }, rfl, rfl, rfl, rfl, by decide⟩
  · exact absurd (h.ahead (506, [6, 7]) (by decide)) (by decide)

end Receiver

end MiniTcp
