import MiniTcp.Net.Tcp.Buffer

/-!
# The receive queue, operation by operation

What `insert`, `read` and the loop of `_accept` do to the in-order part of a receive queue, for any
numbers and payloads, honest or not. A payload is either due (it holds the byte numbered `nxt`, or lies
exactly half the ring behind it) and goes to `_accept`, or it leaves the in-order part as it is.
-/

namespace MiniTcp

namespace ReceiveQueue

variable {q : ReceiveQueue} {seq : SeqNo} {payload : Bytes}

/-- The part of a payload that lies at `nxt` or beyond. -/
def fresh (q : ReceiveQueue) (seq : SeqNo) (payload : Bytes) : Bytes :=
  sliceFrom payload (seqDiff q.nxt seq)

/-- The payload has a byte for `nxt`, and there is room for it. -/
def takesIn (q : ReceiveQueue) (seq : SeqNo) (payload : Bytes) : Bool :=
  payload ≠ [] && q.window ≠ 0 && !seqGt seq q.nxt && seqDiff q.nxt seq < payload.length

/-- The reading position lies within the buffer. -/
def Within (q : ReceiveQueue) : Prop := q.readPos ≤ q.buf.length

theorem Within.readable_extend (h : q.Within) (data : Bytes) :
    (q.extend data).readable = q.readable ++ data := by
  simp only [readable, extend]
  rw [List.drop_append_of_le_length h]

theorem Within.extend (h : q.Within) (data : Bytes) : (q.extend data).Within := by
  unfold Within at h ⊢
  simp only [ReceiveQueue.extend, List.length_append]
  omega

theorem Within.drain (h : q.Within) (fuel : Nat) :
    (q.drain fuel).1.Within ∧ ∃ more, (q.drain fuel).1.readable = q.readable ++ more := by
  induction fuel generalizing q with
  | zero => exact ⟨h, [], by simp [ReceiveQueue.drain]⟩
  | succ fuel ih =>
    unfold ReceiveQueue.drain
    split
    · exact ⟨h, [], by simp⟩
    · rename_i ooo data _
      have hnext : ({ q with ooo := ooo } : ReceiveQueue).Within := h
      obtain ⟨hwithin, more, hmore⟩ := ih (hnext.extend data)
      refine ⟨hwithin, data ++ more, ?_⟩
      rw [hmore, hnext.readable_extend, List.append_assoc]
      rfl

theorem Within.accept (h : q.Within) (payload : Bytes) :
    (q.accept payload).1.Within ∧ (q.window = 0 → (q.accept payload).1 = q) ∧
      ∃ more, (q.accept payload).1.readable = q.readable ++ payload.take q.window ++ more := by
  unfold ReceiveQueue.accept
  split_ifs with hfull
  · exact ⟨h, fun _ => rfl, [], by simp [hfull]⟩
  · obtain ⟨hwithin, more, hmore⟩ :=
      (h.extend (payload.take q.window)).drain ((q.extend (payload.take q.window)).ooo.data.length + 1)
    refine ⟨hwithin, fun hzero => absurd hzero hfull, more, ?_⟩
    rw [hmore, h.readable_extend]

theorem insert_of_due (hne : payload ≠ []) (hgt : seqGt seq q.nxt = false)
    (hlt : seqDiff q.nxt seq < payload.length) :
    ∃ d, q.insert seq payload =
      ({ q with duplicates := d } : ReceiveQueue).accept (q.fresh seq payload) := by
  unfold insert fresh
  rw [if_neg hne, if_neg (c := seqGt seq q.nxt = true) (by simp [hgt])]
  dsimp only
  split_ifs with heq hover
  · refine ⟨q.duplicates, ?_⟩
    rw [heq, seqDiff_eq, Serial.diff_self]
    rfl
  · omega
  · exact ⟨q.duplicates + 1, rfl⟩

theorem insert_of_behind (h : payload = [] ∨ payload.length ≤ seqDiff q.nxt seq) :
    ∃ n, q.insert seq payload = ({ q with duplicates := n }, 0) := by
  by_cases hnil : payload = []
  · exact ⟨q.duplicates, by rw [insert, if_pos hnil]⟩
  · have hpos := List.length_pos_iff.mpr hnil
    have hlen := h.resolve_left hnil
    have hne : seq ≠ q.nxt := by
      rintro rfl
      rw [seqDiff_eq, Serial.diff_self] at hlen
      omega
    have hgt : seqGt seq q.nxt ≠ true := by
      rw [Ne, seqGt_iff]
      intro hlt
      rw [seqDiff_eq] at hlen
      have hbehind := Serial.diff_nonneg_iff.mp (show 0 ≤ Serial.diff q.nxt seq by omega)
      have := Serial.gap_comm (Serial.ne_of_lt hlt)
      have := hlt.2
      omega
    refine ⟨q.duplicates + 1, ?_⟩
    rw [insert, if_neg hnil, if_neg hne, if_neg hgt]
    exact if_pos hlen

theorem insert_of_not_due (hdue : payload = [] ∨ seqGt seq q.nxt = true ∨
      payload.length ≤ seqDiff q.nxt seq) :
    (q.insert seq payload).1.nxt = q.nxt ∧ (q.insert seq payload).1.buf = q.buf ∧
      (q.insert seq payload).1.readPos = q.readPos := by
  by_cases hbehind : payload = [] ∨ payload.length ≤ seqDiff q.nxt seq
  · obtain ⟨n, heq⟩ := insert_of_behind hbehind
    rw [heq]
    exact ⟨rfl, rfl, rfl⟩
  · rw [not_or] at hbehind
    have hgt : seqGt seq q.nxt = true := (hdue.resolve_left hbehind.1).resolve_right hbehind.2
    have hne : seq ≠ q.nxt := (Serial.ne_of_lt (seqGt_iff.mp hgt)).symm
    rw [insert, if_neg hbehind.1, if_neg hne, if_pos hgt]
    dsimp only
    split_ifs <;> exact ⟨rfl, rfl, rfl⟩

theorem fresh_ne_nil (hne : payload ≠ []) (hlt : seqDiff q.nxt seq < payload.length) :
    q.fresh seq payload ≠ [] := by
  have hpos := List.length_pos_iff.mpr hne
  unfold fresh sliceFrom
  rw [← List.length_pos_iff, List.length_drop]
  split_ifs <;> omega

theorem Within.insert_of_takesIn (h : q.Within) (htakes : q.takesIn seq payload = true) :
    ∃ more, more ≠ [] ∧ (q.insert seq payload).1.readable = q.readable ++ more := by
  unfold takesIn at htakes
  simp only [Bool.and_eq_true, decide_eq_true_eq, Bool.not_eq_true'] at htakes
  obtain ⟨⟨⟨hne, hroom⟩, hgt⟩, hlt⟩ := htakes
  obtain ⟨d, hinsert⟩ := insert_of_due hne hgt hlt
  have hq : ({ q with duplicates := d } : ReceiveQueue).Within := h
  obtain ⟨-, -, more, hmore⟩ := hq.accept (q.fresh seq payload)
  refine ⟨(q.fresh seq payload).take q.window ++ more, ?_, ?_⟩
  · have hfresh := fresh_ne_nil hne hlt
    simp only [ne_eq, List.append_eq_nil_iff, List.take_eq_nil_iff, not_and]
    exact fun hnil => absurd hnil (not_or.mpr ⟨hroom, hfresh⟩)
  · rw [hinsert, hmore, List.append_assoc]
    rfl

theorem Within.insert_of_not_takesIn (h : q.Within) (htakes : q.takesIn seq payload = false) :
    (q.insert seq payload).1.nxt = q.nxt ∧ (q.insert seq payload).1.readable = q.readable := by
  by_cases hdue : payload = [] ∨ seqGt seq q.nxt = true ∨ payload.length ≤ seqDiff q.nxt seq
  · obtain ⟨hnxt, hbuf, hpos⟩ := insert_of_not_due hdue
    exact ⟨hnxt, by rw [readable, hbuf, hpos, readable]⟩
  · -- it is due, so the room is missing
    rw [not_or, not_or, not_le, Bool.not_eq_true] at hdue
    obtain ⟨hne, hgt, hlt⟩ := hdue
    have hfull : q.window = 0 := by
      by_contra hroom
      simp [takesIn, hne, hroom, hgt, hlt] at htakes
    obtain ⟨d, hinsert⟩ := insert_of_due hne hgt hlt
    have hq : ({ q with duplicates := d } : ReceiveQueue).Within := h
    rw [hinsert, (hq.accept _).2.1 hfull]
    exact ⟨rfl, rfl⟩

theorem Within.insert (h : q.Within) (seq : SeqNo) (payload : Bytes) : (q.insert seq payload).1.Within := by
  by_cases hdue : payload = [] ∨ seqGt seq q.nxt = true ∨ payload.length ≤ seqDiff q.nxt seq
  · obtain ⟨-, hbuf, hpos⟩ := insert_of_not_due hdue
    rw [Within, hbuf, hpos]
    exact h
  · rw [not_or, not_or, not_le, Bool.not_eq_true] at hdue
    obtain ⟨d, hinsert⟩ := insert_of_due hdue.1 hdue.2.1 hdue.2.2
    have hq : ({ q with duplicates := d } : ReceiveQueue).Within := h
    rw [hinsert]
    exact (hq.accept _).1

theorem Within.read (h : q.Within) (n : Nat) : (q.read n).1.Within := by
  unfold ReceiveQueue.read
  split_ifs
  · exact h
  · dsimp only
    split_ifs
    · exact Nat.zero_le _
    · exact min_le_right _ _

/-! ### Where the bytes go -/

/-- The bytes of parked pieces that follow one another from `a` on. -/
inductive Strung (data : List (SeqNo × Bytes)) : SeqNo → Bytes → Prop
  | nil (a : SeqNo) : Strung data a []
  | cons {a : SeqNo} {piece more : Bytes} (hmem : (a, piece) ∈ data)
      (hmore : Strung data (seqAdd a piece.length) more) : Strung data a (piece ++ more)

theorem Strung.mono {data data' : List (SeqNo × Bytes)} (hsub : data ⊆ data') {a : SeqNo} {more : Bytes}
    (h : Strung data a more) : Strung data' a more := by
  induction h with
  | nil a => exact .nil a
  | cons hmem _ ih => exact .cons (hsub hmem) ih

theorem strung_drain (fuel : Nat) (q : ReceiveQueue) :
    ∃ more, (q.drain fuel).1.buf = q.buf ++ more ∧
      (q.drain fuel).1.nxt = seqAdd q.nxt more.length ∧ Strung q.ooo.data q.nxt more := by
  induction fuel generalizing q with
  | zero => exact ⟨[], by simp [ReceiveQueue.drain], by simp [ReceiveQueue.drain, seqAdd], .nil _⟩
  | succ fuel ih =>
    unfold ReceiveQueue.drain
    split
    · exact ⟨[], by simp, by simp [seqAdd], .nil _⟩
    · rename_i ooo piece htake
      obtain ⟨hmem, hsub⟩ := q.ooo.take_spec q.nxt
      rw [htake] at hmem hsub
      obtain ⟨more, hbuf, hnxt, hstrung⟩ := ih (({ q with ooo := ooo } : ReceiveQueue).extend piece)
      refine ⟨piece ++ more, ?_, ?_, .cons (hmem piece rfl) (hstrung.mono hsub)⟩
      · dsimp only
        rw [hbuf, extend, List.append_assoc]
      · dsimp only
        rw [hnxt, extend, List.length_append, seqAdd, seqAdd, Serial.shift_shift, seqAdd]

theorem strung_accept (q : ReceiveQueue) (payload : Bytes) (hroom : q.window ≠ 0) :
    ∃ more, (q.accept payload).1.buf = q.buf ++ payload.take q.window ++ more ∧
      (q.accept payload).1.nxt = seqAdd q.nxt (payload.take q.window ++ more).length ∧
      Strung q.ooo.data (seqAdd q.nxt (payload.take q.window).length) more := by
  rw [ReceiveQueue.accept, if_neg hroom]
  obtain ⟨more, hbuf, hnxt, hstrung⟩ :=
    strung_drain (q.ooo.data.length + 1) (q.extend (payload.take q.window))
  refine ⟨more, hbuf, ?_, hstrung⟩
  dsimp only
  rw [List.length_append]
  refine hnxt.trans ?_
  rw [extend, seqAdd, seqAdd, Serial.shift_shift, seqAdd]

/-- `insert` puts bytes where they belong. With `k` bytes of the payload before `nxt`, what is added to the
in-order part starts with as much of `payload[k:]` as fits and goes on with parked pieces, each at its own
number; and if the payload ends at `nxt` or before, or starts beyond it, nothing is added. -/
def Places (q : ReceiveQueue) (seq : SeqNo) (payload : Bytes) : Prop :=
  let k := Serial.gap seq q.nxt
  if k < payload.length then
    ∃ more, (q.insert seq payload).1.buf = q.buf ++ (payload.drop k).take q.window ++ more ∧
      (q.insert seq payload).1.nxt = seqAdd q.nxt ((payload.drop k).take q.window ++ more).length ∧
      ((payload.drop k).take q.window = [] → more = []) ∧
      Strung q.ooo.data (seqAdd q.nxt ((payload.drop k).take q.window).length) more
  else (q.insert seq payload).1.buf = q.buf ∧ (q.insert seq payload).1.nxt = q.nxt

theorem fresh_eq_drop (h : 2 * Serial.gap seq q.nxt < 2 ^ 32) :
    q.fresh seq payload = payload.drop (Serial.gap seq q.nxt) := by
  have hneg : ¬ (Serial.gap seq q.nxt : Int) < 0 := by omega
  rw [fresh, seqDiff_eq, Serial.diff_of_nonneg h, sliceFrom, if_neg (c := _ < 0) hneg, Int.toNat_natCast]

theorem ahead_iff : seqGt seq q.nxt = true ↔ 2 ^ 31 < Serial.gap seq q.nxt := by
  rw [seqGt_iff, Serial.Lt]
  by_cases heq : seq = q.nxt
  · rw [heq, Serial.gap_self]
    omega
  · have hcomm := Serial.gap_comm heq
    have hlt := Serial.gap_lt seq q.nxt
    have hlt' := Serial.gap_lt q.nxt seq
    omega

/-- Half the ring away the signed distance is negative, and the slice it makes is the whole payload. -/
theorem fresh_half (h : Serial.gap seq q.nxt = 2 ^ 31) (hlen : payload.length < 2 ^ 31) :
    seqDiff q.nxt seq < 0 ∧ q.fresh seq payload = payload := by
  have hdiff : seqDiff q.nxt seq = -2 ^ 31 := by
    rw [seqDiff_eq, Serial.diff, h]
    decide
  have hzero : ((payload.length : Int) + -2 ^ 31).toNat = 0 := by omega
  refine ⟨by omega, ?_⟩
  rw [fresh, hdiff, sliceFrom, if_pos (by decide), hzero, List.drop_zero]

theorem accept_of_full (h : q.window = 0) (payload : Bytes) : q.accept payload = (q, 0) := by
  rw [ReceiveQueue.accept, if_pos h]

/-- Bytes are put where they belong except when a payload that starts exactly half the sequence space away
finds room: neither comparison holds there, and the payload goes to `nxt`, whole. -/
theorem places_iff (q : ReceiveQueue) (seq : SeqNo) (payload : Bytes) (hlen : payload.length < 2 ^ 31) :
    q.Places seq payload ↔ ¬ (Serial.gap seq q.nxt = 2 ^ 31 ∧ payload ≠ [] ∧ q.window ≠ 0) := by
  unfold Places
  dsimp only
  by_cases hnil : payload = []
  · subst hnil
    simp [ReceiveQueue.insert]
  have hpos := List.length_pos_iff.mpr hnil
  have hlt := Serial.gap_lt seq q.nxt
  rcases Nat.lt_trichotomy (Serial.gap seq q.nxt) (2 ^ 31) with hnear | hhalf | hfar
  · -- the payload starts at `nxt` or behind it
    have hdiff : seqDiff q.nxt seq = Serial.gap seq q.nxt := by
      rw [seqDiff_eq, Serial.diff_of_nonneg (by omega)]
    have hgt : seqGt seq q.nxt = false := by
      rw [← Bool.not_eq_true, ahead_iff]
      omega
    refine iff_of_true ?_ (by omega)
    split_ifs with hk
    · obtain ⟨d, hinsert⟩ := insert_of_due hnil hgt (by rw [hdiff]; omega)
      rw [hinsert, fresh_eq_drop (by omega)]
      by_cases hroom : q.window = 0
      · rw [accept_of_full (q := { q with duplicates := d }) hroom, hroom]
        exact ⟨[], by simp, by simp [seqAdd], fun _ => rfl, .nil _⟩
      · obtain ⟨more, hbuf, hnxt, hstrung⟩ := strung_accept { q with duplicates := d }
          (payload.drop (Serial.gap seq q.nxt)) hroom
        refine ⟨more, hbuf, hnxt, fun hempty => ?_, hstrung⟩
        rw [List.take_eq_nil_iff, List.drop_eq_nil_iff] at hempty
        omega
    · have hbehind : payload.length ≤ seqDiff q.nxt seq := by rw [hdiff]; omega
      obtain ⟨hnxt, hbuf, -⟩ := insert_of_not_due (.inr (.inr hbehind))
      exact ⟨hbuf, hnxt⟩
  · -- neither ahead nor behind
    obtain ⟨hneg, hwhole⟩ := fresh_half hhalf hlen
    have hgt : seqGt seq q.nxt = false := by
      rw [← Bool.not_eq_true, ahead_iff]
      omega
    obtain ⟨d, hinsert⟩ := insert_of_due hnil hgt (by omega)
    rw [if_neg (by omega), hinsert, hwhole]
    by_cases hroom : q.window = 0
    · rw [accept_of_full (q := { q with duplicates := d }) hroom]
      exact iff_of_true ⟨rfl, rfl⟩ fun h => h.2.2 hroom
    · refine iff_of_false ?_ (not_not.mpr ⟨hhalf, hnil, hroom⟩)
      rintro ⟨hbuf, -⟩
      obtain ⟨more, hgrown, -⟩ := strung_accept { q with duplicates := d } payload hroom
      rw [hgrown, List.append_assoc, List.append_right_eq_self, List.append_eq_nil_iff,
        List.take_eq_nil_iff] at hbuf
      exact hbuf.1.elim hroom hnil
  · -- the payload starts ahead of `nxt`
    have hgt : seqGt seq q.nxt = true := ahead_iff.mpr hfar
    have hearly : payload = [] ∨ seqGt seq q.nxt = true ∨ payload.length ≤ seqDiff q.nxt seq :=
      .inr (.inl hgt)
    obtain ⟨hnxt, hbuf, -⟩ := insert_of_not_due hearly
    refine iff_of_true ?_ (by omega)
    rw [if_neg (by omega)]
    exact ⟨hbuf, hnxt⟩

/-- A payload that reaches back two bytes and forward two. -/
theorem places_of_overlap : (new 500 4).Places 499 [1, 2, 3, 4] :=
  (places_iff (new 500 4) 499 [1, 2, 3, 4] (by decide)).mpr (by decide)

/-- A byte numbered half the sequence space beyond `nxt` is delivered as the next one. -/
theorem half_the_space_away_is_placed :
    Serial.gap (501 + 2 ^ 31) (new 500 4).nxt = 2 ^ 31 ∧
      ((new 500 4).insert (501 + 2 ^ 31) [7]).1.buf = [7] ∧
      ((new 500 4).insert (501 + 2 ^ 31) [7]).1.nxt = 502 ∧
      ¬ (new 500 4).Places (501 + 2 ^ 31) [7] :=
  ⟨by decide, by decide, by decide, fun h => absurd h.1 (by decide)⟩

end ReceiveQueue

end MiniTcp
