import MiniTcp.Lib.Pieces
import MiniTcp.Net.Tcp.Stale

/-!
# Slices in any order of arrival

A stream is cut into slices, which come in any order and may overlap. When there is room for all of them,
the receive queue ends up with the stream up to the first byte that no slice has, except that it looks for
what is parked by its exact start: a slice that comes early under a number that is taken is dropped even if
it is the longer one, and a parked piece whose start is passed over is never looked at again even if it
reaches further. `arrivals_delivered` holds for every order in which neither happens (`Joins`), and says
that any two such orders end the same.
-/

namespace MiniTcp

open Stream (At)

namespace ReceiveQueue

variable {irs seq : SeqNo} {s done payload : Bytes} {r b : Nat} {q : ReceiveQueue} {cov : Nat → Prop}
  {data : List (SeqNo × Bytes)} {a : SeqNo}

/-- A piece that starts inside the `len` numbers from `a` on also ends inside. -/
def EndsInside (a : SeqNo) (len : Nat) (e : SeqNo × Bytes) : Prop :=
  Inside a len e.1 → Serial.gap a e.1 + e.2.length ≤ len

/-- None of the pieces that follow one another from `a` on runs past the start of a parked piece that
reaches further. -/
def Nested (data : List (SeqNo × Bytes)) (a : SeqNo) : Prop :=
  ∀ k piece, Adjoins data a k → (k, piece) ∈ data → ∀ e ∈ data, EndsInside k piece.length e

/-- Some parked piece that starts at byte `r` of the stream or later has byte `x`. -/
def HeldFrom (irs : SeqNo) (r : Nat) (data : List (SeqNo × Bytes)) (x : Nat) : Prop :=
  ∃ i piece, (streamSeq irs i, piece) ∈ data ∧ r ≤ i ∧ i ≤ x ∧ x < i + piece.length ∧
    i + piece.length < 2 ^ 32

/-! ### Draining -/

theorem Holds.drain_spec (hlen : s.length < 2 ^ 32) (htidy : q.ooo.Tidy) (h : q.Holds irs s done r)
    {ooo : ReorderQueue} (htake : q.ooo.take q.nxt = (ooo, some payload)) :
    (streamSeq irs r, payload) ∈ q.ooo.data ∧ r + payload.length < 2 ^ 32 ∧ ooo.Tidy ∧
      (({ q with ooo := ooo } : ReceiveQueue).extend payload).Holds irs s done (r + payload.length) ∧
      ∀ e, e ∈ ooo.data ↔ e ∈ q.ooo.data ∧ e.1 ≠ q.nxt := by
  have hsome : (q.ooo.take q.nxt).2 = some payload := by rw [htake]
  obtain ⟨l, u, hdata, hrest⟩ := htidy.take hsome
  obtain ⟨-, -, htidy'⟩ := htidy.bytes_take hsome
  rw [htake] at hrest htidy'
  dsimp only at hrest htidy'
  have hmem : (q.nxt, payload) ∈ q.ooo.data := by rw [hdata]; simp
  obtain ⟨hne, i, hi, hat⟩ := h.parked _ hmem
  have hend : i + payload.length ≤ s.length := hat.length_le hne
  have hir : i = r := by
    have hle := h.le
    rw [h.nxt] at hi
    exact ((streamSeq_inj (by omega) (by omega)).mp hi).symm
  subst hir
  have hkeys := htidy.keys
  rw [hdata, List.map_append, List.map_cons, List.nodup_middle, List.nodup_cons, ← List.map_append]
    at hkeys
  have hiff : ∀ e, e ∈ ooo.data ↔ e ∈ q.ooo.data ∧ e.1 ≠ q.nxt := by
    intro e
    rw [hrest, hdata, List.mem_append, List.mem_append, List.mem_cons]
    constructor
    · intro he
      refine ⟨he.imp_right .inr, fun heq => hkeys.1 ?_⟩
      rw [← heq]
      exact List.mem_map_of_mem (f := (·.1)) (List.mem_append.mpr he)
    · rintro ⟨hl | rfl | hr, hne'⟩
      · exact .inl hl
      · exact absurd rfl hne'
      · exact .inr hr
  refine ⟨h.nxt ▸ hmem, by omega, htidy', ?_, hiff⟩
  exact Holds.extend (q := { q with ooo := ooo })
    (h.congr rfl rfl rfl fun e he => .inl ((hiff e).mp he).1) hat

/-- The loop of `_accept` delivers only what some piece has, and a byte beyond that some piece has stays
parked ahead of `nxt`, if it was parked at `nxt` or ahead and no piece was run past that reaches further. -/
theorem Holds.drain_pending (hlen : s.length < 2 ^ 32) (fuel : Nat) (hfuel : q.ooo.data.length < fuel)
    (htidy : q.ooo.Tidy) (hsub : q.ooo.data ⊆ data) (hnested : Nested data a)
    (hadj : Adjoins data a q.nxt) (h : q.Holds irs s done r)
    (hcov : ∀ x, HeldFrom irs 0 q.ooo.data x → cov x)
    (hpending : ∀ x, r ≤ x → cov x → HeldFrom irs r q.ooo.data x) :
    (∀ x, r ≤ x → x < r + (q.drain fuel).2 → cov x) ∧
      (∀ x, HeldFrom irs 0 (q.drain fuel).1.ooo.data x → cov x) ∧
      ∀ x, r + (q.drain fuel).2 ≤ x → cov x →
        HeldFrom irs (r + (q.drain fuel).2 + 1) (q.drain fuel).1.ooo.data x := by
  induction fuel generalizing q r with
  | zero => exact absurd hfuel (Nat.not_lt_zero _)
  | succ fuel ih =>
    unfold ReceiveQueue.drain
    split
    · rename_i htake
      have hnone : q.ooo.peek q.nxt = none := by
        unfold ReorderQueue.take at htake
        split at htake
        · assumption
        · cases htake
      have hfree := ReorderQueue.Tidy.peek_eq_none hnone
      refine ⟨fun x hle hlt => absurd hlt (by dsimp only; omega), hcov, fun x hle hx => ?_⟩
      obtain ⟨i, piece, hmem, hri, hix, hxi, hsmall⟩ := hpending x hle hx
      refine ⟨i, piece, hmem, ?_, hix, hxi, hsmall⟩
      -- nothing is parked under `nxt`
      have hne : i ≠ r := by
        rintro rfl
        apply hfree
        rw [h.nxt]
        exact List.mem_map_of_mem (f := (·.1)) hmem
      dsimp only
      omega
    · rename_i ooo piece htake
      obtain ⟨hmem, hsmall, htidy', hnext, hiff⟩ := h.drain_spec hlen htidy htake
      have hshrink : ∀ x, HeldFrom irs 0 ooo.data x → HeldFrom irs 0 q.ooo.data x := by
        rintro x ⟨i, p, hp, hrest⟩
        exact ⟨i, p, ((hiff _).mp hp).1, hrest⟩
      have hrest := ih (q := ({ q with ooo := ooo } : ReceiveQueue).extend piece) (r := r + piece.length) ?_
        htidy' (fun e he => hsub ((hiff e).mp he).1) (hadj.next (hsub (h.nxt ▸ hmem))) hnext
        (fun x hx => hcov x (hshrink x hx)) ?_
      · obtain ⟨hdelivered, hparked, hahead⟩ := hrest
        dsimp only
        refine ⟨fun x hle hlt => ?_, hparked, fun x hle hx => ?_⟩
        · by_cases hin : x < r + piece.length
          · exact hcov x ⟨r, piece, hmem, Nat.zero_le _, hle, hin, hsmall⟩
          · exact hdelivered x (by omega) (by omega)
        · rw [← Nat.add_assoc] at hle ⊢
          exact hahead x hle hx
      · have hshorter := ReorderQueue.length_take_lt (congrArg Prod.snd htake)
        rw [htake] at hshorter
        dsimp only [ReceiveQueue.extend] at hshorter ⊢
        omega
      · intro x hle hx
        obtain ⟨i, p, hp, hri, hix, hxi, hi⟩ := hpending x (by omega) hx
        have hside : ¬ i < r + piece.length := by
          intro hin
          by_cases heq : i = r
          · -- it is the piece that was taken, and that one ends before `x`
            subst heq
            have hsame : p = piece := by
              have hkeys := htidy.keys
              exact congrArg Prod.snd (List.inj_on_of_nodup_map hkeys hp hmem rfl)
            rw [hsame] at hxi
            omega
          · have hends := hnested q.nxt piece hadj (hsub (h.nxt ▸ hmem)) _ (hsub hp)
            rw [EndsInside, Inside, h.nxt, gap_streamSeq hri (by omega)] at hends
            have := hends ⟨by omega, by omega⟩
            dsimp only at this
            omega
        refine ⟨i, p, (hiff _).mpr ⟨hp, ?_⟩, by omega, hix, hxi, hi⟩
        rw [h.nxt, ne_eq, streamSeq_inj (by omega) (by omega)]
        have hpos : 0 < piece.length := List.length_pos_iff.mpr (htidy.nonempty _ hmem)
        omega

/-! ### Inserting -/

/-- The room that is taken. -/
def used (q : ReceiveQueue) : Nat := q.available + q.heldOutOfOrder

/-- Exactly the first `r` bytes of the stream are delivered, `cov` holds of them and of what is parked, and
where it holds of a byte beyond, that byte is parked ahead of `nxt`. -/
structure Complete (irs : SeqNo) (s : Bytes) (r : Nat) (cov : Nat → Prop) (q : ReceiveQueue) : Prop where
  holds : q.Holds irs s [] r
  accounted : q.Accounted
  delivered : ∀ x < r, cov x
  parked : ∀ x, HeldFrom irs 0 q.ooo.data x → cov x
  pending : ∀ x, r ≤ x → cov x → HeldFrom irs (r + 1) q.ooo.data x

theorem Complete.not_covered (h : q.Complete irs s r cov) : ¬ cov r := by
  intro hr
  obtain ⟨i, piece, -, hlow, hhigh, -⟩ := h.pending r (Nat.le_refl _) hr
  omega

/-- The slice `piece` is taken in completely and hides nothing that is parked: it does not come early under
a number that is taken by a shorter one, and neither the part of it that is delivered nor what is drained
after it runs past the start of a parked piece that reaches further. -/
structure Joins (irs : SeqNo) (q : ReceiveQueue) (piece : Nat × Bytes) : Prop where
  bounded : piece.1 + piece.2.length < 2 ^ 32
  near : piece.1 < Receiver.position irs q + 2 ^ 31 ∧ Receiver.position irs q < piece.1 + 2 ^ 31
  early : Receiver.position irs q < piece.1 →
    ∀ held, q.ooo.peek (streamSeq irs piece.1) = some held → piece.2.length ≤ held.length
  due : piece.1 ≤ Receiver.position irs q → Receiver.position irs q < piece.1 + piece.2.length →
    (∀ e ∈ q.ooo.data, EndsInside q.nxt (piece.1 + piece.2.length - Receiver.position irs q) e) ∧
      Nested q.ooo.data (streamSeq irs (piece.1 + piece.2.length))

theorem Complete.insert_early (hlen : s.length < 2 ^ 32) (h : q.Complete irs s r cov) (hne : payload ≠ [])
    (hat : At s b payload) (hroom : payload.length ≤ q.window) (hrb : r < b) (hbr : b < r + 2 ^ 31)
    (hlongest : ∀ held, q.ooo.peek (streamSeq irs b) = some held → payload.length ≤ held.length) :
    (q.insert (streamSeq irs b) payload).1.Complete irs s r (fun x => cov x ∨ Pieces.Holds (b, payload) x) ∧
      (q.insert (streamSeq irs b) payload).1.used ≤ q.used + payload.length := by
  have hend := hat.length_le hne
  have hgt : seqGt (streamSeq irs b) q.nxt = true := by
    rw [h.holds.nxt, seqGt_streamSeq hbr (by omega)]
    exact hrb
  have hholds := h.holds.insert hlen hat hbr (by omega)
  have hsame : (q.insert (streamSeq irs b) payload).1.nxt = q.nxt :=
    (insert_of_not_due (.inr (.inl hgt))).1
  have hacc := (h.accounted.insert (streamSeq irs b) payload).1
  rw [insert_of_early hne hgt, List.take_of_length_le hroom, if_neg hne] at hholds hacc ⊢
  have hqueue : ∀ o : ReorderQueue, ({ q with ooo := o } : ReceiveQueue).Holds irs s []
      (r + (q.insert (streamSeq irs b) payload).2) → ({ q with ooo := o } : ReceiveQueue).Holds irs s [] r := by
    intro o ho
    have hzero := Receiver.position_of_holds hlen ho
    have hzero' := Receiver.position_of_holds hlen h.holds
    have : Receiver.position irs { q with ooo := o } = Receiver.position irs q := rfl
    have heq : r + (q.insert (streamSeq irs b) payload).2 = r := by omega
    rwa [heq] at ho
  cases hpeek : q.ooo.peek (streamSeq irs b) with
  | none =>
    have hbounded := h.accounted.bounded
    have hlimit := h.accounted.limit
    have hwindow : q.window = q.capacity - (q.available + q.heldOutOfOrder) := rfl
    have hheld : q.heldOutOfOrder = q.ooo.bytesBuffered := rfl
    rw [ReorderQueue.insert_of_free hne hpeek (by omega)] at hholds hacc ⊢
    have hold : ∀ x r', HeldFrom irs r' q.ooo.data x →
        HeldFrom irs r' (q.ooo.data ++ [(streamSeq irs b, payload)]) x := by
      rintro x r' ⟨i, p, hp, hrest⟩
      exact ⟨i, p, List.mem_append_left _ hp, hrest⟩
    refine ⟨⟨hqueue _ hholds, hacc, fun x hx => .inl (h.delivered x hx), ?_, ?_⟩, ?_⟩
    · rintro x ⟨i, p, hp, hlow, hix, hxi, hi⟩
      rcases List.mem_append.mp hp with hp | hp
      · exact .inl (h.parked x ⟨i, p, hp, hlow, hix, hxi, hi⟩)
      · obtain ⟨hseq, rfl⟩ := Prod.mk.inj (List.mem_singleton.mp hp)
        obtain rfl := (streamSeq_inj (by omega) (by omega)).mp hseq
        exact .inr ⟨hix, hxi⟩
    · rintro x hx (hcov | ⟨hbx, hxb⟩)
      · exact hold x _ (h.pending x hx hcov)
      · exact ⟨b, payload, List.mem_append_right _ List.mem_cons_self, hrb, hbx, hxb, by omega⟩
    · simp only [used, available, heldOutOfOrder]
      omega
  | some held =>
    have hno : payload = [] ∨ (q.ooo.peek (streamSeq irs b)).isSome = true := .inr (by rw [hpeek]; rfl)
    obtain ⟨hdata, hbytes, -⟩ := ReorderQueue.insert_of_not_free hno
    have hmem := ReorderQueue.mem_of_peek hpeek
    refine ⟨⟨hqueue _ hholds, hacc, fun x hx => .inl (h.delivered x hx), ?_, ?_⟩, ?_⟩
    · dsimp only
      rw [hdata]
      exact fun x hx => .inl (h.parked x hx)
    · dsimp only
      rw [hdata]
      rintro x hx (hcov | ⟨hbx, hxb⟩)
      · exact h.pending x hx hcov
      · -- the one that is parked under the number has the byte too
        obtain ⟨hne', i, hi, hati⟩ := h.holds.parked _ hmem
        have hend' : i + held.length ≤ s.length := hati.length_le hne'
        obtain rfl := (streamSeq_inj (by omega) (by omega)).mp hi
        have hle := hlongest held hpeek
        dsimp only at hxb hbx
        exact ⟨b, held, hmem, hrb, hbx, by omega, by omega⟩
    · simp only [used, available, heldOutOfOrder, hbytes]
      omega

theorem Accounted.used_extend (h : q.Accounted) (d : Nat) (hroom : payload.length ≤ q.window) :
    (({ q with duplicates := d } : ReceiveQueue).extend payload).Accounted ∧
      (({ q with duplicates := d } : ReceiveQueue).extend payload).used = q.used + payload.length := by
  have hcounted : ({ q with duplicates := d } : ReceiveQueue).Accounted := ⟨h.within, h.tidy, h.limit, h.bounded⟩
  refine ⟨hcounted.extend hroom, ?_⟩
  rw [used, used, available_extend hcounted.within payload]
  simp only [available, heldOutOfOrder, ReceiveQueue.extend]
  omega

theorem Complete.insert_due (hlen : s.length < 2 ^ 32) (h : q.Complete irs s r cov) (hne : payload ≠ [])
    (hat : At s b payload) (hroom : payload.length ≤ q.window) (hbr : b ≤ r) (hrb : r < b + payload.length)
    (hnear : r < b + 2 ^ 31)
    (hends : ∀ e ∈ q.ooo.data, EndsInside q.nxt (b + payload.length - r) e)
    (hnested : Nested q.ooo.data (streamSeq irs (b + payload.length))) :
    ∃ r', (q.insert (streamSeq irs b) payload).1.Complete irs s r'
        (fun x => cov x ∨ Pieces.Holds (b, payload) x) ∧
      (q.insert (streamSeq irs b) payload).1.used ≤ q.used + payload.length := by
  have hend := hat.length_le hne
  have hle := h.holds.le
  have hpos := List.length_pos_iff.mpr hne
  have hgt : seqGt (streamSeq irs b) q.nxt = false := by
    rw [← Bool.not_eq_true, h.holds.nxt, seqGt_streamSeq (by omega) hnear]
    omega
  have hdiff : seqDiff q.nxt (streamSeq irs b) = (r : Int) - b := by
    rw [h.holds.nxt, seqDiff_streamSeq hnear (by omega)]
  obtain ⟨d, hinsert⟩ := insert_of_due hne hgt (by rw [hdiff]; omega)
  have hfresh : q.fresh (streamSeq irs b) payload = payload.drop (r - b) := by
    rw [fresh, hdiff, sliceFrom, if_neg (by omega)]
    congr 1
    omega
  have hat' : At s r (payload.drop (r - b)) := by
    have hdrop := hat.drop (r - b)
    rwa [Nat.add_sub_cancel' hbr] at hdrop
  have hcount : (payload.drop (r - b)).length = b + payload.length - r := by
    rw [List.length_drop]
    omega
  have hacc := (h.accounted.insert (streamSeq irs b) payload).1
  rw [hfresh] at hinsert
  rw [hinsert] at hacc ⊢
  have htake : (payload.drop (r - b)).take q.window = payload.drop (r - b) :=
    List.take_of_length_le (by omega)
  unfold ReceiveQueue.accept at hacc ⊢
  have hwindow : ({ q with duplicates := d } : ReceiveQueue).window = q.window := rfl
  rw [hwindow, if_neg (by omega)] at hacc ⊢
  dsimp only at hacc ⊢
  rw [htake] at hacc ⊢
  have hq : ({ q with duplicates := d } : ReceiveQueue).Holds irs s [] r :=
    h.holds.congr rfl rfl rfl fun e he => .inl he
  have hextend := hq.extend hat'
  rw [hcount, Nat.add_sub_cancel' hrb.le] at hextend
  have hroom' : (payload.drop (r - b)).length ≤ q.window := by omega
  have hgrown := h.accounted.used_extend d hroom'
  rw [hcount] at hgrown
  have hooo : (({ q with duplicates := d } : ReceiveQueue).extend (payload.drop (r - b))).ooo = q.ooo := rfl
  generalize ({ q with duplicates := d } : ReceiveQueue).extend (payload.drop (r - b)) = f
    at hacc hextend hgrown hooo ⊢
  obtain ⟨hf, hused⟩ := hgrown
  rw [← hooo] at hends hnested
  have hcov : ∀ x, HeldFrom irs 0 f.ooo.data x → cov x := hooo ▸ h.parked
  obtain ⟨-, -, havail, hheld⟩ := hf.drain (f.ooo.data.length + 1)
  have hcov' : ∀ x, HeldFrom irs 0 f.ooo.data x → cov x ∨ Pieces.Holds (b, payload) x :=
    fun x hx => .inl (hcov x hx)
  have hpend : ∀ x, b + payload.length ≤ x → cov x ∨ Pieces.Holds (b, payload) x →
      HeldFrom irs (b + payload.length) f.ooo.data x := by
    rintro x hx (hcov | ⟨-, hxb⟩)
    · obtain ⟨i, p, hp, hri, hix, hxi, hi⟩ := h.pending x (by omega) hcov
      rw [← hooo] at hp
      refine ⟨i, p, hp, ?_, hix, hxi, hi⟩
      -- a piece that starts before the end of the slice ends before it too
      by_contra hin
      have hends' := hends _ hp
      rw [EndsInside, Inside, h.holds.nxt, gap_streamSeq (by omega) (by omega)] at hends'
      have := hends' ⟨by omega, by omega⟩
      dsimp only at this
      omega
    · dsimp only at hxb
      omega
  obtain ⟨hdelivered, hparked, hpending⟩ := hextend.drain_pending hlen (f.ooo.data.length + 1)
    (Nat.lt_succ_self _) hf.tidy (List.Subset.refl _) hnested (hextend.nxt ▸ .start) hcov' hpend
  have hholds := hextend.drain hlen (f.ooo.data.length + 1)
  refine ⟨_, ⟨hholds, hacc, fun x hx => ?_, hparked, hpending⟩, ?_⟩
  · by_cases hold : x < r
    · exact .inl (h.delivered x hold)
    · by_cases hslice : x < b + payload.length
      · exact .inr ⟨by dsimp only; omega, hslice⟩
      · exact hdelivered x (by omega) hx
  · rw [used, havail]
    rw [used] at hused
    omega

theorem Complete.insert (hlen : s.length < 2 ^ 32) (h : q.Complete irs s r cov) {piece : Nat × Bytes}
    (hne : piece.2 ≠ []) (hat : At s piece.1 piece.2) (hroom : piece.2.length ≤ q.window)
    (hjoins : Joins irs q piece) :
    ∃ r', (q.insert (streamSeq irs piece.1) piece.2).1.Complete irs s r'
        (fun x => cov x ∨ Pieces.Holds piece x) ∧
      (q.insert (streamSeq irs piece.1) piece.2).1.used ≤ q.used + piece.2.length := by
  obtain ⟨b, payload⟩ := piece
  obtain ⟨-, ⟨hnear, hnear'⟩, hearly, hdue⟩ := hjoins
  rw [Receiver.position_of_holds hlen h.holds] at hnear hnear' hearly hdue
  dsimp only at hne hat hroom hnear hnear' hearly hdue ⊢
  by_cases hrb : r < b
  · exact ⟨r, h.insert_early hlen hne hat hroom hrb hnear (hearly hrb)⟩
  by_cases hend : r < b + payload.length
  · obtain ⟨hends, hnested⟩ := hdue (by omega) hend
    exact h.insert_due hlen hne hat hroom (by omega) hend hnear' hends hnested
  · -- everything of it was delivered before
    have hpos := List.length_pos_iff.mpr hne
    have hle := h.holds.le
    have heq : streamSeq irs b ≠ q.nxt := by
      rw [h.holds.nxt, ne_eq, streamSeq_inj (by omega) (by omega)]
      omega
    have hgt : ¬ seqGt (streamSeq irs b) q.nxt = true := by
      rw [h.holds.nxt, seqGt_streamSeq (by omega) (by omega)]
      omega
    have hdiff : seqDiff q.nxt (streamSeq irs b) = (r : Int) - b := by
      rw [h.holds.nxt, seqDiff_streamSeq (by omega) (by omega)]
    have hsame : (q.insert (streamSeq irs b) payload).1 = { q with duplicates := q.duplicates + 1 } := by
      rw [ReceiveQueue.insert, if_neg hne, if_neg heq, if_neg hgt]
      dsimp only
      rw [if_pos (by rw [hdiff]; omega)]
    rw [hsame]
    obtain ⟨hholds, ⟨hwithin, htidy, hlimit, hbounded⟩, hdelivered, hparked, hpending⟩ := h
    refine ⟨r, ⟨hholds.congr rfl rfl rfl fun e he => .inl he, ⟨hwithin, htidy, hlimit, hbounded⟩,
      fun x hx => .inl (hdelivered x hx), fun x hx => .inl (hparked x hx), ?_⟩, Nat.le_add_right _ _⟩
    rintro x hx (hcov | ⟨-, hxb⟩)
    · exact hpending x hx hcov
    · dsimp only at hxb
      omega

theorem complete_new (irs : SeqNo) (s : Bytes) (capacity : Nat) :
    Complete irs s 0 (fun _ => False) (.new irs capacity) where
  holds := holds_new irs s capacity
  accounted := accounted_new irs capacity
  delivered := fun _ hx => absurd hx (Nat.not_lt_zero _)
  parked := by
    rintro x ⟨i, piece, hmem, -⟩
    exact absurd hmem List.not_mem_nil
  pending := fun _ _ hx => hx.elim

/-! ### Whole collections -/

/-- Slices of one stream, each a byte offset and its bytes, inserted one after another. -/
def feeding (irs : SeqNo) : Machine ReceiveQueue (Nat × Bytes) where
  init q := ∃ capacity, 0 < capacity ∧ q = .new irs capacity
  next q piece := (q.insert (streamSeq irs piece.1) piece.2).1

/-- Some slice has byte `x` of the stream. -/
def Covered (pieces : List (Nat × Bytes)) (x : Nat) : Prop := ∃ piece ∈ pieces, Pieces.Holds piece x

/-- How many bytes the slices have together. -/
def volume (pieces : List (Nat × Bytes)) : Nat := (pieces.map (·.2.length)).sum

theorem Complete.run (hlen : s.length < 2 ^ 32) {pieces : List (Nat × Bytes)} (h : q.Complete irs s r cov)
    (hparts : ∀ piece ∈ pieces, piece.2 ≠ [] ∧ At s piece.1 piece.2)
    (hfit : q.used + volume pieces ≤ q.capacity) (hes : (feeding irs).Meets (Joins irs) q pieces) :
    ∃ r', ((feeding irs).run q pieces).Complete irs s r' fun x => cov x ∨ Covered pieces x := by
  induction pieces generalizing q r cov with
  | nil =>
    refine ⟨r, h.holds, h.accounted, fun x hx => .inl (h.delivered x hx), fun x hx => .inl (h.parked x hx), ?_⟩
    rintro x hx (hcov | ⟨piece, hmem, -⟩)
    · exact h.pending x hx hcov
    · exact absurd hmem List.not_mem_nil
  | cons piece pieces ih =>
    obtain ⟨hne, hat⟩ := hparts piece List.mem_cons_self
    have hvolume : volume (piece :: pieces) = piece.2.length + volume pieces := by simp [volume]
    have hwindow : q.window = q.capacity - q.used := rfl
    obtain ⟨r', hnext, hused⟩ := h.insert hlen hne hat (by omega) hes.1
    have hcap := (h.accounted.insert (streamSeq irs piece.1) piece.2).2
    obtain ⟨r'', hend⟩ := ih hnext (fun p hp => hparts p (List.mem_cons_of_mem _ hp)) (by omega) hes.2
    have hsame : (fun x => (cov x ∨ Pieces.Holds piece x) ∨ Covered pieces x) =
        fun x => cov x ∨ Covered (piece :: pieces) x := by
      funext x
      simp only [Covered, List.exists_mem_cons_iff, or_assoc]
    rw [hsame] at hend
    exact ⟨r'', hend⟩

/-- After any sequence of slices that join one after another, the readable bytes are the stream up to the
first byte that no slice has. -/
theorem readable_of_joins {capacity : Nat} {pieces : List (Nat × Bytes)}
    (hparts : ∀ piece ∈ pieces, piece.2 ≠ [] ∧ Pieces.PartOf s piece) (hfit : volume pieces ≤ capacity)
    (hes : (feeding irs).Meets (Joins irs) (.new irs capacity) pieces) :
    ∃ r, ((feeding irs).run (.new irs capacity) pieces).readable = s.take r ∧
      (∀ x < r, Covered pieces x) ∧ ¬ Covered pieces r := by
  -- every slice lies in the first bytes of the stream, which have different numbers
  have hshort : (s.take (2 ^ 32 - 1)).length < 2 ^ 32 := by
    rw [List.length_take]
    omega
  have hbounded : ∀ piece ∈ pieces, piece.1 + piece.2.length < 2 ^ 32 := by
    clear hparts hfit
    generalize ReceiveQueue.new irs capacity = q at hes
    induction pieces generalizing q with
    | nil => exact fun piece hmem => absurd hmem List.not_mem_nil
    | cons piece pieces ih =>
      intro p hp
      rcases List.mem_cons.mp hp with rfl | hp
      · exact hes.1.bounded
      · exact ih _ hes.2 p hp
  have hparts' : ∀ piece ∈ pieces, piece.2 ≠ [] ∧ At (s.take (2 ^ 32 - 1)) piece.1 piece.2 := by
    intro piece hmem
    obtain ⟨hne, -, hdata⟩ := hparts piece hmem
    have hat : At s piece.1 piece.2 := hdata ▸ Stream.at_drop_take s piece.1 piece.2.length
    have hless := hbounded piece hmem
    exact ⟨hne, hat.of_take (by omega)⟩
  obtain ⟨r, hcomplete⟩ := (complete_new irs (s.take (2 ^ 32 - 1)) capacity).run hshort hparts'
    (by simpa [used, available, heldOutOfOrder, new] using hfit) hes
  simp only [false_or] at hcomplete
  refine ⟨r, ?_, hcomplete.delivered, hcomplete.not_covered⟩
  have hstream := hcomplete.holds.stream
  have hle := hcomplete.holds.le
  rw [List.length_take] at hle
  rw [List.nil_append, List.take_take, Nat.min_eq_left (by omega)] at hstream
  exact hstream

/-- When slices of a stream, with room for all of them, join one after another, the readable bytes are the
stream up to the first byte that no slice has, and any other order in which they join gives the same. -/
theorem arrivals_delivered {capacity : Nat} {pieces : List (Nat × Bytes)}
    (hparts : ∀ piece ∈ pieces, piece.2 ≠ [] ∧ Pieces.PartOf s piece) (hfit : volume pieces ≤ capacity)
    (hes : (feeding irs).Meets (Joins irs) (.new irs capacity) pieces) :
    (∃ r, ((feeding irs).run (.new irs capacity) pieces).readable = s.take r ∧
      (∀ x < r, Covered pieces x) ∧ ¬ Covered pieces r) ∧
    ∀ pieces', pieces'.Perm pieces → (feeding irs).Meets (Joins irs) (.new irs capacity) pieces' →
      ((feeding irs).run (.new irs capacity) pieces').readable =
        ((feeding irs).run (.new irs capacity) pieces).readable := by
  obtain ⟨r, hread, hcovered, hhole⟩ := readable_of_joins hparts hfit hes
  refine ⟨⟨r, hread, hcovered, hhole⟩, fun pieces' hperm hes' => ?_⟩
  have hvolume : volume pieces' = volume pieces := (hperm.map _).sum_nat
  obtain ⟨r', hread', hcovered', hhole'⟩ := readable_of_joins
    (fun piece hmem => hparts piece (hperm.mem_iff.mp hmem)) (hvolume ▸ hfit) hes'
  have hsame : ∀ x, Covered pieces' x ↔ Covered pieces x := by
    intro x
    simp only [Covered, hperm.mem_iff]
  have heq : r' = r := by
    rcases Nat.lt_trichotomy r' r with hlt | heq | hlt
    · exact absurd ((hsame r').mpr (hcovered r' hlt)) hhole'
    · exact heq
    · exact absurd ((hsame r).mp (hcovered' r hlt)) hhole
  rw [hread', hread, heq]

theorem joins_of_nil {piece : Nat × Bytes} (hnil : q.ooo.data = [])
    (hbounded : piece.1 + piece.2.length < 2 ^ 32)
    (hnear : piece.1 < Receiver.position irs q + 2 ^ 31 ∧ Receiver.position irs q < piece.1 + 2 ^ 31) :
    Joins irs q piece := by
  refine ⟨hbounded, hnear, fun _ held hheld => ?_, fun _ _ => ⟨?_, ?_⟩⟩
  · rw [ReorderQueue.peek, hnil] at hheld
    cases hheld
  · rw [hnil]
    exact fun e he => absurd he List.not_mem_nil
  · rw [hnil]
    exact fun k p _ hmem => absurd hmem List.not_mem_nil

theorem joins_abutting : (feeding 500).Meets (Joins 500) (.new 500 10) [(0, [1, 2]), (2, [3, 4])] :=
  ⟨joins_of_nil (by decide) (by decide) (by decide), joins_of_nil (by decide) (by decide) (by decide),
    trivial⟩

theorem joins_swapped : (feeding 500).Meets (Joins 500) (.new 500 10) [(2, [3, 4]), (0, [1, 2])] := by
  refine ⟨joins_of_nil (by decide) (by decide) (by decide), ⟨by decide, by decide,
    fun h => absurd h (by decide), fun _ _ => ⟨?_, ?_⟩⟩, trivial⟩
  · rintro e he
    obtain rfl := List.mem_singleton.mp he
    unfold EndsInside Inside
    decide
  · intro k piece hadj hmem e he hinside
    exact absurd hinside (Receiver.disjoint_singleton (503, [3, 4]) _ k piece hadj hmem e he)

theorem arrivals_delivered_abutting :
    ((feeding 500).run (.new 500 10) [(2, [3, 4]), (0, [1, 2])]).readable =
      ((feeding 500).run (.new 500 10) [(0, [1, 2]), (2, [3, 4])]).readable :=
  (arrivals_delivered (s := [1, 2, 3, 4]) (by simp [Pieces.PartOf]) (by decide) joins_abutting).2 _
    (List.Perm.swap _ _ _) joins_swapped

/-- The byte `2` comes early, then `2, 3` under the same number, which is dropped, and then `1`. Byte `3`
is never delivered, and it is when the slices come in the order of the stream. -/
theorem longer_slice_is_dropped :
    let pieces : List (Nat × Bytes) := [(1, [2]), (1, [2, 3]), (0, [1])]
    (∀ piece ∈ pieces, piece.2 ≠ [] ∧ Pieces.PartOf [1, 2, 3] piece) ∧ volume pieces ≤ 10 ∧
      ((feeding 500).run (.new 500 10) pieces).readable = [1, 2] ∧ Covered pieces 2 ∧
      ((feeding 500).run (.new 500 10) pieces.reverse).readable = [1, 2, 3] ∧
      ¬ ∃ r, ((feeding 500).run (.new 500 10) pieces).readable = ([1, 2, 3] : Bytes).take r ∧
        (∀ x < r, Covered pieces x) ∧ ¬ Covered pieces r := by
  have hread : ((feeding 500).run (.new 500 10) [(1, [2]), (1, [2, 3]), (0, [1])]).readable = [1, 2] := by
    decide
  have hcovered : Covered [(1, [2]), (1, [2, 3]), (0, [1])] 2 :=
    ⟨(1, [2, 3]), by decide, by decide, by decide⟩
  refine ⟨by simp [Pieces.PartOf], by decide, hread, hcovered, by decide, ?_⟩
  rintro ⟨r, hr, -, hhole⟩
  rw [hread] at hr
  have hlen := congrArg List.length hr
  rw [List.length_take] at hlen
  obtain rfl : r = 2 := by
    simp only [List.length_cons, List.length_nil] at hlen
    omega
  exact hhole hcovered

end ReceiveQueue

end MiniTcp
