import MiniTcp.Net.Tcp.Flush

/-!
# Data one way, ACKs the other

One direction of a connection on a wire that loses and reorders nothing: the sender's `snd_una` and
`snd_nxt`, the receiver's `rcv_nxt`, the segments on their way to the receiver and the segments on their way
back. `Flow` says that what is under way to the receiver is numbered one after another from `rcv_nxt` to
`snd_nxt`, and that the ACK numbers under way climb from `snd_una` to `rcv_nxt`.

A segment without data is an ACK for data that arrived or a window update of `recv()`. An ACK is only owed
when `rcv_nxt` has moved since the last segment without data went back, so among these segments an ordinary
ACK never repeats the number of the one before it (`Spaced`). That is what keeps it from being the third of
a kind.
-/

namespace MiniTcp

/-- A segment under way, and whether a call of `recv()` sent it. -/
structure Carried where
  seg : TCPSegment
  update : Bool

namespace Carried

variable {xs ys : List Carried} {x : Carried} {m : Option SeqNo} {a : SeqNo}

/-- The bytes of the segments, in order. -/
def bytes (xs : List Carried) : Bytes := xs.flatMap (·.seg.payload)

@[simp] theorem bytes_nil : bytes [] = [] := rfl

@[simp] theorem bytes_cons : bytes (x :: xs) = x.seg.payload ++ bytes xs := rfl

@[simp] theorem bytes_append : bytes (xs ++ ys) = bytes xs ++ bytes ys := List.flatMap_append

/-- The ACK number that the last segment without data had, when the last before it had `m`. -/
def after (m : Option SeqNo) (x : Carried) : Option SeqNo :=
  if x.seg.payload = [] then some x.seg.ack else m

def last (m : Option SeqNo) (xs : List Carried) : Option SeqNo := xs.foldl after m

@[simp] theorem last_nil : last m [] = m := rfl

@[simp] theorem last_cons : last m (x :: xs) = last (after m x) xs := rfl

@[simp] theorem last_append : last m (xs ++ ys) = last (last m xs) ys := List.foldl_append

/-- No ordinary ACK repeats the number of the segment without data before it. -/
def Spaced : Option SeqNo → List Carried → Prop
  | _, [] => True
  | m, x :: xs => (x.seg.payload = [] → x.update = false → m ≠ some x.seg.ack) ∧ Spaced (after m x) xs

theorem spaced_append : Spaced m (xs ++ ys) ↔ Spaced m xs ∧ Spaced (last m xs) ys := by
  induction xs generalizing m with
  | nil => simp [Spaced]
  | cons x xs ih =>
    rw [List.cons_append, Spaced, Spaced, ih, last_cons, and_assoc]

theorem Spaced.forget (h : Spaced m xs) : Spaced none xs := by
  induction xs with
  | nil => trivial
  | cons x xs ih =>
    obtain ⟨-, hrest⟩ := h
    refine ⟨fun _ _ => nofun, ?_⟩
    unfold after at hrest ⊢
    split_ifs at hrest ⊢ with hpure
    · exact hrest
    · exact ih hrest

theorem last_forget (xs : List Carried) (m : Option SeqNo) :
    last none xs = last m xs ∨ last none xs = none := by
  induction xs with
  | nil => exact .inr rfl
  | cons x xs ih =>
    rw [last_cons, last_cons]
    unfold after
    split_ifs with hpure
    · exact .inl rfl
    · exact ih

theorem mem_of_last (h : last m xs = some a) : m = some a ∨ a ∈ xs.map (·.seg.ack) := by
  induction xs generalizing m with
  | nil => exact .inl h
  | cons x xs ih =>
    rw [List.map_cons]
    rcases ih h with hm | hin
    · unfold after at hm
      split_ifs at hm with hpure
      · exact .inr (by simp [Option.some.inj hm])
      · exact .inl hm
    · exact .inr (List.mem_cons_of_mem _ hin)

theorem last_of_data (h : ∀ x ∈ xs, x.seg.payload ≠ []) : last m xs = m := by
  induction xs with
  | nil => rfl
  | cons x xs ih =>
    rw [last_cons, after, if_neg (h x List.mem_cons_self)]
    exact ih fun y hy => h y (List.mem_cons_of_mem _ hy)

end Carried

theorem consecutive_append {a : SeqNo} {xs ys : List TCPSegment} (h : Consecutive a xs)
    (h' : Consecutive (seqAdd a (xs.flatMap (·.payload)).length) ys) : Consecutive a (xs ++ ys) := by
  induction xs generalizing a with
  | nil =>
    rw [List.nil_append]
    rwa [List.flatMap_nil, List.length_nil, seqAdd, Serial.shift_zero] at h'
  | cons x xs ih =>
    refine ⟨h.1, ih h.2 ?_⟩
    rwa [List.flatMap_cons, List.length_append, seqAdd, ← Serial.shift_shift] at h'

/-- The number that may not be repeated: `snd_una`, once a repetition has been counted. -/
def repeated (una : SeqNo) (counted : Bool) : Option SeqNo := if counted then some una else none

/-- One direction: `data` is under way to the receiver, `acks` is under way to the sender. `counted` says
whether the sender has counted a repetition of `snd_una`, `owed` whether the receiver owes an ACK. -/
structure Flow (una nxt rcvNxt : SeqNo) (counted owed : Bool) (data acks : List Carried) : Prop where
  near : 2 * Serial.gap una nxt < 2 ^ 32
  covered : Serial.gap una rcvNxt + (Carried.bytes data).length = Serial.gap una nxt
  consecutive : Consecutive rcvNxt (data.map (·.seg))
  climbs : (acks.map (·.seg.ack) ++ [rcvNxt]).Pairwise fun a b => Serial.gap una a ≤ Serial.gap una b
  spaced : Carried.Spaced (repeated una counted) acks
  fresh : owed = true → Carried.last (repeated una counted) acks ≠ some rcvNxt

namespace Flow

open Carried

variable {una nxt rcvNxt : SeqNo} {counted counted' owed owed' : Bool} {data acks out : List Carried}
  {x : Carried}

theorem gap_le (h : Flow una nxt rcvNxt counted owed data acks) {a : SeqNo}
    (ha : a ∈ acks.map (·.seg.ack)) : Serial.gap una a ≤ Serial.gap una rcvNxt :=
  (List.pairwise_append.mp h.climbs).2.2 a ha rcvNxt List.mem_cons_self

/-! ### The sender sends -/

theorem push (h : Flow una nxt rcvNxt counted owed data acks) {nxt' : SeqNo}
    (hnear : 2 * Serial.gap una nxt' < 2 ^ 32)
    (hout : Serial.gap una nxt' = Serial.gap una nxt + (bytes out).length)
    (hconsecutive : Consecutive nxt (out.map (·.seg))) :
    Flow una nxt' rcvNxt counted owed (data ++ out) acks where
  near := hnear
  covered := by
    rw [bytes_append, List.length_append, hout, ← h.covered]
    omega
  consecutive := by
    rw [List.map_append]
    refine consecutive_append h.consecutive ?_
    -- the segments under way end where the new ones start
    have hbytes : ((data.map (·.seg)).flatMap (·.payload)).length = (bytes data).length := by
      rw [List.flatMap_map]
      rfl
    have hend : seqAdd rcvNxt (bytes data).length = nxt := by
      calc seqAdd rcvNxt (bytes data).length
          = Serial.shift (Serial.shift una (Serial.gap una rcvNxt)) (bytes data).length := by
            rw [Serial.shift_gap, seqAdd]
        _ = Serial.shift una (Serial.gap una nxt) := by rw [Serial.shift_shift, h.covered]
        _ = nxt := Serial.shift_gap una nxt
    rwa [hbytes, hend]
  climbs := h.climbs
  spaced := h.spaced
  fresh := h.fresh

/-! ### The receiver sends -/

/-- The receiver sends a segment: one with data, a window update, or an ACK that it owes, which then is no
longer owed. -/
theorem answer (h : Flow una nxt rcvNxt counted owed data acks) (hack : x.seg.ack = rcvNxt)
    (hpure : x.seg.payload = [] → x.update = false → owed = true)
    (howed : owed' = true → owed = true ∧ x.seg.payload ≠ []) :
    Flow una nxt rcvNxt counted owed' data (acks ++ [x]) where
  near := h.near
  covered := h.covered
  consecutive := h.consecutive
  climbs := by
    rw [List.map_append, List.map_singleton, hack, List.pairwise_append]
    refine ⟨h.climbs, List.pairwise_singleton _ _, fun a ha b hb => ?_⟩
    rw [List.mem_singleton.mp hb]
    rcases List.mem_append.mp ha with hin | hlast
    · exact h.gap_le hin
    · rw [List.mem_singleton.mp hlast]
  spaced := by
    rw [spaced_append]
    exact ⟨h.spaced, fun hnil hupdate => hack ▸ h.fresh (hpure hnil hupdate), trivial⟩
  fresh := by
    intro ho
    obtain ⟨ho, hdata⟩ := howed ho
    rw [last_append, last_of_data fun y hy => by rwa [List.mem_singleton.mp hy]]
    exact h.fresh ho

theorem answer_data (h : Flow una nxt rcvNxt counted owed data acks)
    (hout : ∀ y ∈ out, y.seg.ack = rcvNxt ∧ y.seg.payload ≠ []) :
    Flow una nxt rcvNxt counted owed data (acks ++ out) := by
  induction out generalizing acks with
  | nil => simpa using h
  | cons y out ih =>
    obtain ⟨hack, hdata⟩ := hout y List.mem_cons_self
    have hone : Flow una nxt rcvNxt counted owed data (acks ++ [y]) :=
      h.answer hack (fun hnil => absurd hnil hdata) fun ho => ⟨ho, hdata⟩
    have hrest := ih hone fun z hz => hout z (List.mem_cons_of_mem _ hz)
    rwa [List.append_assoc] at hrest

/-! ### The receiver takes a segment -/

theorem seq_eq (h : Flow una nxt rcvNxt counted owed (x :: data) acks) : x.seg.seq = rcvNxt :=
  h.consecutive.1

/-- A segment that brings something is taken, and an ACK may be owed for it. -/
theorem take (h : Flow una nxt rcvNxt counted owed (x :: data) acks) (hne : x.seg.payload ≠ []) :
    Flow una nxt (seqAdd rcvNxt x.seg.payload.length) counted true data acks := by
  have hpos := List.length_pos_iff.mpr hne
  have hcovered := h.covered
  rw [bytes_cons, List.length_append] at hcovered
  have hnear := h.near
  have hgap : Serial.gap una (seqAdd rcvNxt x.seg.payload.length) =
      Serial.gap una rcvNxt + x.seg.payload.length := Serial.gap_shift_add (by omega)
  have hclimbs := List.pairwise_append.mp h.climbs
  refine ⟨hnear, by omega, h.consecutive.2, ?_, h.spaced, fun _ hlast => ?_⟩
  · rw [List.pairwise_append]
    refine ⟨hclimbs.1, List.pairwise_singleton _ _, fun a ha b hb => ?_⟩
    have hle := h.gap_le ha
    rw [List.mem_singleton.mp hb, hgap]
    omega
  · -- every number that went back is behind the new one
    have hbehind : Serial.gap una (seqAdd rcvNxt x.seg.payload.length) ≤ Serial.gap una rcvNxt := by
      rcases mem_of_last hlast with hrep | hin
      · unfold repeated at hrep
        split_ifs at hrep
        rw [← Option.some.inj hrep, Serial.gap_self]
        exact Nat.zero_le _
      · exact h.gap_le hin
    omega

/-- A segment without data leaves the receiver where it is. -/
theorem pass (h : Flow una nxt rcvNxt counted owed (x :: data) acks) (hnil : x.seg.payload = []) :
    Flow una nxt rcvNxt counted owed data acks where
  near := h.near
  covered := by
    have hcovered := h.covered
    rwa [bytes_cons, hnil, List.nil_append] at hcovered
  consecutive := by
    have hrest := h.consecutive.2
    rwa [show (x.seg.payload).length = 0 by rw [hnil]; rfl, seqAdd, Serial.shift_zero] at hrest
  climbs := h.climbs
  spaced := h.spaced
  fresh := h.fresh

/-! ### The sender takes an ACK -/

theorem ack_le (h : Flow una nxt rcvNxt counted owed data (x :: acks)) :
    Serial.gap una x.seg.ack ≤ Serial.gap una nxt := by
  have hle := h.gap_le (a := x.seg.ack) List.mem_cons_self
  have hcovered := h.covered
  omega

/-- An ACK that repeats `snd_una` is counted, or passes. -/
theorem repeat_ack (h : Flow una nxt rcvNxt counted owed data (x :: acks)) (hack : x.seg.ack = una)
    (hcounted : counted' = counted ∨ counted' = true ∧ x.seg.payload = []) :
    Flow una nxt rcvNxt counted' owed data acks := by
  have hsame : repeated una counted' = after (repeated una counted) x ∨ repeated una counted' = none := by
    unfold after
    rcases hcounted with rfl | ⟨rfl, hnil⟩
    · split_ifs with hnil
      · rw [hack]
        cases counted'
        · exact .inr rfl
        · exact .inl rfl
      · exact .inl rfl
    · rw [if_pos hnil, hack]
      exact .inl rfl
  obtain ⟨-, hspaced⟩ := h.spaced
  refine ⟨h.near, h.covered, h.consecutive, (List.pairwise_cons.mp h.climbs).2, ?_, fun ho => ?_⟩
  · rcases hsame with heq | heq
    · rwa [heq]
    · rw [heq]
      exact hspaced.forget
  · have hfresh := h.fresh ho
    rw [last_cons] at hfresh
    rcases hsame with heq | heq
    · rwa [heq]
    · rw [heq]
      rcases last_forget acks (after (repeated una counted) x) with hl | hl
      · rwa [hl]
      · rw [hl]
        nofun

/-- An ACK ahead of `snd_una` moves it there, and no repetition of the new one has been counted. -/
theorem new_ack (h : Flow una nxt rcvNxt counted owed data (x :: acks)) :
    Flow x.seg.ack nxt rcvNxt false owed data acks := by
  have hnear := h.near
  have hcovered := h.covered
  have hnxt := h.ack_le
  obtain ⟨hfirst, hclimbs⟩ := List.pairwise_cons.mp (show ((x.seg.ack) :: (acks.map (·.seg.ack) ++ [rcvNxt])).Pairwise
    (fun a b => Serial.gap una a ≤ Serial.gap una b) from h.climbs)
  -- distances from the new `snd_una` are shorter by the step it made
  have hgap : ∀ {b : SeqNo}, Serial.gap una x.seg.ack ≤ Serial.gap una b →
      Serial.gap x.seg.ack b + Serial.gap una x.seg.ack = Serial.gap una b := by
    intro b hle
    have hfrom := Serial.gap_shift_shift (b := una) hle (by
      have := Serial.gap_lt una b
      omega)
    rw [Serial.shift_gap, Serial.shift_gap] at hfrom
    omega
  have hrcv := hgap (hfirst rcvNxt (List.mem_append_right _ List.mem_cons_self))
  have hend := hgap hnxt
  refine ⟨by omega, by omega, h.consecutive, ?_, ?_, fun ho => ?_⟩
  · refine hclimbs.imp_of_mem fun {a b} ha hb hle => ?_
    have hga := hgap (hfirst a ha)
    have hgb := hgap (hfirst b hb)
    omega
  · exact h.spaced.2.forget
  · have hfresh := h.fresh ho
    rw [last_cons] at hfresh
    rcases last_forget acks (after (repeated una counted) x) with hl | hl
    · rw [show repeated x.seg.ack false = none from rfl, hl]
      exact hfresh
    · rw [show repeated x.seg.ack false = none from rfl, hl]
      nofun

theorem ordinary (h : Flow una nxt rcvNxt counted owed data (x :: acks)) (hnil : x.seg.payload = [])
    (hupdate : x.update = false) (hcounted : counted = true) : x.seg.ack ≠ una := by
  have hne := h.spaced.1 hnil hupdate
  rw [hcounted] at hne
  exact fun heq => hne (congrArg some heq).symm

end Flow

end MiniTcp
