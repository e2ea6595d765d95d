import MiniTcp.Net.Tcp.Close
import MiniTcp.Net.Tcp.Outbound

/-!
# The numbers a closing connection uses

A direction that may be closed uses one number for each byte and one for its FIN, and `close()` puts the
FIN before the bytes that are still unsent. An `Extent` says how many numbers after the SYN are used and
which of them is the FIN's; it cannot be built with more than fewer than `2 ^ 31` bytes and one FIN.
`Laid x p` says that `p` has used the numbers of `x` and no others: its send queue is aligned with them,
its state tells whether there is a FIN, and what it has put on the network lies within them.
-/

namespace MiniTcp

open TCPConnection

section StreamSeq

variable {iss : SeqNo} {i j : Nat}

/-- Numbers exactly half a ring apart are not in order. -/
theorem seqGt_streamSeq_iff (hij : i ≤ j + 2 ^ 31) (hji : j ≤ i + 2 ^ 31) :
    seqGt (streamSeq iss i) (streamSeq iss j) = true ↔ j < i ∧ i < j + 2 ^ 31 := by
  rw [seqGt_iff, Serial.Lt]
  rcases le_or_gt j i with h | h
  · rw [gap_streamSeq h (by omega)]
    omega
  · have hgap : Serial.gap (streamSeq iss j) (streamSeq iss i) = 2 ^ 32 - (j - i) := by
      rw [streamSeq, streamSeq, seqAdd, seqAdd, Serial.gap_shift_shift_down (by omega) (by omega)]
      omega
    rw [hgap]
    omega

theorem peek_streamSeq {q : SendQueue} {u m n : Nat} (hu : u ≤ m) (hm : m ≤ u + 2 ^ 31)
    (huna : q.una = streamSeq iss u) (hne : q.peek (streamSeq iss m) n ≠ []) :
    m < u + 2 ^ 31 ∧ q.peek (streamSeq iss m) n = (q.buf.drop (m - u)).take n := by
  have hgap : Serial.gap (streamSeq iss u) (streamSeq iss m) = m - u := gap_streamSeq hu (by omega)
  have hdiff : seqDiff (streamSeq iss m) q.una = Serial.diff (streamSeq iss m) (streamSeq iss u) := by
    rw [seqDiff_eq, huna]
  rw [SendQueue.peek, hdiff] at hne ⊢
  split_ifs at hne ⊢ with hstop
  · exact absurd rfl hne
  rw [not_or, not_lt, Serial.diff_nonneg_iff, hgap] at hstop
  refine ⟨by omega, ?_⟩
  rw [Serial.diff_of_nonneg (by rw [hgap]; omega), hgap, Int.toNat_natCast]

end StreamSeq

/-! ### Extents -/

/-- The first `used` numbers after the SYN are used, and `fin` is the one the FIN has. -/
structure Extent where
  used : Nat
  fin : Option Nat
  fin_lt : ∀ k, fin = some k → k < used
  room : used < 2 ^ 31 ∨ used = 2 ^ 31 ∧ fin = some (2 ^ 31 - 1)

namespace Extent

variable {x y z : Extent} {iss seq : SeqNo} {flags : Flags} {payload : Bytes} {i k m n r : Nat}

/-- A direction in which only the SYN was sent. -/
def start : Extent where
  used := 0
  fin := none
  fin_lt := by simp
  room := .inl (by decide)

theorem used_le (x : Extent) : x.used ≤ 2 ^ 31 := by
  rcases x.room with h | h <;> omega

theorem near_fin (hfin : x.fin = some k) (hr : r ≤ x.used) : k < r + 2 ^ 31 ∧ r < k + 2 ^ 31 := by
  have hk := x.fin_lt k hfin
  rcases x.room with h | ⟨h, hlast⟩
  · omega
  · obtain rfl : k = 2 ^ 31 - 1 := Option.some.inj (hfin.symm.trans hlast)
    omega

/-- `y` uses the numbers of `x` and further ones. -/
structure Grows (x y : Extent) : Prop where
  used : x.used ≤ y.used
  fin : ∀ k, x.fin = some k → y.fin = some k
  fresh : ∀ k, y.fin = some k → x.fin = some k ∨ x.used ≤ k

namespace Grows

theorem refl (x : Extent) : x.Grows x := ⟨le_rfl, fun _ => id, fun _ => .inl⟩

theorem trans (h : x.Grows y) (h' : y.Grows z) : x.Grows z where
  used := h.used.trans h'.used
  fin := fun k hk => h'.fin k (h.fin k hk)
  fresh := by
    intro k hk
    rcases h'.fresh k hk with hk | hk
    · exact h.fresh k hk
    · exact .inr (h.used.trans hk)

end Grows

/-- The extent after `n` more bytes. -/
def more (x : Extent) (n : Nat) (hn : x.used + n < 2 ^ 31) : Extent where
  used := x.used + n
  fin := x.fin
  fin_lt := fun k hk => (x.fin_lt k hk).trans_le (Nat.le_add_right _ _)
  room := .inl hn

theorem grows_more {n : Nat} (hn : x.used + n < 2 ^ 31) : x.Grows (x.more n hn) :=
  ⟨Nat.le_add_right _ _, fun _ => id, fun _ => .inl⟩

/-- The extent after the FIN. -/
def finish (x : Extent) (hx : x.used < 2 ^ 31) : Extent where
  used := x.used + 1
  fin := some x.used
  fin_lt := fun _ hk => Nat.lt_succ_of_le (Option.some.inj hk).ge
  room := by
    by_cases hlast : x.used + 1 < 2 ^ 31
    · exact .inl hlast
    · exact .inr ⟨by omega, congrArg some (by omega)⟩

theorem grows_finish (hx : x.used < 2 ^ 31) (hnone : x.fin = none) : x.Grows (x.finish hx) where
  used := Nat.le_succ _
  fin := by simp [hnone]
  fresh := fun _ hk => .inr (Option.some.inj hk).le

/-- The `n` numbers from `i` on are used, and not by the FIN. -/
def Lies (x : Extent) (i n : Nat) : Prop := i + n ≤ x.used ∧ ∀ k, x.fin = some k → i + n ≤ k ∨ k < i

theorem Lies.mono (h : x.Lies i n) (hxy : x.Grows y) : y.Lies i n := by
  refine ⟨h.1.trans hxy.used, fun k hk => ?_⟩
  rcases hxy.fresh k hk with hold | hnew
  · exact h.2 k hold
  · exact .inl (h.1.trans hnew)

theorem Lies.part (h : x.Lies i n) (hm : i ≤ m) (hr : m + r ≤ i + n) : x.Lies m r := by
  refine ⟨hr.trans h.1, fun k hk => ?_⟩
  have hout := h.2 k hk
  omega

/-- A segment with these fields is the SYN, or data or the FIN within the extent, or takes no numbers. -/
structure Carries (x : Extent) (iss seq : SeqNo) (flags : Flags) (payload : Bytes) : Prop where
  syn : (flags &&& FLAG_SYN != 0) = true → seq = iss
  fin : (flags &&& FLAG_FIN != 0) = true → ∃ k, x.fin = some k ∧ seq = streamSeq iss k
  data : payload ≠ [] →
    flags = FLAG_ACK ||| FLAG_PSH ∧ ∃ i, seq = streamSeq iss i ∧ x.Lies i payload.length

/-- The same for a segment. -/
def Sends (x : Extent) (iss : SeqNo) (seg : TCPSegment) : Prop :=
  x.Carries iss seg.seq seg.flags seg.payload

namespace Carries

theorem mono (h : x.Carries iss seq flags payload) (hxy : x.Grows y) :
    y.Carries iss seq flags payload where
  syn := h.syn
  fin := by
    intro hfin
    obtain ⟨k, hk, hseq⟩ := h.fin hfin
    exact ⟨k, hxy.fin k hk, hseq⟩
  data := by
    intro hne
    obtain ⟨hflags, i, hseq, hlies⟩ := h.data hne
    exact ⟨hflags, i, hseq, hlies.mono hxy⟩

theorem bare (hsyn : (flags &&& FLAG_SYN != 0) = false) (hfin : (flags &&& FLAG_FIN != 0) = false) :
    x.Carries iss seq flags [] where
  syn := fun h => absurd (hsyn.symm.trans h) Bool.false_ne_true
  fin := fun h => absurd (hfin.symm.trans h) Bool.false_ne_true
  data := fun h => absurd rfl h

theorem opening (hfin : (flags &&& FLAG_FIN != 0) = false) : x.Carries iss iss flags [] where
  syn := fun _ => rfl
  fin := fun h => absurd (hfin.symm.trans h) Bool.false_ne_true
  data := fun h => absurd rfl h

end Carries

theorem Sends.flags_of_data {seg : TCPSegment} (h : x.Sends iss seg) (hne : seg.payload ≠ []) :
    seg.isSyn = false ∧ seg.isFin = false ∧ seg.isRst = false := by
  obtain ⟨hflags, -⟩ := h.data hne
  rw [TCPSegment.isSyn, TCPSegment.isFin, TCPSegment.isRst, hflags]
  decide

theorem Sends.payload_of_isFin {seg : TCPSegment} (h : x.Sends iss seg) (hfin : seg.isFin = true) :
    seg.payload = [] := by
  by_contra hne
  rw [(h.flags_of_data hne).2.1] at hfin
  cases hfin

theorem sends_bare {c : TCPConnection} {seq ack : SeqNo} {options : TCPOptions}
    (hsyn : (flags &&& FLAG_SYN != 0) = false) (hfin : (flags &&& FLAG_FIN != 0) = false) :
    x.Sends iss (c.segmentOf seq flags [] ack options) :=
  Carries.bare hsyn hfin

theorem sends_rejection (c : TCPConnection) (seg : TCPSegment) : x.Sends iss (c.rejection seg) := by
  unfold TCPConnection.rejection
  split_ifs
  · exact sends_bare (by decide) (by decide)
  · exact sends_bare (by decide) (by decide)

theorem sends_syn (c : TCPConnection) : x.Sends c.iss c.synSegment :=
  show x.Carries c.iss c.iss FLAG_SYN [] from .opening (by decide)

theorem sends_synAck (c : TCPConnection) (seg : TCPSegment) : x.Sends c.iss (c.synAckSegment seg) :=
  show x.Carries c.iss c.iss (FLAG_SYN ||| FLAG_ACK) [] from .opening (by decide)

end Extent

/-! ### The sending half -/

namespace Endpoint

/-- `p` has used the numbers of `x` and no others. -/
structure Laid (x : Extent) (p : Endpoint) : Prop where
  bound : x.used ≤ p.accepted.length ∨
    x.fin = some p.accepted.length ∧ x.used = p.accepted.length + 1
  finSeq : p.conn.finSeq = x.fin.map (streamSeq p.conn.iss)
  opening : p.conn.state = .synSent ∨ p.conn.state = .synReceived → p.accepted = [] ∧ x.used = 0
  flowing : p.conn.state.isSynchronised = true → (p.conn.canSend = true ↔ x.fin = none)
  aligned : p.conn.state.isSynchronised = true → ∃ u, u ≤ x.used ∧
    p.conn.sendQueue.una = streamSeq p.conn.iss u ∧
    p.conn.sendQueue.nxt = streamSeq p.conn.iss x.used ∧
    (u + p.conn.sendQueue.buf.length = p.accepted.length ∨
      p.conn.sendQueue.buf = [] ∧ p.accepted.length < u)
  sent : ∀ s ∈ p.conn.sent, x.Sends p.conn.iss s
  retx : ∀ s ∈ p.conn.retxQueue.segments, x.Carries p.conn.iss s.seq s.flags s.payload
  finSent : ∀ k, x.fin = some k →
    ∃ s ∈ p.conn.sent, s.isFin = true ∧ s.seq = streamSeq p.conn.iss k

variable {r : Bool} {e : Event} {p q : Endpoint} {x y : Extent} {c : TCPConnection} {seg : TCPSegment}

namespace Laid

theorem fin_of_opening (h : Laid x p)
    (hst : p.conn.state = .synSent ∨ p.conn.state = .synReceived) : x.fin = none := by
  have hused := (h.opening hst).2
  rw [Option.eq_none_iff_forall_ne_some]
  intro k hk
  have := x.fin_lt k hk
  omega

theorem congr (h : Laid x p) (hacc : q.accepted = p.accepted) (hiss : q.conn.iss = p.conn.iss)
    (hfin : q.conn.finSeq = p.conn.finSeq) (hsend : q.conn.sendQueue = p.conn.sendQueue)
    (hopen : q.conn.state = .synSent ∨ q.conn.state = .synReceived →
      p.conn.state = .synSent ∨ p.conn.state = .synReceived)
    (hsync : q.conn.state.isSynchronised = true →
      p.conn.state.isSynchronised = true ∧ (q.conn.canSend = true ↔ p.conn.canSend = true))
    (hold : ∀ s ∈ p.conn.sent, s ∈ q.conn.sent)
    (hsent : ∀ s ∈ q.conn.sent, s ∈ p.conn.sent ∨ x.Sends p.conn.iss s)
    (hretx : ∀ s ∈ q.conn.retxQueue.segments, s ∈ p.conn.retxQueue.segments ∨
      x.Carries p.conn.iss s.seq s.flags s.payload) : Laid x q where
  bound := hacc ▸ h.bound
  finSeq := by
    rw [hfin, hiss]
    exact h.finSeq
  opening := by
    rw [hacc]
    exact fun hst => h.opening (hopen hst)
  flowing := fun hst => (hsync hst).2.trans (h.flowing (hsync hst).1)
  aligned := by
    rw [hsend, hiss, hacc]
    exact fun hst => h.aligned (hsync hst).1
  sent := by
    rw [hiss]
    exact fun s hs => (hsent s hs).elim (h.sent s) id
  retx := by
    rw [hiss]
    exact fun s hs => (hretx s hs).elim (h.retx s) id
  finSent := by
    rw [hiss]
    intro k hk
    obtain ⟨s, hs, hflag, hseq⟩ := h.finSent k hk
    exact ⟨s, hold s hs, hflag, hseq⟩

theorem emit (h : Laid x p) (hseg : x.Sends p.conn.iss seg) : Laid x (p.put (p.conn.emit seg)) := by
  refine h.congr rfl rfl rfl rfl id (fun hst => ⟨hst, Iff.rfl⟩) (fun s hs => ?_) (fun s hs => ?_)
    (fun s hs => .inl hs)
  · exact List.mem_append_left _ hs
  · rcases List.mem_append.mp hs with hold | hnew
    · exact .inl hold
    · rw [List.mem_singleton] at hnew
      exact .inr (hnew ▸ hseg)

theorem closed (h : Laid x p) (hstate : c.state = .closed) (hiss : c.iss = p.conn.iss)
    (hfin : c.finSeq = p.conn.finSeq) (hold : ∀ s ∈ p.conn.sent, s ∈ c.sent)
    (hsent : ∀ s ∈ c.sent, s ∈ p.conn.sent ∨ x.Sends p.conn.iss s)
    (hretx : c.retxQueue.segments = []) : Laid x (p.put c) where
  bound := h.bound
  finSeq := by
    rw [put_conn, hfin, hiss]
    exact h.finSeq
  opening := by simp [hstate]
  flowing := by simp [hstate, TcpState.isSynchronised]
  aligned := by simp [hstate, TcpState.isSynchronised]
  sent := by
    rw [put_conn, hiss]
    exact fun s hs => (hsent s hs).elim (h.sent s) id
  retx := by simp [hretx]
  finSent := by
    rw [put_conn, hiss]
    intro k hk
    obtain ⟨s, hs, hflag, hseq⟩ := h.finSent k hk
    exact ⟨s, hold s hs, hflag, hseq⟩

theorem tracking (h : Laid x p) (hxy : x.Grows y) (hseg : y.Sends p.conn.iss seg) (now : Time) :
    (∀ s ∈ (p.conn.tracking seg now).sent, y.Sends p.conn.iss s) ∧
      ∀ s ∈ (p.conn.tracking seg now).retxQueue.segments,
        y.Carries p.conn.iss s.seq s.flags s.payload := by
  obtain ⟨hsent, hretx⟩ := p.conn.mem_tracking seg now
  refine ⟨fun s hs => ?_, fun s hs => ?_⟩
  · rcases hsent s hs with hold | rfl
    · exact (h.sent s hold).mono hxy
    · exact hseg
  · rcases hretx s hs with hold | ⟨hseq, hflags, hpayload⟩
    · exact (h.retx s hold).mono hxy
    · rw [hseq, hflags, hpayload]
      exact hseg

end Laid

theorem laid_acknowledge {iss ack : SeqNo} {q : SendQueue} {a m u j : Nat} (huj : u < j)
    (hjm : j ≤ m) (hm : m ≤ 2 ^ 31) (hfar : j < u + 2 ^ 31) (huna : q.una = streamSeq iss u)
    (hnxt : q.nxt = streamSeq iss m) (hack : ack = streamSeq iss j)
    (hbuf : u + q.buf.length = a ∨ q.buf = [] ∧ a < u) :
    (q.acknowledge ack).1.una = streamSeq iss j ∧ (q.acknowledge ack).1.nxt = streamSeq iss m ∧
      (j + (q.acknowledge ack).1.buf.length = a ∨ (q.acknowledge ack).1.buf = [] ∧ a < j) := by
  have hgt : seqGt ack q.una = true := by
    rw [hack, huna, seqGt_streamSeq_iff (by omega) (by omega)]
    exact ⟨huj, hfar⟩
  have hclamp : seqLt q.nxt ack = false := by
    rw [← Bool.not_eq_true, hnxt, hack]
    show ¬ seqGt (streamSeq iss j) (streamSeq iss m) = true
    rw [seqGt_streamSeq_iff (by omega) (by omega)]
    omega
  rw [SendQueue.acknowledge_of_gt hgt, hclamp]
  refine ⟨hack, hnxt, ?_⟩
  dsimp only
  rw [huna, hack, gap_streamSeq huj.le (by omega), List.length_drop]
  rcases hbuf with hbuf | ⟨hnil, hlt⟩
  · by_cases hja : j ≤ a
    · omega
    · rw [List.drop_eq_nil_of_le (by omega)]
      exact .inr ⟨rfl, by omega⟩
  · rw [hnil, List.drop_nil]
    exact .inr ⟨rfl, by omega⟩

theorem finTaken_canSend (c : TCPConnection) (now : Time) :
    (c.finTaken now).state.isSynchronised = true →
      c.state.isSynchronised = true ∧ ((c.finTaken now).canSend = true ↔ c.canSend = true) := by
  unfold finTaken
  dsimp only
  split
  · rename_i hst
    exact fun _ => ⟨by rw [hst]; rfl, by simp [canSend, hst]⟩
  · rename_i hst
    split_ifs
    · exact fun _ => ⟨by rw [hst]; rfl, by simp [canSend, enterTimeWait, hst]⟩
    · exact fun _ => ⟨by rw [hst]; rfl, by simp [canSend, hst]⟩
  · rename_i hst
    exact fun _ => ⟨by rw [hst]; rfl, by simp [canSend, enterTimeWait, hst]⟩
  · rename_i hst
    exact fun _ => ⟨by rw [hst]; rfl, by simp [canSend, enterTimeWait, hst]⟩
  · exact fun hsync => ⟨hsync, Iff.rfl⟩

namespace Laid

theorem used_le_of_fin (h : Laid x p) (hnone : x.fin = none) : x.used ≤ p.accepted.length := by
  rcases h.bound with hle | ⟨hfin, -⟩
  · exact hle
  · rw [hnone] at hfin
    cases hfin

theorem simultaneousOpen (h : Laid x p) (hstate : p.conn.state = .synSent) (seg : TCPSegment)
    (now : Time) : Laid x (p.put (p.conn.handleSimultaneousOpen seg now)) := by
  obtain ⟨hsent, hretx⟩ := (p.conn.adopted seg).mem_tracking ((p.conn.adopted seg).synAckSegment seg) now
  have hsyn : x.Sends p.conn.iss ((p.conn.adopted seg).synAckSegment seg) :=
    Extent.sends_synAck (p.conn.adopted seg) seg
  rw [handleSimultaneousOpen_eq]
  refine h.congr rfl rfl rfl rfl (fun _ => .inl hstate) (fun hst => by cases hst)
    (fun _ => List.mem_append_left _) (fun s hs => ?_) (fun s hs => ?_)
  · refine (hsent s hs).imp_right fun hnew => ?_
    rw [hnew]
    exact hsyn
  · refine (hretx s hs).imp_right fun hnew => ?_
    rw [hnew.1, hnew.2.1, hnew.2.2]
    exact hsyn

theorem retire (h : Laid x p) (hstate : p.conn.state.isSynchronised = true) {ack : SeqNo} {j : Nat}
    (hj : j ≤ x.used) (hack : ack = streamSeq p.conn.iss j)
    (hgt : seqGt ack p.conn.sendQueue.una = true) (t : Time) :
    Laid x (p.put (p.conn.acknowledged ack t)) := by
  have hxmax := x.used_le
  obtain ⟨u, hu, huna, hnxt, hbuf⟩ := h.aligned hstate
  rw [huna, hack, seqGt_streamSeq_iff (by omega) (by omega)] at hgt
  exact
    { h with
      aligned := fun _ => ⟨j, hj, laid_acknowledge hgt.1 hj hxmax hgt.2 huna hnxt hack hbuf⟩
      retx := fun s hs => h.retx s (List.mem_filter.mp hs).1 }

theorem establish (h : Laid x p) (hbasic : p.conn.Basic)
    (hopen : p.conn.state = .synSent ∨ p.conn.state = .synReceived) (t : Time) :
    Laid x (p.put (p.conn.settled (streamSeq p.conn.iss 0) t)) := by
  obtain ⟨hnone, hused⟩ := h.opening hopen
  obtain ⟨hgt, huna, hnxt, hbuf⟩ := hbasic.acknowledge_syn hopen
  rw [streamSeq_zero, settled, if_pos hgt]
  exact
    { h with
      opening := by simp
      flowing := fun _ => ⟨fun _ => h.fin_of_opening hopen, fun _ => rfl⟩
      aligned := fun _ => ⟨0, Nat.zero_le _, huna, hused ▸ hnxt, .inl (by
        simp only [put_conn, put_accepted, acknowledged]
        rw [hnone]
        exact congrArg (0 + List.length ·) hbuf)⟩
      retx := fun s hs => h.retx s (List.mem_filter.mp hs).1 }

/-- What there is to send from `snd_nxt` on are accepted bytes, so the FIN has not taken the last
number. -/
theorem peek_fits (h : Laid x p) (hstate : p.conn.state.isSynchronised = true) {n : Nat}
    (hne : p.conn.sendQueue.peek p.conn.sendQueue.nxt n ≠ []) :
    x.used + (p.conn.sendQueue.peek p.conn.sendQueue.nxt n).length ≤ p.accepted.length := by
  have hxmax := x.used_le
  obtain ⟨u, hu, huna, hnxt, hbuf⟩ := h.aligned hstate
  rw [hnxt] at hne ⊢
  obtain ⟨-, hread⟩ := peek_streamSeq hu (by omega) huna hne
  have hpos := List.length_pos_iff.mpr hne
  rw [hread, List.length_take, List.length_drop] at hpos ⊢
  rcases hbuf with hbuf | ⟨hnil, -⟩
  · omega
  · rw [hnil, List.length_nil] at hpos
    omega

theorem push (h : Laid x p) (hstate : p.conn.state.isSynchronised = true) {payload : Bytes}
    (hne : payload ≠ []) (hfits : x.used + payload.length ≤ p.accepted.length)
    (hlen : p.accepted.length < 2 ^ 31) (now : Time) :
    Laid (x.more payload.length (hfits.trans_lt hlen)) (p.put (p.conn.transmitData payload now)) := by
  obtain ⟨u, hu, huna, hnxt, hbuf⟩ := h.aligned hstate
  have hxy := Extent.grows_more (hfits.trans_lt hlen)
  have hsync := TcpState.ne_of_isSynchronised hstate
  have hpiece : (x.more payload.length (hfits.trans_lt hlen)).Sends p.conn.iss
      (p.conn.dataSegment payload) :=
    show Extent.Carries _ _ p.conn.sendQueue.nxt (FLAG_ACK ||| FLAG_PSH) payload from
      { syn := fun hsyn => absurd hsyn (by decide)
        fin := fun hfin => absurd hfin (by decide)
        data := fun _ => ⟨rfl, x.used, hnxt, le_rfl, fun k hk => .inr (x.fin_lt k hk)⟩ }
  rw [transmitData_eq _ now hne]
  exact
    { bound := .inl hfits
      finSeq := h.finSeq
      opening := fun hst => (hst.elim hsync.2.2.1 hsync.2.2.2).elim
      flowing := h.flowing
      aligned := fun _ => ⟨u, hu.trans hxy.used, huna, by
        simp only [put_conn]
        rw [hnxt, seqAdd_streamSeq]
        rfl, hbuf⟩
      sent := (h.tracking hxy hpiece now).1
      retx := (h.tracking hxy hpiece now).2
      finSent := by
        intro k hk
        obtain ⟨s, hs, hfin⟩ := h.finSent k hk
        exact ⟨s, List.mem_append_left _ hs, hfin⟩ }

/-- A retransmitted segment has the numbers it had before. -/
theorem resend (h : Laid x p) {entry : OutstandingSegment} (hold : p.conn.retxQueue.oldest = some entry)
    (now : Time) : Laid x (p.put (p.conn.resend entry now)) := by
  have hmem : entry ∈ p.conn.retxQueue.segments := List.mem_of_mem_head? hold
  rw [resend_eq]
  refine h.congr rfl rfl rfl rfl id (fun hst => ⟨hst, Iff.rfl⟩) (fun _ => List.mem_append_left _)
    (fun s hs => ?_) (fun s hs => ?_)
  · rcases List.mem_append.mp hs with hsent | hnew
    · exact .inl hsent
    · rw [List.mem_singleton] at hnew
      exact .inr (hnew ▸ h.retx entry hmem)
  · rcases RetransmitQueue.mem_markRetransmitted hs with hsent | ⟨s', hs', rfl⟩
    · exact .inl hsent
    · exact .inr (h.retx s' hs')

theorem fin (h : Laid x p) {st : TcpState}
    (hstate : p.conn.state = .established ∧ st = .finWait1 ∨ p.conn.state = .closeWait ∧ st = .lastAck)
    (hnone : x.fin = none) (hx : x.used < 2 ^ 31) (now : Time) :
    Laid (x.finish hx) (p.put { p.conn.sendFin now with state := st }) := by
  have hsync : p.conn.state.isSynchronised = true := by
    rcases hstate with ⟨hst, -⟩ | ⟨hst, -⟩ <;> rw [hst] <;> rfl
  obtain ⟨u, hu, huna, hnxt, hbuf⟩ := h.aligned hsync
  have hle := h.used_le_of_fin hnone
  have hxy := Extent.grows_finish hx hnone
  have hpiece : (x.finish hx).Sends p.conn.iss p.conn.finSegment :=
    show Extent.Carries _ _ p.conn.sendQueue.nxt (FLAG_ACK ||| FLAG_FIN) [] from
      { syn := fun hsyn => absurd hsyn (by decide)
        fin := fun _ => ⟨x.used, rfl, hnxt⟩
        data := fun hne => absurd rfl hne }
  rw [sendFin_eq]
  exact
    { bound := by
        by_cases hlast : x.used < p.accepted.length
        · exact .inl hlast
        · have hall : x.used = p.accepted.length := by omega
          exact .inr ⟨congrArg some hall, congrArg (· + 1) hall⟩
      finSeq := congrArg some hnxt
      opening := by rcases hstate with ⟨-, rfl⟩ | ⟨-, rfl⟩ <;> simp
      flowing := by
        intro
        rcases hstate with ⟨-, rfl⟩ | ⟨-, rfl⟩ <;> simp [canSend, Extent.finish]
      aligned := fun _ => ⟨u, hu.trans hxy.used, huna, by
        simp only [put_conn]
        rw [hnxt, seqAdd_streamSeq]
        rfl, hbuf⟩
      sent := (h.tracking hxy hpiece now).1
      retx := (h.tracking hxy hpiece now).2
      finSent := by
        intro k hk
        obtain rfl := Option.some.inj hk
        exact ⟨p.conn.finSegment, List.mem_append_right _ (List.mem_singleton_self _),
          show ((FLAG_ACK ||| FLAG_FIN) &&& FLAG_FIN != 0) = true by decide, hnxt⟩ }

theorem consumeFin (h : Laid x p) (now : Time) : Laid x (p.put (p.conn.finTaken now)) := by
  obtain ⟨hsend, hsent, -, hiss, hfin, -, hretx⟩ := finTaken_spec p.conn now
  refine h.congr rfl hiss hfin hsend ?_ (finTaken_canSend p.conn now) ?_ ?_ ?_
  · rcases finTaken_state p.conn now with hst | ⟨-, hst⟩
    · rw [put_conn, hst]
      exact id
    · have hne := TcpState.ne_of_isSynchronised hst
      exact fun hopen => (hopen.elim hne.2.2.1 hne.2.2.2).elim
  · rw [put_conn, hsent]
    exact fun _ => id
  · rw [put_conn, hsent]
    exact fun _ => .inl
  · rcases hretx with hsame | ⟨-, hclear⟩
    · rw [put_conn, hsame]
      exact fun _ => .inl
    · rw [put_conn, hclear]
      exact fun _ hs => absurd hs List.not_mem_nil

theorem advance (h : Laid x p) (now : Time) : Laid x (p.put (p.conn.finAcknowledged now)) := by
  unfold finAcknowledged
  split
  · rename_i hst
    exact h.congr rfl rfl rfl rfl (fun hopen => by simp at hopen)
      (fun _ => ⟨by rw [hst]; rfl, by simp [canSend, hst]⟩) (fun _ => id) (fun _ => .inl)
      (fun _ => .inl)
  · rename_i hst
    exact h.congr rfl rfl rfl rfl (fun hopen => by simp [enterTimeWait] at hopen)
      (fun _ => ⟨by rw [hst]; rfl, by simp [canSend, enterTimeWait, hst]⟩) (fun _ => id)
      (fun _ => .inl) (fun _ hs => absurd hs List.not_mem_nil)
  · exact h.closed rfl rfl rfl (fun _ => id) (fun _ => .inl) rfl

theorem write (h : Laid x p) (hstate : p.conn.canSend = true) (data : Bytes) :
    Laid x { p.put { p.conn with sendQueue := (p.conn.sendQueue.write data).1 } with
      accepted := p.accepted ++ data.take (p.conn.sendQueue.write data).2 } := by
  have hopen : p.conn.state = .established ∨ p.conn.state = .closeWait := by
    simpa [canSend] using hstate
  have hsync : p.conn.state.isSynchronised = true := by
    rcases hopen with hst | hst <;> rw [hst] <;> rfl
  have hle := h.used_le_of_fin ((h.flowing hsync).mp hstate)
  exact
    { h with
      bound := .inl (hle.trans (List.prefix_append _ _).length_le)
      opening := by rcases hopen with hst | hst <;> simp [hst]
      aligned := by
        intro
        obtain ⟨u, hu, huna, hnxt, hbuf⟩ := h.aligned hsync
        refine ⟨u, hu, (SendQueue.write_una _ data).trans huna,
          (SendQueue.write_nxt _ data).trans hnxt, .inl ?_⟩
        have hlen := congrArg List.length (p.conn.sendQueue.write_buf data)
        simp only [put_conn, List.length_append] at hlen ⊢
        omega }

/-- Every action keeps the sending half in order, as long as the peer acknowledges only what was sent and
fewer than `2 ^ 31` bytes are written; the extent grows by what the action sends. -/
theorem action {q' : Endpoint} (hbasic : q.conn.Basic) (h : Laid x q) (ha : Action r e q q')
    (hlisten : e ≠ .listen) (hconnect : ∀ draw now, e ≠ .connect draw now)
    (hack : ∀ seg, e.inbound = some seg → Acks q.conn.iss x.used seg)
    (hlen : q.accepted.length < 2 ^ 31) : ∃ y, x.Grows y ∧ Laid y q' := by
  have hact := ha
  cases ha with
  | quiet hq =>
    refine ⟨x, .refl x, h.congr rfl hq.iss hq.finSeq hq.sendQueue ?_ (fun hst => ?_) ?_ ?_ ?_⟩
    · rw [put_conn, hq.state]; exact id
    · rw [put_conn, canSend, canSend, hq.state] at *
      exact ⟨hst, Iff.rfl⟩
    · rw [put_conn, hq.sent]; exact fun _ => id
    · rw [put_conn, hq.sent]; exact fun _ => .inl
    · rw [put_conn, hq.retxQueue]; exact fun _ => .inl
  | ack => exact ⟨x, .refl x, h.emit (Extent.sends_bare (by decide) (by decide))⟩
  | reject => exact ⟨x, .refl x, h.emit (Extent.sends_rejection _ _)⟩
  | delay | adopt | arm | disarm | insert | read =>
    exact ⟨x, .refl x, h.congr rfl rfl rfl rfl id (fun hst => ⟨hst, Iff.rfl⟩) (fun _ => id)
      (fun _ => .inl) (fun _ => .inl)⟩
  | listen he => exact absurd he hlisten
  | connect he => exact absurd he (hconnect _ _)
  | drop _ hstate =>
    exact ⟨x, .refl x, h.closed rfl rfl rfl (fun _ => id) (fun _ => .inl) (hbasic.idle hstate).2⟩
  | reset | expire =>
    exact ⟨x, .refl x, h.closed rfl rfl rfl (fun _ => id) (fun _ => .inl) rfl⟩
  | abort =>
    refine ⟨x, .refl x, h.closed ?_ ?_ ?_ (fun _ => hact.mem_sent) (fun s hs => ?_) ?_⟩
    · rw [abort_eq]; rfl
    · rw [abort_eq]; split_ifs <;> rfl
    · rw [abort_eq]; split_ifs <;> rfl
    · rcases mem_sent_abort _ hs with hold | rfl
      · exact .inl hold
      · exact .inr (Extent.sends_bare (by decide) (by decide))
    · rw [abort_eq]; split_ifs <;> rfl
  | simultaneousOpen he hstate => exact ⟨x, .refl x, h.simultaneousOpen hstate _ _⟩
  | retire t he hack' hrst hstate hgt =>
    obtain ⟨j, hj, hseg⟩ := hack _ (he ▸ rfl) hack' hrst
    exact ⟨x, .refl x, h.retire hstate hj hseg hgt t⟩
  | establish t he hack' hrst hstate =>
    have hopen : q.conn.state = .synSent ∨ q.conn.state = .synReceived := hstate.imp (·.1) (·.1)
    obtain ⟨j, hj, hseg⟩ := hack _ (he ▸ rfl) hack' hrst
    rw [(h.opening hopen).2, Nat.le_zero] at hj
    rw [hseg, hj]
    exact ⟨x, .refl x, h.establish hbasic hopen t⟩
  | push payload n now hstate hpeek hne =>
    have hfits : x.used + payload.length ≤ q.accepted.length := by
      rw [hpeek] at hne ⊢
      exact h.peek_fits hstate hne
    exact ⟨_, Extent.grows_more _, h.push hstate hne hfits hlen now⟩
  | resend now hold => exact ⟨x, .refl x, h.resend hold now⟩
  | fin he hstate =>
    have hnone : x.fin = none := by
      rcases hstate with ⟨hst, -⟩ | ⟨hst, -⟩ <;>
        exact (h.flowing (by rw [hst]; rfl)).mp (by simp [canSend, hst])
    have hx := (h.used_le_of_fin hnone).trans_lt hlen
    exact ⟨_, Extent.grows_finish hx hnone, h.fin hstate hnone hx _⟩
  | consumeFin => exact ⟨x, .refl x, h.consumeFin _⟩
  | advance => exact ⟨x, .refl x, h.advance _⟩
  | write _ hstate => exact ⟨x, .refl x, h.write hstate _⟩

end Laid

theorem Laid.step {e : Event} {p : Endpoint} (h : Laid x p) (hbasic : p.conn.Basic) (hlisten : e ≠ .listen)
    (hconnect : ∀ draw now, e ≠ .connect draw now)
    (hack : ∀ seg, e.inbound = some seg → Acks p.conn.iss x.used seg)
    (hlen : (p.step e).accepted.length < 2 ^ 31) : ∃ y, x.Grows y ∧ Laid y (p.step e) := by
  have hkept : ((p.step e).conn.Basic ∧ (p.step e).conn.iss = p.conn.iss) ∧
      ((p.step e).accepted.length < 2 ^ 31 → ∃ y, x.Grows y ∧ Laid y (p.step e)) := by
    refine keeps_step (I := fun q => (q.conn.Basic ∧ q.conn.iss = p.conn.iss) ∧
      (q.accepted.length < 2 ^ 31 → ∃ y, x.Grows y ∧ Laid y q)) ?_ ⟨⟨hbasic, rfl⟩, fun _ => ⟨x, .refl x, h⟩⟩
    rintro q q' ⟨⟨hb, hiss⟩, hlaid⟩ ha
    refine ⟨⟨hb.action ha, (ha.iss hconnect).trans hiss⟩, fun hlen' => ?_⟩
    have hshort := (ha.accepted hconnect).length_le.trans_lt hlen'
    obtain ⟨y, hxy, hy⟩ := hlaid hshort
    obtain ⟨z, hyz, hz⟩ := hy.action hb ha hlisten hconnect
      (fun seg hseg => hiss ▸ (hack seg hseg).mono hxy.used) hshort
    exact ⟨z, hxy.trans hyz, hz⟩
  exact hkept.2 hlen

end Endpoint

end MiniTcp
