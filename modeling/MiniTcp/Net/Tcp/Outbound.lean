import MiniTcp.Net.Tcp.Invariant
import MiniTcp.Net.Tcp.Reassembly

/-!
# The sending half of a connection that is never closed

`Outbound m p` says that `p` has put the first `m` accepted bytes on the network and nothing else: the
send buffer is aligned with `snd_una` and `snd_nxt`, and whatever was sent or waits to be sent again is
the SYN or a piece of these bytes under its own number. Every action keeps it as long as the peer
acknowledges only what was sent.
-/

namespace MiniTcp

open Stream (At)
open TCPConnection

/-- A segment with these fields carries the SYN numbered `iss`, or a piece of the stream `s` after it,
or neither; it carries no FIN. -/
structure Piece (iss : SeqNo) (s : Bytes) (seq : SeqNo) (flags : Flags) (payload : Bytes) : Prop where
  noFin : (flags &&& FLAG_FIN != 0) = false
  syn : (flags &&& FLAG_SYN != 0) = true → seq = iss
  data : payload ≠ [] → ∃ i, seq = streamSeq iss i ∧ At s i payload

namespace Piece

variable {iss seq : SeqNo} {s t payload : Bytes} {flags : Flags}

theorem of_isPrefix (h : Piece iss s seq flags payload) (hst : s <+: t) :
    Piece iss t seq flags payload where
  noFin := h.noFin
  syn := h.syn
  data := by
    intro hne
    obtain ⟨i, hi, hat⟩ := h.data hne
    exact ⟨i, hi, hat.of_isPrefix hst⟩

theorem bare (hfin : (flags &&& FLAG_FIN != 0) = false) (hsyn : (flags &&& FLAG_SYN != 0) = false) :
    Piece iss s seq flags [] where
  noFin := hfin
  syn := fun h => absurd (hsyn.symm.trans h) Bool.false_ne_true
  data := fun h => absurd rfl h

theorem opening (hfin : (flags &&& FLAG_FIN != 0) = false) : Piece iss s iss flags [] where
  noFin := hfin
  syn := fun _ => rfl
  data := fun h => absurd rfl h

end Piece

/-- The segment is the SYN of the stream `s` that follows `iss`, or carries a piece of it. -/
def TCPSegment.IsPiece (iss : SeqNo) (s : Bytes) (seg : TCPSegment) : Prop :=
  Piece iss s seg.seq seg.flags seg.payload

theorem TCPSegment.isPiece_bare {c : TCPConnection} {iss seq ack : SeqNo} {s : Bytes} {flags : Flags}
    {options : TCPOptions} (hfin : (flags &&& FLAG_FIN != 0) = false)
    (hsyn : (flags &&& FLAG_SYN != 0) = false) :
    (c.segmentOf seq flags [] ack options).IsPiece iss s :=
  Piece.bare hfin hsyn

theorem TCPSegment.isPiece_synAck (c : TCPConnection) (seg : TCPSegment) (s : Bytes) :
    (c.synAckSegment seg).IsPiece c.iss s :=
  show Piece c.iss s c.iss (FLAG_SYN ||| FLAG_ACK) [] from .opening (by decide)

theorem TCPSegment.isPiece_syn (c : TCPConnection) (s : Bytes) : c.synSegment.IsPiece c.iss s :=
  show Piece c.iss s c.iss FLAG_SYN [] from .opening (by decide)

theorem TCPSegment.isPiece_rejection (c : TCPConnection) (seg : TCPSegment) (iss : SeqNo) (s : Bytes) :
    (c.rejection seg).IsPiece iss s := by
  unfold TCPConnection.rejection
  split_ifs
  · exact isPiece_bare (by decide) (by decide)
  · exact isPiece_bare (by decide) (by decide)

/-- The calls of an application that only reads and writes, the timer and the network. -/
def Event.IsStreaming : Event → Prop
  | .send .. | .recv .. | .tick _ | .segment .. => True
  | _ => False

namespace Event.IsStreaming

variable {e : Event}

theorem ne_listen (h : e.IsStreaming) : e ≠ .listen := by
  rintro rfl
  exact h

theorem ne_connect (h : e.IsStreaming) (draw : SeqNo) (now : Time) : e ≠ .connect draw now := by
  rintro rfl
  exact h

theorem ne_close (h : e.IsStreaming) (now : Time) : e ≠ .close now := by
  rintro rfl
  exact h

end Event.IsStreaming

namespace Endpoint

/-- The first `m` accepted bytes, and only these, were put on the network. -/
structure Outbound (m : Nat) (p : Endpoint) : Prop where
  le : m ≤ p.accepted.length
  noFin : p.conn.finSeq = none
  opening : p.conn.state = .synSent ∨ p.conn.state = .synReceived → p.accepted = []
  aligned : p.conn.state.isSynchronised = true → ∃ k, k ≤ m ∧
    p.conn.sendQueue.una = streamSeq p.conn.iss k ∧ p.conn.sendQueue.nxt = streamSeq p.conn.iss m ∧
    p.conn.sendQueue.buf = p.accepted.drop k
  sent : ∀ x ∈ p.conn.sent, x.IsPiece p.conn.iss (p.accepted.take m)
  retx : ∀ y ∈ p.conn.retxQueue.segments,
    Piece p.conn.iss (p.accepted.take m) y.seq y.flags y.payload

/-- The segment acknowledges no more than the first `m` bytes, if anything. -/
def Acks (iss : SeqNo) (m : Nat) (seg : TCPSegment) : Prop :=
  seg.isAck = true → seg.isRst = false → ∃ j, j ≤ m ∧ seg.ack = streamSeq iss j

theorem Acks.mono {iss : SeqNo} {m n : Nat} {x : TCPSegment} (h : Acks iss m x) (hmn : m ≤ n) :
    Acks iss n x := by
  intro hack hrst
  obtain ⟨j, hj, heq⟩ := h hack hrst
  exact ⟨j, hj.trans hmn, heq⟩

theorem Acks.of_flags {iss : SeqNo} {m : Nat} {x : TCPSegment} (h : x.isAck = false ∨ x.isRst = true) :
    Acks iss m x := by
  intro hack hrst
  rcases h with h | h
  · rw [h] at hack
    cases hack
  · rw [h] at hrst
    cases hrst

namespace Outbound

variable {r : Bool} {e : Event} {p q : Endpoint} {m : Nat}

theorem congr (h : Outbound m p) (hacc : q.accepted = p.accepted) (hiss : q.conn.iss = p.conn.iss)
    (hfin : q.conn.finSeq = p.conn.finSeq) (hsend : q.conn.sendQueue = p.conn.sendQueue)
    (hopen : q.conn.state = .synSent ∨ q.conn.state = .synReceived →
      p.conn.state = .synSent ∨ p.conn.state = .synReceived)
    (hsync : q.conn.state.isSynchronised = true → p.conn.state.isSynchronised = true)
    (hsent : ∀ x ∈ q.conn.sent, x ∈ p.conn.sent ∨ x.IsPiece p.conn.iss (p.accepted.take m))
    (hretx : ∀ y ∈ q.conn.retxQueue.segments, y ∈ p.conn.retxQueue.segments ∨
      Piece p.conn.iss (p.accepted.take m) y.seq y.flags y.payload) : Outbound m q where
  le := hacc ▸ h.le
  noFin := hfin.trans h.noFin
  opening := fun hst => hacc.trans (h.opening (hopen hst))
  aligned := by
    rw [hsend, hiss, hacc]
    exact fun hst => h.aligned (hsync hst)
  sent := by
    rw [hiss, hacc]
    exact fun x hx => (hsent x hx).elim (h.sent x) id
  retx := by
    rw [hiss, hacc]
    exact fun y hy => (hretx y hy).elim (h.retx y) id

theorem emit (h : Outbound m p) {x : TCPSegment}
    (hx : x.IsPiece p.conn.iss (p.accepted.take m)) : Outbound m (p.put (p.conn.emit x)) := by
  refine h.congr rfl rfl rfl rfl id id (fun y hy => ?_) (fun y hy => .inl hy)
  rcases List.mem_append.mp hy with hold | hnew
  · exact .inl hold
  · rw [List.mem_singleton] at hnew
    exact .inr (hnew ▸ hx)

theorem teardown (h : Outbound m p) {x : TCPConnection} (hstate : x.state = .closed)
    (hiss : x.iss = p.conn.iss) (hfin : x.finSeq = p.conn.finSeq)
    (hsent : ∀ y ∈ x.sent, y ∈ p.conn.sent ∨ y.IsPiece p.conn.iss (p.accepted.take m))
    (hretx : x.retxQueue.segments = []) : Outbound m (p.put x) where
  le := h.le
  noFin := hfin.trans h.noFin
  opening := by simp [hstate]
  aligned := by simp [hstate, TcpState.isSynchronised]
  sent := by
    simp only [put_conn, hiss]
    exact fun y hy => (hsent y hy).elim (h.sent y) id
  retx := by simp [hretx]

end Outbound

section Steps

variable {p : Endpoint} {m k j : Nat} {c : TCPConnection} {x : TCPSegment} {s : Bytes}

theorem mem_sent_tracking {iss : SeqNo} {n : Time} (hx : x.IsPiece iss s) :
    ∀ y ∈ (c.tracking x n).sent, y ∈ c.sent ∨ y.IsPiece iss s := by
  intro y hy
  rcases List.mem_append.mp hy with hold | hnew
  · exact .inl hold
  · rw [List.mem_singleton] at hnew
    exact .inr (hnew ▸ hx)

theorem mem_retx_tracking {iss : SeqNo} {n : Time} (hx : x.IsPiece iss s) :
    ∀ y ∈ (c.tracking x n).retxQueue.segments, y ∈ c.retxQueue.segments ∨
      Piece iss s y.seq y.flags y.payload := by
  intro y hy
  rcases RetransmitQueue.added_cases c.retxQueue x.seq x.flags x.payload n with
    ⟨-, hsame⟩ | ⟨-, -, hsegs⟩
  · exact .inl (hsame ▸ hy)
  · rw [TCPConnection.tracking, hsegs] at hy
    rcases List.mem_append.mp hy with hold | hnew
    · exact .inl hold
    · rw [List.mem_singleton] at hnew
      exact .inr (hnew ▸ hx)

theorem aligned_acknowledge {iss : SeqNo} {q : SendQueue} {ack : SeqNo} (hkj : k < j) (hj : j ≤ m)
    (hm : m < 2 ^ 31) (huna : q.una = streamSeq iss k) (hnxt : q.nxt = streamSeq iss m)
    (hbuf : q.buf = s.drop k) (hack : ack = streamSeq iss j) :
    (q.acknowledge ack).1.una = streamSeq iss j ∧ (q.acknowledge ack).1.nxt = streamSeq iss m ∧
      (q.acknowledge ack).1.buf = s.drop j := by
  have hgt : seqGt ack q.una = true := by
    rw [hack, huna, seqGt_streamSeq (by omega) (by omega)]
    exact hkj
  have hclamp : seqLt q.nxt ack = false := by
    rw [← Bool.not_eq_true, hnxt, hack]
    show ¬ seqGt (streamSeq iss j) (streamSeq iss m) = true
    rw [seqGt_streamSeq (by omega) (by omega)]
    omega
  rw [SendQueue.acknowledge_of_gt hgt, hclamp]
  refine ⟨hack, hnxt, ?_⟩
  dsimp only
  rw [huna, hack, gap_streamSeq hkj.le (by omega), hbuf, List.drop_drop, Nat.add_sub_cancel' hkj.le]

end Steps

namespace Outbound

variable {r : Bool} {e : Event} {p q q' : Endpoint} {m : Nat}

theorem simultaneousOpen (h : Outbound m p) (hstate : p.conn.state = .synSent) (seg : TCPSegment)
    (now : Time) : Outbound m (p.put (p.conn.handleSimultaneousOpen seg now)) := by
  have hpiece := TCPSegment.isPiece_synAck (p.conn.adopted seg) seg (p.accepted.take m)
  rw [handleSimultaneousOpen_eq]
  refine h.congr rfl rfl rfl rfl (fun _ => .inl hstate) (fun hst => by cases hst) ?_ ?_
  · exact mem_sent_tracking (c := p.conn.adopted seg) (n := now) hpiece
  · exact mem_retx_tracking (c := p.conn.adopted seg) (n := now) hpiece

theorem retire (h : Outbound m p) (hstate : p.conn.state.isSynchronised = true) {ack : SeqNo} {j : Nat}
    (hj : j ≤ m) (hack : ack = streamSeq p.conn.iss j) (hgt : seqGt ack p.conn.sendQueue.una = true)
    (hlen : p.accepted.length < 2 ^ 31) (t : Time) : Outbound m (p.put (p.conn.acknowledged ack t)) := by
  obtain ⟨k, hk, huna, hnxt, hbuf⟩ := h.aligned hstate
  have hle := h.le
  have hkj : k < j := by
    rwa [huna, hack, seqGt_streamSeq (by omega) (by omega)] at hgt
  exact
    { h with
      aligned := fun _ => ⟨j, hj, aligned_acknowledge hkj hj (by omega) huna hnxt hbuf hack⟩
      retx := fun y hy => h.retx y (List.mem_filter.mp hy).1 }

theorem establish (h : Outbound m p) (hbasic : p.conn.Basic)
    (hopen : p.conn.state = .synSent ∨ p.conn.state = .synReceived) (hm : m = 0) (t : Time) :
    Outbound m (p.put (p.conn.settled (streamSeq p.conn.iss 0) t)) := by
  obtain ⟨hgt, huna, hnxt, hbuf⟩ := hbasic.acknowledge_syn hopen
  rw [streamSeq_zero, settled, if_pos hgt]
  exact
    { h with
      opening := by simp
      aligned := fun _ => ⟨0, Nat.zero_le _, huna, hm ▸ hnxt, by
        rw [put_accepted, h.opening hopen]
        exact hbuf⟩
      retx := fun y hy => h.retx y (List.mem_filter.mp hy).1 }

/-- What is read at `snd_nxt` is the next piece of the stream. -/
theorem peek_at (h : Outbound m p) (hstate : p.conn.state.isSynchronised = true)
    (hlen : p.accepted.length < 2 ^ 31) (n : Nat) :
    At p.accepted m (p.conn.sendQueue.peek p.conn.sendQueue.nxt n) := by
  obtain ⟨k, hk, huna, hnxt, hbuf⟩ := h.aligned hstate
  have hle := h.le
  have hdiff : seqDiff p.conn.sendQueue.nxt p.conn.sendQueue.una = (m : Int) - k := by
    rw [hnxt, huna, seqDiff_streamSeq (by omega) (by omega)]
  rw [SendQueue.peek, hdiff]
  split_ifs
  · exact List.nil_prefix
  · rw [hbuf, List.drop_drop, show k + ((m : Int) - k).toNat = m by omega]
    exact Stream.at_drop_take _ _ _

theorem push (h : Outbound m p) (hstate : p.conn.state.isSynchronised = true) {payload : Bytes}
    (hat : At p.accepted m payload) (hne : payload ≠ []) (now : Time) :
    Outbound (m + payload.length) (p.put (p.conn.transmitData payload now)) := by
  obtain ⟨k, hk, huna, hnxt, hbuf⟩ := h.aligned hstate
  have hgrow : p.accepted.take m <+: p.accepted.take (m + payload.length) :=
    List.take_prefix_take_left (by omega)
  have hpiece : (p.conn.dataSegment payload).IsPiece p.conn.iss
      (p.accepted.take (m + payload.length)) :=
    show Piece _ _ p.conn.sendQueue.nxt (FLAG_ACK ||| FLAG_PSH) payload from
      { noFin := by decide
        syn := fun hsyn => absurd hsyn (by decide)
        data := fun _ => ⟨m, hnxt, hat.of_take le_rfl⟩ }
  rw [transmitData_eq _ now hne]
  exact
    { le := hat.length_le hne
      noFin := h.noFin
      opening := h.opening
      aligned := fun _ => ⟨k, by omega, huna, by
        simp only [put_conn]
        rw [hnxt, seqAdd_streamSeq]
        rfl, hbuf⟩
      sent := fun x hx => (mem_sent_tracking (n := now) hpiece x hx).elim
        (fun hold => (h.sent x hold).of_isPrefix hgrow) id
      retx := fun y hy => (mem_retx_tracking (n := now) hpiece y hy).elim
        (fun hold => (h.retx y hold).of_isPrefix hgrow) id }

theorem resend (h : Outbound m p) {entry : OutstandingSegment}
    (hold : p.conn.retxQueue.oldest = some entry) (now : Time) :
    Outbound m (p.put (p.conn.resend entry now)) := by
  have hpiece := h.retx entry (List.mem_of_mem_head? hold)
  rw [resend_eq]
  refine h.congr rfl rfl rfl rfl id id (fun x hx => ?_) (fun y hy => ?_)
  · rcases List.mem_append.mp hx with hsent | hnew
    · exact .inl hsent
    · rw [List.mem_singleton] at hnew
      exact .inr (hnew ▸ hpiece)
  · rcases RetransmitQueue.mem_markRetransmitted hy with hsent | ⟨x, hx, rfl⟩
    · exact .inl hsent
    · exact .inr (h.retx x hx)

theorem consumeFin (h : Outbound m p) (now : Time) : Outbound m (p.put (p.conn.finTaken now)) := by
  obtain ⟨hsend, hsent, -, hiss, hfin, -, hretx⟩ := finTaken_spec p.conn now
  refine h.congr rfl hiss hfin hsend ?_ ?_ ?_ ?_
  · rcases finTaken_state p.conn now with hst | ⟨-, hst⟩
    · rw [put_conn, hst]
      exact id
    · have hne := TcpState.ne_of_isSynchronised hst
      exact fun hopen => (hopen.elim hne.2.2.1 hne.2.2.2).elim
  · rcases finTaken_state p.conn now with hst | ⟨hst, -⟩
    · rw [put_conn, hst]
      exact id
    · exact fun _ => hst
  · rw [put_conn, hsent]
    exact fun _ => .inl
  · rcases hretx with hsame | ⟨-, hclear⟩
    · rw [put_conn, hsame]
      exact fun _ => .inl
    · rw [put_conn, hclear]
      exact fun _ hy => absurd hy List.not_mem_nil

theorem write (h : Outbound m p) (hstate : p.conn.canSend = true) (data : Bytes) :
    Outbound m { p.put { p.conn with sendQueue := (p.conn.sendQueue.write data).1 } with
      accepted := p.accepted ++ data.take (p.conn.sendQueue.write data).2 } := by
  have hopen : p.conn.state = .established ∨ p.conn.state = .closeWait := by
    simpa [canSend] using hstate
  have hkeep : ∀ t : Bytes, (p.accepted ++ t).take m = p.accepted.take m := fun t =>
    List.take_append_of_le_length h.le
  exact
    { le := h.le.trans (List.prefix_append _ _).length_le
      noFin := h.noFin
      opening := by rcases hopen with hst | hst <;> simp [hst]
      aligned := by
        intro hsync
        obtain ⟨k, hk, huna, hnxt, hbuf⟩ := h.aligned hsync
        refine ⟨k, hk, ?_, ?_, ?_⟩
        · exact (SendQueue.write_una _ data).trans huna
        · exact (SendQueue.write_nxt _ data).trans hnxt
        · rw [List.drop_append_of_le_length (hk.trans h.le), ← hbuf]
          exact SendQueue.write_buf _ data
      sent := by rw [hkeep]; exact h.sent
      retx := by rw [hkeep]; exact h.retx }

/-- Every action keeps the sending half in order, as long as no FIN goes out, the peer acknowledges only
what was sent and fewer than `2 ^ 31` bytes are written. -/
theorem action (hbasic : q.conn.Basic) (h : Outbound m q) (ha : Action r e q q') (hlisten : e ≠ .listen)
    (hconnect : ∀ draw now, e ≠ .connect draw now)
    (hclose : ∀ now, e = .close now → ¬ (q.conn.state = .established ∨ q.conn.state = .closeWait))
    (hack : ∀ seg, e.inbound = some seg → Acks q.conn.iss m seg)
    (hlen : q.accepted.length < 2 ^ 31) : ∃ m', m ≤ m' ∧ Outbound m' q' := by
  cases ha with
  | quiet hq =>
    refine ⟨m, le_rfl, h.congr rfl hq.iss hq.finSeq hq.sendQueue ?_ ?_ ?_ ?_⟩
    · rw [put_conn, hq.state]; exact id
    · rw [put_conn, hq.state]; exact id
    · rw [put_conn, hq.sent]; exact fun _ => .inl
    · rw [put_conn, hq.retxQueue]; exact fun _ => .inl
  | ack => exact ⟨m, le_rfl, h.emit (TCPSegment.isPiece_bare (by decide) (by decide))⟩
  | reject => exact ⟨m, le_rfl, h.emit (TCPSegment.isPiece_rejection ..)⟩
  | delay | adopt | arm | disarm | insert | read =>
    exact ⟨m, le_rfl, h.congr rfl rfl rfl rfl id id (fun _ => .inl) (fun _ => .inl)⟩
  | listen he => exact absurd he hlisten
  | connect he => exact absurd he (hconnect _ _)
  | fin he hstate => exact absurd (hstate.imp (·.1) (·.1)) (hclose _ he)
  | drop _ hstate => exact ⟨m, le_rfl, h.teardown rfl rfl rfl (fun _ => .inl) (hbasic.idle hstate).2⟩
  | simultaneousOpen he hstate => exact ⟨m, le_rfl, h.simultaneousOpen hstate _ _⟩
  | retire t he hack' hrst hstate hgt =>
    obtain ⟨j, hj, hseg⟩ := hack _ (he ▸ rfl) hack' hrst
    exact ⟨m, le_rfl, h.retire hstate hj hseg hgt hlen t⟩
  | establish t he hack' hrst hstate =>
    have hopen : q.conn.state = .synSent ∨ q.conn.state = .synReceived := hstate.imp (·.1) (·.1)
    have hm : m = 0 := by simpa [h.opening hopen] using h.le
    obtain ⟨j, hj, hseg⟩ := hack _ (he ▸ rfl) hack' hrst
    obtain rfl : j = 0 := by omega
    rw [hseg]
    exact ⟨m, le_rfl, h.establish hbasic hopen hm t⟩
  | push payload n now hstate hpeek hne =>
    have hat : At q.accepted m payload := hpeek ▸ h.peek_at hstate hlen n
    exact ⟨_, Nat.le_add_right _ _, h.push hstate hat hne now⟩
  | resend now hold => exact ⟨m, le_rfl, h.resend hold now⟩
  | consumeFin => exact ⟨m, le_rfl, h.consumeFin _⟩
  | advance _ _ _ hfin => rw [h.noFin] at hfin; cases hfin
  | reset | expire => exact ⟨m, le_rfl, h.teardown rfl rfl rfl (fun _ => .inl) rfl⟩
  | abort =>
    refine ⟨m, le_rfl, h.teardown ?_ ?_ ?_ (fun y hy => ?_) ?_⟩
    · rw [abort_eq]; rfl
    · rw [abort_eq]; split_ifs <;> rfl
    · rw [abort_eq]; split_ifs <;> rfl
    · rcases mem_sent_abort _ hy with hold | rfl
      · exact .inl hold
      · exact .inr (TCPSegment.isPiece_bare (by decide) (by decide))
    · rw [abort_eq]; split_ifs <;> rfl
  | write _ hstate => exact ⟨m, le_rfl, h.write hstate _⟩

end Outbound

theorem Outbound.step {e : Event} {p : Endpoint} {m : Nat} (h : Outbound m p) (hbasic : p.conn.Basic)
    (he : e.IsStreaming) (hack : ∀ seg, e.inbound = some seg → Acks p.conn.iss m seg)
    (hlen : (p.step e).accepted.length < 2 ^ 31) : ∃ m', m ≤ m' ∧ Outbound m' (p.step e) := by
  have hkept : ((p.step e).conn.Basic ∧ (p.step e).conn.iss = p.conn.iss) ∧
      ((p.step e).accepted.length < 2 ^ 31 → ∃ m', m ≤ m' ∧ Outbound m' (p.step e)) := by
    refine keeps_step (I := fun q => (q.conn.Basic ∧ q.conn.iss = p.conn.iss) ∧
      (q.accepted.length < 2 ^ 31 → ∃ m', m ≤ m' ∧ Outbound m' q)) ?_
      ⟨⟨hbasic, rfl⟩, fun _ => ⟨m, le_rfl, h⟩⟩
    rintro q q' ⟨⟨hb, hiss⟩, hout⟩ ha
    refine ⟨⟨hb.action ha, (ha.iss he.ne_connect).trans hiss⟩, fun hlen' => ?_⟩
    have hshort := (ha.accepted he.ne_connect).length_le.trans_lt hlen'
    obtain ⟨m₁, hm₁, h₁⟩ := hout hshort
    obtain ⟨m₂, hm₂, h₂⟩ := h₁.action hb ha he.ne_listen he.ne_connect
      (fun now hnow => absurd hnow (he.ne_close now)) (fun seg hseg => hiss ▸ (hack seg hseg).mono hm₁) hshort
    exact ⟨m₂, hm₁.trans hm₂, h₂⟩
  exact hkept.2 hlen

end Endpoint

end MiniTcp
