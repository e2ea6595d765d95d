import MiniTcp.Net.Tcp.Extent
import MiniTcp.Net.Tcp.Inbound

/-!
# What is taken of the other direction

The receiving half against the `Extent` of the other direction. `Taken x irs r p` says that `p` has taken
the first `r` numbers of `x`, has acknowledged no more than these, and is in one of the states of
`peer_closed` exactly when the FIN is among them. Bytes alone never lead past the FIN (`Reaches`), since no
piece of the stream covers its number.
-/

namespace MiniTcp

open TCPConnection

namespace Extent

variable {x y : Extent} {irs : SeqNo} {i k n r r' : Nat}

/-- From number `r` one comes to number `r'` by data alone: the FIN is not passed. -/
structure Reaches (x : Extent) (r r' : Nat) : Prop where
  le : r ≤ r'
  within : r' ≤ x.used
  before : ∀ k, x.fin = some k → r ≤ k → r' ≤ k

theorem Reaches.refl (h : r ≤ x.used) : x.Reaches r r := ⟨le_rfl, h, fun _ _ => id⟩

theorem Reaches.trans {s : Nat} (h : x.Reaches r r') (h' : x.Reaches r' s) : x.Reaches r s where
  le := h.le.trans h'.le
  within := h'.within
  before := fun k hk hr => h'.before k hk (h.before k hk hr)

theorem Lies.reaches (h : x.Lies r n) : x.Reaches r (r + n) where
  le := Nat.le_add_right r n
  within := h.1
  before := by
    intro k hk hr
    have := h.2 k hk
    omega

theorem Reaches.near (h : x.Reaches r r') (hr : r < i + 2 ^ 31) : r' < i + 2 ^ 31 := by
  have hmax := h.within
  rcases x.room with hroom | ⟨hroom, hfin⟩
  · omega
  · by_cases hi : i = 0
    · have := h.before _ hfin (by omega)
      omega
    · omega

end Extent

/-! ### The receive queue -/

namespace ReceiveQueue

variable {x y : Extent} {irs : SeqNo} {i r : Nat} {q q' : ReceiveQueue} {payload : Bytes}

/-- The queue expects number `r`, and what it has parked lies within the extent. -/
structure Placed (x : Extent) (irs : SeqNo) (r : Nat) (q : ReceiveQueue) : Prop where
  nxt : q.nxt = streamSeq irs r
  le : r ≤ x.used
  parked : ∀ e ∈ q.ooo.data, e.2 ≠ [] ∧ ∃ i, e.1 = streamSeq irs i ∧ x.Lies i e.2.length

theorem placed_new (x : Extent) (irs : SeqNo) (capacity : Nat) : Placed x irs 0 (.new irs capacity) where
  nxt := rfl
  le := Nat.zero_le _
  parked := by simp [new]

namespace Placed

theorem mono (h : Placed x irs r q) (hxy : x.Grows y) : Placed y irs r q where
  nxt := h.nxt
  le := h.le.trans hxy.used
  parked := by
    intro e he
    obtain ⟨hne, i, hi, hlies⟩ := h.parked e he
    exact ⟨hne, i, hi, hlies.mono hxy⟩

theorem congr (h : Placed x irs r q) (hnxt : q'.nxt = q.nxt) (hooo : ∀ e ∈ q'.ooo.data,
    e ∈ q.ooo.data ∨ e.2 ≠ [] ∧ ∃ i, e.1 = streamSeq irs i ∧ x.Lies i e.2.length) :
    Placed x irs r q' where
  nxt := hnxt.trans h.nxt
  le := h.le
  parked := fun e he => (hooo e he).elim (h.parked e) id

theorem extend (h : Placed x irs r q) (hlies : x.Lies r payload.length) :
    Placed x irs (r + payload.length) (q.extend payload) where
  nxt := by
    simp only [ReceiveQueue.extend]
    rw [h.nxt, seqAdd_streamSeq]
  le := hlies.1
  parked := h.parked

theorem drain (fuel : Nat) (h : Placed x irs r q) :
    ∃ r', x.Reaches r r' ∧ Placed x irs r' (q.drain fuel).1 := by
  induction fuel generalizing q r with
  | zero => exact ⟨r, .refl h.le, h⟩
  | succ fuel ih =>
    unfold ReceiveQueue.drain
    obtain ⟨hmem, hsub⟩ := q.ooo.take_spec q.nxt
    split
    · exact ⟨r, .refl h.le, h⟩
    · rename_i ooo data htake
      rw [htake] at hmem hsub
      obtain ⟨hne, i, hi, hlies⟩ := h.parked _ (hmem data rfl)
      -- the number under which it was parked is the one the queue expects
      have hir : i = r := by
        have hmax := x.used_le
        have hend := hlies.1
        have hle := h.le
        rw [h.nxt] at hi
        exact ((streamSeq_inj (by omega) (by omega)).mp hi).symm
      subst hir
      have hkept : Placed x irs i { q with ooo := ooo } := h.congr rfl fun e he => .inl (hsub he)
      obtain ⟨r', hreach, hplaced⟩ := ih (hkept.extend hlies)
      exact ⟨r', hlies.reaches.trans hreach, hplaced⟩

theorem accept (h : Placed x irs r q) (hlies : x.Lies r payload.length) :
    ∃ r', x.Reaches r r' ∧ Placed x irs r' (q.accept payload).1 := by
  unfold ReceiveQueue.accept
  split_ifs
  · exact ⟨r, .refl h.le, h⟩
  · have hpart : x.Lies r (payload.take q.window).length :=
      hlies.part le_rfl (Nat.add_le_add_left (by simp) r)
    obtain ⟨r', hreach, hplaced⟩ := (h.extend hpart).drain
      ((q.extend (payload.take q.window)).ooo.data.length + 1)
    exact ⟨r', hpart.reaches.trans hreach, hplaced⟩

/-- Whatever piece comes in from less than half the ring away, the queue moves on by data alone. -/
theorem insert (h : Placed x irs r q) (hlies : x.Lies i payload.length) (hnear : r < i + 2 ^ 31) :
    ∃ r', x.Reaches r r' ∧ Placed x irs r' (q.insert (streamSeq irs i) payload).1 := by
  by_cases hnil : payload = []
  · rw [ReceiveQueue.insert, if_pos hnil]
    exact ⟨r, .refl h.le, h⟩
  have hpos := List.length_pos_iff.mpr hnil
  have hmax := x.used_le
  have hend := hlies.1
  have hle := h.le
  have heq : streamSeq irs i = q.nxt ↔ i = r := by
    rw [h.nxt, streamSeq_inj (by omega) (by omega)]
  have hahead : seqGt (streamSeq irs i) q.nxt = true ↔ r < i := by
    rw [h.nxt, seqGt_streamSeq (by omega) hnear]
  have hoverlap : seqDiff q.nxt (streamSeq irs i) = (r : Int) - i := by
    rw [h.nxt, seqDiff_streamSeq hnear (by omega)]
  rw [ReceiveQueue.insert, if_neg hnil]
  rcases lt_trichotomy i r with hlt | rfl | hgt
  · -- late: what the queue already has is cut off
    rw [if_neg (by rw [heq]; omega), if_neg (by rw [hahead]; omega)]
    dsimp only
    rw [hoverlap]
    have hdup : Placed x irs r { q with duplicates := q.duplicates + 1 } :=
      h.congr rfl fun e he => .inl he
    split_ifs with hcovered
    · exact ⟨r, .refl h.le, hdup⟩
    · have hslice : sliceFrom payload ((r : Int) - i) = payload.drop (r - i) := by
        rw [sliceFrom, if_neg (by omega)]
        congr 1
        omega
      rw [hslice]
      apply hdup.accept
      apply hlies.part hlt.le
      rw [List.length_drop]
      omega
  · rw [if_pos (heq.mpr rfl)]
    exact h.accept hlies
  · rw [if_neg (by rw [heq]; omega), if_pos (hahead.mpr hgt)]
    dsimp only
    refine ⟨r, .refl h.le, ?_⟩
    have hpark : ∀ piece : Bytes, piece.length ≤ payload.length → piece ≠ [] →
        Placed x irs r { q with ooo := (q.ooo.insert (streamSeq irs i) piece).1 } := by
      intro piece hlen hne
      refine h.congr rfl fun e he => ?_
      rcases ReorderQueue.mem_insert he with hold | rfl
      · exact .inl hold
      · exact .inr ⟨hne, i, rfl, hlies.part le_rfl (Nat.add_le_add_left hlen i)⟩
    split_ifs with hroom hcut
    · exact h
    · exact hpark _ (by simp) hcut
    · exact hpark _ le_rfl hnil

theorem read (h : Placed x irs r q) (n : Nat) : Placed x irs r (q.read n).1 := by
  unfold ReceiveQueue.read
  split_ifs
  · exact h
  · dsimp only
    split_ifs
    · exact h.congr rfl fun e he => .inl he
    · exact h.congr rfl fun e he => .inl he

end Placed

end ReceiveQueue

/-! ### The receiving half -/

namespace TCPConnection

theorem finTaken_peerClosed {c : TCPConnection} (hsync : c.state.isSynchronised = true) (now : Time) :
    (c.finTaken now).peerClosed = true ∧ (c.finTaken now).state.isSynchronised = true := by
  unfold finTaken
  dsimp only
  split
  · exact ⟨rfl, rfl⟩
  · split_ifs <;> exact ⟨rfl, rfl⟩
  · exact ⟨rfl, rfl⟩
  · exact ⟨rfl, rfl⟩
  · cases hst : c.state <;> simp_all [peerClosed, TcpState.isSynchronised]

theorem not_acceptable_of_behind {c : TCPConnection} {seg : TCPSegment}
    (hsync : c.state.isSynchronised = true) (hne : seg.payload ≠ [])
    (hbehind : seqGt seg.seqEnd c.recvQueue.nxt = false) : c.acceptable seg = false := by
  unfold acceptable
  simp [hsync, hne, hbehind]

end TCPConnection

/-- The data of the segment at hand starts less than half a ring behind number `r`. -/
def Event.Near (x : Extent) (irs : SeqNo) (e : Event) (r : Nat) : Prop :=
  ∀ seg i, e.inbound = some seg → seg.payload ≠ [] → seg.seq = streamSeq irs i →
    x.Lies i seg.payload.length → r < i + 2 ^ 31

namespace Endpoint

/-- The first `r` numbers of `x` were taken, and no more than these acknowledged. -/
structure Taken (x : Extent) (irs : SeqNo) (r : Nat) (p : Endpoint) : Prop where
  le : r ≤ x.used
  waiting : p.conn.state = .synSent → p.conn.delayedAckAt = none ∧
    (∀ s ∈ p.conn.sent, s.isAck = false) ∧
    ∀ s ∈ p.conn.retxQueue.segments, (s.flags &&& FLAG_ACK != 0) = false
  fresh : p.conn.state = .synSent ∨ p.conn.state = .synReceived → r = 0
  placed : p.conn.Opened → p.conn.recvQueue.Placed x irs r
  consumed : p.conn.state.isSynchronised = true →
    (p.conn.peerClosed = true ↔ ∃ k, x.fin = some k ∧ k < r)
  acks : ∀ s ∈ p.conn.sent, Acks irs r s

variable {x y : Extent} {irs : SeqNo} {r : Nat} {b : Bool} {e : Event} {p q q' : Endpoint}
  {c : TCPConnection} {seg : TCPSegment}

namespace Taken

theorem mono (h : Taken x irs r p) (hxy : x.Grows y) : Taken y irs r p where
  le := h.le.trans hxy.used
  waiting := h.waiting
  fresh := h.fresh
  placed := fun hopen => (h.placed hopen).mono hxy
  consumed := by
    intro hsync
    rw [h.consumed hsync]
    constructor
    · rintro ⟨k, hk, hkr⟩
      exact ⟨k, hxy.fin k hk, hkr⟩
    · rintro ⟨k, hk, hkr⟩
      rcases hxy.fresh k hk with hold | hnew
      · exact ⟨k, hold, hkr⟩
      · exact absurd (hkr.trans_le h.le) (not_lt.mpr hnew)
  acks := h.acks

theorem congr (h : Taken x irs r p) (hstate : q.conn.state = p.conn.state)
    (hrecv : q.conn.recvQueue = p.conn.recvQueue)
    (hwait : p.conn.state = .synSent → (p.conn.delayedAckAt = none → q.conn.delayedAckAt = none) ∧
      (∀ s ∈ q.conn.sent, s ∈ p.conn.sent ∨ s.isAck = false) ∧
      ∀ s ∈ q.conn.retxQueue.segments, ∃ t ∈ p.conn.retxQueue.segments, s.flags = t.flags)
    (hsent : ∀ s ∈ q.conn.sent, s ∈ p.conn.sent ∨ Acks irs r s) : Taken x irs r q where
  le := h.le
  waiting := by
    rw [hstate]
    intro hst
    obtain ⟨hdelay, hplain, hretx⟩ := hwait hst
    obtain ⟨hnone, hsyns, hflags⟩ := h.waiting hst
    refine ⟨hdelay hnone, fun s hs => (hplain s hs).elim (hsyns s) id, fun s hs => ?_⟩
    obtain ⟨t, ht, heq⟩ := hretx s hs
    rw [heq]
    exact hflags t ht
  fresh := by
    rw [hstate]
    exact h.fresh
  placed := by
    rw [Opened, hstate, hrecv]
    exact h.placed
  consumed := by
    rw [peerClosed, hstate]
    exact h.consumed
  acks := fun s hs => (hsent s hs).elim (h.acks s) id

theorem emit (h : Taken x irs r p) (hseg : Acks irs r seg)
    (hsyn : p.conn.state = .synSent → seg.isAck = false) : Taken x irs r (p.put (p.conn.emit seg)) := by
  have hnew : ∀ s ∈ (p.conn.emit seg).sent, s ∈ p.conn.sent ∨ s = seg := fun s hs =>
    (List.mem_append.mp hs).imp_right List.mem_singleton.mp
  refine h.congr rfl rfl (fun hst => ⟨id, fun s hs => ?_, fun s hs => ⟨s, hs, rfl⟩⟩) (fun s hs => ?_)
  · rcases hnew s hs with hold | rfl
    · exact .inl hold
    · exact .inr (hsyn hst)
  · rcases hnew s hs with hold | rfl
    · exact .inl hold
    · exact .inr hseg

theorem move (h : Taken x irs r p) (hsync : p.conn.state.isSynchronised = true)
    (hsync' : c.state.isSynchronised = true) (hrecv : c.recvQueue = p.conn.recvQueue)
    (hpeer : c.peerClosed = p.conn.peerClosed)
    (hsent : ∀ s ∈ c.sent, s ∈ p.conn.sent ∨ Acks irs r s) : Taken x irs r (p.put c) where
  le := h.le
  waiting := fun hst => absurd hst (TcpState.ne_of_isSynchronised hsync').2.2.1
  fresh := fun hst => (hst.elim (TcpState.ne_of_isSynchronised hsync').2.2.1
    (TcpState.ne_of_isSynchronised hsync').2.2.2).elim
  placed := by
    intro
    rw [put_conn, hrecv]
    exact h.placed (.inr hsync)
  consumed := by
    intro
    rw [put_conn, hpeer]
    exact h.consumed hsync
  acks := fun s hs => (hsent s hs).elim (h.acks s) id

theorem closed (h : Taken x irs r p) (hstate : c.state = .closed)
    (hsent : ∀ s ∈ c.sent, s ∈ p.conn.sent ∨ Acks irs r s) : Taken x irs r (p.put c) where
  le := h.le
  waiting := by simp [hstate]
  fresh := by simp [hstate]
  placed := fun hopen => absurd hopen (not_opened.mpr (.inl hstate))
  consumed := by simp [hstate, TcpState.isSynchronised]
  acks := fun s hs => (hsent s hs).elim (h.acks s) id

theorem opened (h : Taken x irs r p)
    (hst : p.conn.state = .synSent ∨ p.conn.state = .synReceived)
    (hst' : c.state = .synReceived ∨ c.state = .established)
    (hrecv : c.recvQueue.Placed x irs 0)
    (hsent : ∀ s ∈ c.sent, s ∈ p.conn.sent ∨ Acks irs r s) : Taken x irs r (p.put c) where
  le := h.le
  waiting := by rcases hst' with hst' | hst' <;> simp [hst']
  fresh := fun _ => h.fresh hst
  placed := by
    intro
    rw [put_conn, h.fresh hst]
    exact hrecv
  consumed := by
    intro hsync
    rw [h.fresh hst]
    rcases hst' with hst' | hst'
    · rw [put_conn, hst'] at hsync
      cases hsync
    · simp [peerClosed, hst']
  acks := fun s hs => (hsent s hs).elim (h.acks s) id

theorem acks_nxt (h : Taken x irs r p) (hopen : p.conn.Opened)
    (hseg : seg.ack = p.conn.recvQueue.nxt) : Acks irs r seg :=
  fun _ _ => ⟨r, le_rfl, hseg.trans (h.placed hopen).nxt⟩

theorem finTaken (h : Taken x irs r p) (hsync : p.conn.state.isSynchronised = true)
    (hfin : x.fin = some r) (now : Time) : Taken x irs (r + 1) (p.put (p.conn.finTaken now)) := by
  obtain ⟨-, hsent, -, -, -, hrecv, -⟩ := finTaken_spec p.conn now
  obtain ⟨hpeer, hsync'⟩ := finTaken_peerClosed hsync now
  have hne := TcpState.ne_of_isSynchronised hsync'
  have hplaced := h.placed (.inr hsync)
  exact
    { le := x.fin_lt r hfin
      waiting := fun hst => absurd hst hne.2.2.1
      fresh := fun hst => (hst.elim hne.2.2.1 hne.2.2.2).elim
      placed := by
        intro
        rw [put_conn, hrecv]
        exact
          { nxt := by
              dsimp only
              rw [hplaced.nxt, seqAdd_streamSeq]
            le := x.fin_lt r hfin
            parked := hplaced.parked }
      consumed := fun _ => iff_of_true hpeer ⟨r, hfin, Nat.lt_succ_self r⟩
      acks := by
        rw [put_conn, hsent]
        exact fun s hs => (h.acks s hs).mono (Nat.le_succ r) }

theorem simultaneousOpen (h : Taken x irs r p) (hstate : p.conn.state = .synSent) (hirs : seg.seq = irs)
    (now : Time) : Taken x irs r (p.put (p.conn.handleSimultaneousOpen seg now)) := by
  rw [handleSimultaneousOpen_eq]
  refine h.opened (.inl hstate) (.inl rfl) ?_ (fun s hs => ?_)
  · rw [← hirs]
    exact ReceiveQueue.placed_new x seg.seq p.conn.cfg.receiveCapacity
  · rcases List.mem_append.mp hs with hold | hnew
    · exact .inl hold
    · rw [List.mem_singleton] at hnew
      refine .inr fun _ _ => ⟨0, Nat.zero_le _, ?_⟩
      rw [hnew, ← hirs]
      rfl

theorem establish (h : Taken x irs r p)
    (hstate : p.conn.state = .synSent ∧ p.conn.recvQueue = .new irs p.conn.cfg.receiveCapacity ∨
      p.conn.state = .synReceived) (ack : SeqNo) (t : Time) :
    Taken x irs r (p.put (p.conn.settled ack t)) := by
  have hsettled : (p.conn.settled ack t).recvQueue = p.conn.recvQueue ∧
      (p.conn.settled ack t).sent = p.conn.sent := by
    unfold settled
    split_ifs
    · exact ⟨rfl, rfl⟩
    · exact ⟨rfl, rfl⟩
  refine h.opened (hstate.imp_left (·.1)) (.inr rfl) ?_ ?_
  · rw [hsettled.1]
    rcases hstate with ⟨-, hnew⟩ | hst
    · rw [hnew]
      exact ReceiveQueue.placed_new x irs p.conn.cfg.receiveCapacity
    · rw [← h.fresh (.inr hst)]
      exact h.placed (.inl hst)
  · rw [hsettled.2]
    exact fun _ => .inl

theorem push (h : Taken x irs r p) (hstate : p.conn.state.isSynchronised = true) {payload : Bytes}
    (hne : payload ≠ []) (now : Time) : Taken x irs r (p.put (p.conn.transmitData payload now)) := by
  rw [transmitData_eq _ now hne]
  refine h.congr rfl rfl (fun hst => ?_) (fun s hs => ?_)
  · exact absurd hst (TcpState.ne_of_isSynchronised hstate).2.2.1
  · rcases List.mem_append.mp hs with hold | hnew
    · exact .inl hold
    · rw [List.mem_singleton] at hnew
      exact .inr (hnew ▸ h.acks_nxt (.inr hstate) rfl)

theorem resend (h : Taken x irs r p) (hbasic : p.conn.Basic) {entry : OutstandingSegment}
    (hold : p.conn.retxQueue.oldest = some entry) (now : Time) :
    Taken x irs r (p.put (p.conn.resend entry now)) := by
  have hmem : entry ∈ p.conn.retxQueue.segments := List.mem_of_mem_head? hold
  have hnew : ∀ s ∈ p.conn.sent ++ [p.conn.resentSegment entry], s ∈ p.conn.sent ∨
      s = p.conn.resentSegment entry := fun s hs =>
    (List.mem_append.mp hs).imp_right List.mem_singleton.mp
  rw [resend_eq]
  refine h.congr rfl rfl (fun hst => ⟨id, fun s hs => ?_, fun s hs => ?_⟩) (fun s hs => ?_)
  · rcases hnew s hs with hsent | rfl
    · exact .inl hsent
    · exact .inr ((h.waiting hst).2.2 entry hmem)
  · rcases RetransmitQueue.mem_markRetransmitted hs with hsame | ⟨t, ht, rfl⟩
    · exact ⟨s, hsame, rfl⟩
    · exact ⟨t, ht, rfl⟩
  · rcases hnew s hs with hsent | rfl
    · exact .inl hsent
    · exact .inr (acks_resent hbasic hmem (fun hopen => h.acks_nxt hopen rfl)
        fun hst => (h.waiting hst).2.2 entry hmem)

theorem fin (h : Taken x irs r p) {st : TcpState}
    (hstate : p.conn.state = .established ∧ st = .finWait1 ∨ p.conn.state = .closeWait ∧ st = .lastAck)
    (now : Time) : Taken x irs r (p.put { p.conn.sendFin now with state := st }) := by
  have hsync : p.conn.state.isSynchronised = true := by
    rcases hstate with ⟨hst, -⟩ | ⟨hst, -⟩ <;> rw [hst] <;> rfl
  rw [sendFin_eq]
  refine h.move hsync ?_ rfl ?_ (fun s hs => ?_)
  · rcases hstate with ⟨-, rfl⟩ | ⟨-, rfl⟩ <;> rfl
  · rcases hstate with ⟨hst, rfl⟩ | ⟨hst, rfl⟩ <;> simp [peerClosed, hst]
  · rcases List.mem_append.mp hs with hold | hnew
    · exact .inl hold
    · rw [List.mem_singleton] at hnew
      exact .inr (hnew ▸ h.acks_nxt (.inr hsync) rfl)

/-- Data from near enough moves the queue on, but not past the FIN. -/
theorem insert (h : Taken x irs r p) (hsync : p.conn.state.isSynchronised = true) {payload : Bytes}
    {i : Nat} (hlies : x.Lies i payload.length) (hnear : r < i + 2 ^ 31) :
    ∃ r', x.Reaches r r' ∧ Taken x irs r' (p.put { p.conn with
      recvQueue := (p.conn.recvQueue.insert (streamSeq irs i) payload).1 }) := by
  obtain ⟨r', hreach, hplaced⟩ := (h.placed (.inr hsync)).insert hlies hnear
  have hst := TcpState.ne_of_isSynchronised hsync
  refine ⟨r', hreach, ?_⟩
  exact
    { le := hreach.within
      waiting := fun h' => absurd h' hst.2.2.1
      fresh := fun h' => (h'.elim hst.2.2.1 hst.2.2.2).elim
      placed := fun _ => hplaced
      consumed := by
        intro
        refine (h.consumed hsync).trans ⟨?_, ?_⟩
        · rintro ⟨k, hk, hkr⟩
          exact ⟨k, hk, hkr.trans_le hreach.le⟩
        · rintro ⟨k, hk, hkr⟩
          by_contra hno
          have := hreach.before k hk (not_lt.mp fun hlt => hno ⟨k, hk, hlt⟩)
          omega
      acks := fun s hs => (h.acks s hs).mono hreach.le }

/-- A FIN that is neither ahead of what was taken nor behind it has the next number. -/
theorem eq_of_fin (h : Taken x irs r p) (hsync : p.conn.state.isSynchronised = true) {k : Nat}
    (hk : x.fin = some k) (hgt : seqGt (streamSeq irs k) p.conn.recvQueue.nxt = false)
    (hlt : seqLt (streamSeq irs k) p.conn.recvQueue.nxt = false) : k = r := by
  have hnear := x.near_fin hk h.le
  rw [(h.placed (.inr hsync)).nxt] at hgt hlt
  have hle : ¬ r < k := by
    rw [← seqGt_streamSeq hnear.1 hnear.2, hgt]
    decide
  have hge : ¬ k < r := by
    rw [← seqGt_streamSeq hnear.2 hnear.1]
    show ¬ seqLt (streamSeq irs k) (streamSeq irs r) = true
    rw [hlt]
    decide
  omega

theorem advance (h : Taken x irs r p) (now : Time) : Taken x irs r (p.put (p.conn.finAcknowledged now)) := by
  unfold finAcknowledged
  split
  · rename_i hst
    exact h.move (by rw [hst]; rfl) rfl rfl (by simp [peerClosed, hst]) (fun _ => .inl)
  · rename_i hst
    exact h.move (by rw [hst]; rfl) rfl rfl (by simp [peerClosed, enterTimeWait, hst]) (fun _ => .inl)
  · exact h.closed rfl (fun _ => .inl)

/-- Every action keeps the receiving half in order, as long as what comes in lies within the extent and
near enough to what was taken. -/
theorem action (hbasic : q.conn.Basic) (h : Taken x irs r q) (ha : Action b e q q')
    (hlisten : e ≠ .listen) (hconnect : ∀ draw now, e ≠ .connect draw now)
    (hseg : ∀ seg, e.inbound = some seg → x.Sends irs seg) (hnear : e.Near x irs r) :
    ∃ r', r ≤ r' ∧ Taken x irs r' q' ∧ e.Near x irs r' := by
  cases ha with
  | quiet hq =>
    refine ⟨r, le_rfl, h.congr hq.state hq.recvQueue (fun hst => ?_) ?_, hnear⟩
    · rw [put_conn, hq.retxQueue, hq.sent]
      exact ⟨hq.delayed, fun _ => .inl, fun s hs => ⟨s, hs, rfl⟩⟩
    · rw [put_conn, hq.sent]
      exact fun _ => .inl
  | ack hstate =>
    have hopen := opened_of_answers hstate fun hst => (h.waiting hst).1
    refine ⟨r, le_rfl, h.emit (h.acks_nxt hopen rfl) fun hst => ?_, hnear⟩
    exact absurd hopen (not_opened.mpr (.inr (.inr hst)))
  | delay t hstate =>
    refine ⟨r, le_rfl, h.congr rfl rfl (fun hst => ?_) (fun _ => .inl), hnear⟩
    rcases hstate with hsync | ⟨hclosed, -⟩
    · exact absurd hst (TcpState.ne_of_isSynchronised hsync).2.2.1
    · rw [hst] at hclosed
      cases hclosed
  | reject _ _ _ hstate =>
    exact ⟨r, le_rfl, h.emit (acks_rejection _ _) (isAck_rejection hstate), hnear⟩
  | listen he => exact absurd he hlisten
  | connect he => exact absurd he (hconnect _ _)
  | simultaneousOpen he hstate hsyn =>
    exact ⟨r, le_rfl, h.simultaneousOpen hstate ((hseg _ (he ▸ rfl)).syn hsyn) _, hnear⟩
  | adopt he hstate =>
    refine ⟨r, le_rfl, ?_, hnear⟩
    exact
      { h with placed := fun hopen => absurd hopen (not_opened.mpr (.inr (.inr hstate))) }
  | retire t he hack hrst hstate =>
    refine ⟨r, le_rfl, h.congr rfl rfl (fun hst => ?_) (fun _ => .inl), hnear⟩
    exact absurd hst (TcpState.ne_of_isSynchronised hstate).2.2.1
  | @establish seg _ _ _ t he hack hrst hstate =>
    refine ⟨r, le_rfl, h.establish ?_ seg.ack t, hnear⟩
    rcases hstate with ⟨hst, hsyn, hnew⟩ | ⟨hst, -⟩
    · exact .inl ⟨hst, (hseg seg (he ▸ rfl)).syn hsyn ▸ hnew⟩
    · exact .inr hst
  | push payload n now hstate hpeek hne => exact ⟨r, le_rfl, h.push hstate hne now, hnear⟩
  | resend now hold => exact ⟨r, le_rfl, h.resend hbasic hold now, hnear⟩
  | arm | disarm | write =>
    exact ⟨r, le_rfl, h.congr rfl rfl (fun _ => ⟨id, fun _ => .inl, fun s hs => ⟨s, hs, rfl⟩⟩)
      (fun _ => .inl), hnear⟩
  | fin he hstate => exact ⟨r, le_rfl, h.fin hstate _, hnear⟩
  | @insert seg _ _ _ he hrst hstate hne =>
    have hin : e.inbound = some seg := he ▸ rfl
    rcases hstate with hsync | ⟨hclosed, -⟩
    · obtain ⟨-, i, hi, hlies⟩ := (hseg seg hin).data hne
      obtain ⟨r', hreach, htaken⟩ := h.insert hsync hlies (hnear seg i hin hne hi hlies)
      exact ⟨r', hreach.le, hi ▸ htaken, fun s j hs hne' hj hl => hreach.near (hnear s j hs hne' hj hl)⟩
    · exact ⟨r, le_rfl, h.closed hclosed (fun _ => .inl), hnear⟩
  | @consumeFin seg _ _ now he hrst hfin hstate hgt hlt =>
    have hin : e.inbound = some seg := he ▸ rfl
    obtain ⟨k, hk, hseq⟩ := (hseg seg hin).fin hfin
    have hnil := (hseg seg hin).payload_of_isFin hfin
    have hnodata : e.Near x irs (r + 1) := by
      intro s i hs hne
      obtain rfl := Option.some.inj (hin.symm.trans hs)
      exact absurd hnil hne
    rcases hstate with hsync | ⟨hclosed, hown⟩
    · rw [hnil, hseq, List.length_nil, seqAdd_streamSeq, Nat.add_zero] at hgt hlt
      obtain rfl := h.eq_of_fin hsync hk hgt hlt
      exact ⟨k + 1, Nat.le_succ k, h.finTaken hsync hk now, hnodata⟩
    · refine ⟨r, le_rfl, h.closed ?_ ?_, hnear⟩
      · unfold TCPConnection.finTaken
        simp [hclosed]
      · rw [(finTaken_spec q.conn now).2.1]
        exact fun _ => .inl
  | advance => exact ⟨r, le_rfl, h.advance _, hnear⟩
  | reset | expire | drop => exact ⟨r, le_rfl, h.closed rfl (fun _ => .inl), hnear⟩
  | abort =>
    refine ⟨r, le_rfl, h.closed ?_ (fun s hs => ?_), hnear⟩
    · rw [abort_eq]; rfl
    · rcases mem_sent_abort _ hs with hold | rfl
      · exact .inl hold
      · exact .inr (.of_flags (.inr (show ((FLAG_RST ||| FLAG_ACK) &&& FLAG_RST != 0) = true by decide)))
  | @read n =>
    refine ⟨r, le_rfl, ?_, hnear⟩
    exact { h with placed := fun hopen => (h.placed hopen).read n }

end Taken

theorem Taken.sendAck (h : Taken x irs r p) (hsync : p.conn.state.isSynchronised = true) (now : Time) :
    Taken x irs r (p.put (p.conn.sendAck now)) := by
  have hframe := sendFrame_sendAck p.conn now
  have hne := TcpState.ne_of_isSynchronised hsync
  refine h.congr hframe.state hframe.recvQueue (fun hst => absurd hst hne.2.2.1) ?_
  unfold TCPConnection.sendAck
  dsimp only
  rw [if_neg (not_or.mpr ⟨hne.1, hne.2.1⟩), transmit_untracked _ _ _ _ _ (by decide)]
  intro s hs
  rcases List.mem_append.mp hs with hold | hnew
  · exact .inl hold
  · rw [List.mem_singleton] at hnew
    exact .inr (hnew ▸ h.acks_nxt (.inr hsync) rfl)

theorem Taken.reject (h : Taken x irs r p) (hclosed : p.conn.state = .closed) (seg : TCPSegment)
    (now : Time) : Taken x irs r (p.put (p.conn.reject seg now)) := by
  refine h.closed ((sendFrame_reject p.conn seg now).state.trans hclosed) ?_
  unfold TCPConnection.reject
  split_ifs
  · exact fun _ => .inl
  · rw [transmit_untracked _ _ _ _ _ (by decide)]
    intro s hs
    refine (List.mem_append.mp hs).imp_right fun hnew => ?_
    rw [List.mem_singleton.mp hnew]
    exact .of_flags (.inr (show (FLAG_RST &&& FLAG_RST != 0) = true by decide))
  · rw [transmit_untracked _ _ _ _ _ (by decide)]
    intro s hs
    refine (List.mem_append.mp hs).imp_right fun hnew => ?_
    rw [List.mem_singleton.mp hnew]
    exact .of_flags (.inr (show ((FLAG_RST ||| FLAG_ACK) &&& FLAG_RST != 0) = true by decide))

theorem Taken.step (h : Taken x irs r p) (hbasic : p.conn.Basic) (hlisten : e ≠ .listen)
    (hconnect : ∀ draw now, e ≠ .connect draw now)
    (hseg : ∀ seg, e.inbound = some seg → x.Sends irs seg) :
    ∃ r', r ≤ r' ∧ Taken x irs r' (p.step e) := by
  by_cases hnear : e.Near x irs r
  · have hkept : (p.step e).conn.Basic ∧
        ∃ r', r ≤ r' ∧ Taken x irs r' (p.step e) ∧ e.Near x irs r' := by
      refine keeps_step (I := fun q => q.conn.Basic ∧ ∃ r', r ≤ r' ∧ Taken x irs r' q ∧ e.Near x irs r')
        ?_ ⟨hbasic, r, le_rfl, h, hnear⟩
      rintro q q' ⟨hb, r₁, hr₁, h₁, hnear₁⟩ ha
      obtain ⟨r₂, hr₂, h₂, hnear₂⟩ := h₁.action hb ha hlisten hconnect hseg hnear₁
      exact ⟨hb.action ha, r₂, hr₁.trans hr₂, h₂, hnear₂⟩
    obtain ⟨-, r', hr, htaken, -⟩ := hkept
    exact ⟨r', hr, htaken⟩
  · -- data from the very start, when everything up to the FIN has been taken
    simp only [Event.Near, not_forall, not_lt] at hnear
    obtain ⟨seg, i, hin, hne, hseq, hlies, hfar⟩ := hnear
    obtain ⟨hsyn, hfin, hrst⟩ := (hseg seg hin).flags_of_data hne
    have hmax := x.used_le
    have hle := h.le
    have hend := hlies.1
    refine ⟨r, le_rfl, ?_⟩
    cases e with
    | segment seg' srcIp draw now =>
      obtain rfl := Option.some.inj hin
      have hstamp : Taken x irs r (p.put (p.conn.stamp now)) :=
        h.congr rfl rfl (fun _ => ⟨id, fun _ => .inl, fun s hs => ⟨s, hs, rfl⟩⟩) (fun _ => .inl)
      simp only [Endpoint.step, TCPConnection.onSegment, dispatch, hrst, hsyn, Bool.false_eq_true, if_false]
      split_ifs with hclosed hlisten' hsent hrcvd
      · exact hstamp.reject hclosed seg' now
      · exact hstamp
      · exact hstamp
      · have := hstamp.fresh (.inr hrcvd)
        omega
      · exact hstamp
      · have hsync := TcpState.isSynchronised_of_ne hclosed hlisten' hsent hrcvd
        have hbehind : seqGt seg'.seqEnd p.conn.recvQueue.nxt = false := by
          have hlen : seg'.seqLen = seg'.payload.length := by
            rw [TCPSegment.seqLen, hsyn, hfin]
            rfl
          rw [TCPSegment.seqEnd, hlen, hseq, seqAdd_streamSeq, (h.placed (.inr hsync)).nxt,
            ← Bool.not_eq_true, seqGt_streamSeq_iff (by omega) (by omega)]
          omega
        have hno : (p.conn.stamp now).acceptable seg' = false :=
          not_acceptable_of_behind hsync hne hbehind
        rw [onSynchronised, hno, hrst]
        exact hstamp.sendAck hsync now
    | _ => cases hin

end Endpoint

end MiniTcp
