import MiniTcp.Net.Tcp.Unread
import MiniTcp.Net.Tcp.Reassembly

/-!
# The peer's stream up to its FIN

A peer that sends the bytes `s` after its SYN `irs` and then a FIN numbers the FIN like the byte after the last.
`Receives irs s p` says where the receiving side `p` stands: it waits for the SYN, or has taken in the first bytes
of `s` and no FIN, or all of them and the FIN, or it is closed and the application has everything. The four places
are in this order, and whatever such a peer sends moves along it (`Receives.step`), as long as no call ends the
connection before everything is read.
-/

namespace MiniTcp

open Stream (At)
open TCPConnection

/-- The numbers from the SYN on that a stream can use before they come round again. -/
def RING : Nat := 2 ^ 32

/-- What a peer sends that has the stream `s` to send and closes after it: a piece of the stream in its place, with
the FIN if it is the last. It lies within the first ring of numbers and less than half a ring away from byte `got`. -/
structure TCPSegment.Honest (irs : SeqNo) (s : Bytes) (got : Nat) (seg : TCPSegment) : Prop where
  noRst : seg.isRst = false
  syn : seg.isSyn = true → seg.seq = irs
  piece : seg.isSyn = false → seg.payload ≠ [] ∨ seg.isFin = true →
    ∃ i, seg.seq = streamSeq irs i ∧ At s i seg.payload ∧
      (seg.isFin = true → i + seg.payload.length = s.length) ∧
      i + seg.payload.length + 1 < RING ∧ i + seg.payload.length < got + 2 ^ 31 ∧ got + 1 < i + 2 ^ 31

namespace ReceiveQueue

variable {irs : SeqNo} {q : ReceiveQueue} {payload : Bytes} {i n : Nat}

theorem readable_eq_nil_iff : q.readable = [] ↔ q.available = 0 := by
  rw [← List.length_eq_zero_iff, readable, List.length_drop, available]

theorem insert_behind (hnxt : q.nxt = streamSeq irs n) (hend : i + payload.length < n) (hnear : n < i + 2 ^ 31) :
    ∃ d, (q.insert (streamSeq irs i) payload).1 = { q with duplicates := d } := by
  unfold insert
  by_cases hnil : payload = []
  · rw [if_pos hnil]
    exact ⟨q.duplicates, rfl⟩
  · have hne : streamSeq irs i ≠ q.nxt := by
      rw [hnxt, ne_eq, streamSeq_inj (by omega) (by omega)]
      omega
    have hgt : seqGt (streamSeq irs i) q.nxt = false := by
      rw [hnxt, ← Bool.not_eq_true, seqGt_streamSeq (by omega) hnear]
      omega
    have hdiff : seqDiff q.nxt (streamSeq irs i) = (n : Int) - i := by
      rw [hnxt, seqDiff_streamSeq hnear (by omega)]
    rw [if_neg hnil, if_neg hne, hgt]
    dsimp only
    rw [if_neg Bool.false_ne_true, hdiff, if_pos (by omega)]
    exact ⟨q.duplicates + 1, rfl⟩

end ReceiveQueue

namespace TCPConnection

variable {c d : TCPConnection} {seg : TCPSegment} {now : Time} {irs : SeqNo} {n m : Nat}

theorem finDue_iff (hfin : seg.isFin = true) (hseq : seqAdd seg.seq seg.payload.length = streamSeq irs n)
    (hnxt : c.recvQueue.nxt = streamSeq irs m) (hnm : n < m + 2 ^ 31) (hmn : m < n + 2 ^ 31) :
    c.finDue seg = true ↔ n = m := by
  have hlt : seqLt (streamSeq irs n) (streamSeq irs m) = true ↔ n < m := seqGt_streamSeq hmn hnm
  rw [finDue, hseq, hnxt, hfin, Bool.true_and, Bool.and_eq_true, Bool.not_eq_true', Bool.not_eq_true',
    ← Bool.not_eq_true, ← Bool.not_eq_true, seqGt_streamSeq hnm hmn, hlt]
  omega

theorem consumeFin_peerClosed (hsync : c.state.isSynchronised = true) :
    (c.consumeFin now).peerClosed = true := by
  have hframe := sendFrame_sendAck
    { c with recvQueue := { c.recvQueue with nxt := seqAdd c.recvQueue.nxt 1 } } now
  have hstate := hframe.state
  unfold consumeFin
  dsimp only at hstate ⊢
  generalize ({ c with recvQueue := { c.recvQueue with nxt := seqAdd c.recvQueue.nxt 1 } } :
    TCPConnection).sendAck now = d at hstate ⊢
  rw [← hstate] at hsync
  clear hframe hstate
  split_ifs with h1 h2 h3 h4 h5
  · rfl
  · rfl
  · rfl
  · rfl
  · rfl
  · cases hst : d.state <;> simp_all [peerClosed, TcpState.isSynchronised]

theorem peerClosed_stateAfterAck (hopen : c.stateAfterAck seg ≠ .closed) (hstate : d.state = c.stateAfterAck seg) :
    d.peerClosed = c.peerClosed ∧ (c.state.isSynchronised = true → d.state.isSynchronised = true) := by
  unfold peerClosed
  rw [hstate]
  unfold stateAfterAck at hopen ⊢
  split_ifs at hopen ⊢
  · cases hst : c.state <;> simp_all [TcpState.isSynchronised]
  · exact ⟨rfl, id⟩

end TCPConnection

namespace Endpoint

/-- Where the receiving side of a connection stands in the peer's stream `s`, which ends with a FIN. -/
inductive Receives (irs : SeqNo) (s : Bytes) (p : Endpoint) : Prop
  | waiting (hstate : p.conn.state = .synSent) (hreturned : p.returned = [])
      (hreadable : p.conn.recvQueue.readable = [])
  | open (r : Nat) (hopen : p.conn.Opened) (hpeer : p.conn.peerClosed = false)
      (hholds : p.conn.recvQueue.Holds irs (s.take (RING - 2)) p.returned r)
  | finished (hpeer : p.conn.peerClosed = true) (hfits : s.length + 1 < RING)
      (hnxt : p.conn.recvQueue.nxt = streamSeq irs (s.length + 1))
      (hstream : p.returned ++ p.conn.recvQueue.readable = s)
  | closed (hstate : p.conn.state = .closed) (hreturned : p.returned = s)
      (hreadable : p.conn.recvQueue.readable = [])

variable {irs : SeqNo} {s : Bytes} {p q : Endpoint} {e : Event} {c : TCPConnection}

/-- The number of bytes that came in, with those that were returned. -/
def got (p : Endpoint) : Nat := p.returned.length + p.conn.recvQueue.available

/-- The call ends the connection only when the peer has closed and everything is read. -/
def EndsRead (p : Endpoint) (e : Event) : Prop :=
  p.conn.state ≠ .closed → p.conn.Ends e → p.conn.peerClosed = true ∧ p.conn.recvQueue.available = 0

namespace Receives

theorem congr (h : Receives irs s p) (hstate : c.state = p.conn.state) (hrecv : c.recvQueue = p.conn.recvQueue) :
    Receives irs s (p.put c) := by
  have hpeer : (p.put c).conn.peerClosed = p.conn.peerClosed := by
    rw [put_conn, peerClosed, peerClosed, hstate]
  cases h with
  | waiting hst hret hread => exact .waiting (hstate.trans hst) hret (by rw [put_conn, hrecv, hread])
  | «open» r hopen hno hholds =>
    refine .open r ?_ (hpeer.trans hno) (by rw [put_conn, hrecv]; exact hholds)
    rw [put_conn, Opened, hstate]
    exact hopen
  | finished hyes hfits hnxt hstream =>
    exact .finished (hpeer.trans hyes) hfits (by rw [put_conn, hrecv, hnxt]) (by rw [put_conn, hrecv]; exact hstream)
  | closed hst hret hread => exact .closed (hstate.trans hst) hret (by rw [put_conn, hrecv, hread])

theorem ne_listen (h : Receives irs s p) : p.conn.state ≠ .listen := by
  intro hst
  cases h with
  | waiting hwait => simp [hst] at hwait
  | «open» r hopen => exact not_opened.mpr (.inr (.inl hst)) hopen
  | finished hyes => simp [peerClosed, hst] at hyes
  | closed hclosed => simp [hst] at hclosed

/-! ### Calls of the application and the clock -/

theorem recv (h : Receives irs s p) (hwithin : p.conn.recvQueue.Within) (n : Nat) (now : Time) :
    Receives irs s (p.step (.recv n now)) := by
  have hstate := (recv_window p.conn n now).1
  obtain ⟨hdata, hrest⟩ := recv_eq hwithin n now
  have hqueue : (p.conn.recv n now).1.recvQueue = p.conn.recvQueue ∧ (p.conn.recv n now).2 = [] ∨
      (p.conn.recv n now).1.recvQueue = (p.conn.recvQueue.read n).1 ∧
        (p.conn.recv n now).2 = (p.conn.recvQueue.read n).2 := by
    unfold TCPConnection.recv
    split_ifs
    · exact .inl ⟨rfl, rfl⟩
    · dsimp only
      split_ifs
      · exact .inr ⟨(sendFrame_sendAck _ now).recvQueue, rfl⟩
      · exact .inr ⟨rfl, rfl⟩
  have hnxt : (p.conn.recv n now).1.recvQueue.nxt = p.conn.recvQueue.nxt := by
    rcases hqueue with ⟨heq, -⟩ | ⟨heq, -⟩
    · rw [heq]
    · rw [heq]
      unfold ReceiveQueue.read
      split_ifs
      · rfl
      · dsimp only
        split_ifs <;> rfl
  have hpeer : (p.conn.recv n now).1.peerClosed = p.conn.peerClosed := by rw [peerClosed, peerClosed, hstate]
  cases h with
  | waiting hst hret hread =>
    rw [hread, List.take_nil] at hdata
    rw [hread, List.drop_nil] at hrest
    exact .waiting (hstate.trans hst) (by simp [step, hret, hdata]) hrest
  | «open» r hopen hno hholds =>
    refine .open r ?_ (hpeer.trans hno) ?_
    · change (p.conn.recv n now).1.Opened
      rw [Opened, hstate]
      exact hopen
    · change (p.conn.recv n now).1.recvQueue.Holds irs _ (p.returned ++ (p.conn.recv n now).2) r
      rcases hqueue with ⟨heq, hnone⟩ | ⟨heq, hsome⟩
      · rw [heq, hnone, List.append_nil]
        exact hholds
      · rw [heq, hsome]
        exact hholds.read n
  | finished hyes hfits hold hstream =>
    refine .finished (hpeer.trans hyes) hfits (hnxt.trans hold) ?_
    change p.returned ++ (p.conn.recv n now).2 ++ (p.conn.recv n now).1.recvQueue.readable = s
    rw [hdata, hrest, List.append_assoc, List.take_append_drop, hstream]
  | closed hst hret hread =>
    rw [hread, List.take_nil] at hdata
    rw [hread, List.drop_nil] at hrest
    exact .closed (hstate.trans hst) (by simp [step, hret, hdata]) hrest

theorem send (h : Receives irs s p) (data : Bytes) (now : Time) : Receives irs s (p.step (.send data now)) := by
  unfold step
  dsimp only
  split
  · rename_i c written hsend
    have hframe : c.state = p.conn.state ∧ c.recvQueue = p.conn.recvQueue := by
      unfold TCPConnection.send at hsend
      dsimp only at hsend
      split_ifs at hsend
      · cases hsend
        exact ⟨rfl, rfl⟩
      · cases hsend
        exact ⟨(sendFrame_flush _ now).state, (sendFrame_flush _ now).recvQueue⟩
      · cases hsend
        exact ⟨rfl, rfl⟩
    have hkept := h.congr hframe.1 hframe.2
    cases hkept with
    | waiting hst hret hread => exact .waiting hst hret hread
    | «open» r hopen hno hholds => exact .open r hopen hno hholds
    | finished hyes hfits hnxt hstream => exact .finished hyes hfits hnxt hstream
    | closed hst hret hread => exact .closed hst hret hread
  · exact h

theorem closed_of_endsRead (h : Receives irs s p) (hread : EndsRead p e) (hopen : p.conn.state ≠ .closed)
    (hclosed : c.state = .closed) (hends : p.conn.Ends e) (hempty : c.recvQueue.readable = []) :
    Receives irs s (p.put c) := by
  obtain ⟨hpeer, hnone⟩ := hread hopen hends
  have hnil := ReceiveQueue.readable_eq_nil_iff.mpr hnone
  cases h with
  | waiting hst =>
    rw [peerClosed, hst] at hpeer
    cases hpeer
  | «open» r _ hno =>
    rw [hno] at hpeer
    cases hpeer
  | finished hyes hfits hnxt hstream =>
    rw [hnil, List.append_nil] at hstream
    exact .closed hclosed hstream hempty
  | closed hst => exact absurd hst hopen

theorem tick (h : Receives irs s p) {now : Time} (hread : EndsRead p (.tick now)) :
    Receives irs s (p.step (.tick now)) := by
  change Receives irs s (p.put (p.conn.onTick now))
  by_cases hopen : p.conn.state = .closed
  · rcases KeepsInput.timed.onTick p.conn now with ⟨hstate, hrecv⟩ | ⟨hstate, hrecv⟩
    · exact h.congr hstate hrecv
    · cases h with
      | waiting hst | finished hyes =>
        simp_all [peerClosed]
      | «open» r hopened => exact absurd hopened (not_opened.mpr (.inl hopen))
      | closed _ hret _ => exact .closed hstate hret (by rw [put_conn, hrecv]; rfl)
  · by_cases hends : (p.conn.onTick now).state = .closed
    · have hclear : (p.conn.onTick now).recvQueue.readable = [] := by
        rcases KeepsInput.timed.onTick p.conn now with ⟨hstate, -⟩ | ⟨-, hrecv⟩
        · exact absurd (hstate.symm.trans hends) hopen
        · rw [hrecv]
          rfl
      exact h.closed_of_endsRead hread hopen hends ((onTick_closed_iff hopen).mp hends) hclear
    · rcases KeepsInput.timed.onTick p.conn now with ⟨hstate, hrecv⟩ | ⟨hstate, -⟩
      · exact h.congr hstate hrecv
      · exact absurd hstate hends

/-- `close` before the connection is established ends it; elsewhere our FIN goes out. -/
theorem close (h : Receives irs s p) {now : Time} (hread : EndsRead p (.close now)) :
    Receives irs s (p.step (.close now)) := by
  change Receives irs s (p.put (p.conn.close now))
  have hmove : ∀ st,
      p.conn.state = .established ∧ st = .finWait1 ∨ p.conn.state = .closeWait ∧ st = .lastAck →
      Receives irs s (p.put { p.conn.sendFin now with state := st }) := by
    intro st hst
    have hrecv : (p.conn.sendFin now).recvQueue = p.conn.recvQueue := by
      rw [sendFin_eq]
      rfl
    cases h with
    | waiting hwait => simp [hwait] at hst
    | «open» r hopen hno hholds =>
      rcases hst with ⟨hst, rfl⟩ | ⟨hst, rfl⟩
      · exact .open r (.inr rfl) rfl (by simpa [hrecv] using hholds)
      · simp [peerClosed, hst] at hno
    | finished hyes hfits hnxt hstream =>
      rcases hst with ⟨hst, rfl⟩ | ⟨hst, rfl⟩
      · simp [peerClosed, hst] at hyes
      · exact .finished rfl hfits (by simpa [hrecv] using hnxt) (by simpa [hrecv] using hstream)
    | closed hclosed => simp [hclosed] at hst
  unfold TCPConnection.close
  split
  · next hst => exact hmove _ (.inl ⟨hst, rfl⟩)
  · next hst => exact hmove _ (.inr ⟨hst, rfl⟩)
  · next hst =>
    refine h.closed_of_endsRead hread (by simp [hst]) ?_ (.inl hst) ?_
    · rw [abort_eq]
      rfl
    · rw [abort_eq]
      rfl
  · next hst =>
    refine h.closed_of_endsRead hread (by simp [hst]) ?_ (.inr (.inl hst)) ?_
    · rw [abort_eq]
      rfl
    · rw [abort_eq]
      rfl
  · exact h
  · exact h
  · exact h
  · exact h
  · exact h
  · next hst => exact h.congr hst.symm rfl
  · next hst => exact absurd hst h.ne_listen

/-! ### Segments -/

variable {seg : TCPSegment} {r : Nat} {now : Time} {d : TCPConnection}

theorem got_of_holds {s : Bytes} (h : p.conn.recvQueue.Holds irs s p.returned r) : p.got = r := by
  have hlength := congrArg List.length h.stream
  have hle := h.le
  rw [List.length_append, List.length_take, ReceiveQueue.readable, List.length_drop] at hlength
  rw [got, ReceiveQueue.available]
  omega

theorem insert_honest (h : p.conn.recvQueue.Holds irs (s.take (RING - 2)) p.returned r)
    (hseg : seg.Honest irs s p.got) (hsyn : seg.isSyn = false) :
    ∃ r', r ≤ r' ∧
      (p.conn.recvQueue.insert seg.seq seg.payload).1.Holds irs (s.take (RING - 2)) p.returned r' := by
  by_cases hnil : seg.payload = []
  · rw [ReceiveQueue.insert, if_pos hnil]
    exact ⟨r, le_rfl, h⟩
  · obtain ⟨i, hi, hat, -, hring, hahead, hbehind⟩ := hseg.piece hsyn (.inl hnil)
    rw [got_of_holds h] at hahead hbehind
    have hshort : (s.take (RING - 2)).length < 2 ^ 32 := by
      rw [List.length_take, RING]
      omega
    rw [hi]
    exact ⟨_, Nat.le_add_right r _,
      h.insert hshort (hat.of_take (by rw [RING] at hring ⊢; omega)) (by omega) (by omega)⟩

theorem fin_honest (hseg : seg.Honest irs s p.got) (hsyn : seg.isSyn = false) (hfin : seg.isFin = true) :
    seqAdd seg.seq seg.payload.length = streamSeq irs s.length ∧ s.length + 1 < RING ∧
      s.length < p.got + 2 ^ 31 := by
  obtain ⟨i, hi, -, hend, hring, hahead, -⟩ := hseg.piece hsyn (.inr hfin)
  have hlast := hend hfin
  rw [hi, seqAdd_streamSeq, hlast]
  exact ⟨rfl, by omega, by omega⟩

theorem open_processed (hsync : p.conn.state.isSynchronised = true) (hpeer : p.conn.peerClosed = false)
    (h : p.conn.recvQueue.Holds irs (s.take (RING - 2)) p.returned r) (hseg : seg.Honest irs s p.got)
    (hsyn : seg.isSyn = false) (hdone : p.conn.PayloadDone seg d) :
    Receives irs s (p.put (if seg.isFin then d.handleFin seg now else d)) := by
  have hlast : p.conn.state ≠ .lastAck := by
    intro hst
    simp [peerClosed, hst] at hpeer
  have hopen : p.conn.stateAfterAck seg ≠ .closed := by
    rw [ne_eq, stateAfterAck_eq_closed (TcpState.ne_of_isSynchronised hsync).1]
    exact fun h => hlast h.1
  obtain ⟨hpeer', hsync'⟩ := peerClosed_stateAfterAck hopen hdone.state
  rw [hpeer] at hpeer'
  obtain ⟨r', hr', hholds⟩ := insert_honest h hseg hsyn
  have hqueue := hdone.recvQueue
  rw [queueAfterAck, if_neg fun h => hlast h.1] at hqueue
  rw [← hqueue] at hholds
  have hstay : ∀ c : TCPConnection, c.state = d.state → c.recvQueue = d.recvQueue → Receives irs s (p.put c) := by
    intro c hst hrecv
    refine .open r' (.inr ?_) ?_ ?_
    · rw [put_conn, hst]
      exact hsync' hsync
    · rw [put_conn, peerClosed, hst]
      exact hpeer'
    · rw [put_conn, hrecv]
      exact hholds
  split_ifs with hfin
  · obtain ⟨hseq, hfits, hnear⟩ := fin_honest hseg hsyn hfin
    rw [got_of_holds h] at hnear
    have hle := hholds.le
    have hwhole : s.take (RING - 2) = s := List.take_of_length_le (by omega)
    rw [hwhole] at hle hholds
    cases hdue : d.finDue seg with
    | false =>
      rw [handleFin_of_not_due now hfin hdue]
      have hframe := sendFrame_sendAck d now
      exact hstay _ hframe.state hframe.recvQueue
    | true =>
      obtain rfl := (finDue_iff hfin hseq hholds.nxt (by omega) (by omega)).mp hdue
      obtain ⟨hrecv, -⟩ := d.consumeFin_spec now
      rw [handleFin_of_due now hdue]
      refine .finished (consumeFin_peerClosed (hsync' hsync)) hfits ?_ ?_
      · rw [put_conn, hrecv]
        dsimp only
        rw [hholds.nxt, seqAdd_streamSeq]
      · rw [put_conn, hrecv]
        exact hholds.stream.trans (List.take_length)
  · exact hstay d rfl rfl

theorem finished_processed (hwithin : p.conn.recvQueue.Within) (hpeer : p.conn.peerClosed = true)
    (hfits : s.length + 1 < RING) (hnxt : p.conn.recvQueue.nxt = streamSeq irs (s.length + 1))
    (hstream : p.returned ++ p.conn.recvQueue.readable = s) (hseg : seg.Honest irs s p.got)
    (hsyn : seg.isSyn = false) (hdone : p.conn.PayloadDone seg d)
    (hread : d.state = .closed → p.conn.recvQueue.available = 0) :
    Receives irs s (p.put (if seg.isFin then d.handleFin seg now else d)) := by
  have hsync := synchronised_of_peerClosed hpeer
  have hgot : p.got = s.length := by
    rw [← hstream, List.length_append, ReceiveQueue.readable, List.length_drop, got, ReceiveQueue.available]
  obtain ⟨-, hsame, hafter⟩ := queueAfterAck_spec seg (TcpState.ne_of_isSynchronised hsync).1 hwithin
  have hrest : ∃ n, d.recvQueue = { p.conn.queueAfterAck seg with duplicates := n } := by
    rw [hdone.recvQueue]
    by_cases hnil : seg.payload = []
    · rw [ReceiveQueue.insert, if_pos hnil]
      exact ⟨_, rfl⟩
    · obtain ⟨i, hi, hat, -, -, -, hbehind⟩ := hseg.piece hsyn (.inl hnil)
      have hend := hat.length_le hnil
      rw [hgot] at hbehind
      rw [hi]
      exact ReceiveQueue.insert_behind (hsame.trans hnxt) (by omega) (by omega)
  obtain ⟨n, hqueue⟩ := hrest
  have hlater : d.recvQueue.nxt = streamSeq irs (s.length + 1) := by
    rw [hqueue]
    exact hsame.trans hnxt
  have hstay : ∀ c : TCPConnection, c.state = d.state → c.recvQueue = d.recvQueue → Receives irs s (p.put c) := by
    intro c hst hrecv
    have hreadable : c.recvQueue.readable = (p.conn.queueAfterAck seg).readable := by
      rw [hrecv, hqueue]
      rfl
    rw [hafter] at hreadable
    by_cases hclosed : p.conn.stateAfterAck seg = .closed
    · have hnil := ReceiveQueue.readable_eq_nil_iff.mpr (hread (hdone.state.trans hclosed))
      rw [hnil, List.append_nil] at hstream
      rw [hnil, ite_self] at hreadable
      exact .closed (hst.trans (hdone.state.trans hclosed)) hstream hreadable
    · rw [if_neg fun h => hclosed h.2] at hreadable
      refine .finished ?_ hfits ?_ ?_
      · rw [put_conn, (peerClosed_stateAfterAck hclosed (hst.trans hdone.state)).1, hpeer]
      · rw [put_conn, hrecv, hlater]
      · rw [put_conn, hreadable]
        exact hstream
  split_ifs with hfin
  · obtain ⟨hseq, -, -⟩ := fin_honest hseg hsyn hfin
    have hdue : d.finDue seg = false := by
      rw [← Bool.not_eq_true, finDue_iff hfin hseq hlater (by omega) (by omega)]
      omega
    rw [handleFin_of_not_due now hfin hdue]
    have hframe := sendFrame_sendAck d now
    exact hstay _ hframe.state hframe.recvQueue
  · exact hstay d rfl rfl

/-- A connection that is not synchronised takes the peer's number from its SYN, and nothing else. -/
theorem handshake (h : Receives irs s p) (hseg : seg.Honest irs s p.got) (hsync : p.conn.state.isSynchronised = false)
    (srcIp : Option Bytes) (draw : SeqNo) (now : Time) :
    Receives irs s (p.put (p.conn.onSegment seg srcIp draw now).1) := by
  have hstart : p.conn.state = .synSent → p.returned = [] := by
    intro hst
    cases h with
    | waiting _ hret => exact hret
    | «open» r hopen => exact absurd hopen (not_opened.mpr (.inr (.inr hst)))
    | finished hyes => simp [peerClosed, hst] at hyes
    | closed hclosed => simp [hst] at hclosed
  have hnew : ∀ {c : TCPConnection}, p.conn.state = .synSent → c.Opened → c.peerClosed = false →
      c.recvQueue = .new irs p.conn.cfg.receiveCapacity → Receives irs s (p.put c) := by
    intro c hst hopen hno hrecv
    refine .open 0 hopen hno ?_
    rw [put_conn, put_returned, hrecv, hstart hst]
    exact ReceiveQueue.holds_new irs _ p.conn.cfg.receiveCapacity
  have hstamp : Receives irs s (p.put (p.conn.stamp now)) := h.congr rfl rfl
  have hframe : ∀ {c : TCPConnection}, SendFrame (p.conn.stamp now) c → Receives irs s (p.put c) :=
    fun hc => h.congr hc.state hc.recvQueue
  unfold TCPConnection.onSegment
  refine dispatch_cases (P := fun d => Receives irs s (p.put d)) (p.conn.stamp now) seg srcIp draw now
    (fun _ => hframe (sendFrame_reject _ seg now)) (fun _ hrst => ?_) (fun _ hst => absurd hst h.ne_listen)
    (fun _ hsyn hst hack => ?_) (fun _ hsyn hst _ => ?_) (fun _ _ _ => hframe (sendFrame_retransmitOldest _ now false))
    (fun _ _ hlate => ?_) (fun _ _ _ => hstamp) (fun _ _ hst _ => ?_) (fun _ _ _ _ => hstamp) (fun _ _ hlate => ?_)
  · rw [hseg.noRst] at hrst
    cases hrst
  · unfold handleSynAck
    split_ifs
    · exact hframe (sendFrame_reject _ seg now)
    · refine hnew hst (.inr rfl) rfl ?_
      rw [← hseg.syn hsyn]
      exact (sendFrame_sendAck _ now).recvQueue.trans (ackFrame_processAck _ seg now).recvQueue
  · rw [handleSimultaneousOpen_eq]
    refine hnew hst (.inl rfl) rfl ?_
    rw [← hseg.syn hsyn]
    rfl
  · exact absurd hlate (by rw [show (p.conn.stamp now).state = p.conn.state from rfl, hsync]; decide)
  · have hreceived : p.conn.state = .synReceived := hst
    unfold handleFinalAckOfHandshake
    split_ifs
    · exact hstamp
    · cases h with
      | «open» r hopen hno hholds =>
        refine .open r (.inr rfl) rfl ?_
        have hrecv := (ackFrame_processAck (p.conn.stamp now) seg now).recvQueue
        change ((p.conn.stamp now).processAck seg now).recvQueue.Holds irs _ p.returned r
        rw [hrecv]
        exact hholds
      | waiting hwait => simp [hreceived] at hwait
      | finished hyes => simp [peerClosed, hreceived] at hyes
      | closed hclosed => simp [hreceived] at hclosed
  · exact absurd hlate (by rw [show (p.conn.stamp now).state = p.conn.state from rfl, hsync]; decide)

theorem segment (h : Receives irs s p) (hwithin : p.conn.recvQueue.Within) (hseg : seg.Honest irs s p.got)
    {srcIp : Option Bytes} {draw : SeqNo} {now : Time} (hread : EndsRead p (.segment seg srcIp draw now)) :
    Receives irs s (p.step (.segment seg srcIp draw now)) := by
  change Receives irs s (p.put (p.conn.onSegment seg srcIp draw now).1)
  cases hsync : p.conn.state.isSynchronised with
  | false => exact h.handshake hseg hsync srcIp draw now
  | true =>
    have hopen := (TcpState.ne_of_isSynchronised hsync).1
    cases hproc : p.conn.processes seg with
    | false =>
      have hstamp : SendFrame p.conn (p.conn.stamp now) := by constructor <;> rfl
      rcases onSegment_of_not_processes srcIp draw now hsync hproc with ⟨hrst, -⟩ | heq | heq
      · rw [hseg.noRst] at hrst
        cases hrst
      · rw [heq]
        have hframe := hstamp.trans (sendFrame_reject _ seg now)
        exact h.congr hframe.state hframe.recvQueue
      · rw [heq]
        have hframe := hstamp.trans (sendFrame_sendAck _ now)
        exact h.congr hframe.state hframe.recvQueue
    | true =>
      have hsyn : seg.isSyn = false := by
        simp only [processes, Bool.and_eq_true, Bool.not_eq_true'] at hproc
        exact hproc.1.2
      obtain ⟨d, hdone, -, heq⟩ := onSegment_payloadDone srcIp draw now hproc
      have hended : d.state = .closed → p.conn.recvQueue.available = 0 := by
        intro hclosed
        have hend : (p.conn.onSegment seg srcIp draw now).1.state = .closed := by
          rw [heq]
          split_ifs
          · rw [handleFin_closed_iff, hclosed]
          · exact hclosed
        exact (hread hopen ((onSegment_closed_iff hopen srcIp draw).mp hend)).2
      rw [heq]
      cases h with
      | waiting hst =>
        rw [hst] at hsync
        cases hsync
      | «open» r _ hno hholds => exact open_processed hsync hno hholds hseg hsyn hdone
      | finished hyes hfits hnxt hstream =>
        exact finished_processed hwithin hyes hfits hnxt hstream hseg hsyn hdone hended
      | closed hclosed => exact absurd hclosed hopen

end Receives

end Endpoint

end MiniTcp
