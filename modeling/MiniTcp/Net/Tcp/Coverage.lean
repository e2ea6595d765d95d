import MiniTcp.Lib.Cover
import MiniTcp.Net.Tcp.Flight
import Mathlib.Algebra.Order.BigOperators.Group.List
import Mathlib.Algebra.Order.Group.Nat

/-!
# The retransmission queue covers what is in flight

As long as `RetransmitQueue.add` takes every entry, the entries of `retx_queue`, in their order, cover
the numbers from `snd_una` to `snd_nxt` in every open state (`Tracked`): a transmission appends its
entry where the cover ends, an acknowledgement drops the entries it passes, and an entry it falls into
stays. Since the queue holds at most `2^20` bytes and three entries for SYN and FIN, less than half the
ring is in flight, so the comparisons of sequence numbers are those of positions.

The entries are contiguous too, unless a simultaneous open adds a second entry for the SYN.
-/

namespace MiniTcp

open Serial (Covers Contiguous total)

/-! ### Entries -/

namespace OutstandingSegment

/-- The entry takes the numbers of its payload, or a single one for its SYN or FIN. -/
def Sized (entry : OutstandingSegment) : Prop :=
  entry.payload ≠ [] ∧ entry.seqLen = entry.payload.length ∨ entry.payload = [] ∧ entry.seqLen = 1

@[simp] theorem retransmitted_seq (entry : OutstandingSegment) (now : Time) :
    (entry.retransmitted now).seq = entry.seq := rfl

@[simp] theorem retransmitted_seqLen (entry : OutstandingSegment) (now : Time) :
    (entry.retransmitted now).seqLen = entry.seqLen := rfl

end OutstandingSegment

namespace RetransmitQueue

variable {q : RetransmitQueue}

/-- Every entry is sized, and the bytes fit. -/
structure Sized (q : RetransmitQueue) : Prop where
  entries : ∀ entry ∈ q.segments, entry.Sized
  bytes : q.bytesOutstanding ≤ q.capacity

/-- How many entries stand for a SYN or a FIN. -/
def controls (q : RetransmitQueue) : Nat := q.segments.countP (·.payload = [])

theorem total_le (h : q.Sized) :
    total OutstandingSegment.seqLen q.segments ≤ q.bytesOutstanding + q.controls := by
  have hentries := h.entries
  unfold total bytesOutstanding controls
  generalize q.segments = segs at hentries
  induction segs with
  | nil => simp
  | cons entry segs ih =>
    have hrest := ih fun e he => hentries e (List.mem_cons_of_mem _ he)
    simp only [List.map_cons, List.sum_cons, List.countP_cons]
    rcases hentries entry List.mem_cons_self with ⟨hne, hlen⟩ | ⟨hnil, hlen⟩
    · simp only [hlen, hne, decide_false, Bool.false_eq_true, if_false]
      omega
    · simp only [hlen, hnil, List.length_nil, decide_true, if_true]
      omega

namespace Sized

theorem clear (q : RetransmitQueue) : q.clear.Sized :=
  ⟨by simp [RetransmitQueue.clear], by simp [RetransmitQueue.clear, bytesOutstanding]⟩

theorem added (h : q.Sized) {seg : TCPSegment} {now : Time} (hentry : (seg.entry now).Sized) :
    (q.added seg.seq seg.flags seg.payload now).Sized := by
  rcases added_cases q seg.seq seg.flags seg.payload now with ⟨-, hsame⟩ | ⟨-, hfit, hsegs⟩
  · rw [hsame]
    exact h
  · refine ⟨fun e he => ?_, ?_⟩
    · rw [hsegs] at he
      rcases List.mem_append.mp he with he | he
      · exact h.entries e he
      · rw [List.mem_singleton.mp he]
        exact hentry
    · rw [added_capacity, bytesOutstanding, hsegs]
      simpa [bytesOutstanding] using hfit

theorem acknowledge (h : q.Sized) (ack : SeqNo) : (q.acknowledge ack).1.Sized := by
  refine ⟨fun e he => h.entries e (List.mem_filter.mp he).1, le_trans ?_ h.bytes⟩
  exact List.Sublist.sum_le_sum (List.Sublist.map _ List.filter_sublist) fun _ _ => Nat.zero_le _

theorem markRetransmitted (h : q.Sized) (now : Time) : (q.markRetransmitted now).Sized := by
  unfold RetransmitQueue.markRetransmitted
  cases hsegs : q.segments with
  | nil => exact h
  | cons entry rest =>
    have hentries := h.entries
    rw [hsegs] at hentries
    refine ⟨fun e he => ?_, ?_⟩
    · rcases List.mem_cons.mp he with rfl | he
      · exact hentries entry List.mem_cons_self
      · exact hentries e (List.mem_cons_of_mem _ he)
    · have := h.bytes
      simpa [bytesOutstanding, hsegs, OutstandingSegment.retransmitted] using this

end Sized

theorem controls_acknowledge_le (ack : SeqNo) : (q.acknowledge ack).1.controls ≤ q.controls :=
  List.Sublist.countP_le List.filter_sublist

@[simp] theorem controls_markRetransmitted (now : Time) :
    (q.markRetransmitted now).controls = q.controls := by
  unfold markRetransmitted controls
  cases hsegs : q.segments with
  | nil => simp [hsegs]
  | cons entry rest => simp [List.countP_cons, OutstandingSegment.retransmitted]

theorem controls_added_le (seq : SeqNo) (flags : Flags) (payload : Bytes) (now : Time) :
    (q.added seq flags payload now).controls ≤ q.controls + if payload = [] then 1 else 0 := by
  rcases added_cases q seq flags payload now with ⟨-, hsame⟩ | ⟨-, -, hsegs⟩
  · rw [hsame]
    omega
  · rw [controls, hsegs, List.countP_append, controls]
    simp

end RetransmitQueue

/-- How many entries for SYN and FIN the queue can hold in a state. -/
def TcpState.controlSlots : TcpState → Nat
  | .closed | .listen => 0
  | .synSent => 1
  | .synReceived | .established | .closeWait => 2
  | .finWait1 | .finWait2 | .closing | .lastAck | .timeWait => 3

namespace TCPConnection

variable {c d : TCPConnection} {p q : Endpoint}

/-- The entries cover the numbers from `snd_una` to `snd_nxt`. -/
def CoversFlight (c : TCPConnection) : Prop :=
  ∃ n, Covers OutstandingSegment.seq OutstandingSegment.seqLen c.sendQueue.una c.retxQueue.segments n ∧
    c.sendQueue.nxt = seqAdd c.sendQueue.una n

/-- The states in which what is in flight is to be retransmitted. -/
def Retransmitting (c : TCPConnection) : Prop :=
  c.state ≠ .closed ∧ c.state ≠ .listen ∧ c.state ≠ .timeWait

/-- What holds of the retransmission queue when `add` has taken every entry so far. -/
structure Tracked (c : TCPConnection) : Prop where
  sized : c.retxQueue.Sized
  controls : c.retxQueue.controls ≤ c.state.controlSlots
  covers : c.untracked = [] → c.Retransmitting → c.CoversFlight

namespace Tracked

theorem congr (h : Tracked c) (hstate : d.state = c.state) (hretx : d.retxQueue = c.retxQueue)
    (huna : d.sendQueue.una = c.sendQueue.una) (hnxt : d.sendQueue.nxt = c.sendQueue.nxt)
    (hrefused : d.untracked = c.untracked) : Tracked d where
  sized := by rw [hretx]; exact h.sized
  controls := by rw [hretx, hstate]; exact h.controls
  covers := by
    unfold Retransmitting CoversFlight
    rw [hrefused, hstate, hretx, huna, hnxt]
    exact h.covers

theorem flight_lt (h : Tracked c) (hcap : c.retxQueue.capacity = 2 ^ 20) {n : Nat}
    (hcov : Covers OutstandingSegment.seq OutstandingSegment.seqLen c.sendQueue.una
      c.retxQueue.segments n) : n ≤ 2 ^ 20 + 3 := by
  have hle := hcov.le_total
  have htotal := RetransmitQueue.total_le h.sized
  have hbytes := h.sized.bytes
  have hslots : c.state.controlSlots ≤ 3 := by cases c.state <;> simp [TcpState.controlSlots]
  have := h.controls
  omega

theorem of_clear (hretx : d.retxQueue = c.retxQueue.clear) (hstate : ¬ d.Retransmitting) : Tracked d where
  sized := by rw [hretx]; exact .clear _
  controls := by rw [hretx]; simp [RetransmitQueue.clear, RetransmitQueue.controls]
  covers := fun _ hr => absurd hr hstate

/-- A tracked transmission at the end of the cover: its entry stops where `snd_nxt` is afterwards, and
takes the `k` numbers that are new. -/
theorem tracking (h : Tracked c) (seg : TCPSegment) (now : Time)
    (hentry : seg.payload ≠ [] ∧ seg.seqLen = seg.payload.length ∨ seg.payload = [] ∧ seg.seqLen = 1)
    (hretx : d.retxQueue = c.retxQueue.added seg.seq seg.flags seg.payload now)
    (hrefused : d.untracked = if (c.retxQueue.add seg.seq seg.flags seg.payload now).isSome
      then c.untracked else c.untracked ++ [seg])
    (hslots : c.retxQueue.controls + (if seg.payload = [] then 1 else 0) ≤ d.state.controlSlots)
    (hcov : c.untracked = [] → d.Retransmitting → ∃ n k,
      Covers OutstandingSegment.seq OutstandingSegment.seqLen d.sendQueue.una c.retxQueue.segments n ∧
      k ≤ seg.seqLen ∧ seg.seqEnd = seqAdd d.sendQueue.una (n + k) ∧
      d.sendQueue.nxt = seqAdd d.sendQueue.una (n + k)) : Tracked d where
  sized := by
    rw [hretx]
    exact h.sized.added hentry
  controls := by
    rw [hretx]
    exact (RetransmitQueue.controls_added_le _ _ _ now).trans hslots
  covers := by
    intro hnil hopen
    rcases RetransmitQueue.added_cases c.retxQueue seg.seq _ _ _ with
      ⟨hnone, -⟩ | ⟨hsome, -, hsegs⟩
    · rw [hrefused, hnone] at hnil
      simp at hnil
    · rw [hrefused, if_pos hsome] at hnil
      obtain ⟨n, k, hcover, hk, hstop, hnxt⟩ := hcov hnil hopen
      refine ⟨n + k, ?_, hnxt⟩
      rw [hretx, hsegs]
      exact hcover.append hstop hk

/-- An acknowledgement ahead of `snd_una` drops the entries it passes and keeps the rest a cover. -/
theorem acknowledged (h : Tracked c) (hcap : c.retxQueue.capacity = 2 ^ 20) (hopen : c.Retransmitting)
    {ack : SeqNo} (hgt : seqGt ack c.sendQueue.una = true) (hsend : d.sendQueue = (c.sendQueue.acknowledge
      ack).1) (hretx : d.retxQueue = (c.retxQueue.acknowledge ack).1)
    (hslots : c.state.controlSlots ≤ d.state.controlSlots) (hrefused : d.untracked = c.untracked) :
    Tracked d where
  sized := by rw [hretx]; exact h.sized.acknowledge ack
  controls := by
    rw [hretx]
    exact (RetransmitQueue.controls_acknowledge_le ack).trans (h.controls.trans hslots)
  covers := by
    intro hnil _
    obtain ⟨n, hcover, hnxt⟩ := h.covers (hrefused ▸ hnil) hopen
    have hn := h.flight_lt hcap hcover
    obtain ⟨hpos, hhalf⟩ := seqGt_iff.mp hgt
    have hack : ack = Serial.shift c.sendQueue.una (Serial.gap c.sendQueue.una ack) :=
      (Serial.shift_gap _ _).symm
    refine ⟨n - Serial.gap c.sendQueue.una ack, ?_, ?_⟩
    · have hfilter := hcover.filter (p := fun e => !seqLe e.seqEnd ack) (by omega) hhalf (fun e => by
        rw [Serial.shift_gap, Bool.not_eq_true', ← Bool.not_eq_true, seqLe_iff]
        rfl)
      rw [hsend, hretx, SendQueue.acknowledge_of_gt hgt]
      rw [Serial.shift_gap] at hfilter
      exact hfilter.1
    · rw [hsend, SendQueue.acknowledge_of_gt hgt]
      dsimp only
      have hlt : seqLt c.sendQueue.nxt ack = true ↔ n < Serial.gap c.sendQueue.una ack := by
        conv_lhs => rw [hnxt, hack, seqLt_iff, seqAdd]
        exact Serial.lt_shift_iff (by omega) (by omega)
      split_ifs with hbeyond
      · rw [show n - Serial.gap c.sendQueue.una ack = 0 by have := hlt.mp hbeyond; omega]
        simp [seqAdd]
      · have hle : Serial.gap c.sendQueue.una ack ≤ n := by
          have := mt hlt.mpr hbeyond
          omega
        have hmove : Serial.shift (Serial.shift c.sendQueue.una (Serial.gap c.sendQueue.una ack))
            (n - Serial.gap c.sendQueue.una ack) = Serial.shift c.sendQueue.una n := by
          rw [Serial.shift_shift]
          congr 1
          omega
        rw [Serial.shift_gap] at hmove
        exact hnxt.trans hmove.symm

theorem resend (h : Tracked c) {entry : OutstandingSegment} (now : Time) :
    Tracked (c.resend entry now) := by
  rw [resend_eq]
  refine ⟨h.sized.markRetransmitted now, ?_, fun hnil hopen => ?_⟩
  · simp only [RetransmitQueue.controls_markRetransmitted]
    exact h.controls
  · obtain ⟨n, hcover, hnxt⟩ := h.covers hnil hopen
    refine ⟨n, ?_, hnxt⟩
    simp only [RetransmitQueue.markRetransmitted]
    cases hsegs : c.retxQueue.segments with
    | nil => rwa [hsegs] at hcover ⊢
    | cons e rest =>
      rw [hsegs] at hcover
      exact hcover.replace_head rfl rfl

theorem connect (h : Tracked c) (hbasic : c.Basic) {draw : SeqNo} {now : Time}
    (hconn : c.connect draw now = .ok d) : Tracked d := by
  obtain ⟨hstate, rfl⟩ := connect_eq hconn
  have hempty := (hbasic.idle (.inl hstate)).2
  have hlen := (c.opening draw).synSegment_seqLen
  refine h.tracking (c.opening draw).synSegment now (.inr ⟨rfl, hlen⟩) rfl rfl ?_ fun _ _ =>
    ⟨0, 1, ?_, hlen.ge, congrArg _ hlen, rfl⟩
  · simp only [RetransmitQueue.controls, hempty]
    exact le_rfl
  · rw [hempty]
    exact .nil

/-- The SYN+ACK repeats the number of the SYN, which is covered. -/
theorem simultaneousOpen (h : Tracked c) (hbasic : c.Basic) (hstate : c.state = .synSent)
    (seg : TCPSegment) (now : Time) : Tracked (c.handleSimultaneousOpen seg now) := by
  have hopen : c.Retransmitting := by simp [Retransmitting, hstate]
  obtain ⟨huna, hiss, -⟩ := hbasic.handshake (.inl hstate)
  have hlen := (c.adopted seg).synAckSegment_seqLen seg
  rw [handleSimultaneousOpen_eq]
  refine h.tracking ((c.adopted seg).synAckSegment seg) now (.inr ⟨rfl, hlen⟩) rfl rfl ?_ ?_
  · have := h.controls
    rw [hstate] at this
    exact Nat.add_le_add_right this 1
  · intro hnil _
    obtain ⟨n, hcover, hnxt⟩ := h.covers hnil hopen
    exact ⟨n, 0, hcover, Nat.zero_le _, (congrArg _ hlen).trans (hiss.symm.trans hnxt), hnxt⟩

theorem retire (h : Tracked c) (hbasic : c.Basic) (hstate : c.state.isSynchronised = true) {ack : SeqNo}
    (hgt : seqGt ack c.sendQueue.una = true) (t : Time) : Tracked (c.acknowledged ack t) := by
  by_cases hwait : c.state = .timeWait
  · exact
      { sized := h.sized.acknowledge _
        controls := (RetransmitQueue.controls_acknowledge_le _).trans h.controls
        covers := fun _ hopen => absurd hwait hopen.2.2 }
  · have hne := TcpState.ne_of_isSynchronised hstate
    exact h.acknowledged hbasic.retxCapacity ⟨hne.1, hne.2.1, hwait⟩ hgt rfl rfl le_rfl rfl

theorem establish (h : Tracked c) (hbasic : c.Basic)
    (hstate : c.state = .synSent ∨ c.state = .synReceived) (ack : SeqNo) (t : Time) :
    Tracked (c.settled ack t) := by
  have hopen : c.Retransmitting ∧ c.state.controlSlots ≤ 2 := by
    rcases hstate with hst | hst <;> simp [Retransmitting, hst, TcpState.controlSlots]
  simp only [settled]
  split_ifs with hgt
  · exact h.acknowledged hbasic.retxCapacity hopen.1 hgt rfl rfl hopen.2 rfl
  · exact ⟨h.sized, h.controls.trans hopen.2, fun hnil _ => h.covers hnil hopen.1⟩

/-- The cover ends at `snd_nxt`, so an entry of `k` numbers from there on continues it. -/
theorem covers_next (h : Tracked c) (hnil : c.untracked = []) (hopen : c.Retransmitting) (k : Nat) :
    ∃ n, Covers OutstandingSegment.seq OutstandingSegment.seqLen c.sendQueue.una c.retxQueue.segments n ∧
      seqAdd c.sendQueue.nxt k = seqAdd c.sendQueue.una (n + k) := by
  obtain ⟨n, hcover, hnxt⟩ := h.covers hnil hopen
  refine ⟨n, hcover, ?_⟩
  rw [hnxt, seqAdd, seqAdd, seqAdd, Serial.shift_shift]

theorem push (h : Tracked c) {payload : Bytes} (hne : payload ≠ []) (now : Time) :
    Tracked (c.transmitData payload now) := by
  have hlen := c.dataSegment_seqLen payload
  rw [transmitData_eq _ now hne]
  refine h.tracking (c.dataSegment payload) now (.inl ⟨hne, hlen⟩) rfl rfl ?_ fun hnil hopen => ?_
  · rw [show (c.dataSegment payload).payload = payload from rfl, if_neg hne]
    exact h.controls
  · obtain ⟨n, hcover, hmove⟩ := h.covers_next hnil hopen payload.length
    exact ⟨n, payload.length, hcover, hlen.ge, (congrArg _ hlen).trans hmove, hmove⟩

theorem fin (h : Tracked c) {st : TcpState}
    (hstate : c.state = .established ∧ st = .finWait1 ∨ c.state = .closeWait ∧ st = .lastAck)
    (now : Time) : Tracked { c.sendFin now with state := st } := by
  have hopen : c.Retransmitting ∧ c.state.controlSlots = 2 := by
    rcases hstate with ⟨hst, -⟩ | ⟨hst, -⟩ <;> simp [Retransmitting, hst, TcpState.controlSlots]
  have hslots : st.controlSlots = 3 := by
    rcases hstate with ⟨-, rfl⟩ | ⟨-, rfl⟩ <;> rfl
  have hlen := c.finSegment_seqLen
  rw [sendFin_eq]
  refine h.tracking c.finSegment _ (.inr ⟨rfl, hlen⟩) rfl rfl ?_ fun hnil _ => ?_
  · have hcontrols := h.controls
    rw [hopen.2] at hcontrols
    exact (Nat.add_le_add_right hcontrols 1).trans hslots.ge
  · obtain ⟨n, hcover, hmove⟩ := h.covers_next hnil hopen.1 1
    exact ⟨n, 1, hcover, hlen.ge, (congrArg _ hlen).trans hmove, hmove⟩

end Tracked

theorem finTaken_slots (c : TCPConnection) (now : Time) :
    c.state.controlSlots ≤ (c.finTaken now).state.controlSlots := by
  unfold finTaken
  dsimp only
  cases c.state with
  | finWait1 =>
    dsimp only
    split_ifs <;> exact le_rfl
  | _ => simp [TcpState.controlSlots, enterTimeWait]

theorem retransmitting_of_finTaken {now : Time} (hopen : (c.finTaken now).Retransmitting) :
    c.Retransmitting := by
  rcases finTaken_state c now with hst | ⟨hst, -⟩
  · unfold Retransmitting at hopen ⊢
    rwa [hst] at hopen
  · have hne := TcpState.ne_of_isSynchronised hst
    refine ⟨hne.1, hne.2.1, fun hwait => hopen.2.2 ?_⟩
    simp [finTaken, hwait]

namespace Tracked

theorem consumeFin (h : Tracked c) (now : Time) : Tracked (c.finTaken now) := by
  obtain ⟨hsend, -, hrefused, -, -, -, hretx | ⟨hwait, hretx⟩⟩ := finTaken_spec c now
  · refine ⟨by rw [hretx]; exact h.sized, ?_, fun hnil hopen => ?_⟩
    · rw [hretx]
      exact h.controls.trans (finTaken_slots c now)
    · obtain ⟨n, hcover, hnxt⟩ := h.covers (hrefused ▸ hnil) (retransmitting_of_finTaken hopen)
      exact ⟨n, by rw [hsend, hretx]; exact hcover, by rw [hsend]; exact hnxt⟩
  · exact .of_clear hretx fun hopen => hopen.2.2 hwait

theorem advance (h : Tracked c)
    (hstate : c.state = .finWait1 ∨ c.state = .closing ∨ c.state = .lastAck) (now : Time) :
    Tracked (c.finAcknowledged now) := by
  simp only [finAcknowledged]
  rcases hstate with hst | hst | hst
  · rw [hst]
    refine ⟨h.sized, ?_, fun hnil _ => h.covers hnil (by simp [Retransmitting, hst])⟩
    have := h.controls
    rwa [hst] at this
  · rw [hst]
    exact .of_clear (c := c) rfl fun hopen => hopen.2.2 rfl
  · rw [hst]
    exact .of_clear (c := c) rfl fun hopen => hopen.1 rfl

theorem action {r : Bool} {e : Event} {q q' : Endpoint} (hbasic : q.conn.Basic) (h : q.conn.Tracked)
    (ha : Action r e q q') : q'.conn.Tracked := by
  cases ha with
  | quiet hq =>
    exact h.congr hq.state hq.retxQueue (congrArg SendQueue.una hq.sendQueue)
      (congrArg SendQueue.nxt hq.sendQueue) hq.untracked
  | ack | delay | reject | adopt | arm | disarm | insert | read => exact h.congr rfl rfl rfl rfl rfl
  | listen _ hstate =>
    refine ⟨h.sized, ?_, fun _ hopen => absurd rfl hopen.2.1⟩
    have := h.controls
    rwa [hstate] at this
  | connect _ hconn => exact h.connect hbasic hconn
  | simultaneousOpen _ hstate => exact h.simultaneousOpen hbasic hstate _ _
  | retire t _ _ _ hstate hgt => exact h.retire hbasic hstate hgt t
  | establish t _ _ _ hstate => exact h.establish hbasic (hstate.imp (·.1) (·.1)) _ t
  | push payload n now hstate hpeek hne => exact h.push hne now
  | resend now => exact h.resend now
  | fin _ hstate => exact h.fin hstate _
  | consumeFin => exact h.consumeFin _
  | advance _ _ _ _ _ hstate => exact h.advance hstate _
  | reset | expire => exact .of_clear (c := q.conn) rfl fun hopen => hopen.1 rfl
  | abort =>
    simp only [Endpoint.put_conn, TCPConnection.abort]
    split_ifs
    · rw [transmit_untracked _ _ _ _ _ (by decide)]
      exact .of_clear (c := q.conn) rfl fun hopen => hopen.1 rfl
    · exact .of_clear (c := q.conn) rfl fun hopen => hopen.1 rfl
  | drop _ hstate =>
    refine ⟨h.sized, ?_, fun _ hopen => absurd rfl hopen.1⟩
    have := h.controls
    rcases hstate with hst | hst <;> rwa [hst] at this
  | write => exact h.congr rfl rfl (SendQueue.write_una _ _) (SendQueue.write_nxt _ _) rfl

end Tracked

theorem tracked_of_created (h : q.Created) : q.conn.Tracked := by
  have hnew : ∀ cfg, (TCPConnection.new cfg).Tracked := fun cfg =>
    ⟨⟨by simp [TCPConnection.new], by simp [TCPConnection.new, RetransmitQueue.bytesOutstanding]⟩,
      by simp [TCPConnection.new, RetransmitQueue.controls], fun _ hopen => absurd rfl hopen.1⟩
  rcases h with ⟨cfg, rfl⟩ | ⟨cfg, seg, draw, now, -, -, rfl⟩
  · exact hnew cfg
  · simp only [Endpoint.passive]
    rw [beginPassiveOpen_eq]
    have hlen := ((TCPConnection.new cfg).answering seg draw).synAckSegment_seqLen seg
    refine (hnew cfg).tracking (((TCPConnection.new cfg).answering seg draw).synAckSegment seg) now
      (.inr ⟨rfl, hlen⟩) rfl rfl ?_ fun _ _ => ⟨0, 1, .nil, hlen.ge, congrArg _ hlen, rfl⟩
    exact (by decide : 0 + 1 ≤ 2)

theorem tracked_of_reachable (h : endpoint.Reachable p) : p.conn.Tracked :=
  (reachable_induction (I := fun q => q.conn.Basic ∧ q.conn.Tracked)
    (fun _ hq => ⟨basic_of_created hq, tracked_of_created hq⟩)
    (fun _ _ _ hq ha => ⟨hq.1.action ha, hq.2.action hq.1 ha⟩) h).2

/-! ### Contiguous entries -/

/-- The entries follow one another without a gap or an overlap. -/
def ContiguousEntries (c : TCPConnection) : Prop :=
  c.Retransmitting → Contiguous OutstandingSegment.seq OutstandingSegment.seqLen c.retxQueue.segments

namespace ContiguousEntries

theorem congr (h : ContiguousEntries c) (hopen : d.Retransmitting → c.Retransmitting)
    (hretx : d.retxQueue = c.retxQueue) : ContiguousEntries d := by
  unfold ContiguousEntries
  rw [hretx]
  exact fun hd => h (hopen hd)

theorem added (h : ContiguousEntries c) (hopen : c.Retransmitting) (hcover : c.CoversFlight)
    (seg : TCPSegment) (now : Time) (hseq : seg.seq = c.sendQueue.nxt) :
    Contiguous OutstandingSegment.seq OutstandingSegment.seqLen
      (c.retxQueue.added seg.seq seg.flags seg.payload now).segments := by
  rcases RetransmitQueue.added_cases c.retxQueue seg.seq seg.flags seg.payload now with
    ⟨-, hsame⟩ | ⟨-, -, hsegs⟩
  · rw [hsame]
    exact h hopen
  · rw [hsegs]
    obtain ⟨n, hcov, hnxt⟩ := hcover
    exact (h hopen).append fun last hlast => (hcov.getLast hlast).trans (hnxt.symm.trans hseq.symm)

theorem acknowledged (h : ContiguousEntries c) (htracked : c.Tracked)
    (hcap : c.retxQueue.capacity = 2 ^ 20) (hopen : c.Retransmitting) (hnil : c.untracked = [])
    {ack : SeqNo} (hgt : seqGt ack c.sendQueue.una = true) :
    Contiguous OutstandingSegment.seq OutstandingSegment.seqLen
      (c.retxQueue.acknowledge ack).1.segments := by
  obtain ⟨n, hcover, -⟩ := htracked.covers hnil hopen
  have hn := htracked.flight_lt hcap hcover
  have hfilter := hcover.filter (p := fun e => !seqLe e.seqEnd ack) (by omega) (seqGt_iff.mp hgt).2
    (fun e => by
      rw [Serial.shift_gap, Bool.not_eq_true', ← Bool.not_eq_true, seqLe_iff]
      rfl)
  exact List.IsChain.suffix (h hopen) hfilter.2

end ContiguousEntries

/-- Every action keeps the entries contiguous, unless it is a simultaneous open. -/
theorem ContiguousEntries.action {r : Bool} {e : Event} {q q' : Endpoint} (hbasic : q.conn.Basic)
    (htracked : q.conn.Tracked) (hnil : q.conn.untracked = []) (h : q.conn.ContiguousEntries)
    (hsim : ∀ seg srcIp draw now, e = .segment seg srcIp draw now → seg.isSyn = true →
      seg.isAck = false → seg.isRst = false → q.conn.state ≠ .synSent)
    (ha : Action r e q q') : q'.conn.ContiguousEntries := by
  cases ha with
  | quiet hq => exact h.congr (by unfold Retransmitting; rw [Endpoint.put_conn, hq.state]; exact id) hq.retxQueue
  | listen => exact fun hopen => absurd rfl hopen.2.1
  | @connect draw now _ _ hconn =>
    obtain ⟨hstate, rfl⟩ := connect_eq hconn
    have hempty := (hbasic.idle (.inl hstate)).2
    intro _
    rcases RetransmitQueue.added_cases q.conn.retxQueue (q.conn.opening draw).synSegment.seq
      (q.conn.opening draw).synSegment.flags (q.conn.opening draw).synSegment.payload now with
      ⟨-, hsame⟩ | ⟨-, -, hsegs⟩
    · exact (congrArg (fun x => Contiguous _ _ x.segments) hsame).mpr (hempty ▸ List.isChain_nil)
    · exact (congrArg (Contiguous _ _) (hsegs.trans (by rw [hempty, List.nil_append]))).mpr
        (List.isChain_singleton _)
  | simultaneousOpen he hstate hsyn hack hrst => exact absurd hstate (hsim _ _ _ _ he hsyn hack hrst)
  | retire t _ _ _ hstate hgt =>
    intro hopen
    exact h.acknowledged htracked hbasic.retxCapacity hopen hnil hgt
  | establish t _ _ _ hstate =>
    have hopen : q.conn.Retransmitting := by
      rcases hstate with ⟨hst, -⟩ | hst <;> simp [Retransmitting, hst]
    simp only [Endpoint.put_conn, settled]
    split_ifs with hgt
    · exact fun _ => h.acknowledged htracked hbasic.retxCapacity hopen hnil hgt
    · exact fun _ => h hopen
  | push payload n now hstate _ hne =>
    simp only [Endpoint.put_conn]
    rw [transmitData_eq _ now hne]
    exact fun hopen => h.added hopen (htracked.covers hnil hopen) (q.conn.dataSegment payload) _ rfl
  | resend now =>
    simp only [Endpoint.put_conn]
    rw [resend_eq]
    intro hopen
    have hold := h hopen
    simp only [RetransmitQueue.markRetransmitted]
    cases hsegs : q.conn.retxQueue.segments with
    | nil => rwa [hsegs] at hold ⊢
    | cons e rest =>
      rw [hsegs] at hold
      exact (List.IsChain.tail hold).cons fun y hy => hold.rel_head? hy
  | fin _ hstate =>
    simp only [Endpoint.put_conn]
    rw [sendFin_eq]
    have hopen : q.conn.Retransmitting := by
      rcases hstate with ⟨hst, -⟩ | ⟨hst, -⟩ <;> simp [Retransmitting, hst]
    exact fun _ => h.added hopen (htracked.covers hnil hopen) q.conn.finSegment _ rfl
  | @consumeFin _ _ _ now =>
    obtain ⟨-, -, -, -, -, -, hretx | ⟨hwait, -⟩⟩ := finTaken_spec q.conn now
    · exact h.congr retransmitting_of_finTaken hretx
    · exact fun hopen => absurd hwait hopen.2.2
  | advance _ _ _ _ _ hstate =>
    simp only [Endpoint.put_conn, finAcknowledged]
    rcases hstate with hst | hst | hst
    · rw [hst]
      exact h.congr (fun _ => by simp [Retransmitting, hst]) rfl
    · rw [hst]
      exact fun hopen => absurd rfl hopen.2.2
    · rw [hst]
      exact fun hopen => absurd rfl hopen.1
  | reset | expire | drop => exact fun hopen => absurd rfl hopen.1
  | abort => exact fun hopen => absurd rfl hopen.1
  | _ => exact h.congr id rfl

/-! ### Runs -/

/-- Every number in flight is covered, consecutive entries are contiguous and share no number, and the
last one ends at `snd_nxt`. -/
structure Covered (c : TCPConnection) : Prop where
  flight : ∀ i < Serial.gap c.sndUna c.sndNxt, ∃ entry ∈ c.retxQueue.segments,
    ∃ j < entry.seqLen, seqAdd c.sndUna i = seqAdd entry.seq j
  contiguous : c.retxQueue.segments.IsChain fun entry entry' => entry.seqEnd = entry'.seq
  disjoint : c.retxQueue.segments.Pairwise fun entry entry' =>
    ∀ i < entry.seqLen, ∀ j < entry'.seqLen, seqAdd entry.seq i ≠ seqAdd entry'.seq j
  last : ∀ entry, c.retxQueue.segments.getLast? = some entry → entry.seqEnd = c.sndNxt

end TCPConnection

namespace Endpoint

open TCPConnection

/-- What an event must not do: make `add` refuse an entry, open a listener with numbers in flight from
a last life, or bring a bare SYN into SYN_SENT. -/
def KeepsCover (p : Endpoint) (e : Event) : Prop :=
  (p.step e).conn.untracked = p.conn.untracked ∧
    match e with
    | .listen => p.conn.state = .closed → p.conn.sndNxt = p.conn.sndUna
    | .segment seg _ _ _ =>
      p.conn.state = .synSent → seg.isSyn = true → seg.isAck = true ∨ seg.isRst = true
    | _ => True

variable {p q : Endpoint}

theorem untracked_of_created (h : q.Created) : q.conn.untracked = [] := by
  rcases h with ⟨cfg, rfl⟩ | ⟨cfg, seg, draw, now, -, -, rfl⟩
  · rfl
  · simp only [passive]
    rw [beginPassiveOpen_eq]
    rfl

theorem untracked_eq_nil {ok : Endpoint → Event → Prop}
    (hok : ∀ s e, ok s e → (s.step e).conn.untracked = s.conn.untracked)
    (hp : endpoint.ReachableBy ok p) : p.conn.untracked = [] :=
  Machine.ReachableBy.induction endpoint (fun _ => untracked_of_created)
    (fun s e _ hs he => (hok s e he).trans hs) hp

theorem contiguous_of_keepsCover (hp : endpoint.ReachableBy KeepsCover p) :
    p.conn.ContiguousEntries ∧ (p.conn.state = .listen → p.conn.sndNxt = p.conn.sndUna) := by
  refine Machine.ReachableBy.induction (P := fun q => q.conn.ContiguousEntries ∧
    (q.conn.state = .listen → q.conn.sndNxt = q.conn.sndUna)) endpoint ?_ ?_ hp
  · rintro q (⟨cfg, rfl⟩ | ⟨cfg, seg, draw, now, -, -, rfl⟩)
    · exact ⟨fun hopen => absurd rfl hopen.1, fun h => by cases h⟩
    · simp only [passive]
      rw [beginPassiveOpen_eq]
      refine ⟨fun _ => ?_, fun h => by cases h⟩
      exact List.isChain_singleton _
  · rintro q e hq ⟨hcont, hlisten⟩ ⟨hrefused, hguard⟩
    have hreach := hq.reachable
    have hnil := untracked_eq_nil (fun _ _ h => h.1) hq
    by_cases he : e = .listen
    · subst he
      simp only [endpoint_next, step, TCPConnection.listen]
      by_cases hst : q.conn.state = .closed
      · simp only [hst, ne_eq, not_true_eq_false, if_false]
        exact ⟨fun hopen => absurd rfl hopen.2.1, fun _ => hguard hst⟩
      · simp only [ne_eq, hst, not_false_eq_true, if_true]
        exact ⟨hcont, hlisten⟩
    · have hstep := keeps_step (e := e) (p := q)
        (I := fun r => r.conn.untracked = [] → r.conn.Basic ∧ r.conn.Tracked ∧
          r.conn.ContiguousEntries ∧ (r.conn.state = .listen → r.conn.sndNxt = r.conn.sndUna) ∧
          (r.conn.state = .synSent → q.conn.state = .synSent ∨ ∃ draw now, e = .connect draw now)) ?_
        fun _ => ⟨basic_of_reachable hreach, tracked_of_reachable hreach, hcont, hlisten, .inl⟩
      · obtain ⟨-, -, h1, h2, -⟩ := hstep (hrefused.trans hnil)
        exact ⟨h1, h2⟩
      · intro r r' hr hact hnil'
        have hnilr : r.conn.untracked = [] := List.prefix_nil.mp (hnil' ▸ hact.untracked)
        obtain ⟨hbasic, htracked, hcontr, hlistenr, hsent⟩ := hr hnilr
        refine ⟨hbasic.action hact, htracked.action hbasic hact,
          hcontr.action hbasic htracked hnilr ?_ hact, fun hst => ?_, fun hst => ?_⟩
        · rintro seg srcIp draw now rfl hsyn hack hrst hst
          rcases hsent hst with hst' | ⟨_, _, h⟩
          · rcases hguard hst' hsyn with h | h <;> simp_all
          · cases h
        · obtain ⟨hst', hsend⟩ := hact.of_listen he hst
          unfold sndNxt sndUna
          rw [hsend]
          exact hlistenr hst'
        · by_cases hst' : r.conn.state = .synSent
          · exact hsent hst'
          · by_contra hno
            rw [not_or, not_exists] at hno
            exact hact.ne_synSent (fun draw now h => hno.2 draw ⟨now, h⟩) hst' hst

/-- In a run whose steps all keep the cover, the retransmission queue covers what is in flight in every
state but CLOSED and TIME_WAIT. -/
theorem covered_of_keepsCover (hp : endpoint.ReachableBy KeepsCover p)
    (hstate : p.conn.state ≠ .closed ∧ p.conn.state ≠ .timeWait) : p.conn.Covered := by
  have hbasic := basic_of_reachable hp.reachable
  have htracked := tracked_of_reachable hp.reachable
  obtain ⟨hcont, hlisten⟩ := contiguous_of_keepsCover hp
  by_cases hst : p.conn.state = .listen
  · have hempty := (hbasic.idle (.inr hst)).2
    have hgap : Serial.gap p.conn.sndUna p.conn.sndNxt = 0 := by
      rw [hlisten hst, Serial.gap_self]
    exact
      { flight := fun i hi => by rw [hgap] at hi; cases hi
        contiguous := by rw [hempty]; exact List.isChain_nil
        disjoint := by rw [hempty]; exact List.Pairwise.nil
        last := by simp [hempty] }
  · have hopen : p.conn.Retransmitting := ⟨hstate.1, hst, hstate.2⟩
    obtain ⟨n, hcover, hnxt⟩ := htracked.covers (untracked_eq_nil (fun _ _ h => h.1) hp) hopen
    have hn := htracked.flight_lt hbasic.retxCapacity hcover
    have hgap : Serial.gap p.conn.sndUna p.conn.sndNxt = n := by
      rw [sndNxt, hnxt]
      exact Serial.gap_shift (by omega)
    have htotal : total OutstandingSegment.seqLen p.conn.retxQueue.segments < 2 ^ 32 := by
      have h1 := RetransmitQueue.total_le htracked.sized
      have h2 := htracked.sized.bytes
      have h3 := htracked.controls
      have h4 : p.conn.state.controlSlots ≤ 3 := by
        cases p.conn.state <;> simp [TcpState.controlSlots]
      have h5 := hbasic.retxCapacity
      omega
    exact
      { flight := fun i hi => hcover.mem (by rwa [hgap] at hi)
        contiguous := hcont hopen
        disjoint := Contiguous.disjoint (hcont hopen) htotal
        last := fun entry hlast => (hcover.getLast hlast).trans hnxt.symm }

/-- The established client with three bytes in flight. -/
theorem covered_data_in_flight :
    (endpoint.run (.new (.plain 100))
      [.connect 0 0, .segment synAck none 0 0, .send [1, 2, 3] 0]).conn.Covered :=
  covered_of_keepsCover
    ((Machine.ReachableBy.init endpoint (.inl ⟨_, rfl⟩)).run endpoint
      ⟨⟨rfl, trivial⟩, ⟨rfl, fun _ _ => .inl (by decide)⟩, ⟨rfl, trivial⟩, trivial⟩)
    (by decide)

/-- A bare SYN in SYN_SENT puts a second entry for the connection's own number into the queue. -/
theorem simultaneous_open_overlaps :
    let p := endpoint.run (.new (.plain 100)) [.connect 0 0, .segment clientSyn none 0 0]
    endpoint.Reachable p ∧ p.conn.state = .synReceived ∧ ¬ p.conn.Covered := by
  refine ⟨(Machine.ReachableBy.init endpoint (.inl ⟨_, rfl⟩)).run endpoint (endpoint.meets_true _ _),
    by decide, fun h => ?_⟩
  have hchain := List.isChain_iff_getElem.mp h.contiguous 0 (by decide)
  exact absurd hchain (by decide)

end Endpoint

end MiniTcp
