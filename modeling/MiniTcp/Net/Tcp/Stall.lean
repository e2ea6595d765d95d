import MiniTcp.Net.Tcp.Acknowledge
import MiniTcp.Net.Tcp.Coverage

/-!
# No silent stall

A connection with work left must have a timer that will bring it back. When numbers are in flight the
retransmission queue is not empty (`Tracked`) and its timer is armed (`Basic`). When bytes wait and
nothing is in flight, the persist timer must be armed: `Awake`. `_flush` establishes it, since with
nothing in flight the effective window has room for at least one byte, so `_flush` either sends or, when
the peer's window is shut, arms the timer. Every call that could break it ends with `_flush`.
-/

namespace MiniTcp

namespace TCPConnection

variable {c d : TCPConnection} {seg : TCPSegment} {now : Time} {p : Endpoint}

/-- When bytes wait and nothing is in flight, the persist timer is armed. -/
def Awake (c : TCPConnection) : Prop :=
  c.sendQueue.nxt = c.sendQueue.una → c.sendQueue.buf ≠ [] → c.persistAt ≠ none

namespace Awake

theorem congr (h : Awake c) (huna : d.sendQueue.una = c.sendQueue.una)
    (hnxt : d.sendQueue.nxt = c.sendQueue.nxt) (hbuf : d.sendQueue.buf = c.sendQueue.buf)
    (hpersist : d.persistAt = c.persistAt) : Awake d := by
  unfold Awake
  rw [huna, hnxt, hbuf, hpersist]
  exact h

theorem of_buf_nil (h : c.sendQueue.buf = []) : Awake c := fun _ hbuf => absurd h hbuf

end Awake

theorem Basic.buf_eq_nil (h : Basic c) (hsync : c.state.isSynchronised = false) :
    c.sendQueue.buf = [] := by
  cases hst : c.state with
  | closed | listen => exact (h.idle (by simp [hst])).1
  | synSent | synReceived => exact (h.handshake (by simp [hst])).2.2
  | _ => simp [hst, TcpState.isSynchronised] at hsync

/-! ### Flushing -/

theorem untracked_transmitData {payload : Bytes} (hne : payload ≠ []) :
    c.untracked <+: (c.transmitData payload now).untracked := by
  rw [transmitData_eq c now hne]
  simp only [tracking]
  split_ifs
  · exact List.prefix_rfl
  · exact List.prefix_append _ _

theorem untracked_flushLoop (now : Time) (fuel : Nat) (c : TCPConnection) :
    c.untracked <+: (flushLoop now fuel c).untracked := by
  induction fuel generalizing c with
  | zero => exact List.prefix_rfl
  | succ fuel ih =>
    unfold flushLoop
    split_ifs
    · exact List.prefix_rfl
    · dsimp only
      split_ifs with hne
      · exact List.prefix_rfl
      · exact untracked_transmitData hne
      · exact (untracked_transmitData hne).trans (ih _)

theorem transmitData_nxt_ne {n : Nat} (hcap : c.retxQueue.capacity = 2 ^ 20)
    (hne : c.sendQueue.peek c.sendQueue.nxt n ≠ [])
    (hnil : (c.transmitData (c.sendQueue.peek c.sendQueue.nxt n) now).untracked = []) :
    (c.transmitData (c.sendQueue.peek c.sendQueue.nxt n) now).sendQueue.nxt ≠ c.sendQueue.una := by
  rw [transmitData_eq c now hne] at hnil ⊢
  have hlen : (c.sendQueue.peek c.sendQueue.nxt n).length ≤ 2 ^ 20 := by
    rcases RetransmitQueue.added_cases c.retxQueue c.sendQueue.nxt (FLAG_ACK ||| FLAG_PSH)
      (c.sendQueue.peek c.sendQueue.nxt n) now with
      ⟨hnone, -⟩ | ⟨-, hfit, -⟩
    · simp [tracking, dataSegment, segmentOf, hnone] at hnil
    · omega
  have hpos := List.length_pos_iff.mpr hne
  have hoffset : 2 * Serial.gap c.sendQueue.una c.sendQueue.nxt < 2 ^ 32 := by
    by_contra hfar
    have hneg : seqDiff c.sendQueue.nxt c.sendQueue.una < 0 := by
      rw [seqDiff_eq]
      exact not_le.mp fun h => hfar (Serial.diff_nonneg_iff.mp h)
    exact hne (if_pos (.inl hneg))
  intro heq
  have hshift : seqAdd c.sendQueue.nxt (c.sendQueue.peek c.sendQueue.nxt n).length =
      Serial.shift c.sendQueue.una (Serial.gap c.sendQueue.una c.sendQueue.nxt +
        (c.sendQueue.peek c.sendQueue.nxt n).length) := by
    rw [seqAdd, ← Serial.shift_shift, Serial.shift_gap]
  have hgap := Serial.gap_shift (b := c.sendQueue.una) (n := Serial.gap c.sendQueue.una c.sendQueue.nxt +
    (c.sendQueue.peek c.sendQueue.nxt n).length) (by omega)
  rw [← hshift] at hgap
  dsimp only at heq
  rw [heq, Serial.gap_self] at hgap
  omega

theorem nextPayload_of_idle (hmss : 0 < c.reno.mss) (hpeer : 0 < c.peerMss)
    (hidle : c.sendQueue.nxt = c.sendQueue.una) :
    ¬ c.sendQueue.inFlight ≥ c.reno.effectiveWindow c.peerWindow ∧
      (c.nextPayload.1 = [] → c.sendQueue.buf = []) := by
  have hwindow := c.reno.mss_le_effectiveWindow c.peerWindow
  have hdiff : seqDiff c.sendQueue.nxt c.sendQueue.una = 0 := by
    rw [hidle, seqDiff_eq, Serial.diff_self]
  have hflight : c.sendQueue.inFlight = 0 := by rw [SendQueue.inFlight, hdiff]; rfl
  refine ⟨by omega, fun hnil => ?_⟩
  unfold nextPayload SendQueue.peek at hnil
  dsimp only at hnil
  rw [hdiff, hflight, if_neg (by omega), Int.toNat_zero, List.drop_zero,
    List.take_eq_nil_iff] at hnil
  rcases hnil with hnil | hnil
  · omega
  · exact hnil

theorem flushLoop_moves (now : Time) (fuel : Nat) (c : TCPConnection) (hmss : 0 < c.reno.mss)
    (hpeer : 0 < c.peerMss) (hcap : c.retxQueue.capacity = 2 ^ 20)
    (hfuel : 0 < fuel ∨ c.sendQueue.nxt ≠ c.sendQueue.una)
    (hnil : (flushLoop now fuel c).untracked = []) :
    (flushLoop now fuel c).sendQueue.nxt ≠ (flushLoop now fuel c).sendQueue.una ∨
      (flushLoop now fuel c).sendQueue.buf = [] := by
  induction fuel generalizing c with
  | zero => exact .inl (hfuel.resolve_left (by omega))
  | succ fuel ih =>
    unfold flushLoop at hnil ⊢
    split_ifs at hnil ⊢ with hfull
    · by_cases hidle : c.sendQueue.nxt = c.sendQueue.una
      · exact absurd hfull (nextPayload_of_idle hmss hpeer hidle).1
      · exact .inl hidle
    · dsimp only at hnil ⊢
      split_ifs at hnil ⊢ with hne hshort
      · by_cases hidle : c.sendQueue.nxt = c.sendQueue.una
        · exact .inr ((nextPayload_of_idle hmss hpeer hidle).2 hne)
        · exact .inl hidle
      · refine .inl ?_
        rw [(sendFrame_transmitData c _ now).una]
        exact transmitData_nxt_ne hcap hne hnil
      · have hsent : (c.transmitData c.nextPayload.1 now).untracked = [] :=
          List.prefix_nil.mp (hnil ▸ untracked_flushLoop now fuel _)
        refine ih _ ?_ ?_ ?_ (.inr ?_) hnil
        · rw [transmitData_eq c now hne]
          exact hmss
        · rw [transmitData_eq c now hne]
          exact hpeer
        · rw [transmitData_eq c now hne]
          exact RetransmitQueue.added_capacity.trans hcap
        · rw [(sendFrame_transmitData c _ now).una]
          exact transmitData_nxt_ne hcap hne hsent

/-- What `_flush` needs to make progress. -/
structure CanFlush (c : TCPConnection) : Prop where
  mss : 0 < c.reno.mss
  peerMss : 0 < c.peerMss
  capacity : c.retxQueue.capacity = 2 ^ 20

theorem Basic.canFlush (h : Basic c) : CanFlush c :=
  ⟨by rw [h.mss]; exact c.cfg.mss_pos, h.peerMss, h.retxCapacity⟩

theorem awake_flush (hsync : c.state.isSynchronised = true) (h : CanFlush c)
    (hnil : (c.flush now).untracked = []) : (c.flush now).Awake := by
  unfold flush at hnil ⊢
  rw [if_neg (by rw [hsync]; decide)] at hnil ⊢
  split_ifs at hnil ⊢ with hshut
  · -- the window is shut: the persist timer is armed when there is anything to send
    unfold armPersistTimer
    intro hidle hbuf
    split_ifs at hidle hbuf ⊢ with hempty
    · have hlen := List.length_pos_iff.mpr hbuf
      unfold SendQueue.unsent at hempty
      simp only at hlen
      omega
    · split <;> simp_all
  · intro hidle hbuf
    have hmoves := flushLoop_moves now (c.sendQueue.buf.length + 1)
      { c with persistAt := none, persistDelay := DEFAULT_PERSIST_DELAY } h.mss h.peerMss h.capacity
      (.inl (Nat.succ_pos _)) hnil
    exact (hmoves.elim (fun hne => hne hidle) fun hempty => hbuf hempty).elim

/-! ### Calls -/

theorem Trailing.awake (h : Trailing c d) (hd : d.Basic) (hc : c.Awake) : d.Awake := by
  rcases h.buf with hbuf | hclosed
  · exact hc.congr h.una h.nxt hbuf h.persistAt
  · exact .of_buf_nil (hd.idle (.inl hclosed)).1

theorem canFlush_answerOldAck (h : CanFlush c) : CanFlush (c.answerOldAck seg now) := by
  have hcount : CanFlush ((c.updatePeerWindow seg).1.countDuplicateAck seg).1 := by
    unfold countDuplicateAck
    split_ifs
    · exact ⟨by rw [RenoCongestion.onDuplicateAck_mss]; exact h.mss, h.peerMss, h.capacity⟩
    · exact ⟨h.mss, h.peerMss, h.capacity⟩
  have hresend : ∀ (b : TCPConnection) (fast : Bool), CanFlush b → CanFlush (b.retransmitOldest now fast) := by
    intro b fast hb
    unfold retransmitOldest
    split
    · exact hb
    · rw [resend_eq]
      dsimp only
      split_ifs
      · exact ⟨hb.mss, hb.peerMss, RetransmitQueue.markRetransmitted_capacity.trans hb.capacity⟩
      · exact ⟨hb.mss, hb.peerMss, RetransmitQueue.markRetransmitted_capacity.trans hb.capacity⟩
  unfold answerOldAck
  dsimp only
  split_ifs
  · exact hresend _ true hcount
  · exact hresend _ false hcount
  · exact hcount

theorem awake_processAck (hsync : c.state.isSynchronised = true) (h : CanFlush c)
    (hnil : (c.processAck seg now).untracked = []) : (c.processAck seg now).Awake := by
  unfold processAck at hnil ⊢
  split_ifs at hnil ⊢ with hold
  · rw [processOldAck_eq] at hnil ⊢
    refine awake_flush ?_ (canFlush_answerOldAck h) hnil
    rw [(c.answerOldAck_frame seg now).1.state, hsync]
  · have hgt : seqGt seg.ack c.sendQueue.una = true := by simpa using hold
    rw [Leads.processNewAck_eq now hgt] at hnil ⊢
    refine awake_flush hsync ⟨?_, h.peerMss, h.capacity⟩ hnil
    simp only [armRetransmitTimer, updatePeerWindow, retire, RenoCongestion.onAck_mss]
    exact h.mss

end TCPConnection

namespace Endpoint

open TCPConnection

variable {p q : Endpoint}

theorem awake_onSegment {seg : TCPSegment} {srcIp : Option Bytes} {draw : SeqNo} {now : Time}
    (hbasic : p.conn.Basic) (hafter : (p.conn.onSegment seg srcIp draw now).1.Basic)
    (hnil : (p.conn.onSegment seg srcIp draw now).1.untracked = []) (h : p.conn.Awake) :
    (p.conn.onSegment seg srcIp draw now).1.Awake := by
  cases hrst : seg.isRst with
  | true =>
    by_cases hclosed : p.conn.state = .closed
    · have hsame : (p.conn.onSegment seg srcIp draw now).1.sendQueue = p.conn.sendQueue := by
        rw [onSegment_of_closed srcIp draw now hclosed, reject, if_pos hrst]
        rfl
      exact .of_buf_nil (by rw [hsame]; exact (hbasic.idle (.inl hclosed)).1)
    · rw [onSegment_of_rst srcIp draw now hclosed hrst]
      exact .of_buf_nil rfl
  | false =>
    cases htakes : p.conn.takesAck seg with
    | false =>
      obtain ⟨huna, hnxt, hbuf | hclosed, hpersist⟩ :=
        onSegment_of_not_takesAck srcIp draw now htakes hrst
      · exact h.congr huna hnxt hbuf hpersist
      · exact .of_buf_nil (hafter.idle (.inl hclosed)).1
    | true =>
      cases hsync : p.conn.state.isSynchronised with
      | true =>
        have htrail := onSegment_of_synchronised srcIp draw now hsync htakes
        refine htrail.awake hafter (awake_processAck hsync ?_ (htrail.untracked ▸ hnil))
        exact ⟨hbasic.canFlush.mss, hbasic.peerMss, hbasic.retxCapacity⟩
      | false =>
        -- in the handshake the buffer is empty, and an acknowledgement only shortens it
        obtain ⟨a, hsend, -, -, -, htrail⟩ := onSegment_of_takesAck srcIp draw now htakes
        have hempty : (a.processAck seg now).sendQueue.buf = [] := by
          rw [processAck_buf, hsend, hbasic.buf_eq_nil hsync]
          simp
        rcases htrail.buf with hbuf | hclosed
        · exact .of_buf_nil (hbuf.trans hempty)
        · exact .of_buf_nil (hafter.idle (.inl hclosed)).1

theorem awake_onPersistTimeout {c : TCPConnection} {now : Time} (hbasic : c.Basic)
    (hnil : (c.onPersistTimeout now).untracked = []) : (c.onPersistTimeout now).Awake := by
  cases hsync : c.state.isSynchronised with
  | false =>
    -- nothing is buffered, and `_flush` does nothing
    refine .of_buf_nil ?_
    unfold onPersistTimeout
    rw [hsync]
    simp only [Bool.not_false, if_true]
    split_ifs
    · rw [(sendFrame_flush _ now).buf]
      exact hbasic.buf_eq_nil hsync
    · exact hbasic.buf_eq_nil hsync
  | true =>
    unfold onPersistTimeout at hnil ⊢
    split_ifs at hnil ⊢ with hopen hclosed
    · exact awake_flush hsync ⟨hbasic.canFlush.mss, hbasic.peerMss, hbasic.retxCapacity⟩ hnil
    · rw [hsync] at hclosed
      cases hclosed
    · exact fun _ _ => by simp

theorem awake_onTick {now : Time} (hbasic : p.conn.Basic)
    (hnil : (p.conn.onTick now).untracked = []) (h : p.conn.Awake) :
    (p.conn.onTick now).Awake := by
  unfold onTick at hnil ⊢
  dsimp only at hnil ⊢
  have keep : ∀ {c d : TCPConnection}, Leads true (.tick now) p c d → c.Basic → d.Basic := fun hlead hc =>
    keeps_actions (I := fun q => q.conn.Basic) (fun _ _ hq ha => hq.action ha) hlead hc
  -- the delayed ACK
  have h1 : ∀ d, d = (if due p.conn.delayedAckAt now = true then p.conn.sendAck now else p.conn) →
      d.Basic ∧ d.Awake := by
    rintro d rfl
    split_ifs with hdue
    · have hb := keep (Leads.sendAck now (.inr fun hnone => by simp [due, hnone] at hdue)) hbasic
      exact ⟨hb, (Trailing.sendAck p.conn now).awake hb h⟩
    · exact ⟨hbasic, h⟩
  obtain ⟨hb1, ha1⟩ := h1 _ rfl
  generalize (if due p.conn.delayedAckAt now = true then p.conn.sendAck now else p.conn) = c1
    at hb1 ha1 hnil ⊢
  -- the retransmission timer
  have h2 : ∀ d, d = (if due c1.retransmitAt now = true then c1.onRetransmitTimeout now else c1) →
      d.Basic ∧ d.Awake := by
    rintro d rfl
    split_ifs
    · have hb := keep (Leads.onRetransmitTimeout (c := c1) rfl) hb1
      refine ⟨hb, ?_⟩
      unfold onRetransmitTimeout
      split
      · exact ha1.congr rfl rfl rfl rfl
      · split_ifs
        · exact .of_buf_nil rfl
        · rw [resend_eq]
          exact ha1.congr rfl rfl rfl rfl
    · exact ⟨hb1, ha1⟩
  obtain ⟨hb2, ha2⟩ := h2 _ rfl
  generalize (if due c1.retransmitAt now = true then c1.onRetransmitTimeout now else c1) = c2
    at hb2 ha2 hnil ⊢
  -- the persist timer
  have h3 : ∀ d, d = (if due c2.persistAt now = true then c2.onPersistTimeout now else c2) →
      d.untracked = [] → d.Awake := by
    rintro d rfl
    split_ifs
    · exact awake_onPersistTimeout hb2
    · exact fun _ => ha2
  have ha3 := h3 _ rfl
  generalize (if due c2.persistAt now = true then c2.onPersistTimeout now else c2) = c3
    at ha3 hnil ⊢
  split_ifs at hnil ⊢
  · exact .of_buf_nil rfl
  · exact ha3 hnil

theorem trailing_recv (c : TCPConnection) (maxBytes : Nat) (now : Time) : Trailing c (c.recv maxBytes now).1 := by
  have hread : ∀ r : ReceiveQueue, Trailing c { c with recvQueue := r } :=
    fun r => .of_eq id rfl rfl rfl rfl
  unfold TCPConnection.recv
  split_ifs
  · exact .refl _
  · dsimp only
    split_ifs
    · exact (hread _).trans (.sendAck _ now)
    · exact hread _

/-- The FIN takes a number that is not `snd_una`, as less than half the ring is in flight. -/
theorem awake_sendFin (htracked : p.conn.Tracked) (hbasic : p.conn.Basic)
    (hopen : p.conn.Retransmitting) {now : Time} {st : TcpState}
    (hempty : ({ p.conn.sendFin now with state := st } : TCPConnection).untracked = []) :
    ({ p.conn.sendFin now with state := st } : TCPConnection).Awake := by
  intro hidle
  rw [sendFin_eq] at hempty hidle
  have hnone : p.conn.untracked = [] := by
    simp only [tracking] at hempty
    split_ifs at hempty
    · exact hempty
    · simp at hempty
  obtain ⟨n, hcover, hnxt⟩ := htracked.covers hnone hopen
  have hn := htracked.flight_lt hbasic.retxCapacity hcover
  have hgap := Serial.gap_shift (b := p.conn.sendQueue.una) (n := n + 1) (by omega)
  have hback : seqAdd p.conn.sendQueue.nxt 1 = p.conn.sendQueue.una := hidle
  rw [← Serial.shift_shift, ← seqAdd, ← seqAdd, ← hnxt, hback, Serial.gap_self] at hgap
  omega

theorem awake_close (hp : endpoint.Reachable p) {now : Time}
    (hnil : (p.conn.close now).untracked = []) (hsync : (p.conn.close now).state.isSynchronised = true)
    (h : p.conn.Awake) : (p.conn.close now).Awake := by
  have htracked := tracked_of_reachable hp
  have hbasic := basic_of_reachable hp
  unfold TCPConnection.close at hnil hsync ⊢
  cases hst : p.conn.state with
  | established | closeWait =>
    rw [hst] at hnil
    exact awake_sendFin htracked hbasic (by simp [Retransmitting, hst]) hnil
  | synSent | synReceived | closed | listen =>
    rw [hst] at hsync
    cases hsync
  | _ => exact h

theorem awake_step (hp : endpoint.Reachable p) (e : Event) (hnil : (p.step e).conn.untracked = [])
    (h : p.conn.Awake) : (p.step e).conn.Awake := by
  have hbasic := basic_of_reachable hp
  have hafter := basic_of_reachable (hp.step endpoint e trivial)
  rw [endpoint_next] at hafter
  cases hsync : (p.step e).conn.state.isSynchronised with
  | false => exact .of_buf_nil (hafter.buf_eq_nil hsync)
  | true =>
  cases e with
  | segment seg srcIp draw now => exact awake_onSegment hbasic hafter hnil h
  | tick now => exact awake_onTick hbasic hnil h
  | listen =>
    simp only [step, TCPConnection.listen] at hsync ⊢
    split_ifs at hsync ⊢
    · exact h
    · cases hsync
  | connect draw now =>
    simp only [step] at hsync ⊢
    cases hconn : p.conn.connect draw now with
    | error err => exact h
    | ok c =>
      obtain ⟨-, rfl⟩ := connect_eq hconn
      rw [hconn] at hsync
      cases hsync
  | abort now => cases hsync
  | recv maxBytes now => exact (trailing_recv p.conn maxBytes now).awake hafter h
  | send data now =>
    cases hsend : p.conn.send data now with
    | error err =>
      simp only [step, hsend]
      exact h
    | ok r =>
      simp only [step, hsend, put_conn] at hnil ⊢
      obtain ⟨hst, rfl | ⟨-, rfl⟩⟩ := send_ok _ hsend
      · exact h
      · have hopen : p.conn.state.isSynchronised = true := by
          rcases hst with hst | hst <;> rw [hst] <;> rfl
        exact awake_flush hopen ⟨hbasic.canFlush.mss, hbasic.peerMss, hbasic.retxCapacity⟩ hnil
  | close now => exact awake_close hp hnil hsync h

theorem awake_of_created (h : q.Created) : q.conn.Awake := by
  refine .of_buf_nil ((basic_of_created h).buf_eq_nil ?_)
  rcases h with ⟨cfg, rfl⟩ | ⟨cfg, seg, draw, now, -, -, rfl⟩
  · rfl
  · simp only [passive]
    rw [beginPassiveOpen_eq]
    rfl

/-- The event does not make `add` refuse an entry. -/
def NoRefusal (p : Endpoint) (e : Event) : Prop := (p.step e).conn.untracked = p.conn.untracked

/-- In every run in which `add` refuses nothing, a connection in one of the states that move data or a
FIN has a timer armed whenever a byte is buffered or a number is in flight; and the retransmission timer
is armed exactly when the retransmission queue is not empty. -/
theorem timer_armed (hp : endpoint.ReachableBy NoRefusal p)
    (hstate : p.conn.state.isSynchronised = true ∧ p.conn.state ≠ .timeWait) :
    (p.conn.sendQueue.buf ≠ [] ∨ p.conn.sndNxt ≠ p.conn.sndUna →
      p.conn.retransmitAt ≠ none ∨ p.conn.persistAt ≠ none) ∧
    (p.conn.retransmitAt ≠ none ↔ p.conn.retxQueue.segments ≠ []) := by
  have hbasic := basic_of_reachable hp.reachable
  have hempty : p.conn.untracked = [] := untracked_eq_nil (fun _ _ h => h) hp
  have hawake : p.conn.Awake := by
    refine Machine.ReachableBy.induction (P := fun q => q.conn.Awake) endpoint
      (fun _ => awake_of_created) (fun q e hq h he => ?_) hp
    exact awake_step hq.reachable e (he.trans (untracked_eq_nil (fun _ _ h => h) hq)) h
  have htimer : p.conn.retransmitAt ≠ none ↔ p.conn.retxQueue.segments ≠ [] :=
    not_congr hbasic.timer
  refine ⟨fun hwork => ?_, htimer⟩
  by_cases hidle : p.conn.sndNxt = p.conn.sndUna
  · exact .inr (hawake hidle (hwork.resolve_right (not_not.mpr hidle)))
  · have hne := TcpState.ne_of_isSynchronised hstate.1
    obtain ⟨n, hcover, hnxt⟩ :=
      (tracked_of_reachable hp.reachable).covers hempty ⟨hne.1, hne.2.1, hstate.2⟩
    refine .inl (htimer.mpr fun hsegs => hidle ?_)
    rw [hsegs] at hcover
    rw [sndNxt, hnxt, hcover.eq_zero]
    exact Serial.shift_zero _

/-- The established client with a shut window and bytes waiting. -/
theorem timer_armed_shut :
    let p := endpoint.run (.new (.plain 100))
      [.connect 0 0, .segment synAck none 0 0, .segment { aheadAck with ack := 101, window := 0 } none 0 0,
        .send [1, 2, 3] 0]
    (p.conn.state.isSynchronised = true ∧ p.conn.state ≠ .timeWait) ∧
      (p.conn.sendQueue.buf ≠ [] ∨ p.conn.sndNxt ≠ p.conn.sndUna →
        p.conn.retransmitAt ≠ none ∨ p.conn.persistAt ≠ none) :=
  have hmeets : endpoint.Meets NoRefusal (.new (.plain 100))
      [.connect 0 0, .segment synAck none 0 0, .segment { aheadAck with ack := 101, window := 0 } none 0 0,
        .send [1, 2, 3] 0] := ⟨rfl, rfl, rfl, rfl, trivial⟩
  ⟨by decide, (timer_armed ((Machine.ReachableBy.init endpoint (.inl ⟨_, rfl⟩)).run endpoint hmeets)
    (by decide)).1⟩

end Endpoint

end MiniTcp
