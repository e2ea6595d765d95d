import MiniTcp.Net.Tcp.ShutWindow
import MiniTcp.Net.Tcp.Timing
import MiniTcp.Net.Tcp.Ending
import MiniTcp.Net.Tcp.Stall

/-!
# How long persist lasts

While bytes wait behind a shut window the persist timer runs (`watchful_of_reachable`), and each probe sets it
again, at most `MAX_PERSIST_DELAY` ahead. But the byte that is probed is outstanding, so the retransmission
timer runs for it too, and every probe, timeout and fast retransmission counts as one retransmission of the
same entry. An answer that acknowledges nothing new resets none of this. `patient_iff` says that the
connection lasts exactly until that timer is due with the limit reached; `answered_and_given_up` is a peer that
answers everything and loses the connection after four minutes.
-/

namespace MiniTcp

namespace TCPConnection

variable {c d : TCPConnection} {seg : TCPSegment} {now : Time}

/-! ### The timer is armed -/

/-- While bytes wait behind a shut window the persist timer is armed. -/
def Watchful (c : TCPConnection) : Prop :=
  c.state.isSynchronised = true → c.peerWindow = 0 → c.sendQueue.buf ≠ [] → c.persistAt ≠ none

theorem flush_persistAt (now : Time) (hsync : c.state.isSynchronised = true) (hshut : c.peerWindow = 0)
    (hbuf : c.sendQueue.buf ≠ []) :
    (c.flush now).persistAt = some (c.persistAt.getD (now + c.persistDelay)) := by
  have hpos := List.length_pos_iff.mpr hbuf
  have hwork : ¬ (c.sendQueue.unsent = 0 ∧ c.sendQueue.inFlight = 0) := by
    unfold SendQueue.unsent
    omega
  unfold flush armPersistTimer
  rw [if_neg (by simp [hsync]), if_pos hshut, if_neg hwork]
  cases hat : c.persistAt <;> simp [hat]

theorem watchful_flush (c : TCPConnection) (now : Time) : (c.flush now).Watchful := by
  have hframe := sendFrame_flush c now
  intro hsync hshut hbuf
  rw [hframe.state] at hsync
  rw [hframe.peerWindow] at hshut
  rw [hframe.buf] at hbuf
  rw [flush_persistAt now hsync hshut hbuf]
  nofun

theorem Trailing.watchful (h : Trailing c d) (hc : c.Watchful)
    (hstate : d.state.isSynchronised = true → c.state.isSynchronised = true)
    (hwindow : d.peerWindow = c.peerWindow) : d.Watchful := by
  intro hsync hshut hbuf
  rw [h.persistAt]
  apply hc (hstate hsync) (hwindow ▸ hshut)
  rcases h.buf with heq | hclosed
  · rwa [heq] at hbuf
  · simp [hclosed, TcpState.isSynchronised] at hsync

theorem onPersistTimeout_persistAt (now : Time) (hsync : c.state.isSynchronised = true) (hshut : c.peerWindow = 0) :
    (c.onPersistTimeout now).persistAt = some (now + (c.onPersistTimeout now).persistDelay) := by
  unfold onPersistTimeout
  rw [if_neg (by omega), if_neg (by simp [hsync])]

theorem watchful_onPersistTimeout (c : TCPConnection) (now : Time) : (c.onPersistTimeout now).Watchful := by
  have hframe := sendFrame_onPersistTimeout c now
  intro hsync hshut hbuf
  rw [hframe.state] at hsync
  rw [hframe.peerWindow] at hshut
  rw [onPersistTimeout_persistAt now hsync hshut]
  nofun

theorem recv_window (c : TCPConnection) (maxBytes : Nat) (now : Time) :
    (c.recv maxBytes now).1.state = c.state ∧ (c.recv maxBytes now).1.peerWindow = c.peerWindow := by
  unfold recv
  split_ifs
  · exact ⟨rfl, rfl⟩
  · dsimp only
    split_ifs
    · have hframe := sendFrame_sendAck { c with recvQueue := (c.recvQueue.read maxBytes).1 } now
      exact ⟨hframe.state, hframe.peerWindow⟩
    · exact ⟨rfl, rfl⟩

theorem Watchful.of_buf_nil (h : c.sendQueue.buf = []) : c.Watchful := fun _ _ hbuf => absurd h hbuf

theorem Watchful.of_not_synchronised (h : c.state.isSynchronised = false) : c.Watchful := fun hsync => by
  simp [h] at hsync

theorem watchful_onTick (h : c.Watchful) (now : Time) : (c.onTick now).Watchful := by
  obtain ⟨-, hwindow, hpersist, hqueue⟩ := c.retransmitted_spec now
  have hstate := c.retransmitted_state now
  have hretx : (c.retransmitted now).Watchful := by
    split_ifs at hqueue hstate with hgone
    · exact .of_not_synchronised (by simp [hstate, TcpState.isSynchronised])
    · unfold Watchful
      rw [hstate.1, hwindow, hqueue.1, hpersist]
      exact h
  rw [onTick_eq]
  generalize c.retransmitted now = d at hretx
  dsimp only
  have hprobe : (if due d.persistAt now = true then d.onPersistTimeout now else d).Watchful := by
    split_ifs
    · exact watchful_onPersistTimeout d now
    · exact hretx
  generalize (if due d.persistAt now = true then d.onPersistTimeout now else d) = f at hprobe
  split_ifs
  · exact .of_buf_nil rfl
  · exact hprobe

theorem watchful_onSegment (hbasic : c.Basic) (h : c.Watchful) (srcIp : Option Bytes) (draw : SeqNo) :
    (c.onSegment seg srcIp draw now).1.Watchful := by
  have hclosed : ∀ {d : TCPConnection}, d.state = .closed → d.Watchful := fun hst =>
    .of_not_synchronised (by simp [hst, TcpState.isSynchronised])
  cases hsync : c.state.isSynchronised with
  | false =>
    -- in the handshake the buffer is empty, and an acknowledgement only shortens it
    have hempty := hbasic.buf_eq_nil hsync
    cases hrst : seg.isRst with
    | true =>
      by_cases hst : c.state = .closed
      · apply Watchful.of_buf_nil
        rw [onSegment_of_closed srcIp draw now hst, reject, if_pos hrst]
        exact hempty
      · rw [onSegment_of_rst srcIp draw now hst hrst]
        exact .of_buf_nil rfl
    | false =>
      cases htakes : c.takesAck seg with
      | false =>
        obtain ⟨-, -, hbuf | hst, -⟩ := onSegment_of_not_takesAck srcIp draw now htakes hrst
        · exact .of_buf_nil (hbuf.trans hempty)
        · exact hclosed hst
      | true =>
        obtain ⟨a, hsend, -, -, -, htrail⟩ := onSegment_of_takesAck srcIp draw now htakes
        rcases htrail.buf with hbuf | hst
        · apply Watchful.of_buf_nil
          rw [hbuf, processAck_buf, hsend, hempty]
          simp
        · exact hclosed hst
  | true =>
    have hcalm : Calm (if c.takesAck seg = true then (c.stamp now).processAck seg now else c)
        (c.onSegment seg srcIp draw now).1 := calm_onSegment srcIp draw now (.inl hsync)
    cases htakes : c.takesAck seg with
    | true =>
      have htrail := onSegment_of_synchronised srcIp draw now hsync htakes
      rw [if_pos htakes] at hcalm
      apply htrail.watchful _ _ hcalm.peerWindow
      · rw [processAck_eq_flush]
        exact watchful_flush _ now
      · intro
        rw [(ackFrame_processAck _ seg now).state]
        exact hsync
    | false =>
      rw [if_neg (by simp [htakes])] at hcalm
      cases hrst : seg.isRst with
      | true =>
        rw [onSegment_of_rst srcIp draw now (TcpState.ne_of_isSynchronised hsync).1 hrst]
        exact .of_buf_nil rfl
      | false =>
        obtain ⟨-, -, hbuf | hst, hpersist⟩ := onSegment_of_not_takesAck srcIp draw now htakes hrst
        · intro _ hshut hne
          rw [hpersist]
          exact h hsync (hcalm.peerWindow ▸ hshut) (hbuf ▸ hne)
        · exact hclosed hst

/-! ### Timers and segments before a shut window -/

theorem retransmitOldest_persistAt (c : TCPConnection) (now : Time) (fast : Bool) :
    (c.retransmitOldest now fast).persistAt = c.persistAt := by
  unfold retransmitOldest
  split
  · rfl
  · rw [resend_eq]
    dsimp only
    split_ifs <;> rfl

theorem processAck_persistAt (now : Time) (hsync : c.state.isSynchronised = true)
    (hbuf : c.sendQueue.buf ≠ []) (hack : seg.ack = c.sndUna) (hwin : seg.window = 0) {t : Time}
    (hat : c.persistAt = some t) : (c.processAck seg now).persistAt = some t := by
  have hgt : seqGt seg.ack c.sendQueue.una = false := by
    rw [hack, Bool.eq_false_iff]
    exact fun h => Serial.not_lt_self _ (seqGt_iff.mp h)
  obtain ⟨hqueue, hwindow, -, hstate, -⟩ := c.acked_spec seg now
  have hsame : (c.acked seg now).persistAt = c.persistAt := by
    have hcount : ((c.updatePeerWindow seg).1.countDuplicateAck seg).1.persistAt = c.persistAt := by
      unfold countDuplicateAck
      split_ifs <;> rfl
    unfold acked answerOldAck
    rw [hgt, if_neg Bool.false_ne_true]
    dsimp only
    split_ifs
    · rw [retransmitOldest_persistAt, hcount]
    · rw [retransmitOldest_persistAt, hcount]
    · exact hcount
  have hkept : (c.sendQueue.acknowledge seg.ack).1 = c.sendQueue := by
    simp [SendQueue.acknowledge, hgt]
  rw [processAck_eq_flush, flush_persistAt now (by rw [hstate]; exact hsync) (by simp [hwindow, hwin])
    (by rw [hqueue, hkept]; exact hbuf), hsame, hat]
  rfl

theorem onSegment_established (srcIp : Option Bytes) (draw : SeqNo) (now : Time) (hest : c.state = .established)
    (hrst : seg.isRst = false) (hfin : seg.isFin = false) :
    (c.onSegment seg srcIp draw now).1.state = .established := by
  have hsync : c.state.isSynchronised = true := by simp [hest, TcpState.isSynchronised]
  cases hproc : c.processes seg with
  | true =>
    obtain ⟨d, hdone, -, heq⟩ := onSegment_payloadDone srcIp draw now hproc
    rw [heq, if_neg (by simp [hfin]), hdone.state, stateAfterAck, hest]
    split_ifs <;> rfl
  | false =>
    rcases onSegment_of_not_processes srcIp draw now hsync hproc with ⟨hset, -⟩ | heq | heq
    · exact absurd (hrst.symm.trans hset) (by decide)
    · exact heq ▸ (sendFrame_reject (c.stamp now) seg now).state.trans hest
    · exact heq ▸ (sendFrame_sendAck (c.stamp now) now).state.trans hest

/-- Before a shut window a tick that does not give up leaves the buffer, and the persist timer as it was or
set again. -/
theorem onTick_shut (hest : c.state = .established) (hshut : c.peerWindow = 0)
    (hgives : c.givesUp now = false) :
    (c.onTick now).state = .established ∧ (c.onTick now).sendQueue.buf = c.sendQueue.buf ∧
      (c.onTick now).persistAt =
        if due c.persistAt now then some (now + (c.onTick now).persistDelay) else c.persistAt := by
  obtain ⟨-, hwindow, hpersist, hqueue⟩ := c.retransmitted_spec now
  have hstate := c.retransmitted_state now
  rw [hgives, if_neg Bool.false_ne_true] at hqueue hstate
  rw [onTick_eq]
  have hest' := hstate.1.trans hest
  generalize c.retransmitted now = d at hwindow hpersist hqueue hest'
  dsimp only
  have hframe := sendFrame_onPersistTimeout d now
  have hstays : (if due d.persistAt now = true then d.onPersistTimeout now else d).state = .established := by
    split_ifs
    · exact hframe.state.trans hest'
    · exact hest'
  rw [if_neg (by simp [hstays]), hstays, hpersist]
  refine ⟨rfl, ?_, ?_⟩
  · split_ifs
    · rw [hframe.buf, hqueue.1]
    · rw [hqueue.1]
  · split_ifs
    · apply onPersistTimeout_persistAt now _ (hwindow.trans hshut)
      simp [hest', TcpState.isSynchronised]
    · exact hpersist

end TCPConnection

namespace Endpoint

open TCPConnection

variable {p q : Endpoint} {e : Event}

theorem watchful_step (hbasic : p.conn.Basic) (h : p.conn.Watchful) (e : Event) : (p.step e).conn.Watchful := by
  cases e with
  | segment seg srcIp draw now => exact watchful_onSegment hbasic h srcIp draw
  | tick now => exact watchful_onTick h now
  | listen =>
    simp only [step, TCPConnection.listen]
    split_ifs
    · exact h
    · exact .of_not_synchronised rfl
  | connect draw now =>
    simp only [step]
    cases hconn : p.conn.connect draw now with
    | error err => exact h
    | ok c =>
      obtain ⟨-, rfl⟩ := connect_eq hconn
      exact .of_not_synchronised rfl
  | send data now =>
    simp only [step]
    cases hsend : p.conn.send data now with
    | error err => exact h
    | ok r =>
      obtain ⟨-, rfl | ⟨-, rfl⟩⟩ := send_ok _ hsend
      · exact h
      · exact watchful_flush _ now
  | recv maxBytes now =>
    obtain ⟨hstate, hwindow⟩ := recv_window p.conn maxBytes now
    exact (Trailing.recv p.conn maxBytes now).watchful h (by simp [hstate]) hwindow
  | close now =>
    simp only [step, put_conn, TCPConnection.close, sendFin_eq]
    split
    · rename_i hst
      exact fun _ => h (by simp [hst, TcpState.isSynchronised])
    · rename_i hst
      exact fun _ => h (by simp [hst, TcpState.isSynchronised])
    all_goals first
      | exact h
      | exact .of_buf_nil (by rw [abort_eq]; rfl)
      | exact .of_not_synchronised rfl
  | abort now => exact .of_buf_nil (by simp only [step, put_conn, abort_eq]; rfl)

theorem watchful_of_reachable (hp : endpoint.Reachable p) : p.conn.Watchful := by
  apply Machine.ReachableBy.induction (P := fun q => q.conn.Watchful) endpoint _ _ hp
  · intro q hq
    apply Watchful.of_buf_nil
    rcases hq with ⟨cfg, rfl⟩ | ⟨cfg, seg, draw, now, -, -, rfl⟩
    · rfl
    · rw [passive, beginPassiveOpen_eq]
      rfl
  · intro q e hq h _
    exact watchful_step (basic_of_reachable hq) h e

/-! ### The life of a connection before a shut window -/

/-- The window stays shut and nobody ends the connection: what the peer acknowledges is `snd_una` again, with
window 0, and neither side resets or closes. -/
def Shut (p : Endpoint) : Event → Prop
  | .segment seg _ _ _ => seg.isRst = false ∧ seg.isSyn = false ∧ seg.isFin = false ∧
      (seg.isAck = true → seg.ack = p.conn.sndUna ∧ seg.window = 0)
  | .close _ | .abort _ => False
  | _ => True

/-- The connection goes on: it keeps its state and its send buffer, and the persist timer stays armed, as it
was or set by this tick, with a delay within the bound. -/
structure Patient (p : Endpoint) (e : Event) : Prop where
  state : (p.step e).conn.state = p.conn.state
  buf : p.conn.sendQueue.buf <+: (p.step e).conn.sendQueue.buf
  delay : (p.step e).conn.persistDelay ≤ MAX_PERSIST_DELAY
  armed : ∃ t, (p.step e).conn.persistAt = some t ∧
    (p.conn.persistAt = some t ∨ ∃ now, e = .tick now ∧ t = now + (p.step e).conn.persistDelay)

/-- No tick finds the retransmission timer due with the oldest segment sent again `MAX_RETRANSMITS` times. -/
def Spared (p : Endpoint) (e : Event) : Prop := ∀ now, e = .tick now → p.conn.givesUp now = false

/-- An established connection with bytes to send behind a shut window. -/
structure Waits (p : Endpoint) : Prop where
  reachable : endpoint.Reachable p
  established : p.conn.state = .established
  buf : p.conn.sendQueue.buf ≠ []
  shut : p.conn.peerWindow = 0

namespace Waits

theorem sync (h : Waits p) : p.conn.state.isSynchronised = true := by
  simp [h.established, TcpState.isSynchronised]

theorem armed (h : Waits p) : ∃ t, p.conn.persistAt = some t :=
  Option.ne_none_iff_exists'.mp (watchful_of_reachable h.reachable h.sync h.shut h.buf)

theorem patient_of (h : Waits p) (e : Event) (hstate : (p.step e).conn.state = p.conn.state)
    (hbuf : p.conn.sendQueue.buf <+: (p.step e).conn.sendQueue.buf)
    (hat : (p.step e).conn.persistAt = p.conn.persistAt) : Patient p e where
  state := hstate
  buf := hbuf
  delay := persistDelay_le (h.reachable.step endpoint e trivial)
  armed := by
    obtain ⟨t, ht⟩ := h.armed
    exact ⟨t, hat.trans ht, .inl ht⟩

theorem patient_segment (h : Waits p) {seg : TCPSegment} {srcIp : Option Bytes} {draw : SeqNo} {now : Time}
    (hseg : Shut p (.segment seg srcIp draw now)) :
    Patient p (.segment seg srcIp draw now) ∧ (p.step (.segment seg srcIp draw now)).conn.peerWindow = 0 := by
  obtain ⟨hrst, hsyn, hfin, hack⟩ := hseg
  have hest := onSegment_established srcIp draw now h.established hrst hfin
  obtain ⟨hsame, hadopt⟩ := window_onSegment p.conn seg srcIp draw now (.inl h.sync)
  have hopen : (p.conn.onSegment seg srcIp draw now).1.state ≠ .closed := by
    rw [hest]
    nofun
  cases htakes : p.conn.takesAck seg with
  | false =>
    obtain ⟨-, -, hbuf, hat⟩ := onSegment_of_not_takesAck srcIp draw now htakes hrst
    refine ⟨h.patient_of _ (hest.trans h.established.symm) ?_ hat, (hsame htakes).peerWindow.trans h.shut⟩
    show p.conn.sendQueue.buf <+: (p.conn.onSegment seg srcIp draw now).1.sendQueue.buf
    rw [hbuf.resolve_right hopen]
  | true =>
    have hisAck : seg.isAck = true := by
      unfold takesAck at htakes
      rw [Bool.and_eq_true, Bool.and_eq_true] at htakes
      exact htakes.1.1
    obtain ⟨hsame, hwin⟩ := hack hisAck
    have htrail := onSegment_of_synchronised srcIp draw now h.sync htakes
    obtain ⟨t, ht⟩ := h.armed
    constructor
    · apply h.patient_of (.segment seg srcIp draw now) (hest.trans h.established.symm)
      · show p.conn.sendQueue.buf <+: (p.conn.onSegment seg srcIp draw now).1.sendQueue.buf
        rw [htrail.buf.resolve_right hopen, processAck_buf, if_neg]
        · rfl
        · rw [hsame]
          exact fun hgt => Serial.not_lt_self _ (seqGt_iff.mp hgt)
      · show (p.conn.onSegment seg srcIp draw now).1.persistAt = p.conn.persistAt
        rw [htrail.persistAt, ht]
        exact processAck_persistAt (c := p.conn.stamp now) now h.sync h.buf hsame hwin ht
    · exact (hadopt htakes).1.trans (by simp [hwin])

theorem patient_send (h : Waits p) (data : Bytes) (now : Time) : Patient p (.send data now) := by
  cases hsend : p.conn.send data now with
  | error err =>
    have hstep : p.step (.send data now) = p := by simp [Endpoint.step, hsend]
    apply h.patient_of <;> rw [hstep]
  | ok r =>
    obtain ⟨c, written⟩ := r
    have hstep : (p.step (.send data now)).conn = c := by simp [Endpoint.step, hsend]
    obtain ⟨-, heq | ⟨-, heq⟩⟩ := send_ok _ hsend
    · obtain ⟨rfl, -⟩ := Prod.mk.inj heq
      apply h.patient_of <;> rw [hstep]
    · obtain ⟨rfl, -⟩ := Prod.mk.inj heq
      have hframe := sendFrame_flush { p.conn with sendQueue := (p.conn.sendQueue.write data).1 } now
      have hbuf : p.conn.sendQueue.buf <+: (p.conn.sendQueue.write data).1.buf := by
        rw [SendQueue.write_buf]
        exact List.prefix_append _ _
      obtain ⟨t, ht⟩ := h.armed
      apply h.patient_of <;> rw [hstep]
      · exact hframe.state
      · rwa [hframe.buf]
      · have hne : (p.conn.sendQueue.write data).1.buf ≠ [] := by
          intro hnil
          exact h.buf (List.prefix_nil.mp (hnil ▸ hbuf))
        apply (flush_persistAt (c := { p.conn with sendQueue := (p.conn.sendQueue.write data).1 }) now h.sync h.shut
          hne).trans
        show some (p.conn.persistAt.getD _) = p.conn.persistAt
        rw [ht]
        rfl

theorem patient_step (h : Waits p) (he : Shut p e) (hspared : Spared p e) :
    Patient p e ∧ (p.step e).conn.peerWindow = 0 := by
  have hopen : p.conn.state ≠ .closed := by simp [h.established]
  have hstays : p.step e = p → Patient p e ∧ (p.step e).conn.peerWindow = 0 := by
    intro heq
    refine ⟨?_, by rw [heq]; exact h.shut⟩
    apply h.patient_of <;> rw [heq]
  cases e with
  | segment seg srcIp draw now => exact h.patient_segment he
  | send data now =>
    exact ⟨h.patient_send data now, (sameWindow_step p (e := .send data now) trivial).peerWindow.trans h.shut⟩
  | recv maxBytes now =>
    have htrail := Trailing.recv p.conn maxBytes now
    obtain ⟨hstate, hwindow⟩ := recv_window p.conn maxBytes now
    refine ⟨h.patient_of _ hstate ?_ htrail.persistAt, hwindow.trans h.shut⟩
    show p.conn.sendQueue.buf <+: (p.conn.recv maxBytes now).1.sendQueue.buf
    rw [htrail.buf.resolve_right (by rw [hstate]; exact hopen)]
  | tick now =>
    refine ⟨?_, (sameWindow_step p (e := .tick now) trivial).peerWindow.trans h.shut⟩
    obtain ⟨hstate, hbuf, hat⟩ := onTick_shut h.established h.shut (hspared now rfl)
    split_ifs at hat with hdue
    · exact ⟨hstate.trans h.established.symm, by simp [Endpoint.step, hbuf],
        persistDelay_le (h.reachable.step endpoint (.tick now) trivial), _, hat, .inr ⟨now, rfl, rfl⟩⟩
    · exact h.patient_of _ (hstate.trans h.established.symm) (by simp [Endpoint.step, hbuf]) hat
  | listen => exact hstays (by simp [Endpoint.step, TCPConnection.listen, hopen])
  | connect draw now => exact hstays (by simp [Endpoint.step, TCPConnection.connect, hopen])
  | close now => exact he.elim
  | abort now => exact he.elim

theorem step (h : Waits p) (he : Shut p e) (hspared : Spared p e) : Waits (p.step e) := by
  obtain ⟨hgoes, hshut⟩ := h.patient_step he hspared
  refine ⟨h.reachable.step endpoint e trivial, hgoes.state.trans h.established, ?_, hshut⟩
  intro hnil
  exact h.buf (List.prefix_nil.mp (hnil ▸ hgoes.buf))

theorem patient_iff_spared (h : Waits p) (he : Shut p e) : Patient p e ↔ Spared p e := by
  refine ⟨?_, fun hspared => (h.patient_step he hspared).1⟩
  rintro hgoes now rfl
  by_contra hgives
  have hclosed : (p.conn.onTick now).state = .closed :=
    (onTick_closed_iff (by simp [h.established])).mpr (.inl (by simpa using hgives))
  have hstate := hgoes.state
  rw [h.established] at hstate
  simp [Endpoint.step, hclosed] at hstate

end Waits

/-- While the window stays shut and nobody ends it, an established connection with bytes to send goes on, call
after call, exactly as long as no tick gives it up. -/
theorem patient_iff {es : List Event} (hp : endpoint.Reachable p) (hest : p.conn.state = .established)
    (hbuf : p.conn.sendQueue.buf ≠ []) (hwindow : p.conn.peerWindow = 0) (hes : endpoint.Meets Shut p es) :
    endpoint.Meets Patient p es ↔ endpoint.Meets Spared p es := by
  apply endpoint.meets_iff_meets (Q := Waits) (E := Shut)
  · exact fun _ _ h he hspared => h.step he hspared
  · exact fun _ _ h he => h.patient_iff_spared he
  · exact hes
  · exact ⟨hp, hest, hbuf, hwindow⟩

/-- For five seconds the waiting client is probed and repeated, and nothing is given up. -/
theorem patient_waitingClient :
    waitingClient.conn.state = .established ∧ waitingClient.conn.sendQueue.buf ≠ [] ∧
      waitingClient.conn.peerWindow = 0 ∧ endpoint.Meets Shut waitingClient [.tick (1 / 2), .tick 5] ∧
      endpoint.Meets Patient waitingClient [.tick (1 / 2), .tick 5] := by
  have hshut : endpoint.Meets Shut waitingClient [.tick (1 / 2), .tick 5] := ⟨trivial, trivial, trivial⟩
  refine ⟨by decide +kernel, by decide +kernel, by decide +kernel, hshut,
    (patient_iff reachable_waitingClient (by decide +kernel) (by decide +kernel) (by decide +kernel) hshut).mpr
      ⟨?_, ?_, trivial⟩⟩
  · rintro now ⟨⟩
    decide +kernel
  · rintro now ⟨⟩
    decide +kernel

/-- The event hands out a payload. -/
def speaks (p : Endpoint) (e : Event) : Bool :=
  ((p.step e).conn.sent.drop p.conn.sent.length).any (·.payload ≠ [])

/-- The event is an ACK of `snd_una` with window 0. -/
def answers (p : Endpoint) : Event → Bool
  | .segment seg _ _ _ => seg.flags = FLAG_ACK && seg.ack = p.conn.sndUna && seg.window = 0
  | _ => false

/-- Every payload that goes out is answered at once. -/
def answered (p : Endpoint) : List Event → Bool
  | [] => true
  | [e] => !speaks p e
  | e :: e' :: es => (!speaks p e || answers (p.step e) e') && answered (p.step e) (e' :: es)

/-- The timers at their deadlines, and two answers to each of them. -/
def probesAnswered : List Event :=
  [1 / 2, 3 / 2, 7 / 2, 15 / 2, 31 / 2, 63 / 2, 127 / 2, 247 / 2, 367 / 2, 487 / 2].flatMap fun now =>
    [.tick now, .segment shutAck none 0 now, .segment shutAck none 0 now]

/-- The peer answers every probe and every retransmission, and after four minutes the connection is gone. -/
theorem answered_and_given_up :
    endpoint.Reachable waitingClient ∧
      waitingClient.conn.state = .established ∧ waitingClient.conn.sendQueue.buf = [1, 2, 3] ∧
      waitingClient.conn.peerWindow = 0 ∧ answered waitingClient probesAnswered = true ∧
      (endpoint.run waitingClient probesAnswered).conn.state = .closed ∧
      (endpoint.run waitingClient probesAnswered).conn.sendQueue.buf = [] :=
  ⟨reachable_waitingClient, by decide +kernel⟩

end Endpoint

end MiniTcp
