import MiniTcp.Net.Tcp.Intake
import MiniTcp.Net.Tcp.Network
import MiniTcp.Net.Tcp.Pacing

/-!
# The closing states and what they say about the run

Two connections, each with its own numbers (`Laid`) and those it has taken of the other's (`Taken`). In
every run the state of either tells whether the peer's FIN was consumed, whether its own was sent, and
whether `snd_una` is past it. The last of these needs `Paced`: an ACK half a ring ahead would move the
state and leave `snd_una` behind.
-/

namespace MiniTcp

open TCPConnection

namespace TCPConnection

variable {c d : TCPConnection} {seg : TCPSegment}

/-! ### Our own FIN -/

/-- A connection that has sent its FIN is in FIN_WAIT_2 or TIME_WAIT exactly when `snd_una` is past it. -/
def FinKnown (c : TCPConnection) : Prop :=
  c.state.isSynchronised = true → ∀ finSeq, c.finSeq = some finSeq →
    (seqGe c.sndUna (seqAdd finSeq 1) = true ↔ c.state = .finWait2 ∨ c.state = .timeWait)

namespace FinKnown

theorem of_finSeq_none (h : c.finSeq = none) : c.FinKnown := by
  intro _ finSeq hfin
  rw [h] at hfin
  cases hfin

theorem of_not_synchronised (h : c.state.isSynchronised = false) : c.FinKnown := by
  intro hsync
  rw [h] at hsync
  cases hsync

theorem congr (h : c.FinKnown) (hstate : d.state = c.state) (huna : d.sndUna = c.sndUna)
    (hfin : d.finSeq = c.finSeq) : d.FinKnown := by
  unfold FinKnown
  rw [hstate, huna, hfin]
  exact h

theorem consumeFin (h : c.FinKnown) (hno : c.state ≠ .closing) (now : Time) :
    (c.consumeFin now).FinKnown := by
  have hframe := sendFrame_sendAck
    { c with recvQueue := { c.recvQueue with nxt := seqAdd c.recvQueue.nxt 1 } } now
  have hd : (({ c with recvQueue := { c.recvQueue with nxt := seqAdd c.recvQueue.nxt 1 } } :
      TCPConnection).sendAck now).FinKnown := h.congr hframe.state hframe.una hframe.finSeq
  have hno' := hframe.state.trans_ne hno
  unfold TCPConnection.consumeFin
  dsimp only
  generalize ({ c with recvQueue := { c.recvQueue with nxt := seqAdd c.recvQueue.nxt 1 } } :
    TCPConnection).sendAck now = d at hd hno' ⊢
  split_ifs with h1 h2 h3 h4
  · intro _ finSeq hfin
    have hold := hd (by rw [h1]; rfl) finSeq hfin
    simp only [h1, reduceCtorEq, or_self] at hold ⊢
    exact hold
  · intro _ finSeq hfin
    have hfin' : d.finSeq = some finSeq := hfin
    rw [hfin', Option.any_some] at h3
    exact iff_of_true h3 (.inr rfl)
  · intro _ finSeq hfin
    have hfin' : d.finSeq = some finSeq := hfin
    rw [hfin', Option.any_some] at h3
    exact iff_of_false h3 (by simp)
  · intro _ finSeq hfin
    exact iff_of_true ((hd (by rw [h4]; rfl) finSeq hfin).mpr (.inl h4)) (.inr rfl)
  · exact hd

theorem handleFin (h : c.FinKnown) (hno : c.state = .closing → c.finDue seg = false)
    (hfin : seg.isFin = true) (now : Time) : (c.handleFin seg now).FinKnown := by
  cases hdue : c.finDue seg with
  | true =>
    rw [handleFin_of_due now hdue]
    apply h.consumeFin
    intro hst
    rw [hno hst] at hdue
    cases hdue
  | false =>
    rw [handleFin_of_not_due now hfin hdue]
    have hframe := sendFrame_sendAck c now
    exact h.congr hframe.state hframe.una hframe.finSeq

end FinKnown

theorem opening_of_onSegment {srcIp : Option Bytes} {draw : SeqNo} {now : Time}
    (hsync : (c.onSegment seg srcIp draw now).1.state.isSynchronised = true) :
    c.state.isSynchronised = true ∨ c.state = .synSent ∨ c.state = .synReceived := by
  cases hst : c.state with
  | closed =>
    have hreject : (c.onSegment seg srcIp draw now).1 = (c.stamp now).reject seg now := by
      simp [onSegment, dispatch, stamp, hst]
    rw [hreject, (sendFrame_reject (c.stamp now) seg now).state, stamp, hst] at hsync
    cases hsync
  | listen =>
    have hkept : (c.onSegment seg srcIp draw now).1 = (c.stamp now).handleRst ∨
        (c.onSegment seg srcIp draw now).1 = c.stamp now := by
      by_cases hrst : seg.isRst = true
      · exact .inl (by simp [onSegment, dispatch, stamp, hst, hrst])
      · exact .inr (by simp [onSegment, dispatch, stamp, hst, hrst])
    rcases hkept with heq | heq
    · rw [heq] at hsync
      cases hsync
    · rw [heq, stamp, hst] at hsync
      cases hsync
  | synSent => exact .inr (.inl rfl)
  | synReceived => exact .inr (.inr rfl)
  | _ => exact .inl rfl

end TCPConnection

namespace Endpoint

variable {x y z : Extent} {irs : SeqNo} {k r s : Nat} {b : Bool} {e : Event} {p q q' : Endpoint}
  {seg : TCPSegment}

theorem seqGe_after_fin {iss : SeqNo} {u : Nat} (hfin : x.fin = some k) (hu : u ≤ x.used) :
    seqGe (streamSeq iss u) (seqAdd (streamSeq iss k) 1) = true ↔ k < u := by
  have hk := x.fin_lt k hfin
  have hmax := x.used_le
  rw [seqAdd_streamSeq, seqGe, Bool.or_eq_true, beq_iff_eq, streamSeq_inj (by omega) (by omega)]
  show u = k + 1 ∨ seqGt (streamSeq iss u) (streamSeq iss (k + 1)) = true ↔ k < u
  rw [seqGt_streamSeq_iff (by omega) (by omega)]
  omega

theorem Laid.closing_state (h : Laid x p) (hsync : p.conn.state.isSynchronised = true)
    (hfin : x.fin = some k) : p.conn.state = .finWait1 ∨ p.conn.state = .finWait2 ∨
      p.conn.state = .closing ∨ p.conn.state = .lastAck ∨ p.conn.state = .timeWait := by
  have hcan : ¬ p.conn.canSend = true := by
    rw [h.flowing hsync, hfin]
    exact Option.some_ne_none k
  cases hst : p.conn.state <;> simp_all [canSend, TcpState.isSynchronised]

/-- An ACK moves `snd_una` past our FIN exactly when `_maybe_advance_after_ack` takes the FIN for
acknowledged. -/
theorem Laid.ack_past_fin (h : Laid x p) (hknown : p.conn.FinKnown)
    (hpaced : p.conn.sndUna = streamSeq p.conn.iss 0 → p.conn.Paced)
    (hsync : p.conn.state.isSynchronised = true) (hfin : x.fin = some k)
    (hack : Acks p.conn.iss x.used seg) (hrst : seg.isRst = false) {una : SeqNo}
    (huna : una = if seg.isAck = true ∧ seqGt seg.ack p.conn.sndUna = true then seg.ack
      else p.conn.sndUna) :
    seqGe una (seqAdd (streamSeq p.conn.iss k) 1) = true ↔
      p.conn.state = .finWait2 ∨ p.conn.state = .timeWait ∨ p.conn.acksFin seg = true := by
  have hfinSeq : p.conn.finSeq = some (streamSeq p.conn.iss k) := by rw [h.finSeq, hfin]; rfl
  obtain ⟨u, hu, hsnd, hnxt, -⟩ := h.aligned hsync
  have hsnd' : p.conn.sndUna = streamSeq p.conn.iss u := hsnd
  have hold := hknown hsync _ hfinSeq
  rw [hsnd', seqGe_after_fin hfin hu] at hold
  rw [← or_assoc, ← hold]
  have hk := x.fin_lt k hfin
  have hmax := x.used_le
  by_cases hisAck : seg.isAck = true
  swap
  · have hno : p.conn.acksFin seg = false := by simp [acksFin, hisAck]
    rw [huna, if_neg fun h => hisAck h.1, hsnd', seqGe_after_fin hfin hu, hno]
    simp
  obtain ⟨j, hj, hseg⟩ := hack hisAck hrst
  have hacks : p.conn.acksFin seg = true ↔ k < j := by
    simp only [acksFin, hisAck, hfinSeq, Option.any_some, Bool.true_and]
    rw [hseg, seqGe_after_fin hfin hj]
  have hgt : seqGt (streamSeq p.conn.iss j) (streamSeq p.conn.iss u) = true ↔
      u < j ∧ j < u + 2 ^ 31 := seqGt_streamSeq_iff (by omega) (by omega)
  rw [huna, hacks, hseg, hsnd']
  by_cases hfar : j < u + 2 ^ 31
  · by_cases huj : u < j
    · rw [if_pos ⟨hisAck, hgt.mpr ⟨huj, hfar⟩⟩, seqGe_after_fin hfin hj]
      omega
    · rw [if_neg fun h => huj (hgt.mp h.2).1, seqGe_after_fin hfin hu]
      omega
  · -- half a ring ahead: everything would still be in flight
    obtain rfl : u = 0 := by omega
    have hopen : ¬ p.conn.Stopped := by
      rintro (hst | hst)
      · exact (TcpState.ne_of_isSynchronised hsync).1 hst
      · have hpast := hold.mpr (.inr hst)
        omega
    have hflight := (hpaced hsnd').gap_lt hopen
    rw [hsnd, hnxt, gap_streamSeq (Nat.zero_le _) (by omega)] at hflight
    omega

theorem finKnown_onSegment (h : Laid x p) (ht : Taken y irs r p) (hknown : p.conn.FinKnown)
    (hpaced : p.conn.sndUna = streamSeq p.conn.iss 0 → p.conn.Paced)
    (hsync : p.conn.state.isSynchronised = true) (hseg : y.Sends irs seg)
    (hack : Acks p.conn.iss x.used seg) (srcIp : Option Bytes) (draw : SeqNo) (now : Time) :
    (p.conn.onSegment seg srcIp draw now).1.FinKnown := by
  have hstamp : (p.conn.stamp now).FinKnown := hknown.congr rfl rfl rfl
  cases hproc : p.conn.processes seg with
  | false =>
    rcases onSegment_of_not_processes srcIp draw now hsync hproc with ⟨-, heq⟩ | heq | heq <;> rw [heq]
    · exact .of_not_synchronised rfl
    · have hframe := sendFrame_reject (p.conn.stamp now) seg now
      exact hstamp.congr hframe.state hframe.una hframe.finSeq
    · have hframe := sendFrame_sendAck (p.conn.stamp now) now
      exact hstamp.congr hframe.state hframe.una hframe.finSeq
  | true =>
    obtain ⟨d, hdone, hfinSeq, heq⟩ := onSegment_payloadDone srcIp draw now hproc
    have hrst : seg.isRst = false := by
      unfold processes at hproc
      simp only [Bool.and_eq_true, Bool.not_eq_true'] at hproc
      exact hproc.1.1.2
    have hd : d.FinKnown := by
      cases hfin : x.fin with
      | none =>
        apply FinKnown.of_finSeq_none
        rw [hfinSeq, h.finSeq, hfin]
        rfl
      | some k =>
        intro hsyncd finSeq hf
        obtain rfl : finSeq = streamSeq p.conn.iss k := by
          rw [hfinSeq, h.finSeq, hfin] at hf
          exact (Option.some.inj hf).symm
        rw [h.ack_past_fin hknown hpaced hsync hfin hack hrst hdone.una, hdone.state]
        rw [hdone.state] at hsyncd
        unfold stateAfterAck at hsyncd ⊢
        rcases h.closing_state hsync hfin with hst | hst | hst | hst | hst <;>
          cases hacks : p.conn.acksFin seg <;> simp_all [TcpState.isSynchronised]
    rw [heq]
    split_ifs with hisFin
    · refine hd.handleFin (fun hclosing => ?_) hisFin now
      -- in CLOSING the peer's FIN has been taken, and it is behind
      have hst : p.conn.state = .closing := by
        have hstate := hdone.state.symm.trans hclosing
        unfold stateAfterAck at hstate
        split_ifs at hstate
        · split at hstate <;> simp_all
        · exact hstate
      obtain ⟨k, hk, hkr⟩ := (ht.consumed hsync).mp (by simp [peerClosed, hst])
      obtain ⟨k', hk', hseq⟩ := hseg.fin hisFin
      obtain rfl : k = k' := Option.some.inj (hk.symm.trans hk')
      have hnil := hseg.payload_of_isFin hisFin
      have hnxt : d.recvQueue.nxt = streamSeq irs r := by
        rw [hdone.recvQueue, hnil, ReceiveQueue.insert, if_pos rfl]
        unfold queueAfterAck
        split_ifs <;> exact (ht.placed (.inr hsync)).nxt
      have hbehind : seqLt (streamSeq irs k) (streamSeq irs r) = true := by
        show seqGt (streamSeq irs r) (streamSeq irs k) = true
        rw [seqGt_streamSeq (y.near_fin hk ht.le).2 (y.near_fin hk ht.le).1]
        exact hkr
      simp [finDue, hnil, hseq, hnxt, hbehind]
    · exact hd

/-! ### The application and the timers -/

theorem finSeq_action (ha : Action b e q q') (hclose : ∀ now, e ≠ .close now) :
    q'.conn.finSeq = q.conn.finSeq := by
  cases ha with
  | quiet hq => exact hq.finSeq
  | connect _ hconn =>
    obtain ⟨-, rfl⟩ := connect_eq hconn
    rfl
  | simultaneousOpen =>
    rw [handleSimultaneousOpen_eq]
    rfl
  | establish t =>
    unfold settled
    split_ifs <;> rfl
  | push payload n now _ _ hne =>
    rw [transmitData_eq _ now hne]
    rfl
  | resend now =>
    rw [resend_eq]
    rfl
  | fin he => exact absurd he (hclose _)
  | @consumeFin _ _ _ now => apply (finTaken_spec q.conn now).2.2.2.2.1
  | advance =>
    unfold finAcknowledged
    split <;> rfl
  | abort =>
    rw [abort_eq]
    split_ifs <;> rfl
  | _ => rfl

theorem finSeq_step (p : Endpoint) (hclose : ∀ now, e ≠ .close now) :
    (p.step e).conn.finSeq = p.conn.finSeq :=
  keeps_step (I := fun q => q.conn.finSeq = p.conn.finSeq)
    (fun _ _ hq ha => (finSeq_action ha hclose).trans hq) rfl

theorem own_action (ha : Action b e q q') (hown : e.IsOwn) (hclose : ∀ now, e ≠ .close now) :
    q'.conn.state = q.conn.state ∨ q'.conn.state = .closed := by
  have hno : ∀ {seg srcIp draw now}, e ≠ .segment seg srcIp draw now := by
    rintro seg srcIp draw now rfl
    exact hown
  cases ha with
  | quiet hq => exact .inl hq.state
  | listen he => exact absurd he hown.ne.1
  | connect he => exact absurd he (hown.ne.2 _ _)
  | reject _ he | simultaneousOpen he | adopt he | retire _ he | establish _ he | insert he
  | consumeFin he | advance he | reset he => exact absurd he hno
  | push payload n now _ _ hne =>
    rw [transmitData_eq _ now hne]
    exact .inl rfl
  | resend now =>
    rw [resend_eq]
    exact .inl rfl
  | fin he | drop he => exact absurd he (hclose _)
  | expire => exact .inr rfl
  | abort =>
    rw [abort_eq]
    exact .inr rfl
  | _ => exact .inl rfl

theorem own_step (hown : e.IsOwn) (hclose : ∀ now, e ≠ .close now) :
    (p.step e).conn.state = p.conn.state ∨ (p.step e).conn.state = .closed := by
  refine keeps_step (I := fun q => q.conn.state = p.conn.state ∨ q.conn.state = .closed) ?_ (.inl rfl)
  intro q q' hst ha
  rcases own_action ha hown hclose with hst' | hst'
  · rw [hst']
    exact hst
  · exact .inr hst'

/-- `close()` sends a FIN in two states; elsewhere it leaves a synchronised connection alone. -/
theorem close_cases (p : Endpoint) (now : Time) :
    (p.conn.state = .established ∨ p.conn.state = .closeWait) ∨
      (p.step (.close now)).conn = p.conn ∨ (p.step (.close now)).conn.state = .closed := by
  simp only [step, put_conn, close]
  cases hst : p.conn.state with
  | established => exact .inl (.inl rfl)
  | closeWait => exact .inl (.inr rfl)
  | synSent | synReceived =>
    refine .inr (.inr ?_)
    rw [abort_eq]
    rfl
  | closed | listen => exact .inr (.inr rfl)
  | _ => exact .inr (.inl rfl)

theorem synchronised_of_own (hown : e.IsOwn) (hsync : (p.step e).conn.state.isSynchronised = true) :
    p.conn.state.isSynchronised = true := by
  by_cases hclose : ∃ now, e = .close now
  · obtain ⟨now, rfl⟩ := hclose
    rcases p.close_cases now with hst | heq | hst
    · rcases hst with hst | hst <;> rw [hst] <;> rfl
    · rwa [heq] at hsync
    · rw [hst] at hsync
      cases hsync
  · rw [not_exists] at hclose
    rcases own_step hown hclose with hst | hst
    · rwa [hst] at hsync
    · rw [hst] at hsync
      cases hsync

theorem finKnown_own (h : Laid x p) (hknown : p.conn.FinKnown) (hown : e.IsOwn) :
    (p.step e).conn.FinKnown := by
  by_cases hclose : ∃ now, e = .close now
  · obtain ⟨now, rfl⟩ := hclose
    rcases p.close_cases now with hst | heq | hst
    · obtain ⟨st, hst', hstep, -⟩ := step_close hst now
      have hsync : p.conn.state.isSynchronised = true := by
        rcases hst with hst | hst <;> rw [hst] <;> rfl
      obtain ⟨u, hu, hsnd, hnxt, -⟩ := h.aligned hsync
      have hmax := h.bound
      have hmax' := x.used_le
      intro _ finSeq hfin
      rw [finSeq_close hst now] at hfin
      obtain rfl := Option.some.inj hfin
      have huna : (p.step (.close now)).conn.sndUna = streamSeq p.conn.iss u := by
        rw [← hsnd]
        apply (SameWindow.close p.conn now).una
      -- a FIN that has just been sent is not behind `snd_una`
      refine iff_of_false ?_ ?_
      · rw [huna, hnxt, seqAdd_streamSeq, seqGe, Bool.or_eq_true, beq_iff_eq, streamSeq_inj (by omega)
          (by omega)]
        show ¬ (u = x.used + 1 ∨ seqGt (streamSeq p.conn.iss u) (streamSeq p.conn.iss (x.used + 1)) = true)
        have hroom : x.fin = none := (h.flowing hsync).mp (by
          rcases hst with hst | hst <;> simp [canSend, hst])
        have hshort : x.used < 2 ^ 31 := by
          rcases x.room with hroom' | ⟨-, hlast⟩
          · exact hroom'
          · rw [hroom] at hlast
            cases hlast
        rw [seqGt_streamSeq_iff (by omega) (by omega)]
        omega
      · rw [hstep]
        rcases hst' with rfl | rfl <;> simp
    · rw [heq]
      exact hknown
    · exact .of_not_synchronised (by rw [hst]; rfl)
  · rw [not_exists] at hclose
    rcases own_step hown hclose with hst | hst
    · exact hknown.congr hst (sameWindow_step p hown).una (p.finSeq_step hclose)
    · exact .of_not_synchronised (by rw [hst]; rfl)

/-! ### One side of the connection -/

/-- What one side keeps by itself. -/
structure Kept (p : Endpoint) : Prop where
  basic : p.conn.Basic
  offered : p.conn.Offered
  windows : ∀ s ∈ p.conn.sent, s.window ≤ 0xFFFF
  paced : p.conn.state.isSynchronised = true → p.conn.sndUna = streamSeq p.conn.iss 0 → p.conn.Paced
  known : p.conn.FinKnown

theorem windows_step (h : ∀ s ∈ p.conn.sent, s.window ≤ 0xFFFF) :
    ∀ s ∈ (p.step e).conn.sent, s.window ≤ 0xFFFF :=
  keeps_step (I := fun q => ∀ s ∈ q.conn.sent, s.window ≤ 0xFFFF)
    (fun _ _ hq ha => ha.forall_sent hq fun _ hx => hx.window_le) h

theorem paced_opened (h : Laid x p) (h' : Laid y (p.step e))
    (hst : p.conn.state = .synSent ∨ p.conn.state = .synReceived) (hclose : ∀ now, e ≠ .close now)
    (hacc : (p.step e).accepted = p.accepted)
    (hsync : (p.step e).conn.state.isSynchronised = true) :
    (p.step e).conn.finSeq = none ∧ (p.step e).conn.Paced := by
  obtain ⟨hnil, -⟩ := h.opening hst
  have hnone : (p.step e).conn.finSeq = none := by
    rw [p.finSeq_step hclose, h.finSeq, h.fin_of_opening hst]
    rfl
  have hused : y.used = 0 := by
    have hbound := h'.bound
    have hfin := h'.finSeq
    rw [hnone] at hfin
    rw [hacc, hnil] at hbound
    rcases hbound with hle | ⟨hlast, -⟩
    · exact Nat.le_zero.mp hle
    · rw [hlast] at hfin
      cases hfin
  obtain ⟨u, hu, huna, hnxt, -⟩ := h'.aligned hsync
  obtain rfl : u = 0 := by omega
  refine ⟨hnone, .of_le ?_⟩
  rw [huna, hnxt, hused, Serial.gap_self]
  exact Nat.zero_le _

namespace Kept

theorem steady (h : Kept p) (hmss : p.conn.cfg.mss ≤ 0xFFFF) (hpaced : p.conn.Paced) : p.conn.Steady :=
  ⟨hpaced, h.offered, h.basic.mss.trans_le hmss, h.basic.retxCapacity⟩

theorem own (h : Kept p) (hx : Laid x p) (hown : e.IsOwn) (hmss : p.conn.cfg.mss ≤ 0xFFFF) :
    Kept (p.step e) := by
  have hsame := sameWindow_step p hown
  refine ⟨h.basic.step e, h.offered.congr hsame.sndWscale hsame.peerWindow, windows_step h.windows, ?_,
    finKnown_own hx h.known hown⟩
  intro hsync huna
  have hsync' := synchronised_of_own hown hsync
  have huna' : p.conn.sndUna = streamSeq p.conn.iss 0 := by
    rw [step_iss hown.ne.2] at huna
    exact hsame.una.symm.trans huna
  refine paced_own hown (h.steady hmss (h.paced hsync' huna')) fun hcan => ?_
  rw [hx.finSeq, (hx.flowing hsync').mp hcan]
  rfl

theorem segment (h : Kept p) (hx : Laid x p) {srcIp : Option Bytes} {draw : SeqNo} {now : Time}
    (hx' : Laid z (p.step (.segment seg srcIp draw now))) (ht : Taken y irs r p)
    (hmss : p.conn.cfg.mss ≤ 0xFFFF) (hseg : y.Sends irs seg) (hack : Acks p.conn.iss x.used seg)
    (hwindow : seg.window ≤ 0xFFFF) : Kept (p.step (.segment seg srcIp draw now)) := by
  have hoffer : (p.step (.segment seg srcIp draw now)).conn.Offered :=
    h.offered.onSegment hwindow srcIp draw now
  have hclose : ∀ t, Event.segment seg srcIp draw now ≠ .close t := fun t ht => by cases ht
  have hopening : (p.step (.segment seg srcIp draw now)).conn.state.isSynchronised = true →
      ¬ p.conn.state.isSynchronised = true →
      (p.step (.segment seg srcIp draw now)).conn.finSeq = none ∧
        (p.step (.segment seg srcIp draw now)).conn.Paced := fun hsync hno =>
    paced_opened hx hx' ((opening_of_onSegment hsync).resolve_left hno) hclose rfl hsync
  refine ⟨h.basic.step _, hoffer, windows_step h.windows, ?_, ?_⟩
  · intro hsync huna
    by_cases hsync' : p.conn.state.isSynchronised = true
    swap
    · exact (hopening hsync hsync').2
    obtain ⟨u, hu, hsnd, -, -⟩ := hx.aligned hsync'
    have hiss : (p.step (.segment seg srcIp draw now)).conn.iss = p.conn.iss :=
      step_iss fun _ _ => nofun
    rw [hiss] at huna
    -- an ACK that moved `snd_una` would have moved it away from the first byte
    have hstay : (p.conn.onSegment seg srcIp draw now).1.sendQueue.una = p.conn.sendQueue.una := by
      obtain ⟨hignored, htaken⟩ := window_onSegment p.conn seg srcIp draw now (.inl hsync')
      cases htakes : p.conn.takesAck seg with
      | false => exact (hignored htakes).una
      | true =>
        rw [(htaken htakes).2.2]
        split_ifs with hgt
        · have huna' : (p.conn.onSegment seg srcIp draw now).1.sendQueue.una = streamSeq p.conn.iss 0 :=
            huna
          rw [(htaken htakes).2.2, if_pos hgt] at huna'
          rw [huna', hsnd, seqGt_streamSeq_iff (by omega) (by have := x.used_le; omega)] at hgt
          omega
        · rfl
    refine (h.paced hsync' ?_).onSegment h.offered (h.basic.mss.trans_le hmss) hwindow hsync' srcIp draw
      now hstay
    exact hstay.symm.trans huna
  · by_cases hsync : p.conn.state.isSynchronised = true
    · exact finKnown_onSegment hx ht h.known (h.paced hsync) hsync hseg hack srcIp draw now
    · intro hsync'
      exact FinKnown.of_finSeq_none (hopening hsync' hsync).1 hsync'

theorem step (h : Kept p) (hx : Laid x p) (hx' : Laid z (p.step e)) (ht : Taken y irs r p)
    (hlisten : e ≠ .listen) (hconnect : ∀ draw now, e ≠ .connect draw now)
    (hmss : p.conn.cfg.mss ≤ 0xFFFF)
    (hseg : ∀ seg, e.inbound = some seg →
      y.Sends irs seg ∧ Acks p.conn.iss x.used seg ∧ seg.window ≤ 0xFFFF) : Kept (p.step e) := by
  cases e with
  | segment seg srcIp draw now =>
    obtain ⟨hsends, hack, hwindow⟩ := hseg seg rfl
    exact h.segment hx hx' ht hmss hsends hack hwindow
  | listen => exact absurd rfl hlisten
  | connect draw now => exact absurd rfl (hconnect draw now)
  | _ => exact h.own hx trivial hmss

end Kept

/-! ### Both sides -/

/-- Each side has taken a part of what the other has laid out. -/
def Joined (p q : Endpoint) : Prop :=
  ∃ x y r s, Laid x p ∧ Laid y q ∧ Taken x p.conn.iss r q ∧ Taken y q.conn.iss s p

theorem Joined.symm (h : Joined p q) : Joined q p := by
  obtain ⟨x, y, r, s, hx, hy, hr, hs⟩ := h
  exact ⟨y, x, s, r, hy, hx, hs, hr⟩

theorem Joined.step (h : Joined p q) (hp : Kept p) (hq : Kept q) (hlisten : e ≠ .listen)
    (hconnect : ∀ draw now, e ≠ .connect draw now) (hmss : p.conn.cfg.mss ≤ 0xFFFF)
    (hsent : ∀ seg, e.inbound = some seg → seg ∈ q.conn.sent)
    (hlen : (p.step e).accepted.length < 2 ^ 31) : Joined (p.step e) q ∧ Kept (p.step e) := by
  obtain ⟨x, y, r, s, hx, hy, hr, hs⟩ := h
  have hack : ∀ seg, e.inbound = some seg → Acks p.conn.iss x.used seg := fun seg hseg =>
    (hr.acks seg (hsent seg hseg)).mono hr.le
  have hsends : ∀ seg, e.inbound = some seg → y.Sends q.conn.iss seg := fun seg hseg =>
    hy.sent seg (hsent seg hseg)
  obtain ⟨x', hxx', hx'⟩ := hx.step hp.basic hlisten hconnect hack hlen
  obtain ⟨s', -, hs'⟩ := hs.step hp.basic hlisten hconnect hsends
  refine ⟨⟨x', y, r, s', hx', hy, ?_, hs'⟩, hp.step hx hx' hs hlisten hconnect hmss fun seg hseg =>
    ⟨hsends seg hseg, hack seg hseg, hq.windows seg (hsent seg hseg)⟩⟩
  rw [step_iss hconnect]
  exact hr.mono hxx'

/-! ### How the two sides start -/

theorem kept_connect (cfg : Config) (draw : SeqNo) (now : Time) :
    Kept ((Endpoint.new cfg).step (.connect draw now)) where
  basic := (basic_new cfg).step _
  offered := by
    rw [step_connect]
    exact ⟨Nat.zero_le _, show DEFAULT_WINDOW ≤ MAX_OFFER by decide⟩
  windows := windows_step fun s hs => absurd hs List.not_mem_nil
  paced := by
    rw [step_connect]
    intro hsync
    cases hsync
  known := by
    rw [step_connect]
    exact .of_not_synchronised rfl

theorem laid_connect (cfg : Config) (draw : SeqNo) (now : Time) :
    Laid .start ((Endpoint.new cfg).step (.connect draw now)) := by
  rw [step_connect]
  obtain ⟨hsent, hretx⟩ := TCPConnection.tracking_new (c := (TCPConnection.new cfg).opening draw)
    ((TCPConnection.new cfg).opening draw).synSegment now rfl rfl
  have hsyn := Extent.start.sends_syn ((TCPConnection.new cfg).opening draw)
  exact
    { bound := .inl le_rfl
      finSeq := rfl
      opening := fun _ => ⟨rfl, rfl⟩
      flowing := fun hst => by cases hst
      aligned := fun hst => by cases hst
      sent := fun x hx => hsent x hx ▸ hsyn
      retx := by
        intro y hy
        obtain ⟨hseq, hflags, hpayload⟩ := hretx y hy
        rw [hseq, hflags, hpayload]
        exact hsyn
      finSent := fun k hk => by cases hk }

theorem taken_connect (cfg : Config) (draw : SeqNo) (now : Time) (irs : SeqNo) :
    Taken .start irs 0 ((Endpoint.new cfg).step (.connect draw now)) := by
  rw [step_connect]
  obtain ⟨hsent, hretx⟩ := TCPConnection.tracking_new (c := (TCPConnection.new cfg).opening draw)
    ((TCPConnection.new cfg).opening draw).synSegment now rfl rfl
  have hno : (FLAG_SYN &&& FLAG_ACK != 0) = false := by decide
  exact
    { le := le_rfl
      waiting := fun _ => ⟨rfl, fun x hx => hsent x hx ▸ hno, fun y hy => (hretx y hy).2.1 ▸ hno⟩
      fresh := fun _ => rfl
      placed := fun hopen => (hopen.elim (fun h => by cases h) fun h => by cases h)
      consumed := fun hst => by cases hst
      acks := fun x hx => hsent x hx ▸ .of_flags (.inl hno) }

theorem kept_passive (cfg : Config) {seg : TCPSegment} (hwindow : seg.window ≤ 0xFFFF) (draw : SeqNo)
    (now : Time) : Kept (Endpoint.passive cfg seg draw now) := by
  refine ⟨basic_passive cfg seg draw now, ?_, ?_, ?_, ?_⟩
  · rw [Endpoint.passive, beginPassiveOpen_eq]
    refine ⟨?_, hwindow.trans (by decide)⟩
    simp only [tracking, answering, applyPeerOptions]
    split
    · exact Nat.min_le_right _ _
    · exact Nat.zero_le _
  · rw [Endpoint.passive, beginPassiveOpen_eq]
    obtain ⟨hsent, -⟩ := TCPConnection.tracking_new (c := (TCPConnection.new cfg).answering seg draw)
      (((TCPConnection.new cfg).answering seg draw).synAckSegment seg) now rfl rfl
    intro s hs
    rw [hsent s hs]
    exact Nat.min_le_right _ _
  · rw [Endpoint.passive, beginPassiveOpen_eq]
    intro hsync
    cases hsync
  · rw [Endpoint.passive, beginPassiveOpen_eq]
    exact .of_not_synchronised rfl

theorem laid_passive (cfg : Config) (seg : TCPSegment) (draw : SeqNo) (now : Time) :
    Laid .start (Endpoint.passive cfg seg draw now) := by
  rw [Endpoint.passive, beginPassiveOpen_eq]
  obtain ⟨hsent, hretx⟩ := TCPConnection.tracking_new (c := (TCPConnection.new cfg).answering seg draw)
    (((TCPConnection.new cfg).answering seg draw).synAckSegment seg) now rfl rfl
  have hsyn := Extent.start.sends_synAck ((TCPConnection.new cfg).answering seg draw) seg
  exact
    { bound := .inl le_rfl
      finSeq := rfl
      opening := fun _ => ⟨rfl, rfl⟩
      flowing := fun hst => by cases hst
      aligned := fun hst => by cases hst
      sent := fun x hx => hsent x hx ▸ hsyn
      retx := by
        intro y hy
        obtain ⟨hseq, hflags, hpayload⟩ := hretx y hy
        rw [hseq, hflags, hpayload]
        exact hsyn
      finSent := fun k hk => by cases hk }

theorem taken_passive (cfg : Config) (seg : TCPSegment) (draw : SeqNo) (now : Time) (x : Extent) :
    Taken x seg.seq 0 (Endpoint.passive cfg seg draw now) := by
  rw [Endpoint.passive, beginPassiveOpen_eq]
  obtain ⟨hsent, -⟩ := TCPConnection.tracking_new (c := (TCPConnection.new cfg).answering seg draw)
    (((TCPConnection.new cfg).answering seg draw).synAckSegment seg) now rfl rfl
  exact
    { le := Nat.zero_le _
      waiting := fun hst => by cases hst
      fresh := fun _ => rfl
      placed := fun _ => ReceiveQueue.placed_new x seg.seq cfg.receiveCapacity
      consumed := fun hst => by cases hst
      acks := fun s hs => hsent s hs ▸ fun _ _ => ⟨0, le_rfl, rfl⟩ }

/-! ### State and history -/

/-- The state of `p` agrees with what has happened between it and its peer `q`: whether `rcv_nxt` is past
the peer's FIN, whether a FIN was sent, and whether `snd_una` is past it. -/
structure Agrees (p q : Endpoint) : Prop where
  consumed : (p.conn.state = .closeWait ∨ p.conn.state = .closing ∨ p.conn.state = .lastAck ∨
      p.conn.state = .timeWait) ↔
    ∃ f ∈ q.conn.sent, f.isFin = true ∧ seqGt p.conn.rcvNxt (seqAdd f.seq f.payload.length) = true
  sent : (p.conn.state = .finWait1 ∨ p.conn.state = .finWait2 ∨ p.conn.state = .closing ∨
      p.conn.state = .lastAck ∨ p.conn.state = .timeWait) ↔ ∃ f ∈ p.conn.sent, f.isFin = true
  acknowledged : (p.conn.state = .finWait2 ∨ p.conn.state = .timeWait) ↔
    ∃ f ∈ p.conn.sent, f.isFin = true ∧ seqGt p.conn.sndUna (seqAdd f.seq f.payload.length) = true

theorem Laid.exists_fin_behind (h : Laid x p) (hr : r ≤ x.used) :
    (∃ f ∈ p.conn.sent, f.isFin = true ∧
      seqGt (streamSeq p.conn.iss r) (seqAdd f.seq f.payload.length) = true) ↔
      ∃ k, x.fin = some k ∧ k < r := by
  constructor
  · rintro ⟨f, hf, hfin, hgt⟩
    obtain ⟨k, hk, hseq⟩ := (h.sent f hf).fin hfin
    have hnear := x.near_fin hk hr
    rw [(h.sent f hf).payload_of_isFin hfin, hseq, List.length_nil, seqAdd_streamSeq, Nat.add_zero,
      seqGt_streamSeq hnear.2 hnear.1] at hgt
    exact ⟨k, hk, hgt⟩
  · rintro ⟨k, hk, hkr⟩
    obtain ⟨f, hf, hfin, hseq⟩ := h.finSent k hk
    have hnear := x.near_fin hk hr
    refine ⟨f, hf, hfin, ?_⟩
    rw [(h.sent f hf).payload_of_isFin hfin, hseq, List.length_nil, seqAdd_streamSeq, Nat.add_zero,
      seqGt_streamSeq hnear.2 hnear.1]
    exact hkr

theorem Joined.agrees (h : Joined p q) (hknown : p.conn.FinKnown)
    (hsync : p.conn.state.isSynchronised = true) : Agrees p q := by
  obtain ⟨x, y, r, s, hx, hy, hr, hs⟩ := h
  obtain ⟨u, hu, huna, -, -⟩ := hx.aligned hsync
  have hexists : (∃ f ∈ p.conn.sent, f.isFin = true) ↔ ∃ k, x.fin = some k := by
    constructor
    · rintro ⟨f, hf, hfin⟩
      obtain ⟨k, hk, -⟩ := (hx.sent f hf).fin hfin
      exact ⟨k, hk⟩
    · rintro ⟨k, hk⟩
      obtain ⟨f, hf, hfin, -⟩ := hx.finSent k hk
      exact ⟨f, hf, hfin⟩
  refine ⟨?_, ?_, ?_⟩
  · have hrcv : p.conn.rcvNxt = streamSeq q.conn.iss s := (hs.placed (.inr hsync)).nxt
    rw [hrcv, hy.exists_fin_behind hs.le, ← hs.consumed hsync, peerClosed]
    simp [or_assoc]
  · rw [hexists]
    constructor
    · intro hst
      have hcan : ¬ x.fin = none := by
        rw [← hx.flowing hsync]
        rcases hst with hst | hst | hst | hst | hst <;> simp [canSend, hst]
      exact Option.ne_none_iff_exists'.mp hcan
    · rintro ⟨k, hk⟩
      exact hx.closing_state hsync hk
  · have hsnd : p.conn.sndUna = streamSeq p.conn.iss u := huna
    rw [hsnd, hx.exists_fin_behind hu]
    cases hfin : x.fin with
    | none =>
      have hcan : p.conn.canSend = true := (hx.flowing hsync).mpr hfin
      have hno : ¬ (p.conn.state = .finWait2 ∨ p.conn.state = .timeWait) := by
        rintro (hst | hst) <;> simp [canSend, hst] at hcan
      simpa using hno
    | some k =>
      have hfinSeq : p.conn.finSeq = some (streamSeq p.conn.iss k) := by rw [hx.finSeq, hfin]; rfl
      rw [← hknown hsync _ hfinSeq, hsnd, seqGe_after_fin hfin hu]
      simp

end Endpoint

namespace Network

open Endpoint

variable {n : Network} {a : Side × Event}

/-- A step of a run of one connection and its child: neither is opened again, fewer than `2 ^ 31` bytes are
written, and the MSS is one a SYN can carry, since `TCPOptions.to_bytes` raises on a larger one. -/
structure Closing (n : Network) (a : Side × Event) : Prop where
  listen : a.2 ≠ .listen
  connect : ∀ draw now, a.2 ≠ .connect draw now
  genuine : n.Genuine a
  short : ∀ p, (n.step a).side a.1 = some p → p.accepted.length < 2 ^ 31
  mss : ∀ p, (n.step a).side a.1 = some p → p.conn.cfg.mss ≤ 0xFFFF

/-- Both sides are joined; before there is a child, the client has laid out its SYN and taken nothing. -/
structure InAccord (n : Network) : Prop where
  client : Kept n.client
  alone : n.child = none → (∃ x, Laid x n.client) ∧ ∀ irs, Taken .start irs 0 n.client
  both : ∀ c, n.child = some c → Kept c ∧ Joined n.client c

theorem InAccord.of_started (h : n.Started) : n.InAccord := by
  obtain ⟨cfg, draw, now, listener, -, rfl⟩ := h
  exact
    { client := kept_connect cfg draw now
      alone := fun _ => ⟨⟨.start, laid_connect cfg draw now⟩, taken_connect cfg draw now⟩
      both := fun c hc => by cases hc }

theorem InAccord.accept (h : n.InAccord) (hchild : n.child = none) {seg : TCPSegment}
    {srcIp : Option Bytes} {draw : SeqNo} {now : Time} {c : TCPConnection}
    (hc : (n.listener.onSegment seg srcIp draw now).2 = some c) (hsent : seg ∈ n.client.conn.sent) :
    Kept { conn := c } ∧ Joined n.client { conn := c } := by
  obtain ⟨⟨x, hx⟩, htaken⟩ := h.alone hchild
  obtain ⟨hsyn, -, cfg, hpassive⟩ := TCPConnection.onSegment_child hc
  have hiss : seg.seq = n.client.conn.iss := (hx.sent seg hsent).syn hsyn
  rw [hpassive]
  refine ⟨kept_passive cfg (h.client.windows seg hsent) draw now, x, .start, 0, 0, hx,
    laid_passive cfg seg draw now, ?_, htaken _⟩
  rw [← hiss]
  exact taken_passive cfg seg draw now x

theorem InAccord.step (h : n.InAccord) (ha : n.Closing a) : (n.step a).InAccord := by
  obtain ⟨s, e⟩ := a
  obtain ⟨hlisten, hconnect, hgenuine, hshort, hmss⟩ := ha
  cases s with
  | client =>
    have hlen : (n.client.step e).accepted.length < 2 ^ 31 := hshort _ rfl
    have hmss' : n.client.conn.cfg.mss ≤ 0xFFFF := (step_cfg n.client e) ▸ hmss _ rfl
    cases hchild : n.child with
    | none =>
      -- nothing has been sent to the client yet
      have hquiet : ∀ seg, e.inbound = some seg → False := by
        intro seg hseg
        have hmem := hgenuine seg hseg
        simp [Side.other, sentBy, side, hchild] at hmem
      obtain ⟨⟨x, hx⟩, htaken⟩ := h.alone hchild
      obtain ⟨y, -, hy⟩ := hx.step h.client.basic hlisten hconnect (fun seg hseg => (hquiet seg hseg).elim)
        hlen
      refine ⟨h.client.step hx hy (htaken 0) hlisten hconnect hmss' fun seg hseg => (hquiet seg hseg).elim,
        fun _ => ⟨⟨y, hy⟩, fun irs => ?_⟩, fun c hc => ?_⟩
      · obtain ⟨r', -, hr'⟩ := (htaken irs).step h.client.basic hlisten hconnect
          fun seg hseg => (hquiet seg hseg).elim
        obtain rfl : r' = 0 := Nat.le_zero.mp hr'.le
        exact hr'
      · have hnone : (n.step (.client, e)).child = n.child := rfl
        rw [hnone, hchild] at hc
        cases hc
    | some c =>
      obtain ⟨hkept, hjoined⟩ := h.both c hchild
      have hsent : ∀ seg, e.inbound = some seg → seg ∈ c.conn.sent := by
        intro seg hseg
        have hmem := hgenuine seg hseg
        simpa [Side.other, sentBy, side, hchild] using hmem
      obtain ⟨hjoined', hclient⟩ := hjoined.step h.client hkept hlisten hconnect hmss' hsent hlen
      refine ⟨hclient, fun hnone => absurd (hchild.symm.trans hnone) (Option.some_ne_none c),
        fun c' hc' => ?_⟩
      obtain rfl : c = c' := Option.some.inj (hchild.symm.trans hc')
      exact ⟨hkept, hjoined'⟩
  | server =>
    cases hchild : n.child with
    | some c =>
      obtain ⟨hkept, hjoined⟩ := h.both c hchild
      have hstep := step_server_of_child hchild e
      rw [hstep] at hshort hmss ⊢
      have hlen : (c.step e).accepted.length < 2 ^ 31 := hshort _ rfl
      have hmss' : c.conn.cfg.mss ≤ 0xFFFF := (step_cfg c e) ▸ hmss _ rfl
      obtain ⟨hjoined', hchild'⟩ :=
        hjoined.symm.step hkept h.client hlisten hconnect hmss' hgenuine hlen
      refine ⟨h.client, fun hnone => absurd hnone (Option.some_ne_none _), fun c' hc' => ?_⟩
      obtain rfl := Option.some.inj hc'
      exact ⟨hchild', hjoined'.symm⟩
    | none =>
      cases e with
      | segment seg srcIp draw now =>
        have hstep := step_server_segment hchild seg srcIp draw now
        rw [hstep]
        refine ⟨h.client, fun _ => h.alone hchild, fun c' hc' => ?_⟩
        obtain ⟨c, hc, rfl⟩ := Option.map_eq_some_iff.mp hc'
        exact h.accept hchild hc (hgenuine seg rfl)
      | _ =>
        rw [step_server_of_inbound hchild rfl]
        exact h

/-- In every run, whatever is lost, delayed, reordered or duplicated and whenever either side closes, the
state of a synchronised endpoint agrees with its history. -/
theorem state_and_history (h : network.ReachableBy Closing n) {s : Side} {p : Endpoint}
    (hp : n.side s = some p) (hsync : p.conn.state.isSynchronised = true) :
    ∃ q, n.side s.other = some q ∧ Agrees p q := by
  have haccord : n.InAccord := Machine.ReachableBy.induction network (P := InAccord)
    (fun _ => InAccord.of_started) (fun _ _ _ hn ha => hn.step ha) h
  cases s with
  | client =>
    obtain rfl := Option.some.inj hp
    cases hchild : n.child with
    | some c => exact ⟨c, hchild, (haccord.both c hchild).2.agrees haccord.client.known hsync⟩
    | none =>
      -- a client that has heard nothing expects no particular number
      have htaken := (haccord.alone hchild).2
      have hzero := ((htaken 0).placed (.inr hsync)).nxt
      have hone := ((htaken 1).placed (.inr hsync)).nxt
      exact absurd (hzero.symm.trans hone) (by decide)
  | server =>
    obtain ⟨hkept, hjoined⟩ := haccord.both p hp
    exact ⟨n.client, rfl, hjoined.symm.agrees hkept.known hsync⟩

/-- The client's FIN. -/
def wrapFin : TCPSegment :=
  { srcPort := 1000, dstPort := 2000, seq := 0xFFFFFFFF, ack := 701, flags := FLAG_ACK ||| FLAG_FIN,
    window := 65535 }

/-- The ACK of the client's FIN. -/
def wrapFinAck : TCPSegment :=
  { srcPort := 1000, dstPort := 1000, seq := 701, ack := 0, flags := FLAG_ACK, window := 65535 }

/-- The client closes as soon as it is established, so its FIN also completes the handshake, and only the
copy of the FIN is taken. -/
def closeRun : List (Side × Event) :=
  [(.server, .segment wrapSyn none 0 0), (.client, .segment wrapSynAck none 0 0), (.client, .close 0),
    (.server, .segment wrapFin none 0 0), (.server, .segment wrapFin none 0 0),
    (.client, .segment wrapFinAck none 0 0)]

theorem state_and_history_closeRun :
    (network.run atWrap closeRun).client.conn.state = .finWait2 ∧
      ∃ c, (network.run atWrap closeRun).child = some c ∧ c.conn.state = .closeWait ∧
        Agrees (network.run atWrap closeRun).client c ∧
        Agrees c (network.run atWrap closeRun).client := by
  have hmeets : network.Meets Closing atWrap closeRun := by
    refine ⟨⟨nofun, nofun, by decide, ?_, ?_⟩, ⟨nofun, nofun, by decide, ?_, ?_⟩,
      ⟨nofun, nofun, by decide, ?_, ?_⟩, ⟨nofun, nofun, by decide, ?_, ?_⟩,
      ⟨nofun, nofun, by decide, ?_, ?_⟩, ⟨nofun, nofun, by decide, ?_, ?_⟩, trivial⟩
    all_goals
      rintro p ⟨⟩
      decide
  have hreach : network.ReachableBy Closing (network.run atWrap closeRun) :=
    (Machine.ReachableBy.init network ⟨_, 0, 0, _, rfl, rfl⟩).run network hmeets
  obtain ⟨c, hc, hclient⟩ := state_and_history (s := .client) hreach rfl (by decide)
  obtain ⟨q, hq, hserver⟩ := state_and_history (s := .server) hreach hc (by
    obtain rfl := Option.some.inj hc
    decide)
  obtain rfl := Option.some.inj hq
  refine ⟨by decide, c, hc, ?_, hclient, hserver⟩
  obtain rfl := Option.some.inj hc
  decide

end Network

end MiniTcp
