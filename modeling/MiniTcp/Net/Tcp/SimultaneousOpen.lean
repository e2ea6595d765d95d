import MiniTcp.Net.Tcp.Reset
import MiniTcp.Net.Tcp.SpuriousReset
import Mathlib.Logic.Function.Basic

/-!
# Simultaneous open

Two endpoints have called `connect()` towards each other, and the network delivers every segment exactly
once, in any order. `Crossing` is the pair with the segments under way. When one side has taken the
other's SYN and its SYN+ACK reaches the other first, the handshake completes. But when both take a bare
SYN, both are in SYN_RECEIVED, where a SYN+ACK is only answered with the oldest outstanding segment, and
neither ever gets further (`Stuck`). `completes_iff` says that nothing else is in the way.
-/

namespace MiniTcp

open TCPConnection

/-! ### One delivery during the handshake -/

namespace TCPConnection

variable {c : TCPConnection} {seg : TCPSegment} {srcIp : Option Bytes} {draw : SeqNo} {now : Time}

theorem onSegment_synSent_ignored (hst : c.state = .synSent) (hrst : seg.isRst = false)
    (hsyn : seg.isSyn = false) : (c.onSegment seg srcIp draw now).1 = c.stamp now := by
  have hst' : (c.stamp now).state = .synSent := hst
  simp [onSegment, dispatch, hst', hrst, hsyn]

theorem onSegment_synSent_syn (hst : c.state = .synSent) (hrst : seg.isRst = false)
    (hsyn : seg.isSyn = true) (hack : seg.isAck = false) :
    (c.onSegment seg srcIp draw now).1.state = .synReceived ∧
      ∃ x, (c.onSegment seg srcIp draw now).1.sent = c.sent ++ [x] ∧
        x.isSyn = true ∧ x.isAck = true ∧ x.isRst = false := by
  have hst' : (c.stamp now).state = .synSent := hst
  have heq : (c.onSegment seg srcIp draw now).1 = (c.stamp now).handleSimultaneousOpen seg now := by
    simp [onSegment, dispatch, hst', hrst, hsyn, hack]
  rw [heq, handleSimultaneousOpen_eq]
  refine ⟨rfl, _, rfl, ?_, ?_, ?_⟩
  · exact show ((FLAG_SYN ||| FLAG_ACK) &&& FLAG_SYN != 0) = true by decide
  · exact show ((FLAG_SYN ||| FLAG_ACK) &&& FLAG_ACK != 0) = true by decide
  · exact show ((FLAG_SYN ||| FLAG_ACK) &&& FLAG_RST != 0) = false by decide

theorem onSegment_synReceived_syn (hst : c.state = .synReceived) (hrst : seg.isRst = false)
    (hsyn : seg.isSyn = true) : (c.onSegment seg srcIp draw now).1.state = .synReceived := by
  have hst' : (c.stamp now).state = .synReceived := hst
  have heq : (c.onSegment seg srcIp draw now).1 = (c.stamp now).retransmitOldest now := by
    simp [onSegment, dispatch, hst', hrst, hsyn]
  rw [heq, (sendFrame_retransmitOldest _ now false).state]
  exact hst

theorem onSegment_synReceived_ignored (hst : c.state = .synReceived) (hrst : seg.isRst = false)
    (hsyn : seg.isSyn = false) (hack : seg.isAck = false) :
    (c.onSegment seg srcIp draw now).1 = c.stamp now := by
  have hst' : (c.stamp now).state = .synReceived := hst
  simp [onSegment, dispatch, hst', hrst, hsyn, hack]

theorem onSegment_synReceived_ack (hst : c.state = .synReceived) (hrst : seg.isRst = false)
    (hsyn : seg.isSyn = false) (hack : seg.isAck = true) (hnum : seg.ack = seqAdd c.iss 1) :
    (c.onSegment seg srcIp draw now).1.state = .established := by
  have hst' : (c.stamp now).state = .synReceived := hst
  have heq : (c.onSegment seg srcIp draw now).1 = (c.stamp now).handleFinalAckOfHandshake seg now := by
    simp [onSegment, dispatch, hst', hrst, hsyn, hack]
  have hge : seqGe seg.ack (seqAdd (c.stamp now).iss 1) = true := by
    rw [hnum]
    simp [seqGe, stamp]
  rw [heq, handleFinalAckOfHandshake, if_neg (by simp [hge])]
  rfl

theorem onSegment_synSent_synAck (hbasic : c.Basic) (hst : c.state = .synSent)
    (hrst : seg.isRst = false) (hsyn : seg.isSyn = true) (hack : seg.isAck = true)
    (hnum : seg.ack = seqAdd c.iss 1) :
    (c.onSegment seg srcIp draw now).1.state = .established ∧
      ∃ x, (c.onSegment seg srcIp draw now).1.sent = c.sent ++ [x] ∧
        x.isSyn = false ∧ x.isAck = true ∧ x.isRst = false := by
  have hst' : (c.stamp now).state = .synSent := hst
  have heq : (c.onSegment seg srcIp draw now).1 = (c.stamp now).handleSynAck seg now := by
    simp [onSegment, dispatch, hst', hrst, hsyn, hack]
  have hge : seqGe seg.ack (seqAdd (c.stamp now).iss 1) = true := by
    rw [hnum]
    simp [seqGe, stamp]
  rw [heq, handleSynAck, if_neg (by simp [hge])]
  refine ⟨rfl, ?_⟩
  dsimp only [notify]
  -- `_process_ack` sends nothing before the connection is synchronised
  generalize hd : ({ ((c.stamp now).adopted seg) with
    peerWindow := seg.window <<< ((c.stamp now).adopted seg).sndWscale } : TCPConnection) = d
  have hdst : d.state = .synSent := by rw [← hd]; exact hst
  have hdsent : d.sent = c.sent := by rw [← hd]; rfl
  have hgt : seqGt seg.ack d.sendQueue.una = true := by
    rw [← hd, hnum]
    show seqGt (seqAdd c.iss 1) c.sendQueue.una = true
    rw [(hbasic.handshake (.inl hst)).1, seqGt_iff, seqAdd]
    exact Serial.lt_shift (by omega) (by omega)
  have hprocess : d.processAck seg now =
      ((d.retire seg now).updatePeerWindow seg).1.armRetransmitTimer now := by
    rw [processAck, if_neg (by simp [hgt]), Leads.processNewAck_eq now hgt, flush, if_pos]
    simp [armRetransmitTimer, updatePeerWindow, retire, hdst, TcpState.isSynchronised]
  have hsend : ∀ b : TCPConnection, b.state = .synSent → ∃ x, (b.sendAck now).sent = b.sent ++ [x] ∧
      x.isSyn = false ∧ x.isAck = true ∧ x.isRst = false := by
    intro b hb
    unfold sendAck
    dsimp only
    rw [if_neg (by simp [hb]), transmit_untracked _ _ _ _ _ (Leads.untracked_flags (.inl rfl))]
    refine ⟨_, rfl, ?_, ?_, ?_⟩
    · exact show (FLAG_ACK &&& FLAG_SYN != 0) = false by decide
    · exact show (FLAG_ACK &&& FLAG_ACK != 0) = true by decide
    · exact show (FLAG_ACK &&& FLAG_RST != 0) = false by decide
  obtain ⟨x, hx, hflags⟩ := hsend (d.processAck seg now) (by rw [hprocess]; exact hdst)
  refine ⟨x, ?_, hflags⟩
  have hsame : (d.processAck seg now).sent = c.sent := by
    rw [hprocess]
    exact hdsent
  rw [← hsame, ← hx, ← hd]
  rfl

end TCPConnection

/-! ### While a SYN is out -/

/-- Only SYNs and resets were sent, and no reset waits to be sent again. -/
structure Endpoint.Knocking (p : Endpoint) : Prop where
  state : p.conn.state = .synSent ∨ p.conn.state = .synReceived ∨ p.conn.state = .closed
  delayed : p.conn.state ≠ .closed → p.conn.delayedAckAt = none
  sent : ∀ x ∈ p.conn.sent, x.isSyn = true ∨ x.isRst = true
  retx : ∀ y ∈ p.conn.retxQueue.segments, (y.flags &&& FLAG_SYN != 0) = true

namespace Endpoint.Knocking

variable {r : Bool} {e : Event} {q q' : Endpoint}

theorem not_isSynchronised (h : Knocking q) : q.conn.state.isSynchronised = false := by
  rcases h.state with hst | hst | hst <;> rw [hst] <;> rfl

theorem emission (h : Knocking q) (he : e.IsEnvironment) {x : TCPSegment} (hx : Emission r e q q' x) :
    x.isSyn = true ∨ x.isRst = true := by
  have hsync := h.not_isSynchronised
  cases hx with
  | ack hstate =>
    rcases hstate with hst | ⟨hdelay, hopen, -⟩
    · rw [hsync] at hst
      cases hst
    · exact absurd (h.delayed hopen) hdelay
  | rejection => exact .inr (isRst_rejection _ _)
  | syn he' =>
    subst he'
    exact he.elim
  | synAck => exact .inl (show ((FLAG_SYN ||| FLAG_ACK) &&& FLAG_SYN != 0) = true by decide)
  | data _ _ hstate => rw [hsync] at hstate; cases hstate
  | resent hold => exact .inl (h.retx _ (List.mem_of_mem_head? hold))
  | fin he' =>
    subst he'
    exact he.elim
  | abort => exact .inr (show ((FLAG_RST ||| FLAG_ACK) &&& FLAG_RST != 0) = true by decide)

theorem action (h : Knocking q) (ha : Action r e q q') (he : e.IsEnvironment) :
    Knocking q' ∨ q'.conn.state = .established := by
  have hsync := h.not_isSynchronised
  have hsent := ha.forall_sent h.sent fun x hx => h.emission he hx
  have hretx : ∀ y ∈ q'.conn.retxQueue.segments, (y.flags &&& FLAG_SYN != 0) = true := by
    intro y hy
    rcases ha.retx hy with ⟨x, hx, -, hflags, -⟩ | ⟨x, hx, hrst, -, hflags, -⟩
    · rw [hflags]
      exact h.retx x hx
    · rw [hflags]
      rcases h.emission he hx with hsyn | hno
      · exact hsyn
      · rw [hrst] at hno
        cases hno
  -- what is left is the state, and the delayed ACK
  have hkept : q'.conn.state = q.conn.state → (q.conn.delayedAckAt = none → q'.conn.delayedAckAt = none) →
      Knocking q' := fun hst hdelay =>
    ⟨by rw [hst]; exact h.state, fun hopen => hdelay (h.delayed (hst ▸ hopen)), hsent, hretx⟩
  have hgone : q'.conn.state = .closed → Knocking q' := fun hst =>
    ⟨.inr (.inr hst), fun hopen => absurd hst hopen, hsent, hretx⟩
  have hreceiving : q.conn.Receiving → q.conn.state = .closed := by
    rintro (hst | ⟨hst, -⟩)
    · rw [hsync] at hst
      cases hst
    · exact hst
  cases ha with
  | quiet hq => exact .inl (hkept hq.state hq.delayed)
  | ack | reject | arm | disarm => exact .inl (hkept rfl id)
  | delay t hstate => exact .inl (hgone (hreceiving hstate))
  | simultaneousOpen _ hstate =>
    rw [handleSimultaneousOpen_eq] at hsent hretx ⊢
    exact .inl ⟨.inr (.inl rfl), fun _ => h.delayed (by rw [hstate]; decide), hsent, hretx⟩
  | adopt => exact .inl (hkept rfl id)
  | establish t =>
    right
    unfold settled
    split_ifs <;> rfl
  | retire _ _ _ _ hstate => rw [hsync] at hstate; cases hstate
  | push _ _ _ hstate => rw [hsync] at hstate; cases hstate
  | resend now =>
    rw [resend_eq] at hsent hretx ⊢
    exact .inl ⟨h.state, h.delayed, hsent, hretx⟩
  | insert _ _ hstate => exact .inl (hgone (hreceiving hstate))
  | @consumeFin _ _ _ now _ _ _ hstate =>
    rcases finTaken_state q.conn now with hst | ⟨hst, -⟩
    · exact .inl (hgone (hst.trans (hreceiving hstate)))
    · rw [hsync] at hst
      cases hst
  | advance _ _ _ _ _ hstate =>
    rcases hstate with hst | hst | hst <;> rw [hst] at hsync <;> cases hsync
  | reset | expire => exact .inl (hgone rfl)
  | abort he' => rcases he' with rfl | ⟨rfl, -⟩ <;> exact he.elim
  | listen he' | connect he' | fin he' | drop he' | write he' | read he' =>
    subst he'
    exact he.elim

end Endpoint.Knocking

/-- As long as no FIN comes in, the timer and the network leave an established connection established, or
close it. -/
theorem Action.established {r : Bool} {e : Event} {q q' : Endpoint} (ha : Action r e q q')
    (he : e.IsEnvironment) (hfin : ∀ seg, e.inbound = some seg → seg.isFin = false)
    (h : q.conn.state = .established) : q'.conn.state = .established ∨ q'.conn.state = .closed := by
  cases ha with
  | quiet hq => exact .inl (hq.state.trans h)
  | simultaneousOpen _ hstate | adopt _ hstate => rw [h] at hstate; cases hstate
  | establish t =>
    left
    unfold settled
    split_ifs <;> rfl
  | push payload n now _ _ hne =>
    rw [transmitData_eq _ now hne]
    exact .inl h
  | resend now =>
    rw [resend_eq]
    exact .inl h
  | consumeFin he' _ hfin' =>
    have hno := hfin _ (by rw [he']; rfl)
    rw [hfin'] at hno
    cases hno
  | advance _ _ _ _ _ hstate =>
    rw [h] at hstate
    rcases hstate with hst | hst | hst <;> cases hst
  | reset | expire => exact .inr rfl
  | abort he' => rcases he' with rfl | ⟨rfl, -⟩ <;> exact he.elim
  | listen he' | connect he' | fin he' | drop he' | write he' | read he' =>
    subst he'
    exact he.elim
  | _ => exact .inl h

theorem Action.state_of_tick {r : Bool} {now : Time} {q q' : Endpoint} (ha : Action r (.tick now) q q') :
    q'.conn.state = q.conn.state ∨ q'.conn.state = .closed := by
  cases ha with
  | quiet hq => exact .inl hq.state
  | push payload n now _ _ hne =>
    rw [transmitData_eq _ now hne]
    exact .inl rfl
  | resend now =>
    rw [resend_eq]
    exact .inl rfl
  | expire => exact .inr rfl
  | abort he => rcases he with he | ⟨he, -⟩ <;> cases he
  | reject _ he | listen he | connect he | simultaneousOpen he | adopt he | retire _ he | establish _ he
  | fin he | insert he | consumeFin he | advance he | reset he | drop he | write he | read he => cases he
  | _ => exact .inl rfl

namespace Endpoint

/-- What one call changes during the handshake, and what it sends then. -/
inductive Move (e : Event) (p p' : Endpoint) : Prop
  | closed (h : p'.conn.state = .closed)
  | stay (h : p'.conn.state = p.conn.state)
      (hsyn : p.conn.state = .synSent → ∀ seg, e.inbound = some seg → seg.isRst = false →
        seg.isSyn = false)
      (hack : p.conn.state = .synReceived → ∀ seg, e.inbound = some seg → seg.isRst = false →
        seg.isSyn = false → seg.isAck = false)
  | receive {x : TCPSegment} (hold : p.conn.state = .synSent) (hnew : p'.conn.state = .synReceived)
      (hsent : p'.conn.sent = p.conn.sent ++ [x])
      (hx : x.isSyn = true ∧ x.isAck = true ∧ x.isRst = false)
  | answer {seg x : TCPSegment} (he : e.inbound = some seg) (hack : seg.isAck = true)
      (hold : p.conn.state = .synSent) (hnew : p'.conn.state = .established)
      (hsent : p'.conn.sent = p.conn.sent ++ [x])
      (hx : x.isSyn = false ∧ x.isAck = true ∧ x.isRst = false)
  | settle {seg : TCPSegment} (he : e.inbound = some seg)
      (hseg : seg.isSyn = false ∧ seg.isAck = true ∧ seg.isRst = false)
      (hold : p.conn.state = .synReceived) (hnew : p'.conn.state = .established)

namespace Move

variable {e : Event} {p p' : Endpoint}

theorem of_synSent (h : Move e p p') (hst : p'.conn.state = .synSent) : p.conn.state = .synSent ∧
    ∀ seg, e.inbound = some seg → seg.isRst = false → seg.isSyn = false := by
  cases h with
  | stay h hsyn =>
    rw [h] at hst
    exact ⟨hst, hsyn hst⟩
  | closed hnew | receive _ hnew | answer _ _ _ hnew | settle _ _ _ hnew =>
    rw [hst] at hnew
    cases hnew

theorem of_synReceived (h : Move e p p') (hst : p'.conn.state = .synReceived) :
    (p.conn.state = .synReceived ∧ ∀ seg, e.inbound = some seg → seg.isRst = false →
      seg.isSyn = false → seg.isAck = false) ∨
    p.conn.state = .synSent ∧ ∃ x, p'.conn.sent = p.conn.sent ++ [x] ∧
      x.isSyn = true ∧ x.isAck = true ∧ x.isRst = false := by
  cases h with
  | stay h _ hack =>
    rw [h] at hst
    exact .inl ⟨hst, hack hst⟩
  | receive hold _ hsent hx => exact .inr ⟨hold, _, hsent, hx⟩
  | closed hnew | answer _ _ _ hnew | settle _ _ _ hnew =>
    rw [hst] at hnew
    cases hnew

theorem of_established (h : Move e p p') (hst : p'.conn.state = .established) :
    p.conn.state = .established ∨ ∃ seg, e.inbound = some seg ∧ seg.isAck = true ∧
      ((p.conn.state = .synSent ∧ ∃ x, p'.conn.sent = p.conn.sent ++ [x] ∧
        x.isSyn = false ∧ x.isAck = true ∧ x.isRst = false) ∨
      (p.conn.state = .synReceived ∧ seg.isSyn = false ∧ seg.isRst = false)) := by
  cases h with
  | stay h => exact .inl (h.symm.trans hst)
  | answer he hack hold _ hsent hx => exact .inr ⟨_, he, hack, .inl ⟨hold, _, hsent, hx⟩⟩
  | settle he hseg hold => exact .inr ⟨_, he, hseg.2.1, .inr ⟨hold, hseg.1, hseg.2.2⟩⟩
  | closed hnew | receive _ hnew =>
    rw [hst] at hnew
    cases hnew

end Move

/-- The states of a connection that has called `connect()` and neither sends nor closes. -/
def Phase (p : Endpoint) : Prop :=
  Knocking p ∨ p.conn.state = .established ∨ p.conn.state = .closed

variable {p : Endpoint} {e : Event}

theorem Phase.step (h : Phase p) (he : e.IsEnvironment)
    (hfin : ∀ seg, e.inbound = some seg → seg.isFin = false) : Phase (p.step e) := by
  have hlisten : e ≠ .listen := by rintro rfl; exact he
  have hconnect : ∀ draw now, e ≠ .connect draw now := by rintro draw now rfl; exact he
  refine keeps_step (I := Phase) (fun q q' hq ha => ?_) h
  rcases hq with hknock | hest | hclosed
  · exact (hknock.action ha he).imp_right .inl
  · exact .inr (ha.established he hfin hest)
  · exact .inr (.inr (ha.closed hlisten hconnect hclosed))

theorem step_settled (he : e.IsEnvironment) (hfin : ∀ seg, e.inbound = some seg → seg.isFin = false)
    (h : p.conn.state = .established ∨ p.conn.state = .closed) :
    (p.step e).conn.state = p.conn.state ∨ (p.step e).conn.state = .closed := by
  have hlisten : e ≠ .listen := by rintro rfl; exact he
  have hconnect : ∀ draw now, e ≠ .connect draw now := by rintro draw now rfl; exact he
  refine keeps_step (I := fun q => q.conn.state = p.conn.state ∨ q.conn.state = .closed)
    (fun q q' hq ha => ?_) (.inl rfl)
  rcases hq with hsame | hclosed
  · rcases h with hst | hst
    · rw [hst] at hsame ⊢
      exact ha.established he hfin hsame
    · exact .inr (ha.closed hlisten hconnect (hsame.trans hst))
  · exact .inr (ha.closed hlisten hconnect hclosed)

theorem step_tick_state (now : Time) :
    (p.step (.tick now)).conn.state = p.conn.state ∨ (p.step (.tick now)).conn.state = .closed := by
  refine keeps_step (I := fun q => q.conn.state = p.conn.state ∨ q.conn.state = .closed)
    (fun q q' hq ha => ?_) (.inl rfl)
  rcases ha.state_of_tick with hst | hst
  · rw [hst]
    exact hq
  · exact .inr hst

theorem sent_prefix_step (p : Endpoint) (e : Event) : p.conn.sent <+: (p.step e).conn.sent := by
  refine keeps_step (I := fun q => p.conn.sent <+: q.conn.sent) (fun q q' hq ha => ?_) List.prefix_rfl
  rcases ha.sent with hsame | ⟨x, hx, -⟩
  · rw [hsame]
    exact hq
  · rw [hx]
    exact hq.trans (List.prefix_append _ _)

/-- Every call during the handshake is one of these moves, when the peer acknowledges only our SYN. -/
theorem move (hbasic : p.conn.Basic) (h : Phase p) (he : e.IsEnvironment)
    (hfin : ∀ seg, e.inbound = some seg → seg.isFin = false)
    (hack : ∀ seg, e.inbound = some seg → seg.isAck = true → seg.isRst = false →
      seg.ack = seqAdd p.conn.iss 1) : Move e p (p.step e) := by
  have hphase : p.conn.state = .synSent ∨ p.conn.state = .synReceived ∨
      p.conn.state = .established ∨ p.conn.state = .closed := by
    rcases h with hknock | hst | hst
    · rcases hknock.state with hst | hst | hst
      exacts [.inl hst, .inr (.inl hst), .inr (.inr (.inr hst))]
    · exact .inr (.inr (.inl hst))
    · exact .inr (.inr (.inr hst))
  cases e with
  | tick now =>
    rcases step_tick_state (p := p) now with hst | hst
    · exact .stay hst (fun _ _ hseg => by cases hseg) (fun _ _ hseg => by cases hseg)
    · exact .closed hst
  | segment seg srcIp draw now =>
    have hinbound : ∀ {x}, (Event.segment seg srcIp draw now).inbound = some x → x = seg := fun hx =>
      (Option.some.inj hx).symm
    rcases hphase with hst | hst | hsettled
    · cases hrst : seg.isRst with
      | true =>
        refine .closed ?_
        rw [step, put_conn, onSegment_of_rst _ _ _ (by rw [hst]; decide) hrst]
        rfl
      | false =>
        cases hsyn : seg.isSyn with
        | false =>
          refine .stay ?_ (fun _ x hx _ => hinbound hx ▸ hsyn) (fun hst' => ?_)
          · rw [step, put_conn, onSegment_synSent_ignored hst hrst hsyn]
            rfl
          · rw [hst] at hst'
            cases hst'
        | true =>
          cases hack' : seg.isAck with
          | false =>
            obtain ⟨hnew, x, hsent, hx⟩ :=
              @onSegment_synSent_syn p.conn seg srcIp draw now hst hrst hsyn hack'
            exact .receive hst hnew hsent hx
          | true =>
            obtain ⟨hnew, x, hsent, hx⟩ := @onSegment_synSent_synAck p.conn seg srcIp draw now
              hbasic hst hrst hsyn hack' (hack seg rfl hack' hrst)
            exact .answer rfl hack' hst hnew hsent hx
    · cases hrst : seg.isRst with
      | true =>
        refine .closed ?_
        rw [step, put_conn, onSegment_of_rst _ _ _ (by rw [hst]; decide) hrst]
        rfl
      | false =>
        have hno : p.conn.state ≠ .synSent := by rw [hst]; decide
        cases hsyn : seg.isSyn with
        | true =>
          refine .stay ?_ (fun hst' => absurd hst' hno) (fun _ x hx _ hsyn' => ?_)
          · exact (onSegment_synReceived_syn hst hrst hsyn).trans hst.symm
          · rw [hinbound hx, hsyn] at hsyn'
            cases hsyn'
        | false =>
          cases hack' : seg.isAck with
          | false =>
            refine .stay ?_ (fun hst' => absurd hst' hno) (fun _ x hx _ _ => hinbound hx ▸ hack')
            rw [step, put_conn, onSegment_synReceived_ignored hst hrst hsyn hack']
            rfl
          | true =>
            exact .settle rfl ⟨hsyn, hack', hrst⟩ hst
              (onSegment_synReceived_ack hst hrst hsyn hack' (hack seg rfl hack' hrst))
    · rcases step_settled (p := p) he hfin hsettled with hst | hst
      · refine .stay hst (fun hno => ?_) (fun hno => ?_)
        · rw [hno] at hsettled
          rcases hsettled with hno | hno <;> cases hno
        · rw [hno] at hsettled
          rcases hsettled with hno | hno <;> cases hno
      · exact .closed hst
  | listen | connect | send | recv | close | abort => exact he.elim

end Endpoint

/-! ### The two endpoints and the segments under way -/

/-- The two endpoints, and for each the segments under way to it. -/
structure Crossing where
  peer : Bool → Endpoint
  inbox : Bool → List TCPSegment

/-- The timer of one endpoint, or the delivery of the `i`-th segment under way to it. -/
inductive Transit where
  | tick (x : Bool) (now : Time)
  | deliver (x : Bool) (i : Nat) (srcIp : Option Bytes) (draw : SeqNo) (now : Time)

namespace Crossing

variable (n : Crossing)

/-- A call at `x`, after which `rest` is still under way to it; what it sends is under way to the other. -/
def advance (x : Bool) (e : Event) (rest : List TCPSegment) : Crossing :=
  let p := (n.peer x).step e
  { peer := Function.update n.peer x p
    inbox := Function.update (Function.update n.inbox x rest) (!x)
      (n.inbox (!x) ++ p.conn.sent.drop (n.peer x).conn.sent.length) }

def step : Transit → Crossing
  | .tick x now => n.advance x (.tick now) (n.inbox x)
  | .deliver x i srcIp draw now =>
    match (n.inbox x)[i]? with
    | some seg => n.advance x (.segment seg srcIp draw now) ((n.inbox x).eraseIdx i)
    | none => n

/-- Both endpoints have called `connect()`. -/
def Started (n : Crossing) : Prop :=
  ∃ (cfg : Bool → Config) (draw : Bool → SeqNo) (now : Bool → Time),
    n.peer = (fun x => (Endpoint.new (cfg x)).step (.connect (draw x) (now x))) ∧
      n.inbox = fun x => (n.peer !x).conn.sent

/-- Both endpoints are in ESTABLISHED, each expecting the number after the other's SYN. -/
def Complete (n : Crossing) : Prop :=
  ∀ x, (n.peer x).conn.state = .established ∧ (n.peer x).conn.rcvNxt = seqAdd (n.peer !x).conn.iss 1

end Crossing

/-- All runs of two endpoints that have called `connect()` towards each other. -/
def crossing : Machine Crossing Transit where
  init := Crossing.Started
  next := Crossing.step

namespace Crossing

open Endpoint

variable {n : Crossing} {x : Bool} {e : Event} {rest : List TCPSegment}

@[simp] theorem advance_peer_self : (n.advance x e rest).peer x = (n.peer x).step e :=
  Function.update_self ..

@[simp] theorem advance_peer_other : (n.advance x e rest).peer (!x) = n.peer (!x) :=
  Function.update_of_ne (Bool.not_ne_self x) ..

@[simp] theorem advance_inbox_self : (n.advance x e rest).inbox x = rest :=
  (Function.update_of_ne (Bool.not_ne_self x).symm ..).trans (Function.update_self ..)

@[simp] theorem advance_inbox_other : (n.advance x e rest).inbox (!x) =
    n.inbox (!x) ++ ((n.peer x).step e).conn.sent.drop (n.peer x).conn.sent.length :=
  Function.update_self ..

theorem forall_peer {φ : Bool → Prop} (x : Bool) (h : φ x) (h' : φ (!x)) (y : Bool) : φ y := by
  rcases Bool.eq_or_eq_not y x with rfl | rfl
  exacts [h, h']

/-- The timer of `x`, or the delivery to `x` of a segment under way; `rest` is what then still is. -/
structure Takes (n : Crossing) (x : Bool) (e : Event) (rest : List TCPSegment) : Prop where
  environment : e.IsEnvironment
  inbound : ∀ seg, e.inbound = some seg → seg ∈ n.inbox x
  subset : ∀ y ∈ rest, y ∈ n.inbox x
  kept : ∀ y ∈ n.inbox x, y ∈ rest ∨ e.inbound = some y

theorem takes_deliver {i : Nat} {seg : TCPSegment} (h : (n.inbox x)[i]? = some seg)
    (srcIp : Option Bytes) (draw : SeqNo) (now : Time) :
    n.Takes x (.segment seg srcIp draw now) ((n.inbox x).eraseIdx i) where
  environment := trivial
  inbound := fun y hy => Option.some.inj hy ▸ List.mem_of_getElem? h
  subset := fun _ => List.mem_of_mem_eraseIdx
  kept := by
    intro y hy
    obtain ⟨j, hj⟩ := List.getElem?_of_mem hy
    by_cases hij : j = i
    · rw [hij, h] at hj
      exact .inr hj
    · exact .inl (List.mem_eraseIdx_iff_getElem?.mpr ⟨j, hij, hj⟩)

theorem takes_tick (now : Time) : n.Takes x (.tick now) (n.inbox x) where
  environment := trivial
  inbound := fun _ hseg => by cases hseg
  subset := fun _ => id
  kept := fun _ => .inl

theorem step_takes (n : Crossing) (t : Transit) : n.step t = n ∨
    ∃ x e rest, n.Takes x e rest ∧ n.step t = n.advance x e rest := by
  cases t with
  | tick x now => exact .inr ⟨x, _, _, takes_tick now, rfl⟩
  | deliver x i srcIp draw now =>
    simp only [step]
    cases h : (n.inbox x)[i]? with
    | none => exact .inl rfl
    | some seg => exact .inr ⟨x, _, _, takes_deliver h srcIp draw now, rfl⟩

/-! ### What holds in every configuration -/

/-- The streams are empty, and only what the other endpoint has sent is under way. -/
structure Coherent (n : Crossing) : Prop where
  basic : ∀ x, (n.peer x).conn.Basic
  silent : ∀ x, (n.peer x).accepted = []
  phase : ∀ x, Phase (n.peer x)
  flows : ∀ x, Flows (n.peer x) (n.peer !x)
  genuine : ∀ x, ∀ seg ∈ n.inbox x, seg ∈ (n.peer !x).conn.sent

namespace Coherent

theorem noFin (h : n.Coherent) {seg : TCPSegment} (hseg : seg ∈ n.inbox x) : seg.isFin = false := by
  obtain ⟨m, r, hout, -⟩ := h.flows (!x)
  exact (hout.sent seg (h.genuine x seg hseg)).noFin

theorem ack_eq (h : n.Coherent) {seg : TCPSegment} (hseg : seg ∈ n.inbox x) (hack : seg.isAck = true)
    (hrst : seg.isRst = false) : seg.ack = seqAdd (n.peer x).conn.iss 1 := by
  obtain ⟨m, r, -, hin⟩ := h.flows x
  obtain ⟨j, hj, heq⟩ := hin.acks seg (h.genuine x seg hseg) hack hrst
  have hr : r = 0 := by simpa [h.silent x] using hin.le
  obtain rfl : j = 0 := by omega
  exact heq

theorem isAck_of_synSent (h : n.Coherent) (hst : (n.peer !x).conn.state = .synSent) {seg : TCPSegment}
    (hseg : seg ∈ n.inbox x) : seg.isAck = false := by
  obtain ⟨m, r, -, hin⟩ := h.flows x
  exact (hin.waiting hst).2.2.2.1 seg (h.genuine x seg hseg)

theorem isSyn_of_synReceived (h : n.Coherent) (hst : (n.peer !x).conn.state = .synReceived)
    {seg : TCPSegment} (hseg : seg ∈ n.inbox x) (hrst : seg.isRst = false) : seg.isSyn = true := by
  rcases h.phase (!x) with hknock | hno | hno
  · rcases hknock.sent seg (h.genuine x seg hseg) with hsyn | hyes
    · exact hsyn
    · rw [hrst] at hyes
      cases hyes
  · rw [hst] at hno
    cases hno
  · rw [hst] at hno
    cases hno

theorem move (h : n.Coherent) (ht : n.Takes x e rest) : Move e (n.peer x) ((n.peer x).step e) :=
  Endpoint.move (h.basic x) (h.phase x) ht.environment (fun seg hseg => h.noFin (ht.inbound seg hseg))
    fun seg hseg => h.ack_eq (ht.inbound seg hseg)

theorem complete (h : n.Coherent) (hst : ∀ x, (n.peer x).conn.state = .established) : n.Complete := by
  intro x
  refine ⟨hst x, ?_⟩
  obtain ⟨m, r, -, hin⟩ := h.flows (!x)
  rw [Bool.not_not] at hin
  have hr : r = 0 := by simpa [h.silent] using hin.le
  have hnxt := (hin.holds (.inr (by rw [hst x]; rfl))).nxt
  rw [hr] at hnxt
  exact hnxt

theorem advance (h : n.Coherent) (ht : n.Takes x e rest) : (n.advance x e rest).Coherent := by
  have hstreaming : e.IsStreaming := by
    have henv := ht.environment
    cases e <;> first | exact henv.elim | trivial
  have hsame : ((n.peer x).step e).accepted = (n.peer x).accepted := by
    have henv := ht.environment
    cases e <;> first | exact henv.elim | rfl
  have hmem : ∀ seg, e.inbound = some seg → seg ∈ (n.peer !x).conn.sent := fun seg hseg =>
    h.genuine x seg (ht.inbound seg hseg)
  have hshort : ∀ y, (n.peer y).accepted.length < 2 ^ 31 := fun y => by
    rw [h.silent y]
    exact Nat.two_pow_pos 31
  obtain ⟨new, hnew⟩ := (n.peer x).sent_prefix_step e
  exact
    { basic := forall_peer x (by simpa using (h.basic x).step e) (by simpa using h.basic !x)
      silent := forall_peer x (by simpa [hsame] using h.silent x) (by simpa using h.silent !x)
      phase := forall_peer x
        (by simpa using (h.phase x).step ht.environment fun seg hseg => h.noFin (ht.inbound seg hseg))
        (by simpa using h.phase !x)
      flows := by
        refine forall_peer x ?_ ?_
        · rw [advance_peer_self, advance_peer_other]
          exact (h.flows x).send (h.basic x) hstreaming hmem (by rw [hsame]; exact hshort x)
        · rw [Bool.not_not, advance_peer_self, advance_peer_other]
          have hback := h.flows !x
          rw [Bool.not_not] at hback
          exact hback.receive (h.basic x) hstreaming hmem (hshort !x)
      genuine := by
        refine forall_peer x (fun seg hseg => ?_) (fun seg hseg => ?_)
        · rw [advance_inbox_self] at hseg
          rw [advance_peer_other]
          exact h.genuine x seg (ht.subset seg hseg)
        · rw [advance_inbox_other] at hseg
          rw [Bool.not_not, advance_peer_self]
          have hback := h.genuine !x
          rw [Bool.not_not] at hback
          rcases List.mem_append.mp hseg with hold | hsent
          · rw [← hnew]
            exact List.mem_append_left _ (hback seg hold)
          · exact List.mem_of_mem_drop hsent }

end Coherent

/-! ### What is still under way -/

/-- A segment with these flags, and no RST, is under way to `x`. -/
def Has (n : Crossing) (x syn ack : Bool) : Prop :=
  ∃ seg ∈ n.inbox x, seg.isSyn = syn ∧ seg.isAck = ack ∧ seg.isRst = false

variable {syn ack : Bool}

theorem Has.kept (h : n.Has x syn ack) (ht : n.Takes x e rest)
    (hno : ∀ seg, e.inbound = some seg → seg.isRst = false → ¬ (seg.isSyn = syn ∧ seg.isAck = ack)) :
    (n.advance x e rest).Has x syn ack := by
  obtain ⟨seg, hseg, hsyn, hack, hrst⟩ := h
  refine ⟨seg, ?_, hsyn, hack, hrst⟩
  rw [advance_inbox_self]
  rcases ht.kept seg hseg with hrest | htaken
  · exact hrest
  · exact absurd ⟨hsyn, hack⟩ (hno seg htaken hrst)

theorem Has.grow (h : n.Has (!x) syn ack) : (n.advance x e rest).Has (!x) syn ack := by
  obtain ⟨seg, hseg, hflags⟩ := h
  refine ⟨seg, ?_, hflags⟩
  rw [advance_inbox_other]
  exact List.mem_append_left _ hseg

theorem has_of_sent (h : ∃ y, ((n.peer x).step e).conn.sent = (n.peer x).conn.sent ++ [y] ∧
    y.isSyn = syn ∧ y.isAck = ack ∧ y.isRst = false) : (n.advance x e rest).Has (!x) syn ack := by
  obtain ⟨y, hsent, hflags⟩ := h
  refine ⟨y, ?_, hflags⟩
  rw [advance_inbox_other, hsent, List.drop_left]
  exact List.mem_append_right _ List.mem_cons_self

/-- The segment each endpoint still needs is under way to it. -/
structure Promising (n : Crossing) : Prop where
  syn : ∀ x, (n.peer x).conn.state = .synSent → (n.peer !x).conn.state = .synSent → n.Has x true false
  synAck : ∀ x, (n.peer x).conn.state = .synSent → (n.peer !x).conn.state = .synReceived →
    n.Has x true true
  order : ∀ x, (n.peer x).conn.state = .synSent → (n.peer !x).conn.state ≠ .established
  ack : ∀ x, (n.peer x).conn.state = .synReceived → (n.peer !x).conn.state = .established →
    n.Has x false true

theorem Promising.advance (h : n.Promising) (hn : n.Coherent) (ht : n.Takes x e rest) :
    (n.advance x e rest).Promising := by
  have hmove := hn.move ht
  constructor
  · refine forall_peer x ?_ ?_
    · simp only [advance_peer_self, advance_peer_other]
      intro hst hother
      obtain ⟨hold, hsyn⟩ := hmove.of_synSent hst
      refine (h.syn x hold hother).kept ht fun seg hseg hrst hflags => ?_
      rw [hsyn seg hseg hrst] at hflags
      cases hflags.1
    · simp only [Bool.not_not, advance_peer_self, advance_peer_other]
      intro hother hst
      refine (h.syn (!x) hother ?_).grow
      rw [Bool.not_not]
      exact (hmove.of_synSent hst).1
  · refine forall_peer x ?_ ?_
    · simp only [advance_peer_self, advance_peer_other]
      intro hst hother
      obtain ⟨hold, hsyn⟩ := hmove.of_synSent hst
      refine (h.synAck x hold hother).kept ht fun seg hseg hrst hflags => ?_
      rw [hsyn seg hseg hrst] at hflags
      cases hflags.1
    · simp only [Bool.not_not, advance_peer_self, advance_peer_other]
      intro hother hst
      rcases hmove.of_synReceived hst with ⟨hold, -⟩ | ⟨-, hsent⟩
      · exact (h.synAck (!x) hother (by rw [Bool.not_not]; exact hold)).grow
      · exact has_of_sent hsent
  · refine forall_peer x ?_ ?_
    · simp only [advance_peer_self, advance_peer_other]
      intro hst
      exact h.order x (hmove.of_synSent hst).1
    · simp only [Bool.not_not, advance_peer_self, advance_peer_other]
      intro hother hst
      rcases hmove.of_established hst with hold | ⟨seg, he, hack, -⟩
      · exact h.order (!x) hother (by rw [Bool.not_not]; exact hold)
      · -- an endpoint in SYN_SENT acknowledges nothing
        rw [hn.isAck_of_synSent hother (ht.inbound seg he)] at hack
        cases hack
  · refine forall_peer x ?_ ?_
    · simp only [advance_peer_self, advance_peer_other]
      intro hst hother
      rcases hmove.of_synReceived hst with ⟨hold, hno⟩ | ⟨hold, -⟩
      · refine (h.ack x hold hother).kept ht fun seg hseg hrst hflags => ?_
        rw [hno seg hseg hrst hflags.1] at hflags
        cases hflags.2
      · exact absurd hother (h.order x hold)
    · simp only [Bool.not_not, advance_peer_self, advance_peer_other]
      intro hother hst
      rcases hmove.of_established hst with hold | ⟨seg, he, -, ⟨-, hsent⟩ | ⟨-, hsyn, hrst⟩⟩
      · exact (h.ack (!x) hother (by rw [Bool.not_not]; exact hold)).grow
      · exact has_of_sent hsent
      · -- an endpoint in SYN_RECEIVED has sent no ACK without a SYN
        rw [hn.isSyn_of_synReceived hother (ht.inbound seg he) hrst] at hsyn
        cases hsyn

theorem Coherent.step (h : n.Coherent) (t : Transit) : (n.step t).Coherent := by
  rcases step_takes n t with hsame | ⟨x, e, rest, ht, hstep⟩
  · rw [hsame]
    exact h
  · rw [hstep]
    exact h.advance ht

theorem Promising.step (h : n.Promising) (hn : n.Coherent) (t : Transit) : (n.step t).Promising := by
  rcases step_takes n t with hsame | ⟨x, e, rest, ht, hstep⟩
  · rw [hsame]
    exact h
  · rw [hstep]
    exact h.advance hn ht

/-! ### The first configuration -/

theorem coherent_of_started (h : n.Started) : n.Coherent ∧ n.Promising := by
  obtain ⟨cfg, draw, now, hpeer, hinbox⟩ := h
  have hnew : ∀ x, (∀ y ∈ (n.peer x).conn.sent, y.flags = FLAG_SYN) ∧
      (∀ y ∈ (n.peer x).conn.retxQueue.segments, y.flags = FLAG_SYN) ∧
      (n.peer x).conn.state = .synSent := by
    intro x
    rw [hpeer]
    dsimp only
    rw [step_connect]
    obtain ⟨hsent, hretx⟩ := tracking_new (c := (TCPConnection.new (cfg x)).opening (draw x))
      ((TCPConnection.new (cfg x)).opening (draw x)).synSegment (now x) rfl rfl
    exact ⟨fun y hy => hsent y hy ▸ rfl, fun y hy => (hretx y hy).2.1, rfl⟩
  constructor
  · exact
      { basic := fun x => by rw [hpeer]; exact (basic_new _).step _
        silent := fun x => by rw [hpeer]; dsimp only; rw [step_connect]
        phase := by
          intro x
          obtain ⟨hsent, hretx, hst⟩ := hnew x
          refine .inl ⟨.inl hst, fun _ => ?_, fun y hy => .inl ?_, fun y hy => ?_⟩
          · rw [hpeer]
            dsimp only
            rw [step_connect]
            rfl
          · rw [TCPSegment.isSyn, hsent y hy]
            decide
          · rw [hretx y hy]
            decide
        flows := by
          intro x
          rw [hpeer]
          exact ⟨0, 0, outbound_connect .., inbound_connect ..⟩
        genuine := fun x seg hseg => by rw [hinbox] at hseg; exact hseg }
  · have hno : ∀ x {st : TcpState}, st ≠ .synSent → (n.peer x).conn.state ≠ st := fun x st hne hst =>
      hne (hst.symm.trans (hnew x).2.2)
    exact
      { syn := by
          intro x _ _
          have hsyn : ((TCPConnection.new (cfg !x)).opening (draw !x)).synSegment ∈ n.inbox x := by
            rw [hinbox, hpeer]
            dsimp only
            rw [step_connect]
            exact List.mem_singleton.mpr rfl
          exact ⟨_, hsyn, show (FLAG_SYN &&& FLAG_SYN != 0) = true by decide,
            show (FLAG_SYN &&& FLAG_ACK != 0) = false by decide,
            show (FLAG_SYN &&& FLAG_RST != 0) = false by decide⟩
        synAck := fun x _ hst => absurd hst (hno (!x) (by decide))
        order := fun x _ => hno (!x) (by decide)
        ack := fun x hst => absurd hst (hno x (by decide)) }

theorem coherent_of_reachable (h : crossing.Reachable n) : n.Coherent ∧ n.Promising :=
  Machine.ReachableBy.induction crossing (P := fun n => n.Coherent ∧ n.Promising)
    (fun _ => coherent_of_started) (fun _ t _ hn _ => ⟨hn.1.step t, hn.2.step hn.1 t⟩) h

/-! ### Completing the handshake -/

theorem Has.deliver (h : n.Has x syn ack) : ∃ t seg rest, n.Takes x (.segment seg none 0 0) rest ∧
    n.step t = n.advance x (.segment seg none 0 0) rest ∧
    seg.isSyn = syn ∧ seg.isAck = ack ∧ seg.isRst = false := by
  obtain ⟨seg, hseg, hflags⟩ := h
  obtain ⟨i, hi⟩ := List.getElem?_of_mem hseg
  refine ⟨.deliver x i none 0 0, seg, _, takes_deliver hi none 0 0, ?_, hflags⟩
  simp only [step, hi]

/-- One side waits for the ACK that is under way to it. -/
theorem completes_of_ack (h : n.Coherent) (hn : n.Promising)
    (hst : (n.peer x).conn.state = .synReceived) (hother : (n.peer !x).conn.state = .established) :
    ∃ es, (crossing.run n es).Complete := by
  obtain ⟨t, seg, rest, ht, hstep, hsyn, hack, hrst⟩ := (hn.ack x hst hother).deliver
  have hnum := h.ack_eq (ht.inbound seg rfl) hack hrst
  refine ⟨[t], ?_⟩
  have hcomplete : (n.advance x (.segment seg none 0 0) rest).Complete := by
    refine (h.advance ht).complete (forall_peer x ?_ ?_)
    · rw [advance_peer_self]
      exact onSegment_synReceived_ack hst hrst hsyn hack hnum
    · rw [advance_peer_other]
      exact hother
  rw [← hstep] at hcomplete
  exact hcomplete

/-- One side waits for the SYN+ACK that is under way to it. -/
theorem completes_of_synAck (h : n.Coherent) (hn : n.Promising)
    (hst : (n.peer x).conn.state = .synSent) (hother : (n.peer !x).conn.state = .synReceived) :
    ∃ es, (crossing.run n es).Complete := by
  obtain ⟨t, seg, rest, ht, hstep, hsyn, hack, hrst⟩ := (hn.synAck x hst hother).deliver
  have hnum := h.ack_eq (ht.inbound seg rfl) hack hrst
  obtain ⟨es, hes⟩ : ∃ es, (crossing.run (n.step t) es).Complete := by
    rw [hstep]
    refine completes_of_ack (x := !x) (h.advance ht) (hn.advance h ht) ?_ ?_
    · rw [advance_peer_other]
      exact hother
    · rw [Bool.not_not, advance_peer_self]
      exact (onSegment_synSent_synAck (h.basic x) hst hrst hsyn hack hnum).1
  exact ⟨t :: es, hes⟩

/-- Both sides wait for an answer to their SYN. -/
theorem completes_of_syn (h : n.Coherent) (hn : n.Promising)
    (hst : (n.peer x).conn.state = .synSent) (hother : (n.peer !x).conn.state = .synSent) :
    ∃ es, (crossing.run n es).Complete := by
  obtain ⟨t, seg, rest, ht, hstep, hsyn, hack, hrst⟩ := (hn.syn x hst hother).deliver
  obtain ⟨es, hes⟩ : ∃ es, (crossing.run (n.step t) es).Complete := by
    rw [hstep]
    refine completes_of_synAck (x := !x) (h.advance ht) (hn.advance h ht) ?_ ?_
    · rw [advance_peer_other]
      exact hother
    · rw [Bool.not_not, advance_peer_self]
      exact (onSegment_synSent_syn hst hrst hsyn hack).1
  exact ⟨t :: es, hes⟩

/-! ### Two endpoints in SYN_RECEIVED -/

/-- Neither endpoint can get past SYN_RECEIVED, for neither has sent an ACK without a SYN. -/
def Stuck (n : Crossing) : Prop :=
  ∀ x, (n.peer x).conn.HalfOpen ∧ Knocking (n.peer x) ∧
    ∀ seg ∈ n.inbox x, seg ∈ (n.peer !x).conn.sent

theorem Stuck.advance (h : n.Stuck) (ht : n.Takes x e rest) : (n.advance x e rest).Stuck := by
  have henv := ht.environment
  have hlisten : e ≠ .listen := by rintro rfl; exact henv
  have hconnect : ∀ draw now, e ≠ .connect draw now := by rintro draw now rfl; exact henv
  have hseg : ∀ seg, e.inbound = some seg → seg.isAck = true → seg.isRst = false →
      seg.isSyn = true := by
    intro seg hin _ hrst
    have hsent := (h x).2.2 seg (ht.inbound seg hin)
    rcases (h !x).2.1.sent seg hsent with hsyn | hno
    · exact hsyn
    · rw [hrst] at hno
      cases hno
  have hkept : ((n.peer x).step e).conn.HalfOpen ∧ Knocking ((n.peer x).step e) := by
    refine keeps_step (I := fun q => q.conn.HalfOpen ∧ Knocking q) (fun q q' hq ha => ?_)
      ⟨(h x).1, (h x).2.1⟩
    have hhalf := ha.halfOpen hlisten hconnect hseg hq.1
    refine ⟨hhalf, (hq.2.action ha henv).resolve_right fun hst => ?_⟩
    rcases hhalf with hno | hno <;> rw [hst] at hno <;> cases hno
  obtain ⟨new, hnew⟩ := (n.peer x).sent_prefix_step e
  refine forall_peer x ⟨?_, ?_, ?_⟩ ⟨?_, ?_, ?_⟩
  · simpa using hkept.1
  · simpa using hkept.2
  · intro seg hrest
    rw [advance_inbox_self] at hrest
    rw [advance_peer_other]
    exact (h x).2.2 seg (ht.subset seg hrest)
  · simpa using (h !x).1
  · simpa using (h !x).2.1
  · intro seg hmem
    rw [advance_inbox_other] at hmem
    rw [Bool.not_not, advance_peer_self]
    have hback := (h !x).2.2
    rw [Bool.not_not] at hback
    rcases List.mem_append.mp hmem with hold | hsent
    · rw [← hnew]
      exact List.mem_append_left _ (hback seg hold)
    · exact List.mem_of_mem_drop hsent

theorem Stuck.run (h : n.Stuck) (es : List Transit) : (crossing.run n es).Stuck := by
  refine crossing.run_induction (P := Stuck) (fun n t hn _ => ?_) h (crossing.meets_true n es)
  rcases step_takes n t with hsame | ⟨x, e, rest, ht, hstep⟩
  · exact (congrArg Stuck hsame).mpr hn
  · exact (congrArg Stuck hstep).mpr (hn.advance ht)

theorem Stuck.not_complete (h : n.Stuck) : ¬ n.Complete := by
  intro hcomplete
  have hst := (hcomplete true).1
  rcases (h true).1 with hno | hno <;> rw [hst] at hno <;> cases hno

theorem Coherent.stuck (h : n.Coherent) (hst : ∀ x, (n.peer x).conn.state = .synReceived) : n.Stuck := by
  intro x
  refine ⟨.inl (hst x), (h.phase x).resolve_right ?_, h.genuine x⟩
  rintro (hno | hno) <;> rw [hst x] at hno <;> cases hno

/-- From every reachable configuration with both endpoints still open, the handshake can be completed
exactly when the endpoints are not both in SYN_RECEIVED. -/
theorem completes_iff (h : crossing.Reachable n) (hopen : ∀ x, (n.peer x).conn.state ≠ .closed) :
    (∃ es, (crossing.run n es).Complete) ↔ ¬ ∀ x, (n.peer x).conn.state = .synReceived := by
  obtain ⟨hcoh, hpro⟩ := coherent_of_reachable h
  constructor
  · rintro ⟨es, hes⟩ hst
    exact ((hcoh.stuck hst).run es).not_complete hes
  · intro hno
    have hphase : ∀ x, (n.peer x).conn.state = .synSent ∨ (n.peer x).conn.state = .synReceived ∨
        (n.peer x).conn.state = .established := by
      intro x
      rcases hcoh.phase x with hknock | hst | hst
      · rcases hknock.state with hst | hst | hst
        exacts [.inl hst, .inr (.inl hst), absurd hst (hopen x)]
      · exact .inr (.inr hst)
      · exact absurd hst (hopen x)
    rcases hphase true with h1 | h1 | h1 <;> rcases hphase false with h2 | h2 | h2
    · exact completes_of_syn (x := true) hcoh hpro h1 h2
    · exact completes_of_synAck (x := true) hcoh hpro h1 h2
    · exact absurd h2 (hpro.order true h1)
    · exact completes_of_synAck (x := false) hcoh hpro h2 h1
    · exact absurd (forall_peer true h1 h2) hno
    · exact completes_of_ack (x := true) hcoh hpro h1 h2
    · exact absurd h1 (hpro.order false h2)
    · exact completes_of_ack (x := false) hcoh hpro h2 h1
    · exact ⟨[], hcoh.complete (forall_peer true h1 h2)⟩

/-- Two endpoints that have called `connect()`, one of them with a number about to wrap. -/
def knocks : Crossing where
  peer := fun x => (Endpoint.new (.plain (if x then 0xFFFFFFFF else 100))).step (.connect 0 0)
  inbox := fun x => ((Endpoint.new (.plain (if !x then 0xFFFFFFFF else 100))).step (.connect 0 0)).conn.sent

theorem knocks_reachable (es : List Transit) : crossing.Reachable (crossing.run knocks es) :=
  (Machine.ReachableBy.init crossing ⟨fun x => .plain (if x then 0xFFFFFFFF else 100), fun _ => 0, fun _ => 0,
    rfl, rfl⟩).run crossing (crossing.meets_true knocks es)

/-- After one side has received the other's SYN the handshake can still be completed. -/
theorem completes_of_one_syn :
    ∃ es, (crossing.run (crossing.run knocks [.deliver true 0 none 0 0]) es).Complete :=
  (completes_iff (knocks_reachable _) (by decide)).mpr (by decide)

/-- The two SYNs cross, and neither endpoint is ever established. -/
theorem crossed_syns_never_complete :
    crossing.Reachable (crossing.run knocks [.deliver true 0 none 0 0, .deliver false 0 none 0 0]) ∧
      (∀ x, ((crossing.run knocks [.deliver true 0 none 0 0, .deliver false 0 none 0 0]).peer x).conn.state =
        .synReceived) ∧
      ∀ es, ¬ (crossing.run (crossing.run knocks [.deliver true 0 none 0 0, .deliver false 0 none 0 0])
        es).Complete := by
  have hst : ∀ x, ((crossing.run knocks
      [.deliver true 0 none 0 0, .deliver false 0 none 0 0]).peer x).conn.state = .synReceived := by decide
  have hreach := knocks_reachable [.deliver true 0 none 0 0, .deliver false 0 none 0 0]
  exact ⟨hreach, hst, fun es => (((coherent_of_reachable hreach).1.stuck hst).run es).not_complete⟩

end Crossing

end MiniTcp
