import MiniTcp.Net.Tcp.RightEdge

/-!
# What a handshake agrees on

Two endpoints open towards each other, either actively or as a listener, which is followed to the child it
hands out; the network delivers any segment of the other side, at any time and as often as it likes. Each
side takes the other's initial number and options from the first SYN it accepts, and only there
(`takesSyn`, `sameTerms_step`). The first transmission of a SYN carries the options, but `_retransmit_oldest`
resends it without, and the receiver is left with the defaults: the two sides agree exactly when every SYN
that was taken was a first transmission or the defaults are what would have been agreed on (`agreed_iff`).
-/

namespace MiniTcp

open TCPConnection

namespace TCPConnection

variable {b c d : TCPConnection} {seg : TCPSegment}

/-- The number and the options of the peer have been taken. -/
def Introduced (c : TCPConnection) : Prop := c.state = .synReceived ∨ c.state.isSynchronised = true

/-- Whether `seg` is a SYN whose number and options are taken. -/
def takesSyn (c : TCPConnection) (seg : TCPSegment) : Bool :=
  seg.isSyn && !seg.isRst && (c.state = .listen ||
    (c.state = .synSent && (!seg.isAck || seqGe seg.ack (seqAdd c.iss 1))))

/-- What the handshake sets is the same. -/
structure SameTerms (c d : TCPConnection) : Prop where
  cfg : d.cfg = c.cfg
  iss : d.iss = c.iss
  irs : d.irs = c.irs
  peerMss : d.peerMss = c.peerMss
  sndWscale : d.sndWscale = c.sndWscale

theorem introduced_iff :
    c.Introduced ↔ c.state ≠ .closed ∧ c.state ≠ .listen ∧ c.state ≠ .synSent := by
  unfold Introduced
  cases c.state <;> simp [TcpState.isSynchronised]

end TCPConnection

/-! ### Calls that take no SYN -/

section Calls

variable {e : Event} {p q q' : Endpoint}

theorem Action.keeps_terms (ha : Action true e q q') (hlisten : e ≠ .listen)
    (hconnect : ∀ draw now, e ≠ .connect draw now)
    (hno : ∀ seg, e.inbound = some seg → q.conn.takesSyn seg = false) :
    q'.conn.irs = q.conn.irs ∧ q'.conn.peerMss = q.conn.peerMss ∧
      (q'.conn.Introduced → q.conn.Introduced) := by
  have hsyn : ∀ {seg srcIp draw now}, e = .segment seg srcIp draw now → seg.isSyn = true →
      seg.isRst = false → q.conn.state = .synSent →
      (seg.isAck = false ∨ seqGe seg.ack (seqAdd q.conn.iss 1) = true) → False := by
    rintro seg srcIp draw now rfl hs hr hst hack
    have := hno seg rfl
    rcases hack with hack | hack <;> simp [takesSyn, hs, hr, hst, hack] at this
  cases ha with
  | quiet hq => exact ⟨hq.irs, hq.peerMss, fun h => by rwa [Introduced, Endpoint.put_conn, hq.state] at h⟩
  | listen he => exact absurd he hlisten
  | connect he => exact absurd he (hconnect _ _)
  | simultaneousOpen he hst hs hack hr => exact (hsyn he hs hr hst (.inl hack)).elim
  | adopt he hst hs hack hr hge => exact (hsyn he hs hr hst (.inr hge)).elim
  | retire t _ _ _ hst => exact ⟨rfl, rfl, fun _ => .inr hst⟩
  | establish t he hack hr hst hge =>
    have hst' : q.conn.state = .synReceived := by
      rcases hst with ⟨hst, hs, -⟩ | ⟨hst, -⟩
      · exact (hsyn he hs hr hst (.inr hge)).elim
      · exact hst
    refine ⟨?_, ?_, fun _ => .inl hst'⟩
    · simp only [Endpoint.put_conn, settled]
      split_ifs <;> rfl
    · simp only [Endpoint.put_conn, settled]
      split_ifs <;> rfl
  | push payload n now hst _ hne =>
    rw [Endpoint.put_conn, transmitData_eq _ now hne]
    exact ⟨rfl, rfl, fun _ => .inr hst⟩
  | resend now =>
    rw [Endpoint.put_conn, resend_eq]
    exact ⟨rfl, rfl, id⟩
  | fin _ hst =>
    simp only [Endpoint.put_conn, sendFin_eq]
    refine ⟨rfl, rfl, fun _ => .inr ?_⟩
    rcases hst with ⟨hst, -⟩ | ⟨hst, -⟩ <;> rw [hst] <;> rfl
  | @consumeFin _ _ _ now =>
    have hkept : (q.conn.finTaken now).irs = q.conn.irs ∧
        (q.conn.finTaken now).peerMss = q.conn.peerMss := by
      unfold finTaken
      dsimp only
      split
      · exact ⟨rfl, rfl⟩
      · split_ifs <;> exact ⟨rfl, rfl⟩
      all_goals exact ⟨rfl, rfl⟩
    refine ⟨hkept.1, hkept.2, fun h => ?_⟩
    rcases finTaken_state q.conn now with hst | ⟨hst, -⟩
    · rwa [Introduced, Endpoint.put_conn, hst] at h
    · exact .inr hst
  | advance _ _ _ _ _ hst =>
    refine ⟨?_, ?_, fun _ => .inr ?_⟩
    · simp only [Endpoint.put_conn, finAcknowledged]
      split <;> rfl
    · simp only [Endpoint.put_conn, finAcknowledged]
      split <;> rfl
    · rcases hst with hst | hst | hst <;> rw [hst] <;> rfl
  | reset | expire | drop =>
    refine ⟨rfl, rfl, fun h => ?_⟩
    rcases h with h | h <;> cases h
  | abort =>
    simp only [Endpoint.put_conn, abort_eq]
    refine ⟨by split_ifs <;> rfl, by split_ifs <;> rfl, fun h => ?_⟩
    split_ifs at h <;> rcases h with h | h <;> cases h
  | _ => exact ⟨rfl, rfl, id⟩

theorem sndWscale_onSegment {c : TCPConnection} {seg : TCPSegment} (srcIp : Option Bytes) (draw : SeqNo)
    (now : Time) (hno : c.takesSyn seg = false) :
    (c.onSegment seg srcIp draw now).1.sndWscale = c.sndWscale := by
  by_cases hopen : c.state.isSynchronised = true ∨ c.state = .closed
  · obtain ⟨hignored, htaken⟩ := window_onSegment c seg srcIp draw now hopen
    cases htakes : c.takesAck seg with
    | false => exact (hignored htakes).sndWscale
    | true => exact (htaken htakes).2.1
  unfold onSegment dispatch
  by_cases hrst : seg.isRst = true
  · simp only [hrst, if_true]
    split_ifs
    · exact (sendFrame_reject (c.stamp now) seg now).sndWscale
    · rfl
  cases hst : c.state with
  | listen => simp [stamp, hst, hrst]
  | synSent =>
    have hst' : (c.stamp now).state = .synSent := hst
    by_cases hsyn : seg.isSyn = true
    · have hboth : seg.isAck = true ∧ seqGe seg.ack (seqAdd c.iss 1) = false := by
        simpa [takesSyn, hsyn, hrst, hst] using hno
      simp only [hst', hrst, hsyn, hboth.1, reduceCtorEq, if_false, if_true]
      unfold handleSynAck
      rw [if_pos (by simpa [stamp] using hboth.2)]
      exact (sendFrame_reject (c.stamp now) seg now).sndWscale
    · simp [stamp, hst, hrst, hsyn]
  | synReceived =>
    have hst' : (c.stamp now).state = .synReceived := hst
    simp only [hst', hrst, reduceCtorEq, if_false, if_true]
    split_ifs
    · exact (sendFrame_retransmitOldest (c.stamp now) now false).sndWscale
    · unfold handleFinalAckOfHandshake
      split_ifs
      · rfl
      · exact (ackFrame_processAck (c.stamp now) seg now).sndWscale
    · rfl
  | _ => simp [hst, TcpState.isSynchronised] at hopen

theorem step_unopened (hlisten : e ≠ .listen) (hconnect : ∀ draw now, e ≠ .connect draw now) :
    ((p.step e).conn.state = .listen → p.conn.state = .listen) ∧
      ((p.step e).conn.state = .synSent → p.conn.state = .synSent) := by
  refine keeps_step (I := fun q => (q.conn.state = .listen → p.conn.state = .listen) ∧
    (q.conn.state = .synSent → p.conn.state = .synSent)) ?_ ⟨id, id⟩
  rintro q q' ⟨hq, hq'⟩ ha
  refine ⟨fun h => hq (ha.of_listen hlisten h).1, fun h => hq' ?_⟩
  by_contra hne
  exact ha.ne_synSent hconnect hne h

theorem sameTerms_step (hlisten : e ≠ .listen) (hconnect : ∀ draw now, e ≠ .connect draw now)
    (hno : ∀ seg, e.inbound = some seg → p.conn.takesSyn seg = false) :
    SameTerms p.conn (p.step e).conn ∧ ((p.step e).conn.Introduced → p.conn.Introduced) := by
  have hkept : ((p.step e).conn.irs = p.conn.irs ∧ (p.step e).conn.peerMss = p.conn.peerMss) ∧
      (p.step e).conn.iss = p.conn.iss ∧
      ((p.step e).conn.state = .listen → p.conn.state = .listen) ∧
      ((p.step e).conn.state = .synSent → p.conn.state = .synSent) ∧
      ((p.step e).conn.Introduced → p.conn.Introduced) := by
    refine keeps_step (I := fun q => (q.conn.irs = p.conn.irs ∧ q.conn.peerMss = p.conn.peerMss) ∧
      q.conn.iss = p.conn.iss ∧ (q.conn.state = .listen → p.conn.state = .listen) ∧
      (q.conn.state = .synSent → p.conn.state = .synSent) ∧ (q.conn.Introduced → p.conn.Introduced))
      ?_ ⟨⟨rfl, rfl⟩, rfl, id, id, id⟩
    rintro q q' ⟨⟨hirs, hmss⟩, hiss, hl, hs, hi⟩ ha
    have hno' : ∀ seg, e.inbound = some seg → q.conn.takesSyn seg = false := by
      intro seg hseg
      have hold := hno seg hseg
      by_contra htakes
      rw [Bool.not_eq_false] at htakes
      simp only [takesSyn, hiss, Bool.and_eq_true, Bool.or_eq_true, decide_eq_true_eq] at htakes
      obtain ⟨hflags, hst | ⟨hst, hack⟩⟩ := htakes
      · simp [takesSyn, hflags, hl hst] at hold
      · rcases hack with hack | hack <;> simp [takesSyn, hflags, hs hst, hack] at hold
    obtain ⟨hirs', hmss', hi'⟩ := ha.keeps_terms hlisten hconnect hno'
    refine ⟨⟨hirs'.trans hirs, hmss'.trans hmss⟩, (ha.iss hconnect).trans hiss,
      fun h => hl (ha.of_listen hlisten h).1, fun h => hs ?_, fun h => hi (hi' h)⟩
    by_contra hne
    exact ha.ne_synSent hconnect hne h
  obtain ⟨⟨hirs, hmss⟩, hiss, -, -, hintro⟩ := hkept
  refine ⟨⟨step_cfg p e, hiss, hirs, hmss, ?_⟩, hintro⟩
  cases e with
  | segment seg srcIp draw now => exact sndWscale_onSegment srcIp draw now (hno seg rfl)
  | listen => exact absurd rfl hlisten
  | connect draw now => exact absurd rfl (hconnect draw now)
  | _ =>
    apply (sameWindow_step p _).sndWscale
    trivial

theorem onSegment_takesSyn {c : TCPConnection} {seg : TCPSegment} (srcIp : Option Bytes) (draw : SeqNo)
    (now : Time) (hst : c.state = .synSent) (htakes : c.takesSyn seg = true) :
    SameTerms (c.adopted seg) (c.onSegment seg srcIp draw now).1 ∧
      (c.onSegment seg srcIp draw now).1.Introduced := by
  have hst' : (c.stamp now).state = .synSent := hst
  simp only [takesSyn, hst, Bool.and_eq_true, Bool.not_eq_true', Bool.or_eq_true, reduceCtorEq,
    decide_false, Bool.false_eq_true, false_or, decide_true, true_and] at htakes
  obtain ⟨⟨hsyn, hrst⟩, hack⟩ := htakes
  unfold onSegment dispatch
  simp only [hst', hrst, hsyn, reduceCtorEq, Bool.false_eq_true, if_false, if_true]
  by_cases hisAck : seg.isAck = true
  · have hge : seqGe seg.ack (seqAdd c.iss 1) = true := hack.resolve_left (by simp [hisAck])
    rw [if_pos hisAck]
    unfold handleSynAck
    rw [if_neg (by simpa [stamp] using hge)]
    dsimp only
    refine ⟨?_, .inr rfl⟩
    have h := (ackFrame_processAck { (c.stamp now).adopted seg with
      peerWindow := seg.window <<< ((c.stamp now).adopted seg).sndWscale } seg now).trans
      (sendFrame_sendAck _ now).ackFrame
    exact ⟨h.cfg, h.iss, h.irs, h.peerMss, h.sndWscale⟩
  · rw [if_neg hisAck, handleSimultaneousOpen_eq]
    exact ⟨⟨rfl, rfl, rfl, rfl, rfl⟩, .inl rfl⟩

/-! ### The SYNs a side sends -/

/-- A SYN that is handed out has the connection's number, and its options unless it is resent. -/
theorem Emission.of_isSyn {x : TCPSegment} (hx : Emission true e q q' x)
    (hconnect : ∀ draw now, e ≠ .connect draw now)
    (hretx : ∀ y ∈ q.conn.retxQueue.segments, (y.flags &&& FLAG_SYN != 0) = true → y.seq = q.conn.iss)
    (hsyn : x.isSyn = true) :
    x.seq = q.conn.iss ∧ (x.options = q.conn.synOptions ∨ x.options = {}) := by
  cases hx with
  | ack => exact absurd hsyn (show ¬ (FLAG_ACK &&& FLAG_SYN != 0) = true by decide)
  | rejection =>
    unfold TCPConnection.rejection at hsyn
    split_ifs at hsyn
    · exact absurd hsyn (show ¬ (FLAG_RST &&& FLAG_SYN != 0) = true by decide)
    · exact absurd hsyn (show ¬ ((FLAG_RST ||| FLAG_ACK) &&& FLAG_SYN != 0) = true by decide)
  | syn he => exact absurd he (hconnect _ _)
  | synAck => exact ⟨rfl, .inl rfl⟩
  | data => exact absurd hsyn (show ¬ ((FLAG_ACK ||| FLAG_PSH) &&& FLAG_SYN != 0) = true by decide)
  | resent h => exact ⟨hretx _ (List.mem_of_mem_head? h) hsyn, .inr rfl⟩
  | fin => exact absurd hsyn (show ¬ ((FLAG_ACK ||| FLAG_FIN) &&& FLAG_SYN != 0) = true by decide)
  | abort => exact absurd hsyn (show ¬ ((FLAG_RST ||| FLAG_ACK) &&& FLAG_SYN != 0) = true by decide)

/-- Every SYN the side sent has its number, with its options or none; a listener sent nothing. -/
structure Announces (p : Endpoint) : Prop where
  sent : ∀ x ∈ p.conn.sent, x.isSyn = true →
    x.seq = p.conn.iss ∧ (x.options = p.conn.synOptions ∨ x.options = {})
  retx : ∀ y ∈ p.conn.retxQueue.segments, (y.flags &&& FLAG_SYN != 0) = true → y.seq = p.conn.iss
  silent : p.conn.state = .listen → p.conn.sent = [] ∧ p.conn.retxQueue.segments = []

theorem Emission.not_listen {x : TCPSegment} (hx : Emission true e q q' x)
    (hconnect : ∀ draw now, e ≠ .connect draw now) (hst : q.conn.state = .listen)
    (hst' : q'.conn.state = .listen) (hretx : q.conn.retxQueue.segments = []) : False := by
  cases hx with
  | ack h => rcases h with h | h <;> simp [hst, TcpState.isSynchronised] at h
  | rejection _ _ _ h =>
    rcases h with h | h | h <;> simp [hst, TcpState.isSynchronised] at h
  | syn he => exact hconnect _ _ he
  | synAck _ h => simp [hst] at h
  | data _ _ h => simp [hst, TcpState.isSynchronised] at h
  | resent h => simp [RetransmitQueue.oldest, hretx] at h
  | fin _ h => simp [hst] at h
  | abort _ h => simp [hst'] at h

theorem Announces.action (h : Announces q) (ha : Action true e q q') (hlisten : e ≠ .listen)
    (hconnect : ∀ draw now, e ≠ .connect draw now) : Announces q' := by
  have hiss := ha.iss hconnect
  have hopts : q'.conn.synOptions = q.conn.synOptions := by rw [synOptions, ha.cfg, synOptions]
  have hnew := fun x (hx : Emission true e q q' x) => hx.of_isSyn hconnect h.retx
  refine ⟨?_, ?_, fun hst => ?_⟩
  · rw [hiss, hopts]
    exact ha.forall_sent (P := fun x => x.isSyn = true →
      x.seq = q.conn.iss ∧ (x.options = q.conn.synOptions ∨ x.options = {})) h.sent hnew
  · intro y hy hsyn
    rw [hiss]
    rcases ha.retx hy with ⟨x, hx, hseq, hflags, -⟩ | ⟨x, hx, -, hseq, hflags, -⟩
    · exact hseq.trans (h.retx x hx (hflags ▸ hsyn))
    · rw [hflags] at hsyn
      exact hseq.trans (hnew x hx hsyn).1
  · have hold := (ha.of_listen hlisten hst).1
    obtain ⟨hsent, hretx⟩ := h.silent hold
    have hquiet : ∀ x, Emission true e q q' x → False := fun x hx =>
      hx.not_listen hconnect hold hst hretx
    constructor
    · rcases ha.sent with hsame | ⟨x, -, hx⟩
      · rw [hsame, hsent]
      · exact (hquiet x hx).elim
    · rw [List.eq_nil_iff_forall_not_mem]
      intro y hy
      rcases ha.retx hy with ⟨x, hx, -⟩ | ⟨x, hx, -⟩
      · rw [hretx] at hx
        cases hx
      · exact hquiet x hx

theorem Announces.step (h : Announces p) (hlisten : e ≠ .listen)
    (hconnect : ∀ draw now, e ≠ .connect draw now) : Announces (p.step e) :=
  keeps_step (I := Announces) (fun _ _ hq ha => hq.action ha hlisten hconnect) h

theorem announces_connect (cfg : Config) (draw : SeqNo) (now : Time) :
    Announces ((Endpoint.new cfg).step (.connect draw now)) := by
  rw [Endpoint.step_connect]
  obtain ⟨hsent, hretx⟩ := tracking_new (c := (TCPConnection.new cfg).opening draw)
    ((TCPConnection.new cfg).opening draw).synSegment now rfl rfl
  refine ⟨?_, ?_, fun hst => by cases hst⟩
  · intro x hx _
    rw [hsent x hx]
    exact ⟨rfl, .inl rfl⟩
  · intro y hy _
    exact (hretx y hy).1

theorem announces_passive (cfg : Config) (seg : TCPSegment) (draw : SeqNo) (now : Time) :
    Announces (Endpoint.passive cfg seg draw now) := by
  rw [Endpoint.passive, beginPassiveOpen_eq]
  obtain ⟨hsent, hretx⟩ := tracking_new (c := (TCPConnection.new cfg).answering seg draw)
    (((TCPConnection.new cfg).answering seg draw).synAckSegment seg) now rfl rfl
  refine ⟨?_, ?_, fun hst => by cases hst⟩
  · intro x hx _
    rw [hsent x hx]
    exact ⟨rfl, .inl rfl⟩
  · intro y hy _
    exact (hretx y hy).1

end Calls

/-! ### Two endpoints that open towards each other -/

/-- A call; a listener that hands out a child is followed to it. -/
def Endpoint.follow (p : Endpoint) : Event → Endpoint
  | .segment seg srcIp draw now =>
    match (p.conn.onSegment seg srcIp draw now).2 with
    | some c => { conn := c }
    | none => p.step (.segment seg srcIp draw now)
  | e => p.step e

/-- The two sides. -/
structure Pairing where
  peer : Bool → Endpoint

namespace Pairing

variable (n : Pairing)

/-- Each side has called `connect()` or `listen()`. -/
def Started : Prop :=
  ∀ x, ∃ cfg, (∃ draw now, n.peer x = (Endpoint.new cfg).step (.connect draw now)) ∨
    n.peer x = (Endpoint.new cfg).step .listen

/-- A call at one side. -/
def call (a : Bool × Event) : Pairing :=
  { peer := Function.update n.peer a.1 ((n.peer a.1).follow a.2) }

end Pairing

/-- All runs of two such endpoints. -/
def pairing : Machine Pairing (Bool × Event) where
  init := Pairing.Started
  next := Pairing.call

namespace Pairing

variable {n n₀ : Pairing} {a : Bool × Event}

/-- A side is not opened anew, and only what the other side sent is delivered. -/
structure Genuine (n : Pairing) (a : Bool × Event) : Prop where
  listen : a.2 ≠ .listen
  connect : ∀ draw now, a.2 ≠ .connect draw now
  inbound : ∀ seg, a.2.inbound = some seg → seg ∈ (n.peer !a.1).conn.sent

/-- Both sides are established. -/
def Established (n : Pairing) : Prop := ∀ x, (n.peer x).conn.state = .established

/-- Each side has the other's number and scale, and the smaller of the two segment sizes. -/
def Agreed (n : Pairing) : Prop :=
  ∀ x, (n.peer x).conn.irs = (n.peer !x).conn.iss ∧
    (n.peer x).conn.sndWscale = (n.peer !x).conn.cfg.windowScale ∧
    (n.peer x).conn.peerMss = min (n.peer x).conn.cfg.mss (n.peer !x).conn.cfg.mss

/-- `seg` brings the options of the side it comes from, or the defaults are what they come to. -/
def CarriesTerms (n : Pairing) (x : Bool) (seg : TCPSegment) : Prop :=
  seg.options = (n.peer !x).conn.synOptions ∨
    (n.peer !x).conn.cfg.windowScale = 0 ∧ min (n.peer x).conn.cfg.mss (n.peer !x).conn.cfg.mss = 536

/-- A SYN whose number and options are taken carries the terms. -/
def Negotiates (n : Pairing) (a : Bool × Event) : Prop :=
  ∀ seg, a.2.inbound = some seg → (n.peer a.1).conn.takesSyn seg = true → n.CarriesTerms a.1 seg

end Pairing

/-- The segment sizes and scales a connection is used with. -/
def Config.InRange (cfg : Config) : Prop := 64 ≤ cfg.mss ∧ cfg.mss ≤ 65535 ∧ cfg.windowScale ≤ 14

namespace TCPConnection

variable {c : TCPConnection} {seg : TCPSegment}

theorem applyPeerOptions_of_full {peer : Config} (hscale : c.sndWscale = 0) (hcfg : c.cfg.InRange)
    (hpeer : peer.InRange) (hopts : seg.options = (new peer).synOptions) :
    (c.adopted seg).sndWscale = peer.windowScale ∧
      (c.adopted seg).peerMss = min c.cfg.mss peer.mss := by
  obtain ⟨hlow, -, -⟩ := hcfg
  obtain ⟨hlow', -, hscale'⟩ := hpeer
  have hnew : (new peer).cfg = peer := rfl
  simp only [adopted, applyPeerOptions, hopts, synOptions, hnew]
  constructor
  · split_ifs with hzero
    · exact hscale.trans hzero.symm
    · apply Nat.min_eq_left hscale'
  · omega

theorem applyPeerOptions_of_empty (hopts : seg.options = {}) :
    (c.adopted seg).sndWscale = c.sndWscale ∧ (c.adopted seg).peerMss = c.peerMss := by
  simp only [adopted, applyPeerOptions, hopts, and_self]

end TCPConnection

/-! ### One call at one side -/

section Follow

variable {p q : Endpoint} {e : Event} {seg : TCPSegment}

theorem TCPConnection.onSegment_snd (c : TCPConnection) (seg : TCPSegment) (srcIp : Option Bytes)
    (draw : SeqNo) (now : Time) :
    (c.onSegment seg srcIp draw now).2 = if c.state = .listen ∧ c.takesSyn seg = true then
      some ((new (c.childConfig seg srcIp)).beginPassiveOpen seg draw now) else none := by
  unfold onSegment dispatch handleSegmentInListen takesSyn
  by_cases hst : c.state = .listen
  · have hst' : (c.stamp now).state = .listen := hst
    cases hrst : seg.isRst
    · cases hsyn : seg.isSyn
      · simp [hst', hst]
      · simp [hst, childConfig, stamp]
    · simp [hst', hst]
  · have hst' : ¬ (c.stamp now).state = .listen := hst
    simp only [hst, hst', false_and, if_false]
    split_ifs <;> rfl

/-- `q` has taken the number and the options of a SYN. -/
structure Takes (p q : Endpoint) (seg : TCPSegment) : Prop where
  takes : p.conn.takesSyn seg = true
  introduced : q.conn.Introduced
  irs : q.conn.irs = seg.seq
  mss : q.conn.cfg.mss = p.conn.cfg.mss
  windowScale : q.conn.cfg.windowScale = p.conn.cfg.windowScale
  sndWscale : q.conn.sndWscale = (p.conn.adopted seg).sndWscale
  peerMss : q.conn.peerMss = (p.conn.adopted seg).peerMss
  iss : p.conn.state ≠ .listen → q.conn.iss = p.conn.iss

/-- `q` has taken no SYN. -/
structure Keeps (p q : Endpoint) : Prop where
  terms : SameTerms p.conn q.conn
  introduced : q.conn.Introduced → p.conn.Introduced
  unopened : q.conn.state = .listen ∨ q.conn.state = .synSent → q.conn.state = p.conn.state
  listening : q.conn.state = .listen → p.conn.state = .listen

/-- A side whose peer is not known yet has the default terms. -/
def Fresh (p : Endpoint) : Prop :=
  p.conn.state = .listen ∨ p.conn.state = .synSent → p.conn.sndWscale = 0 ∧ p.conn.peerMss = 536

theorem follow_spec (hfresh : Fresh p) (hannounces : Announces p) (hlisten : e ≠ .listen)
    (hconnect : ∀ draw now, e ≠ .connect draw now) :
    Announces (p.follow e) ∧
      ((∃ seg, e.inbound = some seg ∧ Takes p (p.follow e) seg) ∨
        (∀ seg, e.inbound = some seg → p.conn.takesSyn seg = false) ∧ Keeps p (p.follow e)) := by
  have hkeeps : (∀ seg, e.inbound = some seg → p.conn.takesSyn seg = false) →
      Keeps p (p.step e) := by
    intro hno
    obtain ⟨hterms, hintro⟩ := sameTerms_step hlisten hconnect hno
    obtain ⟨hl, hs⟩ := step_unopened (p := p) hlisten hconnect
    exact ⟨hterms, hintro, fun h => h.elim (fun h => h.trans (hl h).symm) fun h => h.trans (hs h).symm, hl⟩
  have hsame : (p.follow e = p.step e ∧ ∀ seg, e.inbound = some seg →
      p.conn.takesSyn seg = true → p.conn.state = .synSent) ∨
      ∃ seg srcIp draw now, e = .segment seg srcIp draw now ∧ p.conn.takesSyn seg = true ∧
        p.conn.state = .listen ∧ p.follow e = .passive (p.conn.childConfig seg srcIp) seg draw now := by
    cases e with
    | segment seg srcIp draw now =>
      simp only [Endpoint.follow, onSegment_snd]
      split_ifs with hchild
      · exact .inr ⟨seg, srcIp, draw, now, rfl, hchild.2, hchild.1, rfl⟩
      · refine .inl ⟨rfl, fun seg' hin htakes => ?_⟩
        obtain rfl := Option.some.inj hin
        have hstate := htakes
        simp only [takesSyn, Bool.and_eq_true, Bool.or_eq_true, decide_eq_true_eq] at hstate
        exact (hstate.2.resolve_left fun hst => hchild ⟨hst, htakes⟩).1
    | _ => exact .inl ⟨rfl, fun _ hin => by cases hin⟩
  rcases hsame with ⟨heq, hsent⟩ | ⟨seg, srcIp, draw, now, rfl, htakes, hst, heq⟩
  · rw [heq]
    refine ⟨hannounces.step hlisten hconnect, ?_⟩
    by_cases hno : ∀ seg, e.inbound = some seg → p.conn.takesSyn seg = false
    · exact .inr ⟨hno, hkeeps hno⟩
    · obtain ⟨seg, hin, htakes⟩ : ∃ seg, e.inbound = some seg ∧ p.conn.takesSyn seg = true := by
        simpa using hno
      obtain ⟨srcIp, draw, now, rfl⟩ : ∃ srcIp draw now, e = .segment seg srcIp draw now := by
        cases e with
        | segment seg' srcIp draw now =>
          obtain rfl := Option.some.inj hin
          exact ⟨srcIp, draw, now, rfl⟩
        | _ => cases hin
      obtain ⟨hterms, hintro⟩ := onSegment_takesSyn srcIp draw now (hsent seg rfl htakes) htakes
      exact .inl ⟨seg, rfl, htakes, hintro, hterms.irs, congrArg Config.mss hterms.cfg,
        congrArg Config.windowScale hterms.cfg, hterms.sndWscale, hterms.peerMss, fun _ => hterms.iss⟩
  · rw [heq]
    refine ⟨announces_passive _ seg draw now, .inl ⟨seg, rfl, ?_⟩⟩
    obtain ⟨hscale, hmss⟩ := hfresh (.inl hst)
    rw [Endpoint.passive, beginPassiveOpen_eq]
    refine ⟨htakes, .inl rfl, rfl, rfl, rfl, ?_, ?_, fun h => absurd hst h⟩
    · simp only [adopted, applyPeerOptions, hscale]
      rfl
    · simp only [adopted, applyPeerOptions, hmss]
      rfl

end Follow

/-! ### Runs -/

namespace Pairing

variable {n n₀ : Pairing} {a : Bool × Event}

/-- What each side knows of the other's number, and what its SYNs say. -/
structure Sound (n : Pairing) : Prop where
  range : ∀ x, (n.peer x).conn.cfg.InRange
  announces : ∀ x, Announces (n.peer x)
  fresh : ∀ x, Fresh (n.peer x)
  irs : ∀ x, (n.peer x).conn.Introduced →
    (n.peer x).conn.irs = (n.peer !x).conn.iss ∧ (n.peer !x).conn.state ≠ .listen

@[simp] theorem call_peer_self (n : Pairing) (x : Bool) (e : Event) :
    (n.call (x, e)).peer x = (n.peer x).follow e := by simp [call]

@[simp] theorem call_peer_other (n : Pairing) (x : Bool) (e : Event) :
    (n.call (x, e)).peer (!x) = n.peer !x := by
  cases x <;> simp [call, Function.update]

theorem forall_side {P : Bool → Prop} (x : Bool) (hself : P x) (hother : P !x) : ∀ z, P z := by
  intro z
  rcases Bool.eq_or_eq_not z x with rfl | rfl
  · exact hself
  · exact hother

theorem Sound.of_started (h : n.Started) (hrange : ∀ x, (n.peer x).conn.cfg.InRange) : n.Sound := by
  have hside : ∀ x, Announces (n.peer x) ∧ Fresh (n.peer x) ∧ ¬ (n.peer x).conn.Introduced := by
    intro x
    obtain ⟨cfg, ⟨draw, now, hx⟩ | hx⟩ := h x
    · rw [hx]
      refine ⟨announces_connect cfg draw now, ?_⟩
      rw [Endpoint.step_connect]
      exact ⟨fun _ => ⟨rfl, rfl⟩, fun h => by rcases h with h | h <;> cases h⟩
    · have hlisten : (Endpoint.new cfg).step .listen =
          ⟨{ TCPConnection.new cfg with state := .listen }, [], []⟩ := rfl
      rw [hx, hlisten]
      refine ⟨⟨fun _ h => (List.not_mem_nil h).elim, fun _ h => (List.not_mem_nil h).elim,
        fun _ => ⟨rfl, rfl⟩⟩, fun _ => ⟨rfl, rfl⟩, fun h => ?_⟩
      rcases h with h | h <;> cases h
  exact ⟨hrange, fun x => (hside x).1, fun x => (hside x).2.1, fun x hx => ((hside x).2.2 hx).elim⟩

theorem Sound.of_takes (h : n.Sound) {x : Bool} {seg : TCPSegment}
    (hmem : seg ∈ (n.peer !x).conn.sent) (htakes : (n.peer x).conn.takesSyn seg = true) :
    (n.peer !x).conn.state ≠ .listen ∧ seg.seq = (n.peer !x).conn.iss ∧
      (seg.options = (n.peer !x).conn.synOptions ∨ seg.options = {}) := by
  have hsyn : seg.isSyn = true := by
    simp only [takesSyn, Bool.and_eq_true] at htakes
    exact htakes.1.1
  refine ⟨fun hst => ?_, (h.announces !x).sent seg hmem hsyn⟩
  rw [((h.announces !x).silent hst).1] at hmem
  cases hmem

theorem Sound.call (h : n.Sound) (ha : n.Genuine a) : (n.call a).Sound := by
  obtain ⟨x, e⟩ := a
  obtain ⟨hannounces, hcases⟩ := follow_spec (h.fresh x) (h.announces x) ha.listen ha.connect
  have hother : ∀ {P : Endpoint → Prop}, P (n.peer !x) → P ((n.call (x, e)).peer !x) := fun hp => by
    rwa [call_peer_other]
  have hself : Fresh ((n.peer x).follow e) ∧ ((n.peer x).follow e).conn.cfg.InRange ∧
      (((n.peer x).follow e).conn.Introduced →
        ((n.peer x).follow e).conn.irs = (n.peer !x).conn.iss ∧ (n.peer !x).conn.state ≠ .listen) ∧
      ((n.peer !x).conn.Introduced →
        ((n.peer x).follow e).conn.iss = (n.peer x).conn.iss ∧
          ((n.peer x).follow e).conn.state ≠ .listen) := by
    have hknown : (n.peer !x).conn.Introduced → (n.peer x).conn.state ≠ .listen := fun hi => by
      simpa using (h.irs (!x) hi).2
    rcases hcases with ⟨seg, hin, htaken⟩ | ⟨-, hkept⟩
    · obtain ⟨hopen, hseq, -⟩ := h.of_takes (ha.inbound seg hin) htaken.takes
      obtain ⟨hc, hl, hs⟩ := introduced_iff.mp htaken.introduced
      refine ⟨fun hst => ?_, ?_, fun _ => ⟨htaken.irs.trans hseq, hopen⟩,
        fun hi => ⟨htaken.iss (hknown hi), hl⟩⟩
      · exact (hst.elim hl hs).elim
      · rw [Config.InRange, htaken.mss, htaken.windowScale]
        exact h.range x
    · have hterms := hkept.terms
      refine ⟨fun hst => ?_, ?_, fun hi => ?_,
        fun hi => ⟨hterms.iss, fun hl => hknown hi (hkept.listening hl)⟩⟩
      · rw [hterms.sndWscale, hterms.peerMss]
        apply h.fresh x
        rwa [← hkept.unopened hst]
      · rw [hterms.cfg]
        exact h.range x
      · rw [hterms.irs]
        exact h.irs x (hkept.introduced hi)
  obtain ⟨hfresh, hrange, hirs, hothers⟩ := hself
  refine ⟨forall_side x ?_ ?_, forall_side x ?_ ?_, forall_side x ?_ ?_, forall_side x ?_ ?_⟩
  · rwa [call_peer_self]
  · exact hother (P := fun p => p.conn.cfg.InRange) (h.range !x)
  · rwa [call_peer_self]
  · exact hother (h.announces !x)
  · rwa [call_peer_self]
  · exact hother (h.fresh !x)
  · rwa [call_peer_self, call_peer_other]
  · rw [call_peer_other, Bool.not_not, call_peer_self]
    intro hi
    obtain ⟨hiss, hl⟩ := hothers hi
    refine ⟨?_, hl⟩
    rw [hiss]
    simpa using (h.irs (!x) hi).1

/-- One side has the scale and the segment size it should have. -/
def TermsRight (n : Pairing) (x : Bool) : Prop :=
  (n.peer x).conn.sndWscale = (n.peer !x).conn.cfg.windowScale ∧
    (n.peer x).conn.peerMss = min (n.peer x).conn.cfg.mss (n.peer !x).conn.cfg.mss

theorem termsRight_of_takes (h : n.Sound) {x : Bool} {q : Endpoint} {seg : TCPSegment}
    (hmem : seg ∈ (n.peer !x).conn.sent) (htaken : Takes (n.peer x) q seg) :
    (q.conn.sndWscale = (n.peer !x).conn.cfg.windowScale ∧
      q.conn.peerMss = min q.conn.cfg.mss (n.peer !x).conn.cfg.mss) ↔ n.CarriesTerms x seg := by
  obtain ⟨-, -, hopts⟩ := h.of_takes hmem htaken.takes
  obtain ⟨hscale, hmss⟩ : (n.peer x).conn.sndWscale = 0 ∧ (n.peer x).conn.peerMss = 536 := by
    apply h.fresh x
    have htakes := htaken.takes
    simp only [takesSyn, Bool.and_eq_true, Bool.or_eq_true, decide_eq_true_eq] at htakes
    exact htakes.2.imp_right (·.1)
  rw [htaken.sndWscale, htaken.peerMss, htaken.mss]
  rcases hopts with hfull | hempty
  · exact iff_of_true (applyPeerOptions_of_full hscale (h.range x) (h.range !x) hfull) (.inl hfull)
  · obtain ⟨hscale', hmss'⟩ := applyPeerOptions_of_empty (c := (n.peer x).conn) hempty
    rw [hscale', hmss', hscale, hmss, CarriesTerms, hempty]
    have hne : ({} : TCPOptions) ≠ (n.peer !x).conn.synOptions := fun heq => by
      have hsack := congrArg TCPOptions.sackPermitted heq
      cases hsack
    rw [or_iff_right hne, eq_comm, eq_comm (a := 536)]

/-- One call: the other side's terms stay right or wrong, and so do those of the side that moves unless it
takes a SYN, after which they are right exactly when the SYN carries them. -/
theorem terms_call (h : n.Sound) (x : Bool) (e : Event) (ha : n.Genuine (x, e)) :
    ((n.call (x, e)).TermsRight (!x) ↔ n.TermsRight (!x)) ∧
      (((n.call (x, e)).TermsRight x ↔ n.TermsRight x) ∧ n.Negotiates (x, e) ∧
          Keeps (n.peer x) ((n.peer x).follow e) ∨
        ((n.call (x, e)).TermsRight x ↔ n.Negotiates (x, e)) ∧
          ((n.call (x, e)).peer x).conn.Introduced ∧ ¬ (n.peer x).conn.Introduced) := by
  obtain ⟨-, hcases⟩ := follow_spec (h.fresh x) (h.announces x) ha.listen ha.connect
  simp only [TermsRight, call_peer_self, call_peer_other, Bool.not_not]
  rcases hcases with ⟨seg, hin, htaken⟩ | ⟨hno, hkept⟩
  · refine ⟨by rw [htaken.mss, htaken.windowScale], .inr ⟨?_, htaken.introduced, ?_⟩⟩
    · rw [termsRight_of_takes h (ha.inbound seg hin) htaken]
      constructor
      · intro hcarries seg' hin' _
        obtain rfl := Option.some.inj (hin.symm.trans hin')
        exact hcarries
      · intro hneg
        exact hneg seg hin htaken.takes
    · rw [introduced_iff]
      rintro ⟨-, hl, hs⟩
      have htakes := htaken.takes
      simp [takesSyn, hl, hs] at htakes
  · have hterms := hkept.terms
    refine ⟨by rw [hterms.cfg], .inl ⟨by rw [hterms.sndWscale, hterms.peerMss, hterms.cfg], ?_, hkept⟩⟩
    intro seg hin htakes
    rw [hno seg hin] at htakes
    cases htakes

theorem closed_call (ha : n.Genuine a) (x : Bool) (hclosed : (n.peer x).conn.state = .closed) :
    ((n.call a).peer x).conn.state = .closed := by
  obtain ⟨z, e⟩ := a
  rcases Bool.eq_or_eq_not x z with rfl | rfl
  · have hfollow : (n.peer x).follow e = (n.peer x).step e := by
      cases e with
      | segment seg srcIp draw now => simp [Endpoint.follow, onSegment_snd, hclosed]
      | _ => rfl
    rw [call_peer_self, hfollow]
    exact keeps_step (I := fun q => q.conn.state = .closed)
      (fun _ _ hq hact => hact.closed ha.listen ha.connect hq) hclosed
  · rwa [call_peer_other]

/-- Those who know their peer have the right terms. -/
def AllRight (n : Pairing) : Prop := ∀ x, (n.peer x).conn.Introduced → n.TermsRight x

theorem allRight_call (h : n.Sound) (ha : n.Genuine a) (hright : n.AllRight) (hneg : n.Negotiates a) :
    (n.call a).AllRight := by
  obtain ⟨x, e⟩ := a
  obtain ⟨hother, hself⟩ := terms_call h x e ha
  refine forall_side (P := fun z => ((n.call (x, e)).peer z).conn.Introduced → (n.call (x, e)).TermsRight z)
    x ?_ ?_
  · rcases hself with ⟨hsame, -, hkept⟩ | ⟨hnew, -, -⟩
    · intro hi
      rw [call_peer_self] at hi
      exact hsame.mpr (hright x (hkept.introduced hi))
    · exact fun _ => hnew.mpr hneg
  · rw [call_peer_other]
    exact fun hi => hother.mpr (hright (!x) hi)

/-- Where nobody was closed, right terms after a call were right before, and the call carried them. -/
theorem of_allRight_call (h : n.Sound) (ha : n.Genuine a)
    (hopen : ∀ x, ((n.call a).peer x).conn.state ≠ .closed) (hright : (n.call a).AllRight) :
    n.AllRight ∧ n.Negotiates a := by
  obtain ⟨x, e⟩ := a
  obtain ⟨hother, hself⟩ := terms_call h x e ha
  have hotherRight : (n.peer !x).conn.Introduced → n.TermsRight !x := fun hi =>
    hother.mp (hright (!x) (by rwa [call_peer_other]))
  rcases hself with ⟨hsame, hneg, hkept⟩ | ⟨hnew, hintro, hnot⟩
  · refine ⟨forall_side x (fun hi => hsame.mp (hright x ?_)) hotherRight, hneg⟩
    have hx := hopen x
    rw [call_peer_self] at hx ⊢
    obtain ⟨hc, hl, hs⟩ := introduced_iff.mp hi
    refine introduced_iff.mpr ⟨hx, fun hst => hl ?_, fun hst => hs ?_⟩
    · rw [← hkept.unopened (.inl hst), hst]
    · rw [← hkept.unopened (.inr hst), hst]
  · exact ⟨forall_side x (fun hi => absurd hi hnot) hotherRight, hnew.mp (hright x hintro)⟩

theorem ne_closed_of_established {es : List (Bool × Event)} (hes : pairing.Meets Genuine n es)
    (hend : (pairing.run n es).Established) (x : Bool) : (n.peer x).conn.state ≠ .closed := by
  intro hclosed
  have hlast : ((pairing.run n es).peer x).conn.state = .closed :=
    pairing.run_induction (P := fun n => (n.peer x).conn.state = .closed)
      (fun _ _ hn ha => closed_call ha x hn) hclosed hes
  rw [hend x] at hlast
  cases hlast

theorem negotiates_of_allRight {es : List (Bool × Event)} (h : n.Sound) (hes : pairing.Meets Genuine n es)
    (hend : (pairing.run n es).Established) (hright : (pairing.run n es).AllRight) :
    n.AllRight ∧ pairing.Meets Negotiates n es := by
  induction es generalizing n with
  | nil => exact ⟨hright, trivial⟩
  | cons a es ih =>
    obtain ⟨hnext, hmeets⟩ := ih (h.call hes.1) hes.2 hend hright
    obtain ⟨hn, hneg⟩ := of_allRight_call h hes.1 (ne_closed_of_established hes.2 hend) hnext
    exact ⟨hn, hneg, hmeets⟩

/-- Two endpoints that open towards each other over a network that loses, delays, reorders and duplicates,
and are both established in the end, have agreed on the numbers, the scales and the segment sizes exactly
when every SYN that was taken carried its options or the defaults come to the same. -/
theorem agreed_iff (h : n₀.Started) (hrange : ∀ x, (n₀.peer x).conn.cfg.InRange)
    {es : List (Bool × Event)} (hes : pairing.Meets Genuine n₀ es)
    (hend : (pairing.run n₀ es).Established) :
    (pairing.run n₀ es).Agreed ↔ pairing.Meets Negotiates n₀ es := by
  have hsound := Sound.of_started h hrange
  have hintro : ∀ x, ((pairing.run n₀ es).peer x).conn.Introduced := fun x => .inr (by rw [hend x]; rfl)
  have hfinal : (pairing.run n₀ es).Sound :=
    pairing.run_induction (fun _ _ hn ha => hn.call ha) hsound hes
  constructor
  · intro hagreed
    exact (negotiates_of_allRight hsound hes hend fun x _ => (hagreed x).2).2
  · intro hneg
    have hstart : n₀.AllRight := by
      intro x hi
      obtain ⟨-, hl, hs⟩ := introduced_iff.mp hi
      obtain ⟨cfg, ⟨draw, now, hx⟩ | hx⟩ := h x
      · rw [hx, Endpoint.step_connect] at hs
        exact absurd rfl hs
      · rw [hx] at hl
        exact absurd rfl hl
    have hboth := (pairing.meets_and n₀ es).mpr ⟨hes, hneg⟩
    have hright : (pairing.run n₀ es).Sound ∧ (pairing.run n₀ es).AllRight :=
      pairing.run_induction (P := fun n => n.Sound ∧ n.AllRight)
        (fun _ _ hn ha => ⟨hn.1.call ha.1, allRight_call hn.1 ha.1 hn.2 ha.2⟩) ⟨hsound, hstart⟩ hboth
    exact fun x => ⟨(hfinal.irs x (hintro x)).1, hright.2 x (hintro x)⟩

/-! ### A lost SYN -/

theorem genuine_segment {x : Bool} {seg : TCPSegment} {srcIp : Option Bytes} {draw : SeqNo} {now : Time}
    (h : seg ∈ (n.peer !x).conn.sent) : n.Genuine (x, .segment seg srcIp draw now) where
  listen := fun h => by cases h
  connect := fun _ _ h => by cases h
  inbound := fun _ hin => Option.some.inj hin ▸ h

theorem genuine_tick (x : Bool) (now : Time) : n.Genuine (x, .tick now) where
  listen := fun h => by cases h
  connect := fun _ _ h => by cases h
  inbound := fun _ hin => by cases hin

/-- A client with scale 2 (`false`) that has called `connect()`, and a listener with scale 3. -/
def clientAndListener : Pairing where
  peer x := bif x then
      (Endpoint.new { Config.plain 700 with localPort := 2000, remotePort := 1000, windowScale := 3 }).step
        .listen
    else (Endpoint.new { Config.plain 100 with windowScale := 2 }).step (.connect 0 0)

theorem started_clientAndListener : clientAndListener.Started := by
  intro x
  cases x
  · exact ⟨_, .inl ⟨0, 0, rfl⟩⟩
  · exact ⟨_, .inr rfl⟩

theorem inRange_clientAndListener (x : Bool) : (clientAndListener.peer x).conn.cfg.InRange := by
  cases x <;> exact ⟨by decide, by decide, by decide⟩

/-- The client's SYN as it is first sent, the listener's SYN+ACK, and the client's ACK. -/
def scaledSyn : TCPSegment :=
  { srcPort := 1000, dstPort := 2000, seq := 100, ack := 1, flags := FLAG_SYN, window := 16383,
    options := { mss := some 1460, windowScale := some 2, sackPermitted := true } }

def scaledSynAck : TCPSegment :=
  { srcPort := 2000, dstPort := 1000, seq := 700, ack := 101, flags := FLAG_SYN ||| FLAG_ACK,
    window := 8191, options := { mss := some 1460, windowScale := some 3, sackPermitted := true } }

def scaledAck : TCPSegment :=
  { srcPort := 1000, dstPort := 2000, seq := 101, ack := 701, flags := FLAG_ACK, window := 16383 }

/-- The client resends its SYN, and the copy arrives after the first one. -/
def synTwice : List (Bool × Event) :=
  [(false, .tick 100), (true, .segment scaledSyn none 0 0),
    (true, .segment { scaledSyn with options := {} } none 0 0), (false, .segment scaledSynAck none 0 0),
    (true, .segment scaledAck none 0 0)]

theorem agreed_synTwice :
    clientAndListener.Started ∧ (pairing.run clientAndListener synTwice).Established ∧
      (pairing.run clientAndListener synTwice).Agreed := by
  have hend : (pairing.run clientAndListener synTwice).Established := by
    intro x
    cases x <;> decide +kernel
  refine ⟨started_clientAndListener, hend,
    (agreed_iff started_clientAndListener inRange_clientAndListener ?_ hend).mpr ?_⟩
  · exact ⟨genuine_tick _ _, genuine_segment (by decide +kernel), genuine_segment (by decide +kernel),
      genuine_segment (by decide +kernel), genuine_segment (by decide +kernel), trivial⟩
  · refine ⟨fun _ h => (by cases h), fun seg hin _ => ?_, fun seg hin htakes => ?_,
      fun seg hin _ => ?_, fun seg hin htakes => ?_, trivial⟩
    all_goals obtain rfl := Option.some.inj hin
    · exact .inl (by decide +kernel)
    · exact absurd htakes (by decide +kernel)
    · exact .inl (by decide +kernel)
    · exact absurd htakes (by decide +kernel)

/-- The first SYN is lost, and the one that arrives is the copy. -/
def synLost : List (Bool × Event) :=
  [(false, .tick 100), (true, .segment { scaledSyn with options := {} } none 0 0),
    (false, .segment scaledSynAck none 0 0), (true, .segment scaledAck none 0 0)]

/-- Both sides are established, the client counts windows in eights and the listener's child, which
should count them in fours, in ones; the child's segments are of 536 bytes at most instead of 1460. -/
theorem synLost_disagrees :
    clientAndListener.Started ∧ pairing.Meets Genuine clientAndListener synLost ∧
      (pairing.run clientAndListener synLost).Established ∧
      ¬ (pairing.run clientAndListener synLost).Agreed ∧
      ((pairing.run clientAndListener synLost).peer true).conn.sndWscale = 0 ∧
      ((pairing.run clientAndListener synLost).peer true).conn.peerMss = 536 := by
  refine ⟨started_clientAndListener, ?_, ?_, fun h => ?_, by decide +kernel, by decide +kernel⟩
  · exact ⟨genuine_tick _ _, genuine_segment (by decide +kernel), genuine_segment (by decide +kernel),
      genuine_segment (by decide +kernel), trivial⟩
  · intro x
    cases x <;> decide +kernel
  · exact absurd (h true).2.1 (by decide +kernel)

end Pairing

end MiniTcp
