import MiniTcp.Net.Tcp.Timing
import MiniTcp.Net.Tcp.Offer
import MiniTcp.Net.Tcp.CloseStates

/-!
# How long fast recovery lasts

Fast recovery is meant to last until everything that was outstanding at its start is acknowledged, and
`on_ack` compares the ACK with `recover` for that. But the connection passes the number that the duplicates
repeat, and that is `snd_una`: recovery is to end where it began. So every ACK that advances `snd_una` ends it
(`processAck_leaves`), a partial one too, and `lasts_iff` says that a run keeps to the rule exactly when no
partial ACK arrives during recovery.
-/

namespace MiniTcp

open TCPConnection

namespace RenoCongestion

variable {r : RenoCongestion}

theorem onDuplicateAck_of_recovery (h : r.state = .fastRecovery) (ack : Option SeqNo) :
    (r.onDuplicateAck ack).1.state = .fastRecovery ∧ (r.onDuplicateAck ack).1.recover = r.recover := by
  simp [onDuplicateAck, h]

theorem onDuplicateAck_recover (h : r.state ≠ .fastRecovery) (ack : SeqNo)
    (hinto : (r.onDuplicateAck (some ack)).1.state = .fastRecovery) :
    (r.onDuplicateAck (some ack)).1.recover = ack := by
  have hthird := (onDuplicateAck_spec h (some ack)).1.mp hinto
  simp [onDuplicateAck, h, hthird]

theorem onAck_of_recovery (h : r.state = .fastRecovery) {acked : Int} (hacked : 0 < acked) (ack : SeqNo) :
    (r.onAck acked (some ack)).state ≠ .fastRecovery ↔ seqGe ack r.recover = true := by
  have hnew : ¬ acked ≤ 0 := by omega
  simp only [onAck, hnew, if_false, h, Option.any_some]
  split_ifs with hge <;> simp [hge]

end RenoCongestion

namespace TCPConnection

variable {c d : TCPConnection} {seg : TCPSegment} {now : Time}

/-! ### What moves the congestion state -/

def KeepsReno (c d : TCPConnection) : Prop := d.reno = c.reno

theorem KeepsReno.handshaking : Handshaking KeepsReno where
  refl _ := rfl
  trans h h' := h'.trans h
  emit _ _ _ _ _ := rfl
  remember _ _ _ _ := rfl
  nxt _ _ := rfl
  count _ _ := rfl
  persist _ _ := rfl
  relax _ := rfl
  window _ _ := rfl
  stamp _ _ := rfl
  sendAck c now := (Calm.sendAck c now).reno
  reject c seg now := (Calm.reject c seg now).reno
  handleRst _ := rfl
  maybeAdvanceAfterAck c seg now := (Calm.maybeAdvanceAfterAck c seg now).reno
  handleData c seg now := (Calm.handleData c seg now).reno
  handleFin c seg now := (Calm.handleFin c seg now).reno
  simultaneousOpen c seg now := by
    rw [handleSimultaneousOpen_eq]
    rfl
  established c now _ := (Calm.sendAck c now).reno
  completed _ _ := rfl

theorem processAck_reno (c : TCPConnection) (seg : TCPSegment) (now : Time) :
    (c.processAck seg now).reno =
      if seqGt seg.ack c.sndUna then c.reno.onAck (c.sendQueue.acknowledge seg.ack).2 (some seg.ack)
      else if seg.ack = c.sndUna ∧ 0 < c.sendQueue.inFlight then (c.reno.onDuplicateAck (some seg.ack)).1
      else c.reno := by
  rw [processAck_eq_flush, (Calm.flush _ now).reno, acked]
  cases hgt : seqGt seg.ack c.sndUna with
  | true =>
    rw [if_pos (show seqGt seg.ack c.sendQueue.una = true from hgt)]
    rfl
  | false =>
    have hreno := (c.counted_spec seg).2.2.2
    rw [if_neg (show ¬ seqGt seg.ack c.sendQueue.una = true from Bool.eq_false_iff.mp hgt),
      if_neg Bool.false_ne_true, ← hreno]
    unfold answerOldAck
    dsimp only
    split_ifs
    · rw [retransmitOldest_reno]
    · rw [retransmitOldest_reno]
    · rfl

theorem onSegment_reno (c : TCPConnection) (seg : TCPSegment) (srcIp : Option Bytes) (draw : SeqNo)
    (now : Time) : (c.onSegment seg srcIp draw now).1.reno =
      if c.takesAck seg then (c.processAck seg now).reno else c.reno := by
  obtain ⟨hqueue, -, -, hreno, -⟩ := c.ackTaker_spec seg now
  rcases KeepsReno.handshaking.onSegment c seg srcIp draw now with ⟨htakes, h⟩ | ⟨htakes, h⟩
  · rw [htakes, if_pos rfl, h, processAck_reno, processAck_reno, sndUna, hqueue, hreno]
    rfl
  · rw [htakes, if_neg Bool.false_ne_true]
    exact h

theorem onPersistTimeout_reno (c : TCPConnection) (now : Time) : (c.onPersistTimeout now).reno = c.reno := by
  unfold onPersistTimeout
  split_ifs
  · rw [(Calm.flush _ now).reno]
  · rfl
  · split
    · rw [resend_eq]
    · dsimp only
      split_ifs
      · rfl
      · exact (Calm.transmitData c _ now).reno

theorem onTick_reno (c : TCPConnection) (now : Time) :
    (c.onTick now).reno = c.reno ∨ due c.retransmitAt now = true ∧ (c.onTick now).reno = c.reno.onTimeout := by
  have hafter : (c.onTick now).reno = (c.retransmitted now).reno := by
    have hprobe := onPersistTimeout_reno (c.retransmitted now) now
    rw [onTick_eq]
    dsimp only
    split_ifs
    all_goals first
      | exact hprobe
      | rfl
  have hack : SameOffer c (if due c.delayedAckAt now then c.sendAck now else c) ∧
      (if due c.delayedAckAt now then c.sendAck now else c).reno = c.reno := by
    split_ifs
    · exact ⟨sameOffer_sendAck c now, (Calm.sendAck c now).reno⟩
    · exact ⟨⟨rfl, rfl, rfl, rfl, rfl, rfl⟩, rfl⟩
  rw [hafter]
  unfold retransmitted
  dsimp only
  generalize (if due c.delayedAckAt now = true then c.sendAck now else c) = b at hack ⊢
  obtain ⟨hsame, hreno⟩ := hack
  split_ifs with hdue
  · unfold onRetransmitTimeout
    cases b.retxQueue.oldest with
    | none => exact .inl hreno
    | some oldest =>
      dsimp only
      split_ifs
      · exact .inl hreno
      · right
        refine ⟨hsame.retransmitAt ▸ hdue, ?_⟩
        rw [resend_eq, ← hreno]
  · exact .inl hreno

/-! ### Recovery is to end where it began -/

/-- Recovery happens in a synchronised state, and its end is `snd_una`. -/
def EndsAtUna (c : TCPConnection) : Prop :=
  c.state ≠ .closed → c.state ≠ .listen → c.reno.state = .fastRecovery →
    c.state.isSynchronised = true ∧ c.reno.recover = c.sndUna

namespace EndsAtUna

theorem of_reno (h : c.reno.state ≠ .fastRecovery) : c.EndsAtUna := fun _ _ hreno => absurd hreno h

theorem of_closed (h : c.state = .closed) : c.EndsAtUna := fun hopen => absurd h hopen

/-- What leaves the congestion state and `snd_una` alone keeps it, if the connection stays in its half of the
states. -/
theorem congr (h : c.EndsAtUna) (hreno : d.reno = c.reno) (huna : d.sndUna = c.sndUna)
    (hstate : d.state = c.state ∨ c.state.isSynchronised = true ∧ d.state.isSynchronised = true) :
    d.EndsAtUna := by
  intro hclosed hlisten hrec
  rw [hreno] at hrec ⊢
  rw [huna]
  rcases hstate with hsame | ⟨hsync, hsync'⟩
  · rw [hsame] at hclosed hlisten ⊢
    exact h hclosed hlisten hrec
  · obtain ⟨h1, h2, -, -⟩ := TcpState.ne_of_isSynchronised hsync
    exact ⟨hsync', (h h1 h2 hrec).2⟩

end EndsAtUna

theorem processAck_leaves (hrec : c.reno.state = .fastRecovery) (hends : c.reno.recover = c.sndUna)
    (hgt : seqGt seg.ack c.sndUna = true) : (c.processAck seg now).reno.state ≠ .fastRecovery := by
  rw [processAck_reno, if_pos hgt, RenoCongestion.onAck_of_recovery hrec (acknowledge_pos hgt), hends]
  rw [seqGt_iff] at hgt
  rw [seqGe_iff]
  exact .inr hgt

theorem processAck_stays (hrec : c.reno.state = .fastRecovery) (hgt : seqGt seg.ack c.sndUna = false) :
    (c.processAck seg now).reno.state = .fastRecovery ∧ (c.processAck seg now).reno.recover = c.reno.recover := by
  rw [processAck_reno, if_neg (by simp [hgt])]
  split_ifs
  · exact RenoCongestion.onDuplicateAck_of_recovery hrec _
  · exact ⟨hrec, rfl⟩

/-- In recovery a new ACK would have ended it; outside, the third duplicate that begins it repeats
`snd_una`. -/
theorem recover_processAck (hends : c.reno.state = .fastRecovery → c.reno.recover = c.sndUna)
    (hrec : (c.processAck seg now).reno.state = .fastRecovery) :
    (c.processAck seg now).reno.recover = if seqGt seg.ack c.sndUna then seg.ack else c.sndUna := by
  by_cases hbefore : c.reno.state = .fastRecovery
  · cases hgt : seqGt seg.ack c.sndUna with
    | true => exact absurd hrec (processAck_leaves hbefore (hends hbefore) hgt)
    | false =>
      rw [if_neg Bool.false_ne_true, (processAck_stays hbefore hgt).2]
      exact hends hbefore
  · rw [processAck_reno] at hrec ⊢
    cases hgt : seqGt seg.ack c.sndUna with
    | true =>
      rw [hgt, if_pos rfl] at hrec
      exact absurd hrec (RenoCongestion.onAck_state hbefore _ _)
    | false =>
      rw [hgt, if_neg Bool.false_ne_true] at hrec
      rw [if_neg Bool.false_ne_true, if_neg Bool.false_ne_true]
      split_ifs at hrec ⊢ with hdup
      · rw [RenoCongestion.onDuplicateAck_recover hbefore _ hrec]
        exact hdup.1
      · exact absurd hrec hbefore

theorem endsAtUna_of_synchronised (h : c.EndsAtUna) (hsync : c.state.isSynchronised = true)
    (srcIp : Option Bytes) (draw : SeqNo) : (c.onSegment seg srcIp draw now).1.EndsAtUna := by
  obtain ⟨h1, h2, -, -⟩ := TcpState.ne_of_isSynchronised hsync
  have hopen : (c.onSegment seg srcIp draw now).1.state.isSynchronised = true ∨
      (c.onSegment seg srcIp draw now).1.state = .closed :=
    step_stays_open (p := ⟨c, [], []⟩) (e := .segment seg srcIp draw now) nofun nofun (.inl hsync)
  obtain ⟨hsame, hadopt⟩ := window_onSegment c seg srcIp draw now (.inl hsync)
  intro hclosed _ hrec
  refine ⟨hopen.resolve_right hclosed, ?_⟩
  rw [onSegment_reno] at hrec ⊢
  cases htakes : c.takesAck seg with
  | false =>
    rw [htakes, if_neg Bool.false_ne_true] at hrec
    rw [if_neg Bool.false_ne_true, sndUna, (hsame htakes).una]
    exact (h h1 h2 hrec).2
  | true =>
    rw [htakes, if_pos rfl] at hrec
    rw [if_pos rfl, sndUna, (hadopt htakes).2.2]
    exact recover_processAck (fun hbefore => (h h1 h2 hbefore).2) hrec

/-- Before the handshake is done nothing is a duplicate of `snd_una`. -/
theorem endsAtUna_of_opening (h : c.EndsAtUna) (hbasic : c.Basic)
    (hopening : c.state = .synSent ∨ c.state = .synReceived) (srcIp : Option Bytes) (draw : SeqNo) :
    (c.onSegment seg srcIp draw now).1.EndsAtUna := by
  have hreno : c.reno.state ≠ .fastRecovery := by
    intro hrec
    rcases hopening with hst | hst
    · exact absurd (h (by simp [hst]) (by simp [hst]) hrec).1 (by simp [hst, TcpState.isSynchronised])
    · exact absurd (h (by simp [hst]) (by simp [hst]) hrec).1 (by simp [hst, TcpState.isSynchronised])
  apply EndsAtUna.of_reno
  rw [onSegment_reno]
  split_ifs with htakes
  · have hge : seqGe seg.ack (seqAdd c.iss 1) = true := by
      revert htakes
      unfold takesAck
      rcases hopening with hst | hst <;> simp only [hst, Bool.and_eq_true] <;> exact fun h => h.2.2
    have hne : seg.ack ≠ c.sndUna := by
      rw [sndUna, (hbasic.handshake hopening).1]
      rintro heq
      rw [heq, seqGe_iff, seqAdd] at hge
      have hle := (Serial.le_shift_iff (b := c.iss) (m := 1) (n := 0) (by decide) (by decide)).mp
        (by rwa [Serial.shift_zero])
      omega
    rw [processAck_reno]
    split_ifs with hgt hdup
    · exact RenoCongestion.onAck_state hreno _ _
    · exact absurd hdup.1 hne
    · exact hreno
  · exact hreno

theorem onSegment_idle (hidle : c.state = .closed ∨ c.state = .listen) (srcIp : Option Bytes)
    (draw : SeqNo) : (c.onSegment seg srcIp draw now).1.state = .closed ∨
      (c.onSegment seg srcIp draw now).1.state = .listen := by
  unfold onSegment dispatch
  rcases hidle with hst | hst
  · rw [if_pos (show (c.stamp now).state = .closed from hst)]
    exact .inl ((sendFrame_reject _ seg now).state.trans hst)
  · rw [if_neg (by simp [TCPConnection.stamp, hst]), if_pos (show (c.stamp now).state = .listen from hst)]
    split_ifs
    · exact .inl rfl
    · exact .inr hst

theorem endsAtUna_onSegment (h : c.EndsAtUna) (hbasic : c.Basic) (srcIp : Option Bytes) (draw : SeqNo) :
    (c.onSegment seg srcIp draw now).1.EndsAtUna := by
  by_cases hsync : c.state.isSynchronised = true
  · exact endsAtUna_of_synchronised h hsync srcIp draw
  by_cases hopening : c.state = .synSent ∨ c.state = .synReceived
  · exact endsAtUna_of_opening h hbasic hopening srcIp draw
  have hidle : c.state = .closed ∨ c.state = .listen := by
    revert hsync hopening
    cases c.state <;> simp [TcpState.isSynchronised]
  exact fun hclosed hlisten => ((onSegment_idle hidle srcIp draw).elim hclosed hlisten).elim

end TCPConnection

namespace Endpoint

variable {p : Endpoint} {e : Event}

/-- The application and the timers leave the congestion state alone, but for the retransmission timer. -/
theorem own_reno (hown : e.IsOwn) : (p.step e).conn.reno = p.conn.reno ∨
    (∃ now, e = .tick now ∧ due p.conn.retransmitAt now = true) ∧
      (p.step e).conn.reno = p.conn.reno.onTimeout := by
  cases e with
  | send data now => exact .inl (calm_send p data now).reno
  | recv maxBytes now => exact .inl (calm_recv p.conn maxBytes now).reno
  | close now =>
    left
    simp only [step, put_conn, TCPConnection.close, abort_eq, sendFin_eq]
    split
    all_goals first
      | rfl
      | split_ifs <;> rfl
  | abort now =>
    left
    simp only [step, put_conn, abort_eq]
    split_ifs <;> rfl
  | tick now => exact (p.conn.onTick_reno now).imp_right fun h => ⟨⟨now, rfl, h.1⟩, h.2⟩
  | listen => exact hown.elim
  | connect draw now => exact hown.elim
  | segment seg srcIp draw now => exact hown.elim

theorem endsAtUna_own (h : p.conn.EndsAtUna) (hown : e.IsOwn) : (p.step e).conn.EndsAtUna := by
  have huna := (sameWindow_step p hown).una
  rcases own_reno (p := p) hown with hreno | ⟨-, hreno⟩
  · by_cases hclose : ∃ now, e = .close now
    · obtain ⟨now, rfl⟩ := hclose
      rcases p.close_cases now with hst | heq | hst
      · have hsync : p.conn.state.isSynchronised = true := by
          rcases hst with hst | hst <;> rw [hst] <;> rfl
        intro hclosed
        exact h.congr hreno huna (.inr ⟨hsync,
          (step_stays_open (e := .close now) nofun nofun (.inl hsync)).resolve_right hclosed⟩) hclosed
      · rwa [heq]
      · exact .of_closed hst
    · rw [not_exists] at hclose
      rcases own_step hown hclose with hst | hst
      · exact h.congr hreno huna (.inl hst)
      · exact .of_closed hst
  · apply EndsAtUna.of_reno
    simp [hreno, RenoCongestion.onTimeout]

theorem endsAtUna_step (h : p.conn.EndsAtUna) (hbasic : p.conn.Basic) (e : Event) :
    (p.step e).conn.EndsAtUna := by
  cases e with
  | segment seg srcIp draw now => exact endsAtUna_onSegment h hbasic srcIp draw
  | listen =>
    simp only [step, TCPConnection.listen]
    split_ifs
    · exact h
    · exact fun _ hlisten => (hlisten rfl).elim
  | connect draw now =>
    simp only [step]
    cases hconn : p.conn.connect draw now with
    | error err => exact h
    | ok c =>
      obtain ⟨-, rfl⟩ := connect_eq hconn
      exact .of_reno RenoState.noConfusion
  | _ => exact endsAtUna_own h trivial

theorem endsAtUna_of_created (h : p.Created) : p.conn.EndsAtUna := by
  apply EndsAtUna.of_reno
  rcases h with ⟨cfg, rfl⟩ | ⟨cfg, seg, draw, now, -, -, rfl⟩
  · exact RenoState.noConfusion
  · rw [passive, beginPassiveOpen_eq]
    exact RenoState.noConfusion

end Endpoint

/-! ### Runs -/

/-- A connection, and `snd_nxt` as it was when fast retransmit was triggered last. -/
structure Repairing where
  ep : Endpoint
  upTo : SeqNo

namespace Repairing

variable {s : Repairing} {e : Event}

/-- One call; a fast retransmission is noted. -/
def step (s : Repairing) (e : Event) : Repairing where
  ep := s.ep.step e
  upTo :=
    if s.ep.conn.reno.state ≠ .fastRecovery ∧ (s.ep.step e).conn.reno.state = .fastRecovery then
      s.ep.conn.sndNxt
    else s.upTo

end Repairing

/-- The runs of a new connection. -/
def repairing : Machine Repairing Event where
  init s := s.ep.Created
  next := Repairing.step

namespace Repairing

variable {s : Repairing} {e : Event}

/-- Fast recovery goes on, unless the event is an ACK at or beyond what was sent when it began, or a
retransmission timeout. -/
def Lasts (s : Repairing) (e : Event) : Prop :=
  s.ep.conn.state.isSynchronised = true → s.ep.conn.reno.state = .fastRecovery →
    (s.step e).ep.conn.reno.state = .fastRecovery ∨
    (∃ seg, e.inbound = some seg ∧ s.ep.conn.takesAck seg = true ∧ seqGe seg.ack s.upTo = true) ∨
    ∃ now, e = .tick now ∧ due s.ep.conn.retransmitAt now = true

/-- In fast recovery an ACK that advances `snd_una` covers everything that was sent when it began. -/
def NoPartialAck (s : Repairing) (e : Event) : Prop :=
  s.ep.conn.state.isSynchronised = true → s.ep.conn.reno.state = .fastRecovery →
    ∀ seg, e.inbound = some seg → s.ep.conn.takesAck seg = true → seqGt seg.ack s.ep.conn.sndUna = true →
      seqGe seg.ack s.upTo = true

instance (s : Repairing) (e : Event) : Decidable (s.NoPartialAck e) :=
  inferInstanceAs (Decidable (_ → _ → ∀ seg ∈ e.inbound, _ → _ → _))

theorem lasts_iff_noPartialAck (h : s.ep.conn.EndsAtUna) : s.Lasts e ↔ s.NoPartialAck e := by
  constructor
  · intro hlasts hsync hrec seg hseg htakes hgt
    obtain ⟨hclosed, hlisten, -, -⟩ := TcpState.ne_of_isSynchronised hsync
    rcases hlasts hsync hrec with hstill | ⟨seg', hseg', -, hge⟩ | ⟨now, rfl, -⟩
    · cases e with
      | segment seg' srcIp draw now =>
        obtain rfl := Option.some.inj hseg
        have hleaves : (s.ep.conn.processAck seg' now).reno.state ≠ .fastRecovery :=
          processAck_leaves hrec (h hclosed hlisten hrec).2 hgt
        simp only [step, Endpoint.step, Endpoint.put_conn, onSegment_reno, htakes, if_true] at hstill
        exact absurd hstill hleaves
      | _ => cases hseg
    · obtain rfl := Option.some.inj (hseg.symm.trans hseg')
      exact hge
    · cases hseg
  · intro hpartial hsync hrec
    have hown : e.IsOwn → (s.step e).ep.conn.reno.state = .fastRecovery ∨
        ∃ now, e = .tick now ∧ due s.ep.conn.retransmitAt now = true := by
      intro hown
      rcases Endpoint.own_reno hown with hreno | ⟨htick, -⟩
      · left
        rw [step, hreno]
        exact hrec
      · exact .inr htick
    have hclosed := (TcpState.ne_of_isSynchronised hsync).1
    cases e with
    | segment seg srcIp draw now =>
      cases htakes : s.ep.conn.takesAck seg with
      | false =>
        left
        simp only [step, Endpoint.step, Endpoint.put_conn, onSegment_reno, htakes]
        exact hrec
      | true =>
        cases hgt : seqGt seg.ack s.ep.conn.sndUna with
        | true => exact .inr (.inl ⟨seg, rfl, htakes, hpartial hsync hrec seg rfl htakes hgt⟩)
        | false =>
          left
          simp only [step, Endpoint.step, Endpoint.put_conn, onSegment_reno, htakes, if_true]
          exact (processAck_stays hrec hgt).1
    | listen =>
      left
      simp [step, Endpoint.step, TCPConnection.listen, hclosed, hrec]
    | connect draw now =>
      left
      simp [step, Endpoint.step, TCPConnection.connect, hclosed, hrec]
    | _ => exact (hown trivial).imp_right .inr

/-- In a run of a new connection fast recovery lasts as it should exactly when no partial ACK comes in while
it does. -/
theorem lasts_iff {es : List Event} (hs : s.ep.Created) :
    repairing.Meets Lasts s es ↔ repairing.Meets NoPartialAck s es := by
  apply repairing.meets_iff_meets (E := fun _ _ => True)
    (Q := fun s => endpoint.Reachable s.ep ∧ s.ep.conn.EndsAtUna)
  · rintro s e ⟨hreach, hends⟩ - -
    exact ⟨hreach.step endpoint e trivial, Endpoint.endsAtUna_step hends (basic_of_reachable hreach) e⟩
  · rintro s e ⟨-, hends⟩ -
    exact lasts_iff_noPartialAck hends
  · exact repairing.meets_true s es
  · exact ⟨.init endpoint hs, Endpoint.endsAtUna_of_created hs⟩

/-- An ACK of `ack`. -/
def plainAck (ack : SeqNo) : Event :=
  .segment { srcPort := 2000, dstPort := 1000, seq := 501, ack := ack, flags := FLAG_ACK, window := 1000 } none 0 0

/-- Two segments are sent, and the first of them is lost. -/
def lossRun : List Event :=
  [.connect 0 0, .segment Endpoint.synAck none 0 0, .send [1, 2] 0, .send [3, 4] 0, plainAck 101, plainAck 101,
    plainAck 101]

/-- The ACK of all four bytes ends recovery. -/
theorem lasts_lossRun :
    (repairing.run ⟨.new (.plain 100), 0⟩ lossRun).ep.conn.reno.state = .fastRecovery ∧
      repairing.Meets Lasts ⟨.new (.plain 100), 0⟩ (lossRun ++ [plainAck 105]) :=
  ⟨by decide +kernel, (lasts_iff (.inl ⟨_, rfl⟩)).mpr (by decide +kernel)⟩

/-- The ACK of the first two ends it as well. -/
theorem partial_ack_ends_recovery :
    (Endpoint.new (.plain 100)).Created ∧
      (repairing.run ⟨.new (.plain 100), 0⟩ lossRun).ep.conn.reno.state = .fastRecovery ∧
      (repairing.run ⟨.new (.plain 100), 0⟩ lossRun).upTo = 105 ∧
      (repairing.run ⟨.new (.plain 100), 0⟩ lossRun).ep.conn.sndUna = 101 ∧
      (repairing.run ⟨.new (.plain 100), 0⟩ (lossRun ++ [plainAck 103])).ep.conn.reno.state =
        .congestionAvoidance ∧
      ¬ repairing.Meets Lasts ⟨.new (.plain 100), 0⟩ (lossRun ++ [plainAck 103]) := by
  refine ⟨.inl ⟨_, rfl⟩, by decide +kernel, by decide +kernel, by decide +kernel, by decide +kernel, ?_⟩
  intro h
  rcases ((repairing.meets_append _ lossRun _).mp h).2.1 (by decide +kernel) (by decide +kernel) with
    hstill | ⟨seg, hseg, -, hge⟩ | ⟨now, htick, -⟩
  · exact absurd hstill (by decide +kernel)
  · obtain rfl := Option.some.inj hseg
    exact absurd hge (by decide +kernel)
  · cases htick

end Repairing

end MiniTcp
