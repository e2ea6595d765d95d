import MiniTcp.Net.Tcp.Lifecycle
import MiniTcp.Net.Tcp.Unread

/-!
# The end of TIME_WAIT

The segment that brings a connection to TIME_WAIT sets its deadline, `2 * msl` later, and nothing sets it again: a FIN
that comes once more is acknowledged, and the wait goes on. Unless something else ends the connection, it is in
TIME_WAIT until the first tick at or after the deadline, and closed from then on (`timeWait_lasts`).
-/

namespace MiniTcp

open TcpState (Reaches)

theorem TcpState.Reaches.eq_closed {s : TcpState} (h : Reaches .closed s) : s = .closed := by
  rcases h.rank with heq | hlt
  · exact heq.symm
  · cases s <;> exact absurd hlt (by decide)

namespace TCPConnection

variable {b c d : TCPConnection} {seg : TCPSegment} {now : Time}

/-- In TIME_WAIT the deadline stays, unless the connection is closed. A closed one stays closed. -/
structure Lingers (c d : TCPConnection) : Prop where
  waits : c.state = .timeWait → d.state = .timeWait ∧ d.timeWaitUntil = c.timeWaitUntil ∨ d.state = .closed
  closed : c.state = .closed → d.state = .closed

theorem handleData_wait (c : TCPConnection) (seg : TCPSegment) (now : Time) :
    (c.handleData seg now).state = c.state ∧ (c.handleData seg now).timeWaitUntil = c.timeWaitUntil ∧
      (c.handleData seg now).cfg = c.cfg := by
  have hack : ∀ (b : TCPConnection) (newly : Nat), (b.acknowledgeData newly now).state = b.state ∧
      (b.acknowledgeData newly now).timeWaitUntil = b.timeWaitUntil ∧
      (b.acknowledgeData newly now).cfg = b.cfg := by
    intro b newly
    unfold acknowledgeData
    split_ifs
    · split <;> exact ⟨rfl, rfl, rfl⟩
    · have hframe := sendFrame_sendAck b now
      exact ⟨hframe.state, hframe.timeWaitUntil, hframe.cfg⟩
  unfold handleData
  dsimp only
  split_ifs
  · exact hack _ _
  · exact hack _ _
  · exact ⟨rfl, rfl, rfl⟩
  · exact ⟨rfl, rfl, rfl⟩

namespace Lingers

theorem of_eq (hstate : d.state = c.state) (hwait : d.timeWaitUntil = c.timeWaitUntil) : Lingers c d :=
  ⟨fun h => .inl ⟨hstate.trans h, hwait⟩, hstate.trans⟩

theorem of_sendFrame (h : SendFrame c d) : Lingers c d := of_eq h.state h.timeWaitUntil

theorem of_closed (h : d.state = .closed) : Lingers c d := ⟨fun _ => .inr h, fun _ => h⟩

theorem of_ne (hwait : c.state ≠ .timeWait) (hopen : c.state ≠ .closed) : Lingers c d :=
  ⟨fun h => absurd h hwait, fun h => absurd h hopen⟩

theorem trans (h : Lingers b c) (h' : Lingers c d) : Lingers b d := by
  refine ⟨fun hwait => ?_, fun hclosed => h'.closed (h.closed hclosed)⟩
  rcases h.waits hwait with ⟨hstate, hsame⟩ | hclosed
  · rcases h'.waits hstate with ⟨hstate', hsame'⟩ | hclosed
    · exact .inl ⟨hstate', hsame'.trans hsame⟩
    · exact .inr hclosed
  · exact .inr (h'.closed hclosed)

theorem sending : Sending Lingers where
  refl _ := of_eq rfl rfl
  trans := trans
  emit _ _ _ _ _ := of_eq rfl rfl
  remember _ _ _ _ := of_eq rfl rfl
  nxt _ _ := of_eq rfl rfl
  count _ _ := of_eq rfl rfl
  persist _ _ := of_eq rfl rfl
  relax _ := of_eq rfl rfl
  window _ _ := of_eq rfl rfl

theorem timed : Timed Lingers where
  toSending := sending
  sendAck c now := of_sendFrame (sendFrame_sendAck c now)
  backoff _ := of_eq rfl rfl
  delay _ _ _ := of_eq rfl rfl
  teardown _ := of_closed rfl

theorem maybeAdvanceAfterAck (c : TCPConnection) (seg : TCPSegment) (now : Time) :
    Lingers c (c.maybeAdvanceAfterAck seg now) := by
  unfold TCPConnection.maybeAdvanceAfterAck
  split
  · exact of_eq rfl rfl
  · split_ifs with _ _ h1 h2
    · exact of_eq rfl rfl
    · exact of_eq rfl rfl
    · exact of_ne (by simp [h1]) (by simp [h1])
    · exact of_ne (by simp [h2]) (by simp [h2])
    · exact of_closed rfl
    · exact of_eq rfl rfl

theorem handleFin (c : TCPConnection) (seg : TCPSegment) (now : Time) : Lingers c (c.handleFin seg now) := by
  have hframe := sendFrame_sendAck { c with recvQueue :=
    { c.recvQueue with nxt := seqAdd c.recvQueue.nxt 1 } } now
  have hother : ∀ {s : TcpState} {d : TCPConnection}, ({ c with recvQueue :=
      { c.recvQueue with nxt := seqAdd c.recvQueue.nxt 1 } }.sendAck now).state = s → s ≠ .timeWait → s ≠ .closed →
      Lingers c d := fun hs hwait hopen => of_ne (hframe.state ▸ hs.symm ▸ hwait) (hframe.state ▸ hs.symm ▸ hopen)
  unfold TCPConnection.handleFin
  dsimp only
  split_ifs
  · exact of_sendFrame (sendFrame_sendAck c now)
  · exact of_sendFrame (sendFrame_sendAck c now)
  · unfold consumeFin
    dsimp only
    split_ifs with h1 h2 _ h3 h4
    · exact hother h1 (by decide) (by decide)
    · exact hother h2 (by decide) (by decide)
    · exact hother h2 (by decide) (by decide)
    · exact hother h3 (by decide) (by decide)
    · exact hother h4 (by decide) (by decide)
    · exact of_eq hframe.state hframe.timeWaitUntil

theorem answering : Answering Lingers where
  toSending := sending
  stamp _ _ := of_eq rfl rfl
  sendAck c now := of_sendFrame (sendFrame_sendAck c now)
  reject c seg now := of_sendFrame (sendFrame_reject c seg now)
  handleRst _ := of_closed rfl
  maybeAdvanceAfterAck := maybeAdvanceAfterAck
  handleData c seg now := of_eq (c.handleData_wait seg now).1 (c.handleData_wait seg now).2.1
  handleFin := handleFin

theorem onSegment (hsync : c.state.isSynchronised = true) (seg : TCPSegment) (srcIp : Option Bytes) (draw : SeqNo)
    (now : Time) : Lingers c (c.onSegment seg srcIp draw now).1 := by
  rcases answering.onSegment seg srcIp draw now hsync with ⟨-, -, hafter⟩ | ⟨-, hafter⟩
  · have hframe := ackFrame_processAck (c.stamp now) seg now
    have hacked : Lingers (c.stamp now) ((c.stamp now).processAck seg now) :=
      of_eq hframe.state hframe.timeWaitUntil
    have hstamp : Lingers c (c.stamp now) := of_eq rfl rfl
    exact hstamp.trans (hacked.trans hafter)
  · exact hafter

end Lingers

/-! ### Entering TIME_WAIT -/

/-- If the connection is in TIME_WAIT, then since now. -/
def WaitsFrom (c : TCPConnection) (now : Time) : Prop :=
  c.state = .timeWait → c.timeWaitUntil = some (now + 2 * c.cfg.msl)

namespace WaitsFrom

theorem of_eq (h : c.WaitsFrom now) (hstate : d.state = c.state) (hwait : d.timeWaitUntil = c.timeWaitUntil)
    (hcfg : d.cfg = c.cfg) : d.WaitsFrom now := by
  unfold WaitsFrom
  rw [hstate, hwait, hcfg]
  exact h

theorem of_ne (h : c.state ≠ .timeWait) : c.WaitsFrom now := fun hwait => absurd hwait h

theorem of_sendFrame (h : c.WaitsFrom now) (hframe : SendFrame c d) : d.WaitsFrom now :=
  h.of_eq hframe.state hframe.timeWaitUntil hframe.cfg

theorem maybeAdvanceAfterAck (h : c.WaitsFrom now) : (c.maybeAdvanceAfterAck seg now).WaitsFrom now := by
  unfold TCPConnection.maybeAdvanceAfterAck
  split
  · exact h
  · split_ifs
    · exact h
    · exact h
    · exact of_ne TcpState.noConfusion
    · exact fun _ => rfl
    · exact of_ne (by simp [notify, teardown])
    · exact h

theorem handleFin (h : c.WaitsFrom now) : (c.handleFin seg now).WaitsFrom now := by
  have hack := h.of_sendFrame (sendFrame_sendAck c now)
  have htaken : ({ c with recvQueue := { c.recvQueue with nxt := seqAdd c.recvQueue.nxt 1 } }.sendAck
      now).WaitsFrom now := (h.of_eq rfl rfl rfl : WaitsFrom { c with recvQueue :=
        { c.recvQueue with nxt := seqAdd c.recvQueue.nxt 1 } } now).of_sendFrame (sendFrame_sendAck _ now)
  unfold TCPConnection.handleFin
  dsimp only
  split_ifs
  · exact hack
  · exact hack
  · unfold consumeFin
    dsimp only
    split_ifs
    · exact of_ne TcpState.noConfusion
    · exact fun _ => rfl
    · exact of_ne TcpState.noConfusion
    · exact fun _ => rfl
    · exact fun _ => rfl
    · exact htaken

theorem onSynchronised (h : c.WaitsFrom now) : (c.onSynchronised seg now).WaitsFrom now := by
  have hacked : (if seg.isAck then c.processAck seg now else c).WaitsFrom now := by
    split_ifs
    · have hframe := ackFrame_processAck c seg now
      exact h.of_eq hframe.state hframe.timeWaitUntil hframe.cfg
    · exact h
  have hdata : ∀ b : TCPConnection, b.WaitsFrom now →
      (if seg.payload ≠ [] then b.handleData seg now else b).WaitsFrom now := by
    intro b hb
    split_ifs
    · obtain ⟨hstate, hwait, hcfg⟩ := b.handleData_wait seg now
      exact hb.of_eq hstate hwait hcfg
    · exact hb
  have hfin : ∀ b : TCPConnection, b.WaitsFrom now →
      (if seg.isFin then b.handleFin seg now else b).WaitsFrom now := by
    intro b hb
    split_ifs
    · exact hb.handleFin
    · exact hb
  unfold TCPConnection.onSynchronised
  split
  · split_ifs
    · exact h.of_sendFrame (sendFrame_sendAck c now)
    · exact h
  · exact hfin _ (hdata _ hacked.maybeAdvanceAfterAck)

theorem onSegment (h : c.state ≠ .timeWait) (seg : TCPSegment) (srcIp : Option Bytes) (draw : SeqNo) (now : Time) :
    (c.onSegment seg srcIp draw now).1.WaitsFrom now := by
  have hstamp : (c.stamp now).WaitsFrom now := of_ne h
  unfold TCPConnection.onSegment
  refine dispatch_cases (P := fun d => d.WaitsFrom now) (c.stamp now) seg srcIp draw now (fun _ => ?_) (fun _ _ => ?_)
    (fun _ _ => hstamp) (fun _ _ _ _ => ?_) (fun _ _ _ _ => ?_) (fun _ _ _ => ?_) (fun _ _ _ => ?_)
    (fun _ _ _ => hstamp) (fun _ _ _ _ => ?_) (fun _ _ _ _ => hstamp) (fun _ _ _ => hstamp.onSynchronised)
  · exact hstamp.of_sendFrame (sendFrame_reject _ seg now)
  · exact of_ne (by simp [handleRst, notify, teardown])
  · unfold handleSynAck
    split_ifs
    · exact hstamp.of_sendFrame (sendFrame_reject _ seg now)
    · exact of_ne TcpState.noConfusion
  · exact of_ne (by simp [handleSimultaneousOpen])
  · exact hstamp.of_sendFrame (sendFrame_retransmitOldest _ now false)
  · exact hstamp.of_sendFrame (sendFrame_reject _ seg now)
  · unfold handleFinalAckOfHandshake
    split_ifs
    · exact hstamp
    · exact of_ne TcpState.noConfusion

end WaitsFrom

end TCPConnection

open TCPConnection

theorem Action.entersTimeWait {r : Bool} {e : Event} {p q : Endpoint} (ha : Action r e p q)
    (hwait : q.conn.state = .timeWait) :
    p.conn.state = .timeWait ∨ ∃ seg srcIp draw now, e = .segment seg srcIp draw now := by
  cases ha with
  | quiet hq => exact .inl (hq.state ▸ hwait)
  | reject _ he | simultaneousOpen he | adopt he | retire _ he | establish _ he | insert he | consumeFin he
  | advance he | reset he => exact .inr ⟨_, _, _, _, he⟩
  | connect _ hconn =>
    obtain ⟨-, rfl⟩ := connect_eq hconn
    cases hwait
  | push payload n now _ _ hne =>
    rw [Endpoint.put_conn, transmitData_eq _ now hne] at hwait
    exact .inl hwait
  | resend now =>
    rw [Endpoint.put_conn, resend_eq] at hwait
    exact .inl hwait
  | fin _ hstate =>
    obtain ⟨-, rfl⟩ | ⟨-, rfl⟩ := hstate <;> cases hwait
  | listen | expire | abort | drop => cases hwait
  | _ => exact .inl hwait

namespace Endpoint

variable {p : Endpoint} {e : Event} {es : List Event} {deadline : Time}

theorem segment_of_enters (hbefore : p.conn.state ≠ .timeWait) (hwait : (p.step e).conn.state = .timeWait) :
    ∃ seg srcIp draw now, e = .segment seg srcIp draw now := by
  have hkept := keeps_step (e := e) (I := fun q => q.conn.state = .timeWait →
    p.conn.state = .timeWait ∨ ∃ seg srcIp draw now, e = .segment seg srcIp draw now)
    (fun _ _ hq ha hwait => (ha.entersTimeWait hwait).elim hq .inr) .inl
  exact (hkept hwait).resolve_left hbefore

theorem enters_timeWait (hbefore : p.conn.state ≠ .timeWait) (hwait : (p.step e).conn.state = .timeWait) :
    ∃ seg srcIp draw now, e = .segment seg srcIp draw now ∧
      (p.step e).conn.timeWaitUntil = some (now + 2 * p.conn.cfg.msl) := by
  obtain ⟨seg, srcIp, draw, now, rfl⟩ := segment_of_enters hbefore hwait
  have hfrom : (p.step (.segment seg srcIp draw now)).conn.WaitsFrom now :=
    WaitsFrom.onSegment hbefore seg srcIp draw now
  exact ⟨seg, srcIp, draw, now, rfl, step_cfg p (.segment seg srcIp draw now) ▸ hfrom hwait⟩

theorem lingers_step (hwait : p.conn.state = .timeWait) (e : Event) : Lingers p.conn (p.step e).conn := by
  cases e with
  | listen => simpa [step, TCPConnection.listen, hwait] using Lingers.sending.refl p.conn
  | connect draw now => simpa [step, TCPConnection.connect, hwait] using Lingers.sending.refl p.conn
  | send data now => simpa [step, TCPConnection.send, canSend, hwait] using Lingers.sending.refl p.conn
  | recv maxBytes now =>
    simp only [step, put_conn, TCPConnection.recv]
    split_ifs
    · exact Lingers.of_eq rfl rfl
    · have hframe := sendFrame_sendAck { p.conn with recvQueue := (p.conn.recvQueue.read maxBytes).1 } now
      exact Lingers.of_eq hframe.state hframe.timeWaitUntil
    · exact Lingers.of_eq rfl rfl
  | close now => simpa [step, TCPConnection.close, hwait] using Lingers.sending.refl p.conn
  | abort now => exact Lingers.of_closed rfl
  | tick now => exact Lingers.timed.onTick p.conn now
  | segment seg srcIp draw now => exact Lingers.onSegment (by simp [hwait, TcpState.isSynchronised]) seg srcIp draw now

/-- No reset, no `abort` and no retransmission too many, and nothing opens the connection again. -/
def Undisturbed (p : Endpoint) (e : Event) : Prop :=
  e.Resumes ∧
    match e with
    | .segment seg _ _ _ => seg.isRst = false
    | .tick now => p.conn.givesUp now = false
    | .abort _ => False
    | _ => True

theorem closed_iff_of_undisturbed (hwait : p.conn.state = .timeWait) (hdeadline : p.conn.timeWaitUntil = some deadline)
    (he : p.Undisturbed e) : (p.step e).conn.state = .closed ↔ ∃ t, e = .tick t ∧ deadline ≤ t := by
  obtain ⟨-, hcase⟩ := he
  rw [ends_step_iff (by simp [hwait])]
  cases e with
  | segment seg srcIp draw now => simp [Ends, EndsLastAck, hwait, show seg.isRst = false from hcase]
  | tick now => simp [Ends, due, hwait, hdeadline, show p.conn.givesUp now = false from hcase]
  | abort => exact hcase.elim
  | close => simp [Ends, hwait]
  | _ => simp [Ends]

theorem timeWait_run (hwait : p.conn.state = .timeWait) (hdeadline : p.conn.timeWaitUntil = some deadline)
    (hes : endpoint.Meets Undisturbed p es) :
    ((endpoint.run p es).conn.state = .timeWait ∨ (endpoint.run p es).conn.state = .closed) ∧
      ((endpoint.run p es).conn.state = .closed ↔ ∃ t, .tick t ∈ es ∧ deadline ≤ t) := by
  induction es generalizing p with
  | nil => exact ⟨.inl hwait, by simp [hwait]⟩
  | cons e es ih =>
    have hiff := closed_iff_of_undisturbed hwait hdeadline hes.1
    rw [endpoint.run_cons]
    rcases (lingers_step hwait e).waits hwait with ⟨hstill, hsame⟩ | hclosed
    · have hnot : ¬ ∃ t, e = .tick t ∧ deadline ≤ t := fun h => by simp [hiff.mpr h] at hstill
      obtain ⟨hstate, hrun⟩ := ih hstill (hsame.trans hdeadline) hes.2
      refine ⟨hstate, hrun.trans ⟨fun ⟨t, ht, hle⟩ => ⟨t, List.mem_cons_of_mem _ ht, hle⟩, fun ⟨t, ht, hle⟩ => ?_⟩⟩
      rcases List.mem_cons.mp ht with heq | ht
      · exact absurd ⟨t, heq.symm, hle⟩ hnot
      · exact ⟨t, ht, hle⟩
    · have hresumes : ∀ e' ∈ es, e'.Resumes :=
        (endpoint.meets_const _ es).mp (Machine.Meets.mono endpoint (fun _ _ h => h.1) hes.2)
      have hreaches : Reaches .closed (endpoint.run (p.step e) es).conn.state :=
        hclosed ▸ reaches_run (p.step e) hresumes
      have hend := hreaches.eq_closed
      obtain ⟨t, rfl, hle⟩ := hiff.mp hclosed
      exact ⟨.inr hend, ⟨fun _ => ⟨t, List.mem_cons_self, hle⟩, fun _ => hend⟩⟩

/-- TIME_WAIT begins with a segment and lasts `2 * msl`: whatever segments come and whatever the application asks for,
the connection is in TIME_WAIT until the first tick at or after the deadline, and closed from then on. -/
theorem timeWait_lasts (hbefore : p.conn.state ≠ .timeWait) (hwait : (p.step e).conn.state = .timeWait)
    (hes : endpoint.Meets Undisturbed (p.step e) es) :
    ∃ seg srcIp draw now, e = .segment seg srcIp draw now ∧
      ((endpoint.run (p.step e) es).conn.state = .timeWait ∨ (endpoint.run (p.step e) es).conn.state = .closed) ∧
      ((endpoint.run (p.step e) es).conn.state = .closed ↔ ∃ t, .tick t ∈ es ∧ now + 2 * p.conn.cfg.msl ≤ t) := by
  obtain ⟨seg, srcIp, draw, now, he, hdeadline⟩ := enters_timeWait hbefore hwait
  exact ⟨seg, srcIp, draw, now, he, timeWait_run hwait hdeadline hes⟩

/-- A client that has closed. -/
def closingClient : Endpoint := endpoint.run establishedClient [.close 0]

/-- The peer's FIN, with the acknowledgement of the client's own. -/
def bothFins : TCPSegment := { peerFin with ack := 102 }

/-- The peer sends its FIN twice, and a tick comes a second later. -/
theorem timeWait_lasts_bothFins :
    (endpoint.run (closingClient.step (.segment bothFins none 0 0))
      [.segment bothFins none 0 1, .tick 2]).conn.state = .timeWait := by
  obtain ⟨seg, srcIp, draw, now, he, hstate, hclosed⟩ := timeWait_lasts (p := closingClient)
    (e := .segment bothFins none 0 0) (by decide) (by decide)
    (show endpoint.Meets Undisturbed _ [.segment bothFins none 0 1, .tick 2] from
      ⟨⟨by simp [Event.Resumes], by decide⟩, ⟨by simp [Event.Resumes], by decide +kernel⟩, trivial⟩)
  cases he
  refine hstate.resolve_right fun h => ?_
  obtain ⟨t, ht, hlate⟩ := hclosed.mp h
  obtain rfl : t = 2 := by simpa using ht
  exact absurd hlate (by decide +kernel)

end Endpoint

end MiniTcp
