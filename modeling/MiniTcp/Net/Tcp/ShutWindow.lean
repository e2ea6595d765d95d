import MiniTcp.Net.Tcp.Offer
import MiniTcp.Net.Tcp.Pacing
import MiniTcp.Net.Tcp.Coverage

/-!
# A shut window

Six paths can transmit, and each of them tests the window after the event at hand has set it. So an event
that leaves the window shut brings out no new byte, except that the persist timer, when nothing is
outstanding, takes one byte from the buffer as a probe. Whatever else carries a payload is an outstanding
segment once more. `shut_window` puts this together from one lemma for each path.
-/

namespace MiniTcp

theorem SendQueue.acknowledge_nxt {q : SendQueue} {ack : SeqNo} (h : seqLe ack q.nxt = true) :
    (q.acknowledge ack).1.nxt = q.nxt := by
  by_cases hgt : seqGt ack q.una = true
  · have hbeyond : ¬ seqLt q.nxt ack = true := by
      rw [seqLt_iff]
      rw [seqLe_iff] at h
      rcases h with rfl | hlt
      · exact Serial.not_lt_self _
      · rintro ⟨-, hhalf⟩
        have hcomm := Serial.gap_comm (Serial.ne_of_lt hlt)
        have := hlt.2
        omega
    rw [acknowledge_of_gt hgt]
    exact if_neg hbeyond
  · simp [acknowledge, hgt]

namespace TCPConnection

variable {b c d : TCPConnection} {seg : TCPSegment} {now : Time}

/-! ### The paths that repeat -/

/-- From `c` to `d` outstanding segments go out again, and otherwise no payload. The queues stay, unless the
connection ends. -/
structure Resends (c d : TCPConnection) : Prop where
  sends : Sends c.Repeats c d
  repeats : ∀ x, d.Repeats x → c.Repeats x
  nxt : d.sendQueue.nxt = c.sendQueue.nxt
  same : d.state = .closed ∨ d.state = c.state ∧ d.sendQueue = c.sendQueue ∧
    (d.retxQueue.segments = [] → c.retxQueue.segments = [])

namespace Resends

theorem of_eq (hsent : d.sent = c.sent) (hretx : d.retxQueue = c.retxQueue) (hstate : d.state = c.state)
    (hsend : d.sendQueue = c.sendQueue) : Resends c d where
  sends := .of_eq hsent
  repeats := by
    unfold Repeats
    simp [hretx]
  nxt := by rw [hsend]
  same := by simp [hstate, hsend, hretx]

theorem refl (c : TCPConnection) : Resends c c := of_eq rfl rfl rfl rfl

theorem trans (h : Resends b c) (h' : Resends c d) : Resends b d where
  sends := h.sends.trans (h'.sends.mono h.repeats)
  repeats := fun x hx => h.repeats x (h'.repeats x hx)
  nxt := h'.nxt.trans h.nxt
  same := by
    rcases h'.same with hclosed | ⟨hstate, hsend, hretx⟩
    · exact .inl hclosed
    · rcases h.same with hclosed | ⟨hstate', hsend', hretx'⟩
      · exact .inl (hstate.trans hclosed)
      · exact .inr ⟨hstate.trans hstate', hsend.trans hsend', fun hnil => hretx' (hretx hnil)⟩

theorem teardown (c : TCPConnection) : Resends c (c.teardown.notify .closed) where
  sends := .of_eq rfl
  repeats := by
    rintro x ⟨entry, hentry, -⟩
    cases hentry
  nxt := rfl
  same := .inl rfl

theorem sendAck (c : TCPConnection) (now : Time) : Resends c (c.sendAck now) := by
  have hsame := sameOffer_sendAck c now
  refine ⟨.of_trailing (.sendAck c now), ?_, by rw [hsame.sendQueue], .inr ⟨?_, hsame.sendQueue, ?_⟩⟩
  · unfold Repeats
    simp [hsame.retxQueue]
  · exact (sendFrame_sendAck c now).state
  · simp [hsame.retxQueue]

theorem resend {entry : OutstandingSegment} (h : entry ∈ c.retxQueue.segments) (now : Time) :
    Resends c (c.resend entry now) := by
  refine ⟨sends_resend h now, ?_, ?_, ?_⟩
  · rintro x ⟨y, hy, hseq, hpayload⟩
    rw [resend_eq] at hy
    rcases RetransmitQueue.mem_markRetransmitted hy with hmem | ⟨z, hz, rfl⟩
    · exact ⟨y, hmem, hseq, hpayload⟩
    · exact ⟨z, hz, hseq, hpayload⟩
  · simp [resend_eq]
  · simp [resend_eq]

theorem onRetransmitTimeout (c : TCPConnection) (now : Time) : Resends c (c.onRetransmitTimeout now) := by
  unfold TCPConnection.onRetransmitTimeout
  cases hold : c.retxQueue.oldest with
  | none => exact of_eq rfl rfl rfl rfl
  | some oldest =>
    dsimp only
    split_ifs
    · exact teardown c
    · have hmem : oldest ∈ c.retxQueue.segments := List.mem_of_mem_head? hold
      have hbegin : Resends c { c with reno := c.reno.onTimeout, rto := c.rto.backoff } :=
        of_eq rfl rfl rfl rfl
      have hresend := hbegin.trans
        (resend (c := { c with reno := c.reno.onTimeout, rto := c.rto.backoff }) hmem now)
      apply hresend.trans
      exact of_eq rfl rfl rfl rfl

theorem retransmitted (c : TCPConnection) (now : Time) : Resends c (c.retransmitted now) := by
  unfold TCPConnection.retransmitted
  dsimp only
  have hack : Resends c (if due c.delayedAckAt now then c.sendAck now else c) := by
    split_ifs
    · exact sendAck c now
    · exact refl c
  generalize (if due c.delayedAckAt now = true then c.sendAck now else c) = d at hack ⊢
  split_ifs
  · exact hack.trans (onRetransmitTimeout d now)
  · exact hack

theorem expire (c : TCPConnection) (now : Time) :
    Resends c (if c.state = .timeWait ∧ due c.timeWaitUntil now then c.teardown.notify .closed else c) := by
  split_ifs
  · exact teardown c
  · exact refl c

end Resends

theorem Trailing.recv (c : TCPConnection) (maxBytes : Nat) (now : Time) : Trailing c (c.recv maxBytes now).1 := by
  unfold TCPConnection.recv
  split_ifs
  · exact .refl c
  · dsimp only
    split_ifs
    · apply Trailing.trans _ (.sendAck _ now)
      exact .of_eq id rfl rfl rfl rfl
    · exact .of_eq id rfl rfl rfl rfl

/-! ### `_flush` before a shut window -/

theorem flush_shut (now : Time) (h : c.peerWindow = 0) :
    (c.flush now).sent = c.sent ∧ (c.flush now).sendQueue = c.sendQueue := by
  unfold flush armPersistTimer
  rw [if_pos h]
  split_ifs
  · exact ⟨rfl, rfl⟩
  · exact ⟨rfl, rfl⟩
  · split <;> exact ⟨rfl, rfl⟩

/-! ### The probe -/

/-- One byte of the buffer goes out as new data, and nothing else with a payload. -/
structure Probes (c d : TCPConnection) : Prop where
  nxt : d.sndNxt = seqAdd c.sndNxt 1
  sent : ∃ byte segs, c.sendQueue.peek c.sndNxt 1 = [byte] ∧ d.sent = c.sent ++ segs ∧
    (segs.filter (·.payload ≠ [])).map (fun x => (x.seq, x.payload)) = [(c.sndNxt, [byte])]

namespace Probes

theorem after (hbefore : Resends b c) (hsend : c.sendQueue = b.sendQueue) (hnil : b.retxQueue.segments = [])
    (h : Probes c d) : Probes b d := by
  obtain ⟨hnxt, byte, segs, hbyte, hsent, hone⟩ := h
  obtain ⟨before, hsent', hrepeats⟩ := hbefore.sends
  unfold sndNxt at hnxt hbyte hone
  rw [hsend] at hnxt hbyte hone
  refine ⟨hnxt, byte, before ++ segs, hbyte, by rw [hsent, hsent', List.append_assoc], ?_⟩
  have hbare : before.filter (·.payload ≠ []) = [] := by
    apply List.filter_eq_nil_iff.mpr
    intro x hx
    simp only [decide_eq_true_eq]
    intro hne
    obtain ⟨entry, hentry, -⟩ := hrepeats x hx hne
    rw [hnil] at hentry
    cases hentry
  rw [List.filter_append, hbare]
  exact hone

theorem transmitData {byte : UInt8} (now : Time) (h : c.sendQueue.peek c.sndNxt 1 = [byte]) :
    Probes c (c.transmitData [byte] now) where
  nxt := by simp [sndNxt, transmitData_eq]
  sent := by
    refine ⟨byte, [c.dataSegment [byte]], h, ?_, ?_⟩
    · simp [transmitData_eq, tracking]
    · simp [dataSegment, segmentOf, sndNxt]

end Probes

theorem onPersistTimeout_shut (now : Time) (h : c.peerWindow = 0) :
    Resends c (c.onPersistTimeout now) ∨
      c.state ≠ .closed ∧ c.retxQueue.segments = [] ∧ Probes c (c.onPersistTimeout now) := by
  unfold onPersistTimeout
  rw [if_neg (by omega)]
  split_ifs with hsync
  · exact .inl (.of_eq rfl rfl rfl rfl)
  · have hopen : c.state ≠ .closed := by
      intro hclosed
      simp [hclosed, TcpState.isSynchronised] at hsync
    cases hold : c.retxQueue.oldest with
    | some oldest =>
      have hresend := Resends.resend (c := c) (List.mem_of_mem_head? hold) now
      exact .inl (hresend.trans (.of_eq rfl rfl rfl rfl))
    | none =>
      have hnil : c.retxQueue.segments = [] := List.head?_eq_none_iff.mp hold
      have hlen := c.sendQueue.length_peek_le c.sendQueue.nxt 1
      dsimp only
      split_ifs with hempty
      · exact .inl (.of_eq rfl rfl rfl rfl)
      · obtain ⟨byte, hbyte⟩ := List.length_eq_one_iff.mp
          (Nat.le_antisymm hlen (List.length_pos_iff.mpr hempty))
        obtain ⟨hnxt, hsent⟩ := Probes.transmitData now hbyte
        rw [hbyte]
        exact .inr ⟨hopen, hnil, hnxt, hsent⟩

/-! ### Outstanding segments were sent before -/

/-- What is outstanding has been transmitted under its number. -/
def Logged (c : TCPConnection) : Prop :=
  ∀ entry ∈ c.retxQueue.segments, ∃ x ∈ c.sent, x.seq = entry.seq ∧ x.payload = entry.payload

namespace Logged

theorem mono (h : c.Logged) (hsent : c.sent <+: d.sent) (hretx : ∀ y ∈ d.retxQueue.segments,
    ∃ z ∈ c.retxQueue.segments, y.seq = z.seq ∧ y.payload = z.payload) : d.Logged := by
  intro y hy
  obtain ⟨z, hz, hseq, hpayload⟩ := hretx y hy
  obtain ⟨x, hx, hseq', hpayload'⟩ := h z hz
  exact ⟨x, hsent.subset hx, hseq'.trans hseq.symm, hpayload'.trans hpayload.symm⟩

theorem subset (h : c.Logged) (hsent : c.sent <+: d.sent)
    (hretx : d.retxQueue.segments ⊆ c.retxQueue.segments) : d.Logged :=
  h.mono hsent fun y hy => ⟨y, hretx hy, rfl, rfl⟩

theorem tracking (h : c.Logged) (x : TCPSegment) (now : Time) : (c.tracking x now).Logged := by
  intro y hy
  rcases (mem_tracking c x now).2 y hy with hold | ⟨hseq, -, hpayload⟩
  · obtain ⟨z, hz, heq⟩ := h y hold
    exact ⟨z, List.mem_append_left _ hz, heq⟩
  · exact ⟨x, List.mem_append_right _ (List.mem_singleton_self x), hseq.symm, hpayload.symm⟩

theorem action {r : Bool} {e : Event} {q q' : Endpoint} (h : q.conn.Logged) (ha : Action r e q q') :
    q'.conn.Logged := by
  have hnil : ∀ {c : TCPConnection}, c.retxQueue.segments = [] → c.Logged := by
    intro c hc y hy
    simp [hc] at hy
  cases ha with
  | quiet hq =>
    apply h.subset
    · rw [Endpoint.put_conn, hq.sent]
    · simp [hq.retxQueue]
  | ack | reject => exact h.subset (List.prefix_append _ _) (List.Subset.refl _)
  | connect _ hconn =>
    obtain ⟨-, rfl⟩ := connect_eq hconn
    exact tracking (c := q.conn.opening _) h _ _
  | simultaneousOpen =>
    rw [handleSimultaneousOpen_eq]
    exact tracking (c := q.conn.adopted _) h _ _
  | retire => exact h.subset List.prefix_rfl (List.filter_subset_self _)
  | establish t =>
    unfold settled
    split_ifs
    · exact h.subset List.prefix_rfl (List.filter_subset_self _)
    · exact h.subset List.prefix_rfl (List.Subset.refl _)
  | push payload n now _ _ hne =>
    rw [transmitData_eq _ now hne]
    exact h.tracking _ _
  | resend now =>
    rw [resend_eq]
    apply h.mono (List.prefix_append _ _)
    intro y hy
    rcases RetransmitQueue.mem_markRetransmitted hy with hmem | ⟨z, hz, rfl⟩
    · exact ⟨y, hmem, rfl, rfl⟩
    · exact ⟨z, hz, rfl, rfl⟩
  | fin =>
    rw [sendFin_eq]
    exact h.tracking _ _
  | @consumeFin _ _ _ now =>
    obtain ⟨-, hsent, -, -, -, -, hretx⟩ := finTaken_spec q.conn now
    rcases hretx with hsame | ⟨-, hclear⟩
    · apply h.subset
      · simp [hsent]
      · simp [hsame]
    · apply hnil
      simp [hclear, RetransmitQueue.clear]
  | advance =>
    unfold finAcknowledged
    split
    · exact h.subset List.prefix_rfl (List.Subset.refl _)
    · exact hnil rfl
    · exact hnil rfl
  | reset | expire | abort => exact hnil rfl
  | _ => exact h.subset List.prefix_rfl (List.Subset.refl _)

end Logged

theorem logged_of_reachable {p : Endpoint} (hp : endpoint.Reachable p) : p.conn.Logged := by
  apply reachable_induction (I := fun q => q.conn.Logged) _ (fun _ _ _ => Logged.action) hp
  rintro q (⟨cfg, rfl⟩ | ⟨cfg, seg, draw, now, -, -, rfl⟩)
  · intro y hy
    cases hy
  · rw [Endpoint.passive, beginPassiveOpen_eq]
    apply Logged.tracking (c := (TCPConnection.new cfg).answering seg draw)
    intro y hy
    cases hy

/-- As far as `add` has taken every entry, the bytes of an outstanding segment are below `snd_nxt`. -/
theorem Tracked.below (h : c.Tracked) (hbasic : c.Basic) (hnil : c.untracked = []) (hopen : c.Retransmitting)
    {entry : OutstandingSegment} (hentry : entry ∈ c.retxQueue.segments) {i : Nat}
    (hi : i < entry.payload.length) : seqLt (seqAdd entry.seq i) c.sndNxt = true := by
  obtain ⟨n, hcover, hnxt⟩ := h.covers hnil hopen
  have hn := h.flight_lt hbasic.retxCapacity hcover
  obtain ⟨d, hd, hstop⟩ := hcover.stop_mem hentry
  have hbytes : entry.payload.length ≤ c.retxQueue.bytesOutstanding :=
    List.le_sum_of_mem (List.mem_map_of_mem (f := fun y : OutstandingSegment => y.payload.length) hentry)
  have hcap := h.sized.bytes
  rw [hbasic.retxCapacity] at hcap
  have hlen : entry.seqLen = entry.payload.length := by
    rcases h.sized.entries entry hentry with ⟨-, hlen⟩ | ⟨hempty, -⟩
    · exact hlen
    · simp [hempty] at hi
  -- `snd_nxt` is the rest of the payload and `n - d` more numbers away
  have hahead : c.sndNxt = Serial.shift (seqAdd entry.seq i) (entry.payload.length - i + (n - d)) := by
    have hnxt' : c.sndNxt = Serial.shift (Serial.stop OutstandingSegment.seq OutstandingSegment.seqLen entry)
        (n - d) := by
      rw [hstop, Serial.shift_shift, sndNxt, hnxt, seqAdd]
      congr 1
      omega
    rw [hnxt', Serial.stop, hlen, Serial.shift_shift, seqAdd, Serial.shift_shift]
    congr 1
    omega
  rw [hahead, seqLt_iff]
  apply Serial.lt_shift <;> omega

/-- The segment repeats one that was transmitted before, and as far as `add` has taken every entry its
bytes are below `snd_nxt`. -/
structure Retransmits (c : TCPConnection) (x : TCPSegment) : Prop where
  outstanding : c.Repeats x
  before : ∃ y ∈ c.sent, y.seq = x.seq ∧ y.payload = x.payload
  below : c.untracked = [] → c.state ≠ .timeWait → ∀ i < x.payload.length,
    seqLt (seqAdd x.seq i) c.sndNxt = true

theorem Repeats.retransmits {p : Endpoint} (hp : endpoint.Reachable p)
    (hsync : p.conn.state.isSynchronised = true) {x : TCPSegment} (h : p.conn.Repeats x) :
    p.conn.Retransmits x := by
  obtain ⟨entry, hentry, hseq, hpayload⟩ := id h
  obtain ⟨y, hy, hseq', hpayload'⟩ := logged_of_reachable hp entry hentry
  obtain ⟨hclosed, hlisten, -, -⟩ := TcpState.ne_of_isSynchronised hsync
  refine ⟨h, ⟨y, hy, hseq'.trans hseq.symm, hpayload'.trans hpayload.symm⟩, fun hnil hwait i hi => ?_⟩
  rw [hseq]
  rw [hpayload] at hi
  exact (tracked_of_reachable hp).below (basic_of_reachable hp) hnil ⟨hclosed, hlisten, hwait⟩ hentry hi

end TCPConnection

/-! ### Events -/

namespace Endpoint

open TCPConnection

variable {p : Endpoint} {e : Event}

/-- The persist timer is due and finds nothing outstanding. -/
def ProbeDue (c : TCPConnection) : Event → Prop
  | .tick now => due c.persistAt now = true ∧ c.retxQueue.segments = []
  | _ => False

/-- `snd_nxt` stays, but for the FIN of `close()`, and only outstanding segments go out with a payload. -/
structure NothingNew (p : Endpoint) (e : Event) : Prop where
  nxt : (p.step e).conn.sndNxt = p.conn.sndNxt ∨
    (∃ now, e = .close now) ∧ (p.step e).conn.sndNxt = seqAdd p.conn.sndNxt 1
  sends : Sends p.conn.Repeats p.conn (p.step e).conn

theorem nothingNew_segment {seg : TCPSegment} {srcIp : Option Bytes} {draw : SeqNo} {now : Time}
    (hsync : p.conn.state.isSynchronised = true)
    (hack : seg.isAck = true → seqLe seg.ack p.conn.sndNxt = true)
    (hshut : (p.step (.segment seg srcIp draw now)).conn.peerWindow = 0) :
    NothingNew p (.segment seg srcIp draw now) := by
  simp only [Endpoint.step, put_conn] at hshut
  cases htakes : p.conn.takesAck seg with
  | false =>
    refine ⟨.inl ?_, sends_onSegment_of_not_takesAck srcIp draw now htakes⟩
    cases hrst : seg.isRst with
    | false => exact (onSegment_of_not_takesAck srcIp draw now htakes hrst).2.1
    | true =>
      have hclosed := (TcpState.ne_of_isSynchronised hsync).1
      simp only [Endpoint.step, put_conn, onSegment_of_rst srcIp draw now hclosed hrst]
      rfl
  | true =>
    obtain ⟨hqueue, hoffer, -, -, hbefore⟩ := (p.conn.stamp now).acked_spec seg now
    have hafter := onSegment_of_synchronised srcIp draw now hsync htakes
    have hcalm : Calm (if p.conn.takesAck seg = true then (p.conn.stamp now).processAck seg now else p.conn)
        (p.conn.onSegment seg srcIp draw now).1 := calm_onSegment srcIp draw now (.inl hsync)
    rw [if_pos htakes] at hcalm
    have hflush := Calm.flush ((p.conn.stamp now).acked seg now) now
    rw [processAck_eq_flush] at hafter hcalm
    -- nothing sets the window after `_update_peer_window`, so `_flush` finds it shut
    rw [hcalm.peerWindow, hflush.peerWindow] at hshut
    obtain ⟨hsent, hsend⟩ := flush_shut now hshut
    constructor
    · left
      have hisAck : seg.isAck = true := by
        unfold takesAck at htakes
        rw [Bool.and_eq_true, Bool.and_eq_true] at htakes
        exact htakes.1.1
      show (p.conn.onSegment seg srcIp draw now).1.sendQueue.nxt = p.conn.sendQueue.nxt
      rw [hafter.nxt, hsend, hqueue]
      exact SendQueue.acknowledge_nxt (hack hisAck)
    · have hbefore' : Sends p.conn.Repeats p.conn ((p.conn.stamp now).acked seg now) :=
        (Sends.of_eq (d := p.conn.stamp now) rfl).trans hbefore
      exact hbefore'.trans ((Sends.of_eq hsent).trans (.of_trailing hafter))

theorem nothingNew_send {data : Bytes} {now : Time} (hshut : (p.step (.send data now)).conn.peerWindow = 0) :
    NothingNew p (.send data now) := by
  cases hsend : p.conn.send data now with
  | error err =>
    have hstep : p.step (.send data now) = p := by simp [Endpoint.step, hsend]
    exact ⟨by simp [hstep], by rw [hstep]; exact .refl _⟩
  | ok r =>
    obtain ⟨c, written⟩ := r
    have hstep : (p.step (.send data now)).conn = c := by simp [Endpoint.step, hsend]
    rw [hstep] at hshut
    obtain ⟨-, heq | ⟨-, heq⟩⟩ := send_ok _ hsend
    · obtain ⟨rfl, -⟩ := Prod.mk.inj heq
      exact ⟨by simp [hstep], by rw [hstep]; exact .refl _⟩
    · obtain ⟨rfl, -⟩ := Prod.mk.inj heq
      have hcalm := Calm.flush { p.conn with sendQueue := (p.conn.sendQueue.write data).1 } now
      rw [hcalm.peerWindow] at hshut
      obtain ⟨hsent, hqueue⟩ := flush_shut now hshut
      constructor
      · left
        simp [sndNxt, hstep, hqueue]
      · rw [hstep]
        exact .of_eq hsent

theorem tick_shut {now : Time} (hshut : (p.step (.tick now)).conn.peerWindow = 0) :
    ProbeDue p.conn (.tick now) ∧ Probes p.conn (p.step (.tick now)).conn ∨ NothingNew p (.tick now) := by
  simp only [Endpoint.step, put_conn] at hshut
  obtain ⟨-, hwindow, hpersist, -⟩ := p.conn.retransmitted_spec now
  have hbefore := Resends.retransmitted p.conn now
  have htick : (p.step (.tick now)).conn = _ := p.conn.onTick_eq now
  rw [(SameWindow.onTick p.conn now).peerWindow] at hshut
  generalize p.conn.retransmitted now = d at hwindow hpersist hbefore htick
  have hrepeats : ∀ f, Resends p.conn f →
      (p.step (.tick now)).conn = (if f.state = .timeWait ∧ due f.timeWaitUntil now then
        f.teardown.notify .closed else f) → NothingNew p (.tick now) := by
    intro f hf hlast
    have hall := hf.trans (.expire f now)
    rw [← hlast] at hall
    exact ⟨.inl hall.nxt, hall.sends⟩
  dsimp only at htick
  rw [hpersist] at htick
  cases hdue : due p.conn.persistAt now with
  | false =>
    rw [hdue] at htick
    exact .inr (hrepeats d hbefore htick)
  | true =>
    rw [hdue, if_pos rfl] at htick
    rcases onPersistTimeout_shut now (hwindow.trans hshut) with hresend | ⟨hopen, hnil, hprobe⟩
    · exact .inr (hrepeats _ (hbefore.trans hresend) htick)
    · rcases hbefore.same with hclosed | ⟨-, hsend, hempty⟩
      · exact absurd hclosed hopen
      · left
        obtain ⟨hnxt, hsent⟩ := hprobe.after hbefore hsend (hempty hnil)
        refine ⟨⟨hdue, hempty hnil⟩, ?_, ?_⟩
        · rw [htick]
          split_ifs <;> exact hnxt
        · rw [htick]
          split_ifs <;> exact hsent

theorem nothingNew_call (hsync : p.conn.state.isSynchronised = true) (hsegment : e.inbound = none)
    (hsend : ∀ data now, e ≠ .send data now) (htick : ∀ now, e ≠ .tick now) : NothingNew p e := by
  have hclosed := (TcpState.ne_of_isSynchronised hsync).1
  have hstays : (p.step e).conn = p.conn → NothingNew p e := by
    intro heq
    exact ⟨by simp [heq], by rw [heq]; exact .refl _⟩
  cases e with
  | segment => cases hsegment
  | send data now => exact absurd rfl (hsend data now)
  | tick now => exact absurd rfl (htick now)
  | listen =>
    apply hstays
    simp [Endpoint.step, TCPConnection.listen, hclosed]
  | connect draw now =>
    apply hstays
    simp [Endpoint.step, TCPConnection.connect, hclosed]
  | recv maxBytes now =>
    have htrail := Trailing.recv p.conn maxBytes now
    exact ⟨.inl htrail.nxt, .of_trailing htrail⟩
  | abort now =>
    constructor
    · left
      simp [Endpoint.step, sndNxt, abort_eq, TCPConnection.teardown, notify, SendQueue.clear]
      split_ifs <;> rfl
    · simp only [Endpoint.step, put_conn, abort_eq]
      split_ifs
      · exact .of_payload_nil rfl rfl
      · exact .of_eq rfl
  | close now =>
    have hfin : ∀ st, p.conn.close now = { p.conn.sendFin now with state := st } → NothingNew p (.close now) := by
      intro st heq
      constructor
      · right
        simp [Endpoint.step, sndNxt, heq, sendFin_eq]
      · simp only [Endpoint.step, put_conn, heq, sendFin_eq]
        exact .of_payload_nil rfl rfl
    cases hst : p.conn.state with
    | established => exact hfin .finWait1 (by simp [TCPConnection.close, hst])
    | closeWait => exact hfin .lastAck (by simp [TCPConnection.close, hst])
    | finWait1 | finWait2 | closing | lastAck | timeWait =>
      apply hstays
      simp [Endpoint.step, TCPConnection.close, hst]
    | _ => simp [hst, TcpState.isSynchronised] at hsync

/-- Either the persist timer expired with nothing outstanding and one buffered byte went out, or `snd_nxt`
stays, but for the FIN of `close()`, and every payload that went out is a retransmission. -/
def OnlyProbes (p : Endpoint) (e : Event) : Prop :=
  ProbeDue p.conn e ∧ Probes p.conn (p.step e).conn ∨
    ((p.step e).conn.sndNxt = p.conn.sndNxt ∨
      (∃ now, e = .close now) ∧ (p.step e).conn.sndNxt = seqAdd p.conn.sndNxt 1) ∧
    Sends p.conn.Retransmits p.conn (p.step e).conn

/-- A call on a synchronised connection that acknowledges nothing beyond `snd_nxt` and leaves the peer's
window shut sends nothing new but probes. -/
theorem shut_window (hp : endpoint.Reachable p) (hsync : p.conn.state.isSynchronised = true)
    (hack : ∀ seg, e.inbound = some seg → seg.isAck = true → seqLe seg.ack p.conn.sndNxt = true)
    (hshut : (p.step e).conn.peerWindow = 0) : OnlyProbes p e := by
  have hcases : ProbeDue p.conn e ∧ Probes p.conn (p.step e).conn ∨ NothingNew p e := by
    cases e with
    | segment seg srcIp draw now => exact .inr (nothingNew_segment hsync (hack seg rfl) hshut)
    | send data now => exact .inr (nothingNew_send hshut)
    | tick now => exact tick_shut hshut
    | _ => exact .inr (nothingNew_call hsync rfl nofun nofun)
  apply hcases.imp_right
  rintro ⟨hnxt, hsends⟩
  exact ⟨hnxt, hsends.mono fun _ => Repeats.retransmits hp hsync⟩

/-- An acknowledgement of all the established client has sent, which shuts the window. -/
def shutAck : TCPSegment :=
  { srcPort := 2000, dstPort := 1000, seq := 501, ack := 101, flags := FLAG_ACK, window := 0 }

/-- The established client with three bytes behind a shut window. -/
def waitingClient : Endpoint :=
  endpoint.run establishedClient [.segment shutAck none 0 0, .send [1, 2, 3] 0]

theorem reachable_waitingClient : endpoint.Reachable waitingClient :=
  reachable_establishedClient.run endpoint (endpoint.meets_true _ _)

/-- Half a second later the first of them goes out as a probe. -/
theorem shut_window_probe :
    waitingClient.conn.state.isSynchronised = true ∧
      (waitingClient.step (.tick (1 / 2))).conn.peerWindow = 0 ∧
      (waitingClient.step (.tick (1 / 2))).conn.sndNxt = seqAdd waitingClient.conn.sndNxt 1 ∧
      OnlyProbes waitingClient (.tick (1 / 2)) :=
  ⟨by decide +kernel, by decide +kernel, by decide +kernel,
    shut_window reachable_waitingClient (by decide +kernel) nofun (by decide +kernel)⟩

end Endpoint

end MiniTcp
