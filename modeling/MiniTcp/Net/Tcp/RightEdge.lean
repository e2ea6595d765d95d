import MiniTcp.Net.Tcp.SpuriousReset
import MiniTcp.Net.Tcp.Repeat

/-!
# The right edge of the send window

A connection and the segments its peer sent, which arrive in any order and any number of times. The ACK
number of a segment is its place in the peer's cumulative acknowledgement, counted from the segment that
opened the connection; `acked` counts how far `snd_una` has moved since then. `_update_peer_window` takes
the window of every acceptable segment and `_flush` counts it from `snd_una`, so an old segment moves the
right edge to where the peer never put it; when no segment is processed after a later one, the edge is
always one that the peer advertised (`right_edge`).
-/

namespace MiniTcp

open TCPConnection

/-- An open connection stays open or is closed; it does not go back to the handshake. -/
theorem Action.stays_open {r : Bool} {e : Event} {q q' : Endpoint} (ha : Action r e q q')
    (hlisten : e ≠ .listen) (hconnect : ∀ draw now, e ≠ .connect draw now)
    (h : q.conn.state.isSynchronised = true ∨ q.conn.state = .closed) :
    q'.conn.state.isSynchronised = true ∨ q'.conn.state = .closed := by
  have hnot : q.conn.state ≠ .synSent ∧ q.conn.state ≠ .synReceived := by
    rcases h with h | h
    · exact ⟨(TcpState.ne_of_isSynchronised h).2.2.1, (TcpState.ne_of_isSynchronised h).2.2.2⟩
    · exact ⟨by simp [h], by simp [h]⟩
  cases ha with
  | quiet hq => exact hq.state.symm ▸ h
  | listen he => exact absurd he hlisten
  | connect he => exact absurd he (hconnect _ _)
  | simultaneousOpen _ hstate => exact absurd hstate hnot.1
  | establish t => exact .inl rfl
  | push payload n now _ _ hne =>
    rw [transmitData_eq _ now hne]
    exact h
  | resend now =>
    rw [resend_eq]
    exact h
  | fin _ hstate => rcases hstate with ⟨-, rfl⟩ | ⟨-, rfl⟩ <;> exact .inl rfl
  | @consumeFin _ _ _ now =>
    rcases finTaken_state q.conn now with hst | ⟨-, hst⟩
    · rw [Endpoint.put_conn, hst]
      exact h
    · exact .inl hst
  | advance =>
    unfold finAcknowledged
    split
    · exact .inl rfl
    · exact .inl rfl
    · exact .inr rfl
  | reset | expire | drop => exact .inr rfl
  | abort => exact .inr rfl
  | _ => exact h

theorem step_stays_open {p : Endpoint} {e : Event} (hlisten : e ≠ .listen)
    (hconnect : ∀ draw now, e ≠ .connect draw now)
    (h : p.conn.state.isSynchronised = true ∨ p.conn.state = .closed) :
    (p.step e).conn.state.isSynchronised = true ∨ (p.step e).conn.state = .closed :=
  keeps_step (I := fun q => q.conn.state.isSynchronised = true ∨ q.conn.state = .closed)
    (fun _ _ hq ha => ha.stays_open hlisten hconnect hq) h

namespace TCPConnection

variable {b c d : TCPConnection} {seg : TCPSegment}

/-! ### What moves the window -/

/-- The window and where it is counted from are the same. -/
structure SameWindow (c d : TCPConnection) : Prop where
  una : d.sendQueue.una = c.sendQueue.una
  peerWindow : d.peerWindow = c.peerWindow
  sndWscale : d.sndWscale = c.sndWscale

namespace SameWindow

theorem refl (c : TCPConnection) : SameWindow c c := ⟨rfl, rfl, rfl⟩

theorem trans (h : SameWindow b c) (h' : SameWindow c d) : SameWindow b d where
  una := h'.una.trans h.una
  peerWindow := h'.peerWindow.trans h.peerWindow
  sndWscale := h'.sndWscale.trans h.sndWscale

theorem of_sendFrame (h : SendFrame c d) : SameWindow c d := ⟨h.una, h.peerWindow, h.sndWscale⟩

theorem sendFin (c : TCPConnection) (now : Time) : SameWindow c (c.sendFin now) := by
  have h := sendFrame_transmit { c with finSeq := some c.sendQueue.nxt } c.sendQueue.nxt
    (FLAG_ACK ||| FLAG_FIN) [] now none {} true
  exact ⟨h.una, h.peerWindow, h.sndWscale⟩

theorem abort (c : TCPConnection) (now : Time) : SameWindow c (c.abort now) := by
  unfold TCPConnection.abort
  split_ifs
  · have h := sendFrame_transmit c c.sendQueue.nxt (FLAG_RST ||| FLAG_ACK) [] now
      (some c.recvQueue.nxt) {} true
    exact ⟨h.una, h.peerWindow, h.sndWscale⟩
  · exact ⟨rfl, rfl, rfl⟩

theorem close (c : TCPConnection) (now : Time) : SameWindow c (c.close now) := by
  unfold TCPConnection.close
  split
  · have h := sendFin c now
    exact ⟨h.una, h.peerWindow, h.sndWscale⟩
  · have h := sendFin c now
    exact ⟨h.una, h.peerWindow, h.sndWscale⟩
  · exact abort c now
  · exact abort c now
  all_goals exact ⟨rfl, rfl, rfl⟩

theorem onRetransmitTimeout (c : TCPConnection) (now : Time) :
    SameWindow c (c.onRetransmitTimeout now) := by
  unfold TCPConnection.onRetransmitTimeout
  split
  · exact ⟨rfl, rfl, rfl⟩
  · rename_i oldest _
    dsimp only
    split_ifs
    · exact ⟨rfl, rfl, rfl⟩
    · have h := sendFrame_resend { c with reno := c.reno.onTimeout, rto := c.rto.backoff } oldest now
      exact ⟨h.una, h.peerWindow, h.sndWscale⟩

theorem onPersistTimeout (c : TCPConnection) (now : Time) : SameWindow c (c.onPersistTimeout now) := by
  unfold TCPConnection.onPersistTimeout
  split_ifs
  · have h := sendFrame_flush { c with persistAt := none, persistDelay := DEFAULT_PERSIST_DELAY } now
    exact ⟨h.una, h.peerWindow, h.sndWscale⟩
  · exact ⟨rfl, rfl, rfl⟩
  · have htimer : ∀ {d : TCPConnection} (persistDelay : Time) (persistAt : Option Time), SameWindow c d →
        SameWindow c { d with persistDelay := persistDelay, persistAt := persistAt } :=
      fun _ _ h => ⟨h.una, h.peerWindow, h.sndWscale⟩
    apply htimer
    split
    · exact of_sendFrame (sendFrame_resend c _ now)
    · dsimp only
      split_ifs
      · exact refl c
      · exact of_sendFrame (sendFrame_transmitData c _ now)

theorem onTick (c : TCPConnection) (now : Time) : SameWindow c (c.onTick now) := by
  have hif : ∀ (p : Bool) (b d : TCPConnection), SameWindow b d →
      SameWindow b (if p = true then d else b) := by
    intro p b d h
    split_ifs
    · exact h
    · exact refl b
  unfold TCPConnection.onTick
  dsimp only
  have hack := hif (due c.delayedAckAt now) c _ (of_sendFrame (sendFrame_sendAck c now))
  generalize (if due c.delayedAckAt now = true then c.sendAck now else c) = b at hack ⊢
  have hretx := hack.trans (hif (due b.retransmitAt now) b _ (onRetransmitTimeout b now))
  generalize (if due b.retransmitAt now = true then b.onRetransmitTimeout now else b) = b at hretx ⊢
  have hprobe := hretx.trans (hif (due b.persistAt now) b _ (onPersistTimeout b now))
  generalize (if due b.persistAt now = true then b.onPersistTimeout now else b) = b at hprobe ⊢
  split_ifs
  · exact ⟨hprobe.una, hprobe.peerWindow, hprobe.sndWscale⟩
  · exact hprobe

end SameWindow

/-- What an inbound segment does to the window and to `snd_una`, in a synchronised state and after the
end. -/
theorem window_onSegment (c : TCPConnection) (seg : TCPSegment) (srcIp : Option Bytes) (draw : SeqNo)
    (now : Time)
    (hstate : c.state.isSynchronised = true ∨ c.state = .closed) :
    (c.takesAck seg = false → SameWindow c (c.onSegment seg srcIp draw now).1) ∧
      (c.takesAck seg = true →
        (c.onSegment seg srcIp draw now).1.peerWindow = seg.window <<< c.sndWscale ∧
          (c.onSegment seg srcIp draw now).1.sndWscale = c.sndWscale ∧
          (c.onSegment seg srcIp draw now).1.sendQueue.una =
            if seqGt seg.ack c.sendQueue.una then seg.ack else c.sendQueue.una) := by
  have hcalm : Calm (if c.takesAck seg = true then (c.stamp now).processAck seg now else c)
      (c.onSegment seg srcIp draw now).1 := calm_onSegment srcIp draw now hstate
  constructor
  · intro htakes
    rw [if_neg (by simp [htakes])] at hcalm
    refine ⟨?_, hcalm.peerWindow, hcalm.sndWscale⟩
    by_cases hrst : seg.isRst = true
    · unfold onSegment dispatch
      rcases hstate with hsync | hclosed
      · rw [if_neg (show ¬ (c.stamp now).state = .closed from (TcpState.ne_of_isSynchronised hsync).1),
          if_pos hrst]
        rfl
      · rw [if_pos (show (c.stamp now).state = .closed from hclosed)]
        apply (sendFrame_reject (c.stamp now) seg now).una
    · apply (onSegment_of_not_takesAck srcIp draw now htakes (by simpa using hrst)).1
  · intro htakes
    rw [if_pos htakes] at hcalm
    have hsync : c.state.isSynchronised = true := by
      refine hstate.resolve_right fun hclosed => ?_
      simp [takesAck, hclosed] at htakes
    obtain ⟨hwindow, hscale⟩ := processAck_peerWindow (c.stamp now) seg now
    have htrail := onSegment_of_synchronised srcIp draw now hsync htakes
    exact ⟨hcalm.peerWindow.trans hwindow, hcalm.sndWscale.trans hscale,
      htrail.una.trans (processAck_una (c.stamp now) seg now)⟩

end TCPConnection

/-- The calls of the application and the timers of an open connection. -/
def Event.IsOwn : Event → Prop
  | .send .. | .recv .. | .close .. | .abort .. | .tick .. => True
  | _ => False

theorem Event.IsOwn.ne {e : Event} (he : e.IsOwn) :
    e ≠ .listen ∧ ∀ draw now, e ≠ .connect draw now := by
  constructor
  · rintro rfl
    exact he
  · rintro draw now rfl
    exact he

theorem sameWindow_step (p : Endpoint) {e : Event} (he : e.IsOwn) :
    SameWindow p.conn (p.step e).conn := by
  cases e with
  | send data now =>
    simp only [Endpoint.step]
    cases hsend : p.conn.send data now with
    | error err => exact .refl _
    | ok r =>
      obtain ⟨-, rfl | ⟨-, rfl⟩⟩ := send_ok _ hsend
      · exact .refl _
      · have h := sendFrame_flush { p.conn with sendQueue := (p.conn.sendQueue.write data).1 } now
        exact ⟨h.una.trans (p.conn.sendQueue.write_una data), h.peerWindow, h.sndWscale⟩
  | recv maxBytes now =>
    simp only [Endpoint.step, Endpoint.put_conn, recv]
    split_ifs
    · exact .refl _
    · have h := sendFrame_sendAck { p.conn with recvQueue := (p.conn.recvQueue.read maxBytes).1 } now
      exact ⟨h.una, h.peerWindow, h.sndWscale⟩
    · exact ⟨rfl, rfl, rfl⟩
  | close now => exact .close p.conn now
  | abort now => exact .abort p.conn now
  | tick now => exact .onTick p.conn now
  | listen => exact he.elim
  | connect draw now => exact he.elim
  | segment seg srcIp draw now => exact he.elim

/-! ### A connection and what its peer said -/

/-- A segment the peer sent, and how many numbers it acknowledges from the start. -/
structure Advert where
  seg : TCPSegment
  acks : Nat

/-- An open connection, its peer's segments in the order they were sent, and those that arrived. -/
structure Dialogue where
  side : Endpoint
  /-- Where `snd_una` started. -/
  base : SeqNo
  /-- How far `snd_una` has moved. -/
  acked : Nat := 0
  said : List Advert
  /-- The places in `said` of the segments that arrived. -/
  heard : List Nat := [0]
  /-- The place of the last one whose ACK was processed. -/
  newest : Nat := 0

/-- The peer sends a segment, one of its segments arrives, or the connection does something itself. -/
inductive DialogueCall where
  | say (a : Advert)
  | hear (i : Nat) (srcIp : Option Bytes) (draw : SeqNo) (now : Time)
  | own (e : Event)

namespace Dialogue

variable {n n₀ : Dialogue}

/-- The connection takes a call. -/
def advance (n : Dialogue) (e : Event) : Dialogue :=
  { n with
    side := n.side.step e
    acked := n.acked + Serial.gap n.side.conn.sndUna (n.side.step e).conn.sndUna }

def call (n : Dialogue) : DialogueCall → Dialogue
  | .say a => { n with said := n.said ++ [a] }
  | .hear i srcIp draw now =>
    match n.said[i]? with
    | none => n
    | some a =>
      { n.advance (.segment a.seg srcIp draw now) with
        heard := n.heard ++ [i]
        newest := if n.side.conn.takesAck a.seg = true then max n.newest i else n.newest }
  | .own e => n.advance e

/-- The connection that `seg` opened: its ACK and its window are the ones in force. -/
def opened (p : Endpoint) (seg : TCPSegment) : Dialogue where
  side := p
  base := seg.ack
  said := [⟨seg, 0⟩]

/-- Nothing but the opening segment was heard. -/
def Opened (n : Dialogue) : Prop :=
  ∃ p seg, n = opened p seg ∧ p.conn.state.isSynchronised = true ∧ p.conn.sndUna = seg.ack ∧
    p.conn.peerWindow = seg.window <<< p.conn.sndWscale

end Dialogue

/-- All runs of an open connection with its peer's segments. -/
def dialogue : Machine Dialogue DialogueCall where
  init := Dialogue.Opened
  next := Dialogue.call

namespace Dialogue

variable {n n₀ : Dialogue}

/-- The peer's ACKs are cumulative: no segment acknowledges less than an earlier one. -/
def Honest (n : Dialogue) : DialogueCall → Prop
  | .say a => a.seg.ack = seqAdd n.base a.acks ∧ ∀ a' ∈ n.said, a'.acks ≤ a.acks
  | .hear .. => True
  | .own e => e.IsOwn

/-- The right edge that `a` advertised, counted as `acked` is. -/
def edge (n : Dialogue) (a : Advert) : Nat := a.acks + a.seg.window <<< n.side.conn.sndWscale

/-- The right edge of the send window. -/
def rightEdge (n : Dialogue) : Nat := n.acked + n.side.conn.peerWindow

/-- The right edge is at most the largest one advertised by a segment received so far. -/
def Advertised (n : Dialogue) : Prop :=
  ∃ i ∈ n.heard, ∃ a, n.said[i]? = some a ∧ n.rightEdge ≤ n.edge a

/-- After the call the right edge is an advertised one at most, and a segment sent before one already
processed has not changed the window. -/
def WindowHolds (n : Dialogue) (e : DialogueCall) : Prop :=
  (n.call e).Advertised ∧ ∀ i srcIp draw now, e = .hear i srcIp draw now → i < n.newest →
    (n.call e).side.conn.peerWindow = n.side.conn.peerWindow

/-- A segment that is processed was not sent before one already processed, unless it changes nothing:
its window is the one in force and its ACK is not taken for a new one. -/
def InTurn (n : Dialogue) : DialogueCall → Prop
  | .hear i _ _ _ => ∀ a, n.said[i]? = some a → n.side.conn.takesAck a.seg = true → n.newest ≤ i ∨
      a.seg.window <<< n.side.conn.sndWscale = n.side.conn.peerWindow ∧
        seqGt a.seg.ack n.side.conn.sndUna = false
  | _ => True

/-- What `acked` counts, and that nothing is acknowledged beyond the newest processed segment. -/
structure Tracked (n : Dialogue) : Prop where
  isOpen : n.side.conn.state.isSynchronised = true ∨ n.side.conn.state = .closed
  una : n.side.conn.sndUna = seqAdd n.base n.acked
  numbered : ∀ a ∈ n.said, a.seg.ack = seqAdd n.base a.acks
  cumulative : n.said.Pairwise (·.acks ≤ ·.acks)
  newest : ∃ a, n.said[n.newest]? = some a ∧ n.acked ≤ a.acks
  advertised : n.Advertised

theorem Tracked.of_opened (h : n.Opened) : n.Tracked := by
  obtain ⟨p, seg, rfl, hsync, huna, hwindow⟩ := h
  refine ⟨.inl hsync, huna.trans (Serial.shift_zero _).symm, ?_, List.pairwise_singleton _ _,
    ⟨⟨seg, 0⟩, rfl, Nat.le_refl 0⟩, 0, List.mem_singleton_self 0, ⟨seg, 0⟩, rfl, ?_⟩
  · intro a ha
    obtain rfl := List.mem_singleton.mp ha
    exact (Serial.shift_zero _).symm
  · simp only [rightEdge, edge, opened, hwindow, Nat.zero_add, Nat.le_refl]

theorem Advertised.mono {m : Dialogue} (h : n.Advertised) (hheard : ∀ i ∈ n.heard, i ∈ m.heard)
    (hsaid : ∀ (i : Nat) (a : Advert), n.said[i]? = some a → m.said[i]? = some a)
    (hscale : m.side.conn.sndWscale = n.side.conn.sndWscale)
    (hedge : m.rightEdge ≤ n.rightEdge) : m.Advertised := by
  obtain ⟨i, hi, a, ha, hle⟩ := h
  refine ⟨i, hheard i hi, a, hsaid i a ha, ?_⟩
  rw [edge, hscale]
  exact hedge.trans hle

theorem advance_una (h : n.Tracked) (e : Event) :
    (n.advance e).side.conn.sndUna = seqAdd n.base (n.advance e).acked :=
  calc (n.side.step e).conn.sndUna
    _ = Serial.shift n.side.conn.sndUna
          (Serial.gap n.side.conn.sndUna (n.side.step e).conn.sndUna) := (Serial.shift_gap _ _).symm
    _ = Serial.shift (Serial.shift n.base n.acked)
          (Serial.gap n.side.conn.sndUna (n.side.step e).conn.sndUna) := by
      nth_rewrite 1 [h.una]
      rfl
    _ = Serial.shift n.base (n.advance e).acked := Serial.shift_shift _ _ _

theorem Tracked.advance (h : n.Tracked) {e : Event} (hlisten : e ≠ .listen)
    (hconnect : ∀ draw now, e ≠ .connect draw now)
    (hsame : SameWindow n.side.conn (n.side.step e).conn) : (n.advance e).Tracked := by
  have hzero : (n.advance e).acked = n.acked := by
    have huna : (n.side.step e).conn.sndUna = n.side.conn.sndUna := hsame.una
    rw [show (n.advance e).acked = n.acked + Serial.gap n.side.conn.sndUna (n.side.step e).conn.sndUna
      from rfl, huna, Serial.gap_self, Nat.add_zero]
  refine ⟨?_, advance_una h e, h.numbered, h.cumulative, by rw [hzero]; exact h.newest, ?_⟩
  · apply step_stays_open hlisten hconnect h.isOpen
  · refine Advertised.mono (m := n.advance e) h.advertised (fun _ hi => hi) (fun _ _ ha => ha)
      hsame.sndWscale (Nat.le_of_eq ?_)
    rw [rightEdge, rightEdge, hzero]
    exact congrArg _ hsame.peerWindow

theorem Tracked.append_heard (h : n.Tracked) (i : Nat) :
    Tracked { n with heard := n.heard ++ [i] } where
  isOpen := h.isOpen
  una := h.una
  numbered := h.numbered
  cumulative := h.cumulative
  newest := h.newest
  advertised := h.advertised.mono (fun _ => List.mem_append_left _) (fun _ _ ha => ha) rfl (Nat.le_refl _)

/-- A processed segment that is not older than the newest one puts the right edge where it says. -/
theorem acked_le_of_newer (h : n.Tracked) {i : Nat} {a : Advert} (ha : n.said[i]? = some a)
    (hi : n.newest ≤ i) {una : SeqNo}
    (huna : una = if seqGt a.seg.ack n.side.conn.sndUna then a.seg.ack else n.side.conn.sndUna) :
    n.acked + Serial.gap n.side.conn.sndUna una ≤ a.acks := by
  obtain ⟨a', ha', hle⟩ := h.newest
  have hmono : a'.acks ≤ a.acks := by
    rcases hi.eq_or_lt with heq | hlt
    · rw [← heq, ha'] at ha
      obtain rfl := Option.some.inj ha
      apply Nat.le_refl
    · obtain ⟨hlen', rfl⟩ := List.getElem?_eq_some_iff.mp ha'
      obtain ⟨hlen, rfl⟩ := List.getElem?_eq_some_iff.mp ha
      apply List.pairwise_iff_getElem.mp h.cumulative _ _ _ _ hlt
  rw [huna]
  split_ifs
  · have hgap : Serial.gap n.side.conn.sndUna a.seg.ack ≤ a.acks - n.acked := by
      have hack : a.seg.ack = Serial.shift n.side.conn.sndUna (a.acks - n.acked) := by
        rw [h.una, h.numbered a (List.mem_of_getElem? ha), seqAdd, seqAdd, Serial.shift_shift]
        congr 1
        omega
      rw [hack, Serial.gap_shift_mod]
      apply Nat.mod_le
    omega
  · rw [Serial.gap_self]
    omega

/-- A segment that is not older than the newest one is processed: it is the newest now. -/
theorem Tracked.process (h : n.Tracked) {i : Nat} {a : Advert} (ha : n.said[i]? = some a)
    (hi : n.newest ≤ i) (srcIp : Option Bytes) (draw : SeqNo) (now : Time)
    (htakes : n.side.conn.takesAck a.seg = true) :
    Tracked { n.advance (.segment a.seg srcIp draw now) with heard := n.heard ++ [i], newest := i } := by
  obtain ⟨hwindow, hscale, huna⟩ :=
    (window_onSegment n.side.conn a.seg srcIp draw now h.isOpen).2 htakes
  have hle := acked_le_of_newer h ha hi huna
  refine ⟨?_, advance_una h _, h.numbered, h.cumulative, ⟨a, ha, hle⟩, ?_⟩
  · apply step_stays_open (fun h => by cases h) (fun _ _ h => by cases h) h.isOpen
  · refine ⟨i, List.mem_append_right _ (List.mem_singleton_self i), a, ha, ?_⟩
    have hwindow' : (n.advance (.segment a.seg srcIp draw now)).side.conn.peerWindow =
        a.seg.window <<< n.side.conn.sndWscale := hwindow
    have hscale' : (n.advance (.segment a.seg srcIp draw now)).side.conn.sndWscale =
        n.side.conn.sndWscale := hscale
    simp only [rightEdge, edge, hwindow', hscale']
    apply Nat.add_le_add_right hle

theorem Tracked.ignore (h : n.Tracked) {a : Advert} (i : Nat) (srcIp : Option Bytes) (draw : SeqNo)
    (now : Time) (hsame : SameWindow n.side.conn (n.side.conn.onSegment a.seg srcIp draw now).1) :
    Tracked { n.advance (.segment a.seg srcIp draw now) with heard := n.heard ++ [i] } :=
  (h.advance (e := .segment a.seg srcIp draw now) (fun h => by cases h) (fun _ _ h => by cases h)
    hsame).append_heard i

/-- One step: in turn, what the connection knows of its peer's window stays true, and the window holds. -/
theorem tracked_call (h : n.Tracked) {e : DialogueCall} (he : n.Honest e) (hturn : n.InTurn e) :
    (n.call e).Tracked ∧ n.WindowHolds e := by
  cases e with
  | say a =>
    obtain ⟨hack, hcumulative⟩ := he
    have hkeep : ∀ (i : Nat) (a' : Advert), n.said[i]? = some a' → (n.said ++ [a])[i]? = some a' := by
      intro i a' ha'
      obtain ⟨hlen, -⟩ := List.getElem?_eq_some_iff.mp ha'
      rw [List.getElem?_append_left hlen, ha']
    have hadvertised : (n.call (.say a)).Advertised :=
      h.advertised.mono (fun _ hi => hi) hkeep rfl (Nat.le_refl _)
    refine ⟨⟨h.isOpen, h.una, ?_, ?_, ?_, hadvertised⟩, hadvertised, fun _ _ _ _ h => by cases h⟩
    · intro a' ha'
      rcases List.mem_append.mp ha' with ha' | ha'
      · exact h.numbered a' ha'
      · obtain rfl := List.mem_singleton.mp ha'
        exact hack
    · apply List.pairwise_append.mpr ⟨h.cumulative, List.pairwise_singleton _ _, ?_⟩
      intro a' ha' x hx
      obtain rfl := List.mem_singleton.mp hx
      exact hcumulative a' ha'
    · obtain ⟨a', ha', hle⟩ := h.newest
      exact ⟨a', hkeep _ _ ha', hle⟩
  | own e =>
    obtain ⟨hlisten, hconnect⟩ := he.ne
    have htracked := h.advance hlisten hconnect (sameWindow_step n.side he)
    exact ⟨htracked, htracked.advertised, fun _ _ _ _ h => by cases h⟩
  | hear i srcIp draw now =>
    simp only [WindowHolds, call]
    cases ha : n.said[i]? with
    | none => exact ⟨h, h.advertised, fun _ _ _ _ _ _ => rfl⟩
    | some a =>
      dsimp only
      obtain ⟨hignored, htaken⟩ := window_onSegment n.side.conn a.seg srcIp draw now h.isOpen
      by_cases htakes : n.side.conn.takesAck a.seg = true
      · rw [if_pos htakes]
        by_cases hi : n.newest ≤ i
        · have htracked := h.process ha hi srcIp draw now htakes
          rw [max_eq_right hi]
          refine ⟨htracked, htracked.advertised, ?_⟩
          intro i' _ _ _ heq hold
          cases heq
          omega
        · obtain ⟨hsame, hnew⟩ := (hturn a ha htakes).resolve_left hi
          obtain ⟨hwindow, hscale, huna⟩ := htaken htakes
          rw [hsame] at hwindow
          rw [if_neg (by simpa [sndUna] using hnew)] at huna
          have htracked := h.ignore i srcIp draw now ⟨huna, hwindow, hscale⟩
          rw [max_eq_left (by omega)]
          exact ⟨htracked, htracked.advertised, fun _ _ _ _ _ _ => hwindow⟩
      · rw [if_neg htakes]
        have hsame := hignored (by simpa using htakes)
        have htracked := h.ignore i srcIp draw now hsame
        exact ⟨htracked, htracked.advertised, fun _ _ _ _ _ _ => hsame.peerWindow⟩

/-- An older segment that is processed must carry the window in force. -/
def NoOldWindow (n : Dialogue) : DialogueCall → Prop
  | .hear i _ _ _ => ∀ a, n.said[i]? = some a → n.side.conn.takesAck a.seg = true → i < n.newest →
      a.seg.window <<< n.side.conn.sndWscale = n.side.conn.peerWindow
  | _ => True

theorem noOldWindow_of_holds {e : DialogueCall}
    (hopen : n.side.conn.state.isSynchronised = true ∨ n.side.conn.state = .closed)
    (h : n.WindowHolds e) : n.NoOldWindow e := by
  cases e with
  | hear i srcIp draw now =>
    intro a ha htakes hold
    have hkept := h.2 i srcIp draw now rfl hold
    simp only [call, ha] at hkept
    have htaken := (window_onSegment n.side.conn a.seg srcIp draw now hopen).2 htakes
    exact htaken.1.symm.trans hkept
  | _ => trivial

theorem isOpen_call {e : DialogueCall}
    (hopen : n.side.conn.state.isSynchronised = true ∨ n.side.conn.state = .closed)
    (he : n.Honest e) :
    (n.call e).side.conn.state.isSynchronised = true ∨ (n.call e).side.conn.state = .closed := by
  cases e with
  | say a => exact hopen
  | own e =>
    obtain ⟨hlisten, hconnect⟩ := he.ne
    apply step_stays_open hlisten hconnect hopen
  | hear i srcIp draw now =>
    simp only [call]
    split
    · exact hopen
    · apply step_stays_open (fun h => by cases h) (fun _ _ h => by cases h) hopen

/-- In every run of a connection with an honest peer in which no segment is processed after one that was
sent later, except without effect, each call leaves the right edge within what the peer advertised, and
no old segment replaces the window. A processed old segment with another window ends that. -/
theorem right_edge (h : n₀.Opened) {es : List DialogueCall} (hes : dialogue.Meets Honest n₀ es) :
    (dialogue.Meets InTurn n₀ es → dialogue.Meets WindowHolds n₀ es) ∧
      (dialogue.Meets WindowHolds n₀ es → dialogue.Meets NoOldWindow n₀ es) := by
  have htracked := Tracked.of_opened h
  constructor
  · intro hturn
    apply ((dialogue.meets_and n₀ es).mpr ⟨hes, hturn⟩).of_invariant dialogue _ htracked
    rintro n e hn ⟨he, hturn⟩
    exact (tracked_call hn he hturn).symm
  · intro hholds
    apply ((dialogue.meets_and n₀ es).mpr ⟨hes, hholds⟩).of_invariant dialogue
      (Q := fun n => n.side.conn.state.isSynchronised = true ∨ n.side.conn.state = .closed) _
      htracked.isOpen
    rintro n e hopen ⟨he, hholds⟩
    exact ⟨noOldWindow_of_holds hopen hholds, isOpen_call hopen he⟩

/-! ### From the handshake on -/

theorem opened_of_handshake {q : Endpoint} {seg : TCPSegment} (srcIp : Option Bytes) (draw : SeqNo)
    (now : Time) (hbasic : q.conn.Basic)
    (hstate : q.conn.state = .synSent ∨ q.conn.state = .synReceived)
    (htakes : q.conn.takesAck seg = true) (hack : seg.ack = seqAdd q.conn.iss 1) :
    (opened (q.step (.segment seg srcIp draw now)) seg).Opened := by
  obtain ⟨a, hsend, -, -, -, htrail⟩ := onSegment_of_takesAck srcIp draw now htakes
  have huna : (q.conn.onSegment seg srcIp draw now).1.sendQueue.una = seg.ack := by
    rw [htrail.una, processAck_una, hsend, (hbasic.handshake hstate).1, hack]
    rw [if_pos (seqGt_iff.mpr ?_)]
    rw [Serial.Lt, seqAdd, Serial.gap_shift (by decide)]
    omega
  have hsettled : (q.conn.onSegment seg srcIp draw now).1.state = .established ∧
      (q.conn.onSegment seg srcIp draw now).1.peerWindow =
        seg.window <<< (q.conn.onSegment seg srcIp draw now).1.sndWscale := by
    simp only [takesAck, Bool.and_eq_true, Bool.not_eq_true'] at htakes
    obtain ⟨⟨hisAck, hrst⟩, hrest⟩ := htakes
    unfold onSegment dispatch
    rcases hstate with hst | hst
    · have hst' : (q.conn.stamp now).state = .synSent := hst
      simp only [hst, Bool.and_eq_true] at hrest
      simp only [hst', hrst, hrest.1, hisAck, reduceCtorEq, Bool.false_eq_true, if_false, if_true]
      unfold handleSynAck
      rw [if_neg (by simpa [stamp] using hrest.2)]
      refine ⟨rfl, ?_⟩
      dsimp only [notify]
      rw [(sendFrame_sendAck _ now).peerWindow, (sendFrame_sendAck _ now).sndWscale,
        (processAck_peerWindow _ seg now).1, (processAck_peerWindow _ seg now).2]
    · have hst' : (q.conn.stamp now).state = .synReceived := hst
      simp only [hst, Bool.and_eq_true, Bool.not_eq_true'] at hrest
      simp only [hst', hrst, hrest.1, hisAck, reduceCtorEq, Bool.false_eq_true, if_false, if_true]
      unfold handleFinalAckOfHandshake
      rw [if_neg (by simpa [stamp] using hrest.2)]
      refine ⟨rfl, ?_⟩
      dsimp only [notify]
      rw [(processAck_peerWindow _ seg now).1, (processAck_peerWindow _ seg now).2]
  refine ⟨_, seg, rfl, ?_, huna, hsettled.2⟩
  simp only [Endpoint.step, Endpoint.put_conn, hsettled.1]
  rfl

/-- The SYN+ACK of a peer with a receive buffer of ten bytes, and one of its ACKs. -/
def smallSynAck : TCPSegment :=
  { srcPort := 2000, dstPort := 1000, seq := 700, ack := 101, flags := FLAG_SYN ||| FLAG_ACK,
    window := 10, options := { mss := some 1460, sackPermitted := true } }

def smallAck (ack : SeqNo) (window : Nat) : TCPSegment :=
  { srcPort := 2000, dstPort := 1000, seq := 701, ack := ack, flags := FLAG_ACK, window := window }

/-- A client whose peer has a receive buffer of ten bytes. -/
def smallDialogue : Dialogue :=
  opened (endpoint.run (.new (.plain 100)) [.connect 0 0, .segment smallSynAck none 0 0]) smallSynAck

theorem opened_smallDialogue : smallDialogue.Opened :=
  ⟨_, _, rfl, by decide, by decide, by decide⟩

/-- The client sends two bytes twice and the peer acknowledges each. The ACKs arrive in the order they were
sent, the second one twice. -/
def acksInTurn : List DialogueCall :=
  [.own (.send [1, 2] 0), .own (.send [3, 4] 0), .say ⟨smallAck 103 8, 2⟩, .say ⟨smallAck 105 6, 4⟩,
    .hear 1 none 0 0, .hear 2 none 0 0, .hear 2 none 0 0]

theorem honest_acksInTurn : dialogue.Meets Honest smallDialogue acksInTurn :=
  ⟨trivial, trivial, ⟨by decide, by decide⟩, ⟨by decide, by decide⟩, trivial, trivial, trivial, trivial⟩

theorem windowHolds_acksInTurn :
    smallDialogue.Opened ∧ dialogue.Meets Honest smallDialogue acksInTurn ∧
      dialogue.Meets WindowHolds smallDialogue acksInTurn :=
  ⟨opened_smallDialogue, honest_acksInTurn, (right_edge opened_smallDialogue honest_acksInTurn).1
    ⟨trivial, trivial, trivial, trivial, fun _ _ _ => .inl (by decide), fun _ _ _ => .inl (by decide),
      fun _ _ _ => .inl (by decide), trivial⟩⟩

/-- The same two ACKs the other way round. -/
def acksSwapped : List DialogueCall :=
  [.own (.send [1, 2] 0), .own (.send [3, 4] 0), .say ⟨smallAck 103 8, 2⟩, .say ⟨smallAck 105 6, 4⟩,
    .hear 2 none 0 0, .hear 1 none 0 0]

/-- A peer of ten bytes, which accepted the client's SYN and got everything the client sent. -/
def smallPeer : Endpoint :=
  let cfg : Config := { Config.plain 700 with
    localPort := 2000
    remotePort := 1000
    receiveCapacity := 10
    receiveCapacity_pos := by decide }
  let data (seq : SeqNo) (payload : Bytes) : Event :=
    .segment { Endpoint.openingAck with seq := seq, flags := FLAG_ACK ||| FLAG_PSH, payload := payload }
      none 0 0
  endpoint.run (.passive cfg Endpoint.openingSyn 0 0)
    [.segment Endpoint.openingAck none 0 0, data 101 [1, 2], data 103 [3, 4]]

/-- Both ACKs put the right edge at ten bytes from the start. After the older one it is at twelve, with four
bytes acknowledged and the window that went with two. -/
theorem acksSwapped_enlarges :
    smallDialogue.Opened ∧ dialogue.Meets Honest smallDialogue acksSwapped ∧
      smallPeer.conn.sent = [smallSynAck, smallAck 103 8, smallAck 105 6] ∧
      ¬ dialogue.Meets WindowHolds smallDialogue acksSwapped ∧
      (dialogue.run smallDialogue acksSwapped).rightEdge = 12 ∧
      ∀ a ∈ (dialogue.run smallDialogue acksSwapped).said,
        (dialogue.run smallDialogue acksSwapped).edge a = 10 := by
  refine ⟨opened_smallDialogue, ⟨trivial, trivial, ⟨by decide, by decide⟩, ⟨by decide, by decide⟩,
    trivial, trivial, trivial⟩, by decide, fun h => ?_, by decide, by decide⟩
  have hkept := h.2.2.2.2.2.1.2 1 none 0 0 rfl (by decide)
  exact absurd hkept (by decide)

end Dialogue

end MiniTcp
