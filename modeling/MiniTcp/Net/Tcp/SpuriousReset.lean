import MiniTcp.Net.Tcp.Emission
import MiniTcp.Net.Tcp.Network

/-!
# Resets between honest peers

An endpoint that is open answers with an RST exactly when a SYN comes in. As long as no SYN reaches an
endpoint that is already synchronised, only closed endpoints have sent resets (`Tidy`), so no reset can
tear down a connection while both sides are open.
-/

namespace MiniTcp

open TCPConnection

variable {r : Bool} {e : Event} {p q q' : Endpoint}

theorem Action.closed (ha : Action r e q q') (hlisten : e ≠ .listen)
    (hconnect : ∀ draw now, e ≠ .connect draw now) (h : q.conn.state = .closed) :
    q'.conn.state = .closed := by
  have hsync : q.conn.state.isSynchronised = false := by rw [h]; rfl
  cases ha with
  | quiet hq => exact hq.state.trans h
  | listen he => exact absurd he hlisten
  | connect he => exact absurd he (hconnect _ _)
  | simultaneousOpen _ hstate | adopt _ hstate => rw [h] at hstate; cases hstate
  | retire _ _ _ _ hstate => rw [hsync] at hstate; cases hstate
  | establish _ _ _ _ hstate =>
    rw [h] at hstate
    rcases hstate with ⟨hst, -⟩ | ⟨hst, -⟩ <;> cases hst
  | push _ _ _ hstate => rw [hsync] at hstate; cases hstate
  | resend now => rw [resend_eq]; exact h
  | fin _ hstate =>
    rw [h] at hstate
    rcases hstate with ⟨hst, -⟩ | ⟨hst, -⟩ <;> cases hst
  | @consumeFin _ _ _ now =>
    rcases finTaken_state q.conn now with hst | ⟨hst, -⟩
    · exact hst.trans h
    · rw [hsync] at hst
      cases hst
  | advance _ _ _ _ _ hstate =>
    rw [h] at hstate
    rcases hstate with hst | hst | hst <;> cases hst
  | abort => rw [abort_eq]; rfl
  | reset | expire | drop => rfl
  | _ => exact h

theorem Action.resetReceived (ha : Action r e q q')
    (hseg : ∀ seg, e.inbound = some seg → seg.isRst = false) :
    q'.conn.resetReceived = q.conn.resetReceived := by
  cases ha with
  | quiet hq => exact hq.resetReceived
  | connect _ hconn =>
    obtain ⟨-, rfl⟩ := connect_eq hconn
    rfl
  | simultaneousOpen => rw [handleSimultaneousOpen_eq]; rfl
  | establish t => unfold settled; split_ifs <;> rfl
  | push payload n now _ _ hne => rw [transmitData_eq _ now hne]; rfl
  | resend now => rw [resend_eq]; rfl
  | fin => rw [sendFin_eq]; rfl
  | consumeFin =>
    simp only [Endpoint.put_conn, finTaken]
    split
    · rfl
    · split_ifs <;> rfl
    · rfl
    · rfl
    · rfl
  | advance => unfold finAcknowledged; split <;> rfl
  | reset he hrst =>
    have hno := hseg _ (by rw [he]; rfl)
    rw [hrst] at hno
    cases hno
  | abort => rw [abort_eq]; split_ifs <;> rfl
  | _ => rfl

namespace Endpoint

/-- Whoever has sent a reset is closed, and no reset waits to be sent again. -/
structure Tidy (p : Endpoint) : Prop where
  resets : ∀ x ∈ p.conn.sent, x.isRst = true → x.isSyn = false ∧ p.conn.state = .closed
  retx : ∀ y ∈ p.conn.retxQueue.segments, (y.flags &&& FLAG_RST != 0) = false

theorem Tidy.action (h : Tidy q) (ha : Action r e q q') (hlisten : e ≠ .listen)
    (hconnect : ∀ draw now, e ≠ .connect draw now) (hr : r = true → q.conn.state = .closed) :
    Tidy q' where
  resets := by
    refine ha.forall_sent (P := fun x => x.isRst = true → x.isSyn = false ∧ q'.conn.state = .closed)
      (fun x hx hrst => ?_) (fun x hx hrst => ?_)
    · obtain ⟨hsyn, hclosed⟩ := h.resets x hx hrst
      exact ⟨hsyn, ha.closed hlisten hconnect hclosed⟩
    · obtain ⟨hsyn, hr' | ⟨-, hclosed⟩⟩ := hx.isRst h.retx hrst
      · exact ⟨hsyn, ha.closed hlisten hconnect (hr hr')⟩
      · exact ⟨hsyn, hclosed⟩
  retx := by
    intro y hy
    rcases ha.retx hy with ⟨x, hx, -, hflags, -⟩ | ⟨x, -, hrst, -, hflags, -⟩
    · rw [hflags]
      exact h.retx x hx
    · rw [hflags]
      exact hrst

/-- A call that answers with an RST only when the connection is closed keeps an endpoint tidy. -/
theorem Tidy.step (h : Tidy p) (hlisten : e ≠ .listen) (hconnect : ∀ draw now, e ≠ .connect draw now)
    (hseg : ∀ seg, e.inbound = some seg → p.conn.Rejects seg → p.conn.state = .closed) :
    Tidy (p.step e) := by
  by_cases hclosed : p.conn.state = .closed
  · have hkept : Tidy (p.step e) ∧ (p.step e).conn.state = .closed :=
      keeps_step (I := fun q => Tidy q ∧ q.conn.state = .closed)
        (fun q q' hq ha => ⟨hq.1.action ha hlisten hconnect fun _ => hq.2,
          ha.closed hlisten hconnect hq.2⟩) ⟨h, hclosed⟩
    exact hkept.1
  · refine keeps_actions (I := Tidy) (fun q q' hq ha => ?_)
      (actions_step_of (r := false) fun seg hs hrej => absurd (hseg seg hs hrej) hclosed) h
    exact hq.action ha hlisten hconnect fun hr => by cases hr

theorem Tidy.unanswered (h : Tidy p) {seg : TCPSegment} (hseg : e.inbound = some seg)
    (hno : ¬ p.conn.Rejects seg) :
    ∃ segs, (p.step e).conn.sent = p.conn.sent ++ segs ∧ ∀ x ∈ segs, x.isRst = false := by
  have hlisten : e ≠ .listen := by rintro rfl; cases hseg
  have hconnect : ∀ draw now, e ≠ .connect draw now := by rintro draw now rfl; cases hseg
  have hkept : Tidy (p.step e) ∧
      ∃ segs, (p.step e).conn.sent = p.conn.sent ++ segs ∧ ∀ x ∈ segs, x.isRst = false := by
    refine keeps_actions (I := fun q => Tidy q ∧
      ∃ segs, q.conn.sent = p.conn.sent ++ segs ∧ ∀ x ∈ segs, x.isRst = false) ?_
      (actions_step_of (r := false) fun seg' hs hrej => ?_) ⟨h, [], by simp⟩
    · rintro q q' ⟨htidy, segs, hsent, hall⟩ ha
      refine ⟨htidy.action ha hlisten hconnect (fun hr => by cases hr), ?_⟩
      rcases ha.sent with hsame | ⟨x, hx, hemit⟩
      · exact ⟨segs, hsame.trans hsent, hall⟩
      · refine ⟨segs ++ [x], by rw [hx, hsent, List.append_assoc], fun y hy => ?_⟩
        rcases List.mem_append.mp hy with hold | hnew
        · exact hall y hold
        · obtain rfl := List.mem_singleton.mp hnew
          rw [← Bool.not_eq_true]
          intro hrst
          obtain ⟨-, hr | ⟨hnone, -⟩⟩ := hemit.isRst htidy.retx hrst
          · cases hr
          · rw [hseg] at hnone
            cases hnone
    · rw [hseg] at hs
      exact absurd (Option.some.inj hs ▸ hrej) hno
  exact hkept.2

theorem tidy_connect (cfg : Config) (draw : SeqNo) (now : Time) :
    Tidy ((Endpoint.new cfg).step (.connect draw now)) := by
  rw [step_connect]
  obtain ⟨hsent, hretx⟩ := TCPConnection.tracking_new (c := (TCPConnection.new cfg).opening draw)
    ((TCPConnection.new cfg).opening draw).synSegment now rfl rfl
  have hno : (FLAG_SYN &&& FLAG_RST != 0) = false := by decide
  constructor
  · intro x hx hrst
    rw [hsent x hx] at hrst
    exact absurd (hno.symm.trans hrst) Bool.false_ne_true
  · intro y hy
    rw [(hretx y hy).2.1]
    exact hno

theorem tidy_passive (cfg : Config) (seg : TCPSegment) (draw : SeqNo) (now : Time) :
    Tidy (Endpoint.passive cfg seg draw now) := by
  rw [Endpoint.passive, TCPConnection.beginPassiveOpen_eq]
  obtain ⟨hsent, hretx⟩ := TCPConnection.tracking_new (c := (TCPConnection.new cfg).answering seg draw)
    (((TCPConnection.new cfg).answering seg draw).synAckSegment seg) now rfl rfl
  have hno : ((FLAG_SYN ||| FLAG_ACK) &&& FLAG_RST != 0) = false := by decide
  constructor
  · intro x hx hrst
    rw [hsent x hx] at hrst
    exact absurd (hno.symm.trans hrst) Bool.false_ne_true
  · intro y hy
    rw [(hretx y hy).2.1]
    exact hno

theorem step_accepted_of (h : ¬ (p.conn.state = .established ∨ p.conn.state = .closeWait))
    (hconnect : ∀ draw now, e ≠ .connect draw now) : (p.step e).accepted = p.accepted := by
  cases e with
  | send data now =>
    simp only [Endpoint.step]
    cases hsend : p.conn.send data now with
    | ok res => exact absurd (send_ok _ hsend).1 h
    | error err => rfl
  | connect draw now => exact absurd rfl (hconnect draw now)
  | listen =>
    simp only [Endpoint.step]
    split <;> rfl
  | _ => rfl

end Endpoint

namespace TCPConnection

variable (c : TCPConnection) {seg : TCPSegment}

theorem isRst_rejection (seg : TCPSegment) : (c.rejection seg).isRst = true := by
  unfold rejection
  split_ifs
  · exact show (FLAG_RST &&& FLAG_RST != 0) = true by decide
  · exact show ((FLAG_RST ||| FLAG_ACK) &&& FLAG_RST != 0) = true by decide

theorem onSegment_of_late_syn (srcIp : Option Bytes) (draw : SeqNo) (now : Time)
    (hsync : c.state.isSynchronised = true) (hsyn : seg.isSyn = true) (hrst : seg.isRst = false) :
    (c.onSegment seg srcIp draw now).1.sent = c.sent ++ [c.rejection seg] := by
  obtain ⟨h1, h2, h3, h4⟩ := TcpState.ne_of_isSynchronised hsync
  unfold onSegment dispatch
  rw [if_neg (show (c.stamp now).state ≠ .closed from h1), if_neg (by simp [hrst]),
    if_neg (show (c.stamp now).state ≠ .listen from h2), if_pos hsyn,
    if_neg (show (c.stamp now).state ≠ .synSent from h3),
    if_neg (show (c.stamp now).state ≠ .synReceived from h4)]
  unfold reject rejection
  rw [if_neg (by simp [hrst])]
  split_ifs
  · rw [transmit_untracked _ _ _ _ _ (Leads.untracked_flags (.inr (.inl rfl)))]
    rfl
  · rw [transmit_untracked _ _ _ _ _ (Leads.untracked_flags (.inr (.inr rfl)))]
    rfl

end TCPConnection

/-! ### While the client waits for its SYN to be answered -/

/-- Not yet established, or already gone. -/
def TCPConnection.HalfOpen (c : TCPConnection) : Prop := c.state = .synReceived ∨ c.state = .closed

theorem Action.halfOpen (ha : Action r e q q') (hlisten : e ≠ .listen)
    (hconnect : ∀ draw now, e ≠ .connect draw now)
    (hseg : ∀ seg, e.inbound = some seg → seg.isAck = true → seg.isRst = false → seg.isSyn = true)
    (h : q.conn.HalfOpen) : q'.conn.HalfOpen := by
  have hsync : q.conn.state.isSynchronised = false := by rcases h with h | h <;> rw [h] <;> rfl
  cases ha with
  | quiet hq => unfold HalfOpen; rw [Endpoint.put_conn, hq.state]; exact h
  | listen he => exact absurd he hlisten
  | connect he => exact absurd he (hconnect _ _)
  | simultaneousOpen _ hstate | adopt _ hstate =>
    rcases h with h | h <;> rw [h] at hstate <;> cases hstate
  | retire _ _ _ _ hstate => rw [hsync] at hstate; cases hstate
  | establish _ he hack hrst hstate =>
    have hsyn := hseg _ (by rw [he]; rfl) hack hrst
    rcases hstate with ⟨hst, -⟩ | ⟨-, hno⟩
    · rcases h with h | h <;> rw [h] at hst <;> cases hst
    · rw [hsyn] at hno
      cases hno
  | push _ _ _ hstate => rw [hsync] at hstate; cases hstate
  | resend now => rw [resend_eq]; exact h
  | fin _ hstate =>
    rcases hstate with ⟨hst, -⟩ | ⟨hst, -⟩ <;> rw [hst] at hsync <;> cases hsync
  | @consumeFin _ _ _ now =>
    rcases finTaken_state q.conn now with hst | ⟨hst, -⟩
    · unfold HalfOpen; rw [Endpoint.put_conn, hst]; exact h
    · rw [hsync] at hst
      cases hst
  | advance _ _ _ _ _ hstate =>
    rcases hstate with hst | hst | hst <;> rw [hst] at hsync <;> cases hsync
  | abort => rw [abort_eq]; exact .inr rfl
  | reset | expire | drop => exact .inr rfl
  | _ => exact h

theorem close_action (h : p.conn.HalfOpen) (now : Time) :
    Action true (.close now) p (p.step (.close now)) := by
  rcases h with h | h
  · have hstep : p.step (.close now) = p.put (p.conn.abort now) := by
      simp only [Endpoint.step, TCPConnection.close, h]
    rw [hstep]
    exact .abort (.inr ⟨rfl, .inr h⟩)
  · have hstep : p.step (.close now) = p.put ({ p.conn with state := .closed }.notify .closed) := by
      simp only [Endpoint.step, TCPConnection.close, h]
    rw [hstep]
    exact .drop rfl (.inl h)

namespace Network

open Endpoint

variable {n : Network} {a : Side × Event} {c : Endpoint}

/-- A step in which no application calls `abort()` and the network forges nothing. -/
structure Polite (n : Network) (a : Side × Event) : Prop where
  event : a.2.IsStreaming ∨ ∃ now, a.2 = .close now
  genuine : n.Genuine a

theorem Polite.ne_listen (h : n.Polite a) : a.2 ≠ .listen := by
  intro heq
  rcases h.event with hs | ⟨now, hnow⟩
  · exact hs.ne_listen heq
  · rw [heq] at hnow
    cases hnow

theorem Polite.ne_connect (h : n.Polite a) (draw : SeqNo) (now : Time) : a.2 ≠ .connect draw now := by
  intro heq
  rcases h.event with hs | ⟨now, hnow⟩
  · exact hs.ne_connect _ _ heq
  · rw [heq] at hnow
    cases hnow

/-- Both sides are in SYN_RECEIVED or synchronised. -/
def BothOpen (n : Network) : Prop := n.client.conn.Opened ∧ ∃ c, n.child = some c ∧ c.conn.Opened

/-- A delivery to a synchronised endpoint is not answered with an RST, and no delivery tears an endpoint
down with a reset while both are open. -/
def NoSpuriousReset (n : Network) (a : Side × Event) : Prop :=
  ∀ p seg, n.side a.1 = some p → a.2.inbound = some seg →
    (p.conn.state.isSynchronised = true → ∃ segs, (p.step a.2).conn.sent = p.conn.sent ++ segs ∧
      ∀ x ∈ segs, x.isRst = false) ∧
    (n.BothOpen → (p.step a.2).conn.resetReceived = p.conn.resetReceived)

/-- No SYN is delivered to a synchronised endpoint. -/
def NoLateSyn (n : Network) (a : Side × Event) : Prop :=
  ∀ p seg, n.side a.1 = some p → a.2.inbound = some seg →
    p.conn.state.isSynchronised = true → seg.isSyn = false

/-- Both sides are tidy, and until the client's SYN is answered nothing but the handshake has gone
either way. -/
structure Orderly (n : Network) : Prop where
  client : n.client.conn.Basic ∧ Tidy n.client
  child : ∀ c, n.child = some c → c.conn.Basic ∧ Tidy c ∧ c.conn.state ≠ .synSent
  opening : n.client.conn.state = .synSent → n.InStep ∧ ∀ c, n.child = some c → c.conn.HalfOpen

theorem Orderly.of_started (h : n.Started) : n.Orderly := by
  have hstep := InStep.of_started h
  obtain ⟨cfg, draw, now, listener, -, rfl⟩ := h
  exact
    { client := ⟨hstep.client.1, tidy_connect cfg draw now⟩
      child := fun c hc => by cases hc
      opening := fun _ => ⟨hstep, fun c hc => by cases hc⟩ }

theorem InStep.isAck_of_opening (h : n.InStep) (hst : n.client.conn.state = .synSent) :
    ∀ x ∈ n.client.conn.sent, x.isAck = false := by
  cases hchild : n.child with
  | none => exact (((h.alone hchild).2 0).waiting hst).2.2.2.1
  | some c =>
    obtain ⟨-, -, m, r, -, hin⟩ := h.both c hchild
    exact (hin.waiting hst).2.2.2.1

theorem InStep.ack_of_opening (h : n.InStep) (hst : n.client.conn.state = .synSent)
    (hc : n.child = some c) {x : TCPSegment} (hx : x ∈ c.conn.sent) (hack : x.isAck = true)
    (hrst : x.isRst = false) : x.ack = seqAdd n.client.conn.iss 1 := by
  obtain ⟨-, ⟨m, r, hout, hin⟩, -⟩ := h.both c hc
  obtain ⟨j, hj, heq⟩ := hin.acks x hx hack hrst
  have hnone : n.client.accepted = [] := hout.opening (.inl hst)
  have hr : r = 0 := by simpa [hnone] using hin.le
  obtain rfl : j = 0 := by omega
  exact heq

theorem InStep.close_child (h : n.InStep) (hc : n.child = some c) (hhalf : c.conn.HalfOpen)
    (now : Time) : (n.step (.server, .close now)).InStep := by
  obtain ⟨⟨hbasic, hlen⟩, ⟨m, r, hout, hin⟩, ⟨m', r', hout', hin'⟩⟩ := h.both c hc
  have ha := close_action hhalf now
  have hcalm : ¬ (c.conn.state = .established ∨ c.conn.state = .closeWait) := by
    rcases hhalf with hst | hst <;> simp [hst]
  have hsame := step_accepted_of (e := .close now) hcalm (fun _ _ => Event.noConfusion)
  rw [step_server_of_child hc]
  refine ⟨h.client, fun hnone => absurd hnone (Option.some_ne_none _), fun c' hc' => ?_⟩
  obtain rfl := Option.some.inj hc'
  refine ⟨⟨hbasic.action ha, hsame ▸ hlen⟩, ?_, ?_⟩
  · obtain ⟨r₁, -, h₁⟩ := hin.action hbasic ha Event.noConfusion (fun _ _ => Event.noConfusion)
      (fun _ _ => hcalm) (fun seg hseg => by cases hseg)
      ((List.length_take_le' _ _).trans_lt h.client.2)
    exact ⟨m, r₁, hout, h₁⟩
  · obtain ⟨m₁, hm₁, h₁⟩ := hout'.action hbasic ha Event.noConfusion (fun _ _ => Event.noConfusion)
      (fun _ _ => hcalm) (fun seg hseg => by cases hseg) hlen
    refine ⟨m₁, r', h₁, ?_⟩
    rw [ha.iss (fun _ _ => Event.noConfusion), hsame]
    exact hin'.of_isPrefix (List.take_prefix_take_left hm₁)

theorem exists_of_mem_sentBy {s : Side} {seg : TCPSegment} (hmem : seg ∈ n.sentBy s) :
    ∃ p, n.side s = some p ∧ seg ∈ p.conn.sent := by
  cases hp : n.side s with
  | none => simp [sentBy, hp] at hmem
  | some p => exact ⟨p, rfl, by simpa [sentBy, hp] using hmem⟩

/-- Only a closed endpoint answers an honest segment with an RST, as long as no SYN reaches a
synchronised one. -/
theorem Orderly.rejects (h : n.Orderly) (hgenuine : n.Genuine a) (hlate : n.NoLateSyn a) {p : Endpoint}
    {seg : TCPSegment} (hp : n.side a.1 = some p) (hseg : a.2.inbound = some seg)
    (hrej : p.conn.Rejects seg) : p.conn.state = .closed := by
  rcases hrej with hclosed | ⟨hsync, hsyn⟩ | ⟨hst, hsyn, hack, hge⟩
  · exact hclosed
  · rw [hlate p seg hp hseg hsync] at hsyn
    cases hsyn
  · obtain ⟨s, e⟩ := a
    cases s with
    | server => exact absurd hst (h.child p hp).2.2
    | client =>
      obtain rfl := Option.some.inj hp
      obtain ⟨c, hchild, hmem⟩ := exists_of_mem_sentBy (hgenuine seg hseg)
      cases hrst : seg.isRst with
      | true =>
        rw [((h.child c hchild).2.1.resets seg hmem hrst).1] at hsyn
        cases hsyn
      | false =>
        rw [(h.opening hst).1.ack_of_opening hst hchild hmem hack hrst] at hge
        simp [seqGe] at hge

theorem Orderly.client_step {e : Event} (h : n.Orderly) (ha : n.Polite (.client, e))
    (hlate : n.NoLateSyn (.client, e)) : (n.step (.client, e)).Orderly := by
  have hconnect : ∀ draw now, e ≠ .connect draw now := ha.ne_connect
  refine ⟨⟨h.client.1.step e, ?_⟩, h.child, fun hst => ?_⟩
  · exact h.client.2.step ha.ne_listen hconnect fun seg hseg hrej => h.rejects ha.genuine hlate rfl hseg hrej
  · have hst' : n.client.conn.state = .synSent := by
      by_contra hne
      exact keeps_step (I := fun q => q.conn.state ≠ .synSent)
        (fun _ _ hq hact => hact.ne_synSent hconnect hq) hne hst
    obtain ⟨hstep, hhalf⟩ := h.opening hst'
    refine ⟨hstep.step ⟨?_, ha.genuine, ?_⟩, hhalf⟩
    · rcases ha.event with hs | ⟨now, rfl⟩
      · exact hs
      · -- `close()` in SYN_SENT ends the connection
        simp only [Network.step, Endpoint.step, TCPConnection.close, hst'] at hst
        rw [put_conn, abort_eq] at hst
        cases hst
    · intro p hp
      obtain rfl := Option.some.inj hp
      simp only [Network.step]
      rw [step_accepted_of (by simp [hst']) hconnect]
      exact hstep.client.2

/-- While the client waits, the child is half open, and whatever it is called with it stays so. -/
theorem Orderly.opening_step {e : Event} (h : n.Orderly) (hchild : n.child = some c)
    (ha : n.Polite (.server, e)) (hst : n.client.conn.state = .synSent) :
    (n.step (.server, e)).InStep ∧ (c.step e).conn.HalfOpen := by
  have hconnect : ∀ draw now, e ≠ .connect draw now := ha.ne_connect
  obtain ⟨hin, hhalf⟩ := h.opening hst
  have hc := hhalf c hchild
  have hcalm : ¬ (c.conn.state = .established ∨ c.conn.state = .closeWait) := by
    rcases hc with hst | hst <;> simp [hst]
  constructor
  · rcases ha.event with hs | ⟨now, hnow⟩
    · refine hin.step ⟨hs, ha.genuine, fun p hp => ?_⟩
      rw [step_server_of_child hchild] at hp
      obtain rfl := Option.some.inj hp
      rw [step_accepted_of hcalm hconnect]
      exact (hin.both c hchild).1.2
    · obtain rfl : e = .close now := hnow
      exact hin.close_child hchild hc now
  · exact keeps_step (I := fun q => q.conn.HalfOpen)
      (fun _ _ hq hact => hact.halfOpen ha.ne_listen hconnect
        (fun seg hseg hack => absurd hack (by
          rw [hin.isAck_of_opening hst seg (ha.genuine seg hseg)]
          exact Bool.false_ne_true)) hq) hc

theorem Orderly.child_step {e : Event} (h : n.Orderly) (hchild : n.child = some c)
    (ha : n.Polite (.server, e)) (hlate : n.NoLateSyn (.server, e)) : (n.step (.server, e)).Orderly := by
  have hconnect : ∀ draw now, e ≠ .connect draw now := ha.ne_connect
  have hopening := fun hst => h.opening_step hchild ha hst
  obtain ⟨hbasic, htidy, hne⟩ := h.child c hchild
  rw [step_server_of_child hchild] at hopening ⊢
  refine ⟨h.client, fun c' hc' => ?_, fun hst => ⟨(hopening hst).1, fun c' hc' => ?_⟩⟩
  · obtain rfl := Option.some.inj hc'
    refine ⟨hbasic.step e, ?_, ?_⟩
    · exact htidy.step ha.ne_listen hconnect fun seg hseg hrej => h.rejects ha.genuine hlate hchild hseg hrej
    · exact keeps_step (I := fun q => q.conn.state ≠ .synSent)
        (fun _ _ hq hact => hact.ne_synSent hconnect hq) hne
  · obtain rfl := Option.some.inj hc'
    exact (hopening hst).2

theorem Orderly.accept_step (h : n.Orderly) (hchild : n.child = none) {seg : TCPSegment}
    {srcIp : Option Bytes} {draw : SeqNo} {now : Time}
    (ha : n.Polite (.server, .segment seg srcIp draw now)) :
    (n.step (.server, .segment seg srcIp draw now)).Orderly := by
  have hstep := step_server_segment hchild seg srcIp draw now
  have hnew : ∀ c', (n.step (.server, .segment seg srcIp draw now)).child = some c' →
      ∃ cfg, c' = passive cfg seg draw now := by
    intro c' hc'
    rw [hstep] at hc'
    obtain ⟨c, hc, rfl⟩ := Option.map_eq_some_iff.mp hc'
    obtain ⟨-, -, cfg, hpassive⟩ := onSegment_child hc
    exact ⟨cfg, hpassive⟩
  have hclient : (n.step (.server, .segment seg srcIp draw now)).client = n.client := by
    rw [hstep]
  refine ⟨by rw [hclient]; exact h.client, fun c' hc' => ?_, fun hst => ⟨?_, fun c' hc' => ?_⟩⟩
  · obtain ⟨cfg, rfl⟩ := hnew c' hc'
    exact ⟨basic_passive cfg seg draw now, tidy_passive cfg seg draw now,
      by rw [passive, beginPassiveOpen_eq]; simp⟩
  · rw [hclient] at hst
    refine (h.opening hst).1.step ⟨trivial, ha.genuine, fun p hp => ?_⟩
    obtain ⟨cfg, rfl⟩ := hnew p hp
    exact Nat.two_pow_pos 31
  · obtain ⟨cfg, rfl⟩ := hnew c' hc'
    rw [passive, beginPassiveOpen_eq]
    exact .inl rfl

theorem Orderly.step (h : n.Orderly) (ha : n.Polite a) (hlate : n.NoLateSyn a) :
    (n.step a).Orderly := by
  obtain ⟨s, e⟩ := a
  cases s with
  | client => exact h.client_step ha hlate
  | server =>
    cases hchild : n.child with
    | some c => exact h.child_step hchild ha hlate
    | none =>
      cases e with
      | segment => exact h.accept_step hchild ha
      | _ =>
        rw [step_server_of_inbound hchild rfl]
        exact h

theorem Orderly.tidy (h : n.Orderly) {s : Side} {p : Endpoint} (hp : n.side s = some p) : Tidy p := by
  cases s with
  | client =>
    obtain rfl := Option.some.inj hp
    exact h.client.2
  | server => exact (h.child p hp).2.1

theorem Orderly.isRst_of_bothOpen (h : n.Orderly) (hopen : n.BothOpen) {s : Side} {seg : TCPSegment}
    (hmem : seg ∈ n.sentBy s) : seg.isRst = false := by
  obtain ⟨p, hp, hsent⟩ := exists_of_mem_sentBy hmem
  have hopened : p.conn.Opened := by
    obtain ⟨hclient, c, hc, hchild⟩ := hopen
    cases s with
    | client => exact Option.some.inj hp ▸ hclient
    | server =>
      rw [show n.child = some p from hp] at hc
      exact Option.some.inj hc ▸ hchild
  rw [← Bool.not_eq_true]
  exact fun hrst => not_opened.mpr (.inl ((h.tidy hp).resets seg hsent hrst).2) hopened

theorem Orderly.noSpuriousReset_iff (h : n.Orderly) (ha : n.Polite a) :
    n.NoSpuriousReset a ↔ n.NoLateSyn a := by
  constructor
  · intro hquiet p seg hp hseg hsync
    rw [← Bool.not_eq_true]
    intro hsyn
    -- the SYN is answered with an RST
    obtain ⟨segs, hsent, hall⟩ := (hquiet p seg hp hseg).1 hsync
    obtain ⟨srcIp, draw, now, he⟩ : ∃ srcIp draw now, a.2 = .segment seg srcIp draw now := by
      cases he : a.2 with
      | segment x srcIp draw now =>
        rw [he] at hseg
        exact ⟨srcIp, draw, now, by rw [Option.some.inj hseg]⟩
      | _ => rw [he] at hseg; cases hseg
    have hrst : seg.isRst = false := by
      rw [← Bool.not_eq_true]
      intro hrst
      obtain ⟨q, hq, hmem⟩ := exists_of_mem_sentBy (ha.genuine seg hseg)
      rw [((h.tidy hq).resets seg hmem hrst).1] at hsyn
      cases hsyn
    have hanswer := p.conn.onSegment_of_late_syn srcIp draw now hsync hsyn hrst
    rw [he, Endpoint.step, put_conn, hanswer] at hsent
    obtain rfl := List.append_cancel_left hsent
    have hno := hall _ (List.mem_singleton.mpr rfl)
    rw [isRst_rejection] at hno
    cases hno
  · intro hlate p seg hp hseg
    refine ⟨fun hsync => ?_, fun hopen => ?_⟩
    · refine (h.tidy hp).unanswered hseg fun hrej => ?_
      have hclosed := h.rejects ha.genuine hlate hp hseg hrej
      rw [hclosed] at hsync
      cases hsync
    · refine keeps_step (I := fun q => q.conn.resetReceived = p.conn.resetReceived)
        (fun _ _ hq hact => (hact.resetReceived fun x hx => ?_).trans hq) rfl
      exact h.isRst_of_bothOpen hopen (ha.genuine x hx)

/-- In every run without `abort()`, no delivery to a synchronised endpoint is answered with an RST, and
none tears down a connection with both sides open, exactly when no SYN is ever delivered to a
synchronised endpoint. -/
theorem noSpuriousReset_iff_noLateSyn (hn : n.Started) {es : List (Side × Event)}
    (hes : network.Meets Polite n es) :
    network.Meets NoSpuriousReset n es ↔ network.Meets NoLateSyn n es :=
  network.meets_iff_meets (Q := Orderly) (fun _ _ h ha hlate => h.step ha hlate)
    (fun _ _ h ha => h.noSpuriousReset_iff ha) hes (.of_started hn)

theorem noSpuriousReset_wrapRun : network.Meets NoSpuriousReset atWrap wrapRun := by
  have hpolite : network.Meets Polite atWrap wrapRun :=
    ⟨⟨.inl trivial, by decide⟩, ⟨.inl trivial, by decide⟩, ⟨.inl trivial, by decide⟩,
      ⟨.inl trivial, by decide⟩, ⟨.inl trivial, by decide⟩, ⟨.inl trivial, by decide⟩, trivial⟩
  refine (noSpuriousReset_iff_noLateSyn ⟨_, 0, 0, _, rfl, rfl⟩ hpolite).mpr ?_
  refine ⟨?_, ?_, ?_, ?_, ?_, ?_, trivial⟩
  all_goals
    rintro p seg ⟨⟩ ⟨⟩
  all_goals decide

def wrapRst : TCPSegment :=
  { srcPort := 1000, dstPort := 2000, seq := 0xFFFFFFFF, ack := 701, flags := FLAG_RST, window := 65535 }

/-- The network duplicates the SYN+ACK. -/
def lateRun : List (Side × Event) :=
  [(.server, .segment wrapSyn none 0 0), (.client, .segment wrapSynAck none 0 0),
    (.client, .segment wrapSynAck none 0 0), (.server, .segment wrapRst none 0 0)]

/-- The second copy of the SYN+ACK makes the established client send an RST, which destroys the child. -/
theorem duplicate_synAck_resets : atWrap.Started ∧ network.Meets Polite atWrap lateRun ∧
    ¬ network.Meets NoSpuriousReset atWrap lateRun ∧
    (network.run atWrap lateRun).client.conn.state = .established ∧
    (network.run atWrap lateRun).child.map (fun c => (c.conn.state, c.conn.resetReceived)) =
      some (.closed, true) := by
  refine ⟨⟨_, 0, 0, _, rfl, rfl⟩, ⟨⟨.inl trivial, by decide⟩, ⟨.inl trivial, by decide⟩,
    ⟨.inl trivial, by decide⟩, ⟨.inl trivial, by decide⟩, trivial⟩, ?_, by decide, by decide⟩
  rintro ⟨-, -, hthird, -⟩
  obtain ⟨segs, hsent, hall⟩ := (hthird _ _ rfl rfl).1 (by decide)
  have hmem : wrapRst ∈ segs := by
    have hrun : (network.run atWrap (lateRun.take 3)).client.conn.sent =
        (network.run atWrap (lateRun.take 2)).client.conn.sent ++ [wrapRst] := by decide
    have hsame : segs = [wrapRst] := List.append_cancel_left (hsent.symm.trans hrun)
    rw [hsame]
    exact List.mem_singleton.mpr rfl
  exact absurd (hall wrapRst hmem) (by decide)

end Network

end MiniTcp
