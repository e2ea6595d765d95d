import MiniTcp.Net.Tcp.Invariant

/-!
# What an action puts on the network

An action hands out at most one segment, and `Emission` lists the eight kinds. What an invariant says
about the segments a connection has sent is proved from this list, without a look at the rest of the
action.
-/

namespace MiniTcp

open TCPConnection

/-- A segment that an action of the call `e` hands out on the way from `p` to `q`. -/
inductive Emission (r : Bool) (e : Event) (p q : Endpoint) : TCPSegment → Prop
  | ack (hstate : p.conn.state.isSynchronised = true ∨
        p.conn.delayedAckAt ≠ none ∧ p.conn.state ≠ .closed ∧ p.conn.state ≠ .listen) :
      Emission r e p q (p.conn.segmentOf p.conn.sendQueue.nxt FLAG_ACK [] p.conn.recvQueue.nxt {})
  | rejection {seg srcIp draw now} (hr : r = true) (he : e = .segment seg srcIp draw now)
      (hrst : seg.isRst = false) (hstate : p.conn.Rejects seg) :
      Emission r e p q (p.conn.rejection seg)
  | syn {draw now} (he : e = .connect draw now) : Emission r e p q (p.conn.opening draw).synSegment
  | synAck {seg srcIp draw now} (he : e = .segment seg srcIp draw now)
      (hstate : p.conn.state = .synSent) :
      Emission r e p q ((p.conn.adopted seg).synAckSegment seg)
  | data (payload : Bytes) (n : Nat) (hstate : p.conn.state.isSynchronised = true)
      (hpeek : payload = p.conn.sendQueue.peek p.conn.sendQueue.nxt n) (hne : payload ≠ []) :
      Emission r e p q (p.conn.dataSegment payload)
  | resent {entry} (h : p.conn.retxQueue.oldest = some entry) :
      Emission r e p q (p.conn.resentSegment entry)
  | fin {now} (he : e = .close now)
      (hstate : p.conn.state = .established ∨ p.conn.state = .closeWait) :
      Emission r e p q p.conn.finSegment
  | abort (he : e.inbound = none) (hstate : q.conn.state = .closed) :
      Emission r e p q p.conn.abortSegment

variable {r : Bool} {e : Event} {p q : Endpoint}

/-- An action hands out at most one segment. -/
theorem Action.sent (ha : Action r e p q) : q.conn.sent = p.conn.sent ∨
    ∃ x, q.conn.sent = p.conn.sent ++ [x] ∧ Emission r e p q x := by
  cases ha with
  | quiet hq => exact .inl hq.sent
  | ack hstate => exact .inr ⟨_, rfl, .ack hstate⟩
  | reject hr he hrst hstate => exact .inr ⟨_, rfl, .rejection hr he hrst hstate⟩
  | connect he hconn =>
    obtain ⟨hclosed, rfl⟩ := connect_eq hconn
    exact .inr ⟨_, rfl, .syn he⟩
  | simultaneousOpen he hstate =>
    rw [handleSimultaneousOpen_eq]
    exact .inr ⟨_, rfl, .synAck he hstate⟩
  | establish t =>
    unfold settled
    split_ifs <;> exact .inl rfl
  | push payload n now hstate hpeek hne =>
    rw [transmitData_eq _ now hne]
    exact .inr ⟨_, rfl, .data payload n hstate hpeek hne⟩
  | resend now h =>
    rw [resend_eq]
    exact .inr ⟨_, rfl, .resent h⟩
  | fin he hstate =>
    rw [sendFin_eq]
    exact .inr ⟨_, rfl, .fin he (hstate.imp (·.1) (·.1))⟩
  | @consumeFin _ _ _ now => exact .inl (finTaken_spec p.conn now).2.1
  | advance =>
    unfold finAcknowledged
    split <;> exact .inl rfl
  | abort he =>
    have hquiet : e.inbound = none := by rcases he with rfl | ⟨rfl, -⟩ <;> rfl
    rw [abort_eq]
    split_ifs
    · exact .inr ⟨_, rfl, .abort hquiet rfl⟩
    · exact .inl rfl
  | _ => exact .inl rfl

theorem Action.mem_sent (ha : Action r e p q) {x : TCPSegment} (hx : x ∈ p.conn.sent) :
    x ∈ q.conn.sent := by
  rcases ha.sent with hsame | ⟨y, hy, -⟩
  · exact hsame ▸ hx
  · rw [hy]
    exact List.mem_append_left _ hx

theorem Action.forall_sent {P : TCPSegment → Prop} (ha : Action r e p q)
    (hsent : ∀ x ∈ p.conn.sent, P x) (hnew : ∀ x, Emission r e p q x → P x) :
    ∀ x ∈ q.conn.sent, P x := by
  intro x hx
  rcases ha.sent with hsame | ⟨y, hy, hemit⟩
  · exact hsent x (hsame ▸ hx)
  · rw [hy] at hx
    rcases List.mem_append.mp hx with hold | hnew'
    · exact hsent x hold
    · exact List.mem_singleton.mp hnew' ▸ hnew y hemit

/-- What the queue remembers is what it held, perhaps with a retransmission counted, or an emission other
than a reset. -/
theorem Action.retx (ha : Action r e p q) {y : OutstandingSegment}
    (hy : y ∈ q.conn.retxQueue.segments) :
    (∃ x ∈ p.conn.retxQueue.segments, y.seq = x.seq ∧ y.flags = x.flags ∧ y.payload = x.payload) ∨
      ∃ x, Emission r e p q x ∧ x.isRst = false ∧ y.seq = x.seq ∧ y.flags = x.flags ∧
        y.payload = x.payload := by
  have hold : ∀ {z}, z ∈ p.conn.retxQueue.segments →
      ∃ x ∈ p.conn.retxQueue.segments, z.seq = x.seq ∧ z.flags = x.flags ∧ z.payload = x.payload :=
    fun {z} hz => ⟨z, hz, rfl, rfl, rfl⟩
  have hadded : ∀ (x : TCPSegment) (now : Time), Emission r e p q x → x.isRst = false →
      y ∈ (p.conn.retxQueue.added x.seq x.flags x.payload now).segments →
      (∃ x ∈ p.conn.retxQueue.segments, y.seq = x.seq ∧ y.flags = x.flags ∧ y.payload = x.payload) ∨
        ∃ x, Emission r e p q x ∧ x.isRst = false ∧ y.seq = x.seq ∧ y.flags = x.flags ∧
          y.payload = x.payload := by
    intro x now hemit hrst hmem
    rcases RetransmitQueue.added_cases p.conn.retxQueue x.seq x.flags x.payload now with
      ⟨-, hsame⟩ | ⟨-, -, hsegs⟩
    · exact .inl (hold (hsame ▸ hmem))
    · rw [hsegs] at hmem
      rcases List.mem_append.mp hmem with hmem | hmem
      · exact .inl (hold hmem)
      · obtain rfl := List.mem_singleton.mp hmem
        exact .inr ⟨x, hemit, hrst, rfl, rfl, rfl⟩
  cases ha with
  | quiet hq => exact .inl (hold (hq.retxQueue ▸ hy))
  | connect he hconn =>
    obtain ⟨hclosed, rfl⟩ := connect_eq hconn
    exact hadded _ _ (.syn he) (show (FLAG_SYN &&& FLAG_RST != 0) = false by decide) hy
  | simultaneousOpen he hstate =>
    rw [handleSimultaneousOpen_eq] at hy
    exact hadded _ _ (.synAck he hstate)
      (show ((FLAG_SYN ||| FLAG_ACK) &&& FLAG_RST != 0) = false by decide) hy
  | retire => exact .inl (hold (List.mem_filter.mp hy).1)
  | establish t =>
    unfold settled at hy
    split_ifs at hy
    · exact .inl (hold (List.mem_filter.mp hy).1)
    · exact .inl (hold hy)
  | push payload n now hstate hpeek hne =>
    rw [transmitData_eq _ now hne] at hy
    exact hadded _ _ (.data payload n hstate hpeek hne)
      (show ((FLAG_ACK ||| FLAG_PSH) &&& FLAG_RST != 0) = false by decide) hy
  | resend now h =>
    rw [resend_eq] at hy
    rcases RetransmitQueue.mem_markRetransmitted hy with hmem | ⟨x, hx, rfl⟩
    · exact .inl (hold hmem)
    · exact .inl ⟨x, hx, rfl, rfl, rfl⟩
  | fin he hstate =>
    rw [sendFin_eq] at hy
    exact hadded _ _ (.fin he (hstate.imp (·.1) (·.1)))
      (show ((FLAG_ACK ||| FLAG_FIN) &&& FLAG_RST != 0) = false by decide) hy
  | @consumeFin _ _ _ now =>
    rcases (finTaken_spec p.conn now).2.2.2.2.2.2 with hsame | ⟨-, hclear⟩
    · exact .inl (hold (hsame ▸ hy))
    · rw [Endpoint.put_conn, hclear] at hy
      cases hy
  | advance =>
    unfold finAcknowledged at hy
    split at hy
    · exact .inl (hold hy)
    · cases hy
    · cases hy
  | reset | expire => cases hy
  | abort =>
    rw [abort_eq] at hy
    split_ifs at hy <;> cases hy
  | _ => exact .inl (hold hy)

/-! ### Resets -/

/-- Among the emissions of a connection whose queue holds no reset, only two are resets, and neither
carries a SYN. -/
theorem Emission.isRst {x : TCPSegment} (hx : Emission r e p q x)
    (hretx : ∀ y ∈ p.conn.retxQueue.segments, (y.flags &&& FLAG_RST != 0) = false)
    (hrst : x.isRst = true) :
    x.isSyn = false ∧ (r = true ∨ e.inbound = none ∧ q.conn.state = .closed) := by
  cases hx with
  | ack => exact absurd hrst (show ¬ (FLAG_ACK &&& FLAG_RST != 0) = true by decide)
  | rejection hr =>
    refine ⟨?_, .inl hr⟩
    unfold TCPConnection.rejection
    split_ifs
    · exact show (FLAG_RST &&& FLAG_SYN != 0) = false by decide
    · exact show ((FLAG_RST ||| FLAG_ACK) &&& FLAG_SYN != 0) = false by decide
  | syn => exact absurd hrst (show ¬ (FLAG_SYN &&& FLAG_RST != 0) = true by decide)
  | synAck => exact absurd hrst (show ¬ ((FLAG_SYN ||| FLAG_ACK) &&& FLAG_RST != 0) = true by decide)
  | data => exact absurd hrst (show ¬ ((FLAG_ACK ||| FLAG_PSH) &&& FLAG_RST != 0) = true by decide)
  | resent h => exact absurd hrst (Bool.not_eq_true _ ▸ hretx _ (List.mem_of_mem_head? h))
  | fin => exact absurd hrst (show ¬ ((FLAG_ACK ||| FLAG_FIN) &&& FLAG_RST != 0) = true by decide)
  | abort he hstate =>
    exact ⟨show ((FLAG_RST ||| FLAG_ACK) &&& FLAG_SYN != 0) = false by decide, .inr ⟨he, hstate⟩⟩

end MiniTcp
