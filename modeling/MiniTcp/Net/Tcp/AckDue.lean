import MiniTcp.Net.Tcp.Sending
import MiniTcp.Net.Tcp.Inbound

/-!
# What has arrived is acknowledged

Every segment that is handed out with an ACK, a reset aside, carries `rcv_nxt` as it is at that moment. So what
has arrived is acknowledged as long as nothing moves `rcv_nxt` without sending an ACK after it; data on a
connection that delays its ACKs does, and then the timer is set. `settled` holds in every open state of every
run, and a tick at the deadline sends the ACK.
-/

namespace MiniTcp

namespace TCPConnection

variable {b c d : TCPConnection} {seg : TCPSegment} {now : Time}

/-- The number acknowledged by the last segment with an ACK, resets aside. -/
def lastAck (sent : List TCPSegment) : Option SeqNo :=
  ((sent.filter fun x => x.isAck && !x.isRst).getLast?).map (·.ack)

theorem lastAck_append (sent : List TCPSegment) (x : TCPSegment) :
    lastAck (sent ++ [x]) = if x.isAck && !x.isRst then some x.ack else lastAck sent := by
  unfold lastAck
  cases hx : x.isAck && !x.isRst <;> simp [List.filter_append, hx]

/-- The last ACK that went out was for `rcv_nxt`. -/
def Acknowledged (c : TCPConnection) : Prop := lastAck c.sent = some c.rcvNxt

namespace Acknowledged

theorem congr (h : c.Acknowledged) (hsent : d.sent = c.sent) (hnxt : d.rcvNxt = c.rcvNxt) : d.Acknowledged := by
  unfold Acknowledged
  rw [hsent, hnxt]
  exact h

theorem append {x : TCPSegment} (h : c.Acknowledged) (hsent : d.sent = c.sent ++ [x]) (hnxt : d.rcvNxt = c.rcvNxt)
    (hack : x.isAck = true → x.isRst = false → x.ack = c.rcvNxt) : d.Acknowledged := by
  unfold Acknowledged
  rw [hsent, lastAck_append, hnxt]
  split_ifs with hx
  · simp only [Bool.and_eq_true, Bool.not_eq_true'] at hx
    rw [hack hx.1 hx.2]
  · exact h

theorem of_append {x : TCPSegment} {sent : List TCPSegment} (hsent : d.sent = sent ++ [x])
    (hack : x.isAck = true) (hrst : x.isRst = false) (hnxt : x.ack = d.rcvNxt) : d.Acknowledged := by
  unfold Acknowledged
  rw [hsent, lastAck_append, hack, hrst, hnxt]
  rfl

end Acknowledged

theorem acknowledged_sendAck (now : Time) (hopen : c.state ≠ .closed ∧ c.state ≠ .listen) :
    (c.sendAck now).Acknowledged := by
  unfold sendAck
  dsimp only
  rw [if_neg (by simp [hopen]), transmit_untracked _ _ _ _ _ (by decide)]
  exact .of_append rfl (show (FLAG_ACK &&& FLAG_ACK != 0) = true by decide)
    (show (FLAG_ACK &&& FLAG_RST != 0) = false by decide) rfl

/-! ### What every step keeps -/

/-- The last ACK was for `rcv_nxt`, or one is pending. -/
def Settled (c : TCPConnection) : Prop := c.Acknowledged ∨ c.delayedAckAt ≠ none

/-- An open connection is settled after the step if an open one was before. -/
def KeepsSettled (c d : TCPConnection) : Prop := (c.Opened → c.Settled) → d.Opened → d.Settled

theorem Opened.ne (h : c.Opened) : c.state ≠ .closed ∧ c.state ≠ .listen := by
  rcases h with h | h
  · simp [h]
  · exact ⟨(TcpState.ne_of_isSynchronised h).1, (TcpState.ne_of_isSynchronised h).2.1⟩

theorem Opened.congr (h : d.Opened) (hstate : d.state = c.state) : c.Opened := by
  unfold Opened at h ⊢
  rwa [hstate] at h

namespace KeepsSettled

theorem of_acknowledged (h : d.Opened → d.Acknowledged) : KeepsSettled c d := fun _ hopen => .inl (h hopen)

theorem of_not_opened (h : ¬ d.Opened) : KeepsSettled c d := fun _ hopen => absurd hopen h

theorem of_keeps (hack : c.Acknowledged → d.Acknowledged) (htimer : d.delayedAckAt = c.delayedAckAt)
    (hopen : d.Opened → c.Opened) : KeepsSettled c d := by
  intro h hd
  unfold Settled
  rw [htimer]
  exact (h (hopen hd)).imp_left hack

theorem of_eq (hsent : d.sent = c.sent) (hnxt : d.rcvNxt = c.rcvNxt) (htimer : d.delayedAckAt = c.delayedAckAt)
    (hopen : d.Opened → c.Opened) : KeepsSettled c d :=
  of_keeps (fun h => h.congr hsent hnxt) htimer hopen

theorem trans (h : KeepsSettled b c) (h' : KeepsSettled c d) : KeepsSettled b d := fun hb => h' (h hb)

theorem sending : Sending KeepsSettled where
  refl _ := id
  trans := trans
  emit _ _ _ _ _ := of_keeps (fun h => h.append rfl rfl fun _ _ => rfl) rfl id
  remember _ _ _ _ := of_eq rfl rfl rfl id
  nxt _ _ := of_eq rfl rfl rfl id
  count _ _ := of_eq rfl rfl rfl id
  persist _ _ := of_eq rfl rfl rfl id
  relax _ := of_eq rfl rfl rfl id
  window _ _ := of_eq rfl rfl rfl id

theorem sendAck (c : TCPConnection) (now : Time) : KeepsSettled c (c.sendAck now) := by
  apply of_acknowledged
  intro hopen
  exact acknowledged_sendAck now (hopen.congr (sendFrame_sendAck c now).state).ne

theorem reject (c : TCPConnection) (seg : TCPSegment) (now : Time) : KeepsSettled c (c.reject seg now) := by
  unfold TCPConnection.reject
  split_ifs
  · exact id
  · rw [transmit_untracked _ _ _ _ _ (by decide)]
    exact of_keeps (fun h => h.append rfl rfl fun _ hrst =>
      absurd hrst (show ¬ (FLAG_RST &&& FLAG_RST != 0) = false by decide)) rfl id
  · rw [transmit_untracked _ _ _ _ _ (by decide)]
    exact of_keeps (fun h => h.append rfl rfl fun _ hrst =>
      absurd hrst (show ¬ ((FLAG_RST ||| FLAG_ACK) &&& FLAG_RST != 0) = false by decide)) rfl id

theorem maybeAdvanceAfterAck (c : TCPConnection) (seg : TCPSegment) (now : Time) :
    KeepsSettled c (c.maybeAdvanceAfterAck seg now) := by
  unfold TCPConnection.maybeAdvanceAfterAck
  split
  · exact id
  · split_ifs with _ _ h1 h2 h3
    · exact id
    · exact id
    · exact of_eq rfl rfl rfl fun _ => .inr (by rw [h1]; rfl)
    · exact of_eq rfl rfl rfl fun _ => .inr (by rw [h2]; rfl)
    · exact of_not_opened (by rintro (h | h) <;> cases h)
    · exact id

theorem acknowledgeData (c : TCPConnection) (newly : Nat) (now : Time) :
    (c.acknowledgeData newly now).Opened → (c.acknowledgeData newly now).Settled := by
  unfold TCPConnection.acknowledgeData
  split_ifs
  · split
    · exact fun _ => .inr nofun
    · rename_i t ht
      exact fun _ => .inr (by simp [ht])
  · exact fun hopen => .inl (acknowledged_sendAck now (hopen.congr (sendFrame_sendAck c now).state).ne)

theorem handleData (c : TCPConnection) (seg : TCPSegment) (now : Time) :
    KeepsSettled c (c.handleData seg now) := by
  have hdone : ∀ newly d, KeepsSettled c (TCPConnection.acknowledgeData d newly now) := by
    intro newly d _
    exact acknowledgeData d newly now
  unfold TCPConnection.handleData
  dsimp only
  split_ifs with hnew hsome hsome
  · exact hdone _ _
  · exact hdone _ _
  · exact absurd (.inl hsome) hnew
  · have hnil : seg.payload = [] := by
      by_contra hne
      exact hnew (.inr hne)
    have hsame : (c.recvQueue.insert seg.seq seg.payload).1 = c.recvQueue := by
      rw [ReceiveQueue.insert, if_pos hnil]
    rw [hsame]
    exact id

theorem handleFin (c : TCPConnection) (seg : TCPSegment) (now : Time) : KeepsSettled c (c.handleFin seg now) := by
  have hconsume : KeepsSettled c (c.consumeFin now) := by
    apply of_acknowledged
    unfold consumeFin
    have hack := sendFrame_sendAck { c with recvQueue := { c.recvQueue with nxt := seqAdd c.recvQueue.nxt 1 } } now
    have hsent : ∀ d : TCPConnection, d.Opened → d.state = c.state →
        (TCPConnection.sendAck
          { c with recvQueue := { c.recvQueue with nxt := seqAdd c.recvQueue.nxt 1 } } now).Acknowledged := by
      intro d hopen hstate
      exact acknowledged_sendAck now (hopen.congr hstate).ne
    dsimp only
    generalize TCPConnection.sendAck
      { c with recvQueue := { c.recvQueue with nxt := seqAdd c.recvQueue.nxt 1 } } now = d at hack hsent
    have hstate : d.state = c.state := hack.state
    have hd : d.Opened → d.Acknowledged := fun hopen => hsent d hopen hstate
    have hsync : d.state.isSynchronised = true → d.Acknowledged := fun h => hd (.inr h)
    split_ifs with h1 h2 h3 h4 h5
    · exact fun _ => (hsync (by rw [h1]; rfl)).congr rfl rfl
    · exact fun _ => (hsync (by rw [h2]; rfl)).congr rfl rfl
    · exact fun _ => (hsync (by rw [h2]; rfl)).congr rfl rfl
    · exact fun _ => (hsync (by rw [h4]; rfl)).congr rfl rfl
    · exact fun _ => (hsync (by rw [h5]; rfl)).congr rfl rfl
    · exact hd
  unfold TCPConnection.handleFin
  dsimp only
  split_ifs
  · exact sendAck c now
  · exact sendAck c now
  · exact hconsume

theorem handshaking : Handshaking KeepsSettled where
  toSending := sending
  stamp _ _ := of_eq rfl rfl rfl id
  sendAck := sendAck
  reject := reject
  handleRst _ := of_not_opened (by rintro (h | h) <;> cases h)
  maybeAdvanceAfterAck := maybeAdvanceAfterAck
  handleData := handleData
  handleFin := handleFin
  simultaneousOpen c seg now := by
    apply of_acknowledged
    intro
    rw [handleSimultaneousOpen_eq]
    exact .of_append rfl (show ((FLAG_SYN ||| FLAG_ACK) &&& FLAG_ACK != 0) = true by decide)
      (show ((FLAG_SYN ||| FLAG_ACK) &&& FLAG_RST != 0) = false by decide) rfl
  established c now hst := by
    apply of_acknowledged
    intro
    exact (acknowledged_sendAck now (by simp [hst])).congr rfl rfl
  completed c hst := of_eq rfl rfl rfl fun _ => .inl hst

theorem processAck (c : TCPConnection) (seg : TCPSegment) (now : Time) : KeepsSettled c (c.processAck seg now) :=
  sending.processAck (fun _ _ => of_eq rfl rfl rfl id) fun _ => of_eq rfl rfl rfl id

theorem onSegment (c : TCPConnection) (seg : TCPSegment) (srcIp : Option Bytes) (draw : SeqNo) (now : Time) :
    KeepsSettled c (c.onSegment seg srcIp draw now).1 := by
  rcases handshaking.onSegment c seg srcIp draw now with ⟨-, h⟩ | ⟨-, h⟩
  · have htaker : KeepsSettled c (c.ackTaker seg now) := by
      unfold ackTaker
      split_ifs with hst
      · apply of_not_opened
        rintro (h | h) <;> simp [adopted, applyPeerOptions, stamp, hst, TcpState.isSynchronised] at h
      · exact handshaking.stamp c now
    exact htaker.trans ((processAck _ seg now).trans h)
  · exact h

theorem sendFin (c : TCPConnection) (now : Time) (st : TcpState) (hopen : c.Opened) :
    KeepsSettled c { c.sendFin now with state := st } := by
  rw [sendFin_eq]
  exact of_keeps (fun h => h.append rfl rfl fun _ _ => rfl) rfl fun _ => hopen

theorem timed : Timed KeepsSettled where
  toSending := sending
  sendAck := sendAck
  backoff _ := of_eq rfl rfl rfl id
  delay _ _ _ := of_eq rfl rfl rfl id
  teardown _ := of_not_opened (by rintro (h | h) <;> cases h)

end KeepsSettled

/-- Once `rcv_nxt` is acknowledged, the timers leave it so. -/
def KeepsAcknowledged (c d : TCPConnection) : Prop := c.Acknowledged → d.Acknowledged

theorem KeepsAcknowledged.timed : Timed KeepsAcknowledged where
  refl _ := id
  trans h h' := h' ∘ h
  emit _ _ _ _ _ h := h.append rfl rfl fun _ _ => rfl
  remember _ _ _ _ h := h.congr rfl rfl
  nxt _ _ h := h.congr rfl rfl
  count _ _ h := h.congr rfl rfl
  persist _ _ h := h.congr rfl rfl
  relax _ h := h.congr rfl rfl
  window _ _ h := h.congr rfl rfl
  sendAck c now h := by
    by_cases hopen : c.state ≠ .closed ∧ c.state ≠ .listen
    · exact acknowledged_sendAck now hopen
    · unfold sendAck
      dsimp only
      rw [if_pos (by simpa [Classical.or_iff_not_imp_left] using hopen)]
      exact h.congr rfl rfl
  backoff _ h := h.congr rfl rfl
  delay _ _ _ h := h.congr rfl rfl
  teardown _ h := h.congr rfl rfl

theorem acknowledged_onTick (hopen : c.Opened) (hdue : due c.delayedAckAt now = true) :
    (c.onTick now).Acknowledged := by
  have hafter := KeepsAcknowledged.timed.afterDelayedAck c now
  rw [if_pos hdue] at hafter
  exact hafter (acknowledged_sendAck now hopen.ne)

end TCPConnection

namespace Endpoint

open TCPConnection

variable {p : Endpoint} {e : Event}

theorem keepsSettled_step (p : Endpoint) (e : Event) : KeepsSettled p.conn (p.step e).conn := by
  cases e with
  | segment seg srcIp draw now => exact .onSegment p.conn seg srcIp draw now
  | tick now => exact KeepsSettled.timed.onTick p.conn now
  | listen =>
    simp only [step, TCPConnection.listen]
    split_ifs
    · exact id
    · exact .of_not_opened (by rintro (h | h) <;> cases h)
  | connect draw now =>
    simp only [step]
    cases hconn : p.conn.connect draw now with
    | error err => exact id
    | ok c =>
      obtain ⟨-, rfl⟩ := connect_eq hconn
      exact .of_not_opened (by rintro (h | h) <;> cases h)
  | send data now =>
    simp only [step]
    cases hsend : p.conn.send data now with
    | error err => exact id
    | ok r =>
      obtain ⟨-, rfl | ⟨-, rfl⟩⟩ := send_ok _ hsend
      · exact id
      · have hwrite : KeepsSettled p.conn { p.conn with sendQueue := (p.conn.sendQueue.write data).1 } :=
          .of_eq rfl rfl rfl id
        exact hwrite.trans (KeepsSettled.sending.flush _ now)
  | recv maxBytes now =>
    have hread : KeepsSettled p.conn { p.conn with recvQueue := (p.conn.recvQueue.read maxBytes).1 } := by
      have hnxt : (p.conn.recvQueue.read maxBytes).1.nxt = p.conn.recvQueue.nxt := by
        unfold ReceiveQueue.read
        dsimp only
        split_ifs <;> rfl
      exact .of_eq rfl hnxt rfl id
    simp only [step, put_conn, TCPConnection.recv]
    split_ifs
    · exact id
    · exact hread.trans (.sendAck _ now)
    · exact hread
  | close now =>
    have hend : ∀ c : TCPConnection, KeepsSettled c (c.abort now) := fun c =>
      .of_not_opened (by rw [abort_eq]; rintro (h | h) <;> cases h)
    simp only [step, put_conn, TCPConnection.close]
    split
    · rename_i hst
      exact .sendFin p.conn now _ (.inr (by rw [hst]; rfl))
    · rename_i hst
      exact .sendFin p.conn now _ (.inr (by rw [hst]; rfl))
    all_goals first
      | exact hend _
      | exact id
      | exact .of_not_opened (by rintro (h | h) <;> cases h)
  | abort now => exact .of_not_opened (by simp only [step, put_conn, abort_eq]; rintro (h | h) <;> cases h)

theorem settled_of_reachable (hp : endpoint.Reachable p) : p.conn.Opened → p.conn.Settled := by
  apply Machine.ReachableBy.induction (P := fun q => q.conn.Opened → q.conn.Settled) endpoint _ _ hp
  · rintro q (⟨cfg, rfl⟩ | ⟨cfg, seg, draw, now, -, -, rfl⟩)
    · rintro (h | h) <;> cases h
    · rw [passive, beginPassiveOpen_eq]
      exact fun _ => .inl (.of_append rfl (show ((FLAG_SYN ||| FLAG_ACK) &&& FLAG_ACK != 0) = true by decide)
        (show ((FLAG_SYN ||| FLAG_ACK) &&& FLAG_RST != 0) = false by decide) rfl)
  · intro q e _ hq _
    exact keepsSettled_step q e hq

/-- In every synchronised state the last ACK was for `rcv_nxt`, or the delayed-ACK timer is pending, and then a
tick at its deadline or later sends that ACK. -/
theorem nothing_unacknowledged (hp : endpoint.Reachable p) (hsync : p.conn.state.isSynchronised = true) :
    (p.conn.Acknowledged ∨ p.conn.delayedAckAt ≠ none) ∧
      ∀ deadline now, p.conn.delayedAckAt = some deadline → deadline ≤ now →
        (p.step (.tick now)).conn.Acknowledged := by
  refine ⟨settled_of_reachable hp (.inr hsync), fun deadline now hat hle => ?_⟩
  apply acknowledged_onTick (.inr hsync)
  simp [due, hat, hle]

/-- A client that delays its ACKs, and has just received a byte. -/
def delayingClient : Endpoint :=
  endpoint.run (.new { Config.plain 100 with delayedAck := true })
    [.connect 0 0, .segment synAck none 0 0,
      .segment { srcPort := 2000, dstPort := 1000, seq := 501, ack := 101, flags := FLAG_ACK, window := 1000,
                 payload := [7] } none 0 0]

theorem reachable_delayingClient : endpoint.Reachable delayingClient :=
  (Machine.ReachableBy.init endpoint (.inl ⟨_, rfl⟩)).run endpoint (endpoint.meets_true _ _)

/-- The byte is not acknowledged yet, and a tick after a twentieth of a second acknowledges it. -/
theorem nothing_unacknowledged_delayingClient :
    delayingClient.conn.state.isSynchronised = true ∧ lastAck delayingClient.conn.sent = some 501 ∧
      delayingClient.conn.rcvNxt = 502 ∧ delayingClient.conn.delayedAckAt = some (1 / 20) ∧
      (delayingClient.conn.Acknowledged ∨ delayingClient.conn.delayedAckAt ≠ none) ∧
      (delayingClient.step (.tick (1 / 20))).conn.Acknowledged := by
  have h := nothing_unacknowledged reachable_delayingClient (by decide +kernel)
  exact ⟨by decide +kernel, by decide +kernel, by decide +kernel, by decide +kernel, h.1,
    h.2 (1 / 20) (1 / 20) (by decide +kernel) (le_refl _)⟩

end Endpoint

end MiniTcp
