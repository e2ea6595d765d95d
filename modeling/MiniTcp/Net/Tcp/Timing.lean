import MiniTcp.Net.Tcp.Sending

/-!
# What sets the pace of the timers

The retransmission timeout is set by an acknowledgement that advances `snd_una` and by the retransmission
timer itself, and by nothing else. The delay of the persist timer starts at half a second, is doubled by
each probe, and never exceeds `MAX_PERSIST_DELAY`.
-/

namespace MiniTcp

namespace TCPConnection

variable {b c d : TCPConnection} {seg : TCPSegment} {now : Time}

/-- The estimator stays, and a persist delay that is not too long stays so. -/
structure KeepsTime (c d : TCPConnection) : Prop where
  rto : d.rto = c.rto
  delay : c.persistDelay ≤ MAX_PERSIST_DELAY → d.persistDelay ≤ MAX_PERSIST_DELAY

namespace KeepsTime

theorem of_eq (hrto : d.rto = c.rto) (hdelay : d.persistDelay = c.persistDelay) : KeepsTime c d :=
  ⟨hrto, fun h => by rwa [hdelay]⟩

theorem refl (c : TCPConnection) : KeepsTime c c := of_eq rfl rfl

theorem trans (h : KeepsTime b c) (h' : KeepsTime c d) : KeepsTime b d :=
  ⟨h'.rto.trans h.rto, fun hb => h'.delay (h.delay hb)⟩

theorem sending : Sending KeepsTime where
  refl := refl
  trans := trans
  emit _ _ _ _ _ := of_eq rfl rfl
  remember _ _ _ _ := of_eq rfl rfl
  nxt _ _ := of_eq rfl rfl
  count _ _ := of_eq rfl rfl
  persist _ _ := of_eq rfl rfl
  relax _ := ⟨rfl, fun _ => show DEFAULT_PERSIST_DELAY ≤ MAX_PERSIST_DELAY by decide +kernel⟩
  window _ _ := of_eq rfl rfl

theorem sendAck (c : TCPConnection) (now : Time) : KeepsTime c (c.sendAck now) := by
  unfold TCPConnection.sendAck
  dsimp only
  split_ifs
  · exact of_eq rfl rfl
  · rw [transmit_untracked _ _ _ _ _ (by decide)]
    exact of_eq rfl rfl

theorem maybeAdvanceAfterAck (c : TCPConnection) (seg : TCPSegment) (now : Time) :
    KeepsTime c (c.maybeAdvanceAfterAck seg now) := by
  unfold TCPConnection.maybeAdvanceAfterAck
  split
  · exact refl c
  · split_ifs <;> exact of_eq rfl rfl

theorem handleData (c : TCPConnection) (seg : TCPSegment) (now : Time) :
    KeepsTime c (c.handleData seg now) := by
  have hack : ∀ (b : TCPConnection) (newly : Nat), KeepsTime b (b.acknowledgeData newly now) := by
    intro b newly
    unfold acknowledgeData
    split_ifs
    · split <;> exact of_eq rfl rfl
    · exact sendAck b now
  unfold TCPConnection.handleData
  dsimp only
  split_ifs
  · apply trans _ (hack _ _)
    exact of_eq rfl rfl
  · apply trans _ (hack _ _)
    exact of_eq rfl rfl
  · exact of_eq rfl rfl
  · exact of_eq rfl rfl

theorem handleFin (c : TCPConnection) (seg : TCPSegment) (now : Time) : KeepsTime c (c.handleFin seg now) := by
  have hconsume : KeepsTime c (c.consumeFin now) := by
    have hack := sendAck { c with recvQueue := { c.recvQueue with nxt := seqAdd c.recvQueue.nxt 1 } } now
    unfold consumeFin
    dsimp only
    split_ifs <;> exact ⟨hack.rto, hack.delay⟩
  unfold TCPConnection.handleFin
  dsimp only
  split_ifs
  · exact sendAck c now
  · exact sendAck c now
  · exact hconsume

theorem handshaking : Handshaking KeepsTime where
  toSending := sending
  stamp _ _ := of_eq rfl rfl
  sendAck := sendAck
  reject c seg now := by
    unfold TCPConnection.reject
    split_ifs
    · exact refl c
    · rw [transmit_untracked _ _ _ _ _ (by decide)]
      exact of_eq rfl rfl
    · rw [transmit_untracked _ _ _ _ _ (by decide)]
      exact of_eq rfl rfl
  handleRst _ := of_eq rfl rfl
  maybeAdvanceAfterAck := maybeAdvanceAfterAck
  handleData := handleData
  handleFin := handleFin
  simultaneousOpen c seg now := by
    rw [handleSimultaneousOpen_eq]
    exact of_eq rfl rfl
  established c now _ := (sendAck c now).trans (of_eq rfl rfl)
  completed _ _ := of_eq rfl rfl

end KeepsTime

/-! ### Inbound segments -/

theorem processAck_rto (c : TCPConnection) (seg : TCPSegment) (now : Time) :
    (c.processAck seg now).rto =
        (if seqGt seg.ack c.sndUna then c.estimate (c.retxQueue.acknowledge seg.ack).2 now else c.rto) ∧
      (c.persistDelay ≤ MAX_PERSIST_DELAY → (c.processAck seg now).persistDelay ≤ MAX_PERSIST_DELAY) := by
  unfold sndUna
  cases hgt : seqGt seg.ack c.sendQueue.una with
  | false =>
    have hkeep : KeepsTime c (c.processAck seg now) :=
      KeepsTime.sending.processAck (fun _ _ => .of_eq rfl rfl) (by simp [hgt])
    exact ⟨hkeep.rto, hkeep.delay⟩
  | true =>
    have hflush := KeepsTime.sending.flush (((c.retire seg now).updatePeerWindow seg).1.armRetransmitTimer now)
      now
    unfold processAck
    rw [if_neg (by simp [hgt]), Leads.processNewAck_eq now hgt]
    exact ⟨hflush.rto, hflush.delay⟩

theorem onSegment_rto (c : TCPConnection) (seg : TCPSegment) (srcIp : Option Bytes) (draw : SeqNo)
    (now : Time) : (c.onSegment seg srcIp draw now).1.rto =
      if c.takesAck seg && seqGt seg.ack c.sndUna then c.estimate (c.retxQueue.acknowledge seg.ack).2 now
      else c.rto := by
  obtain ⟨hqueue, hretx, hrto, -, -⟩ := c.ackTaker_spec seg now
  rcases KeepsTime.handshaking.onSegment c seg srcIp draw now with ⟨htakes, h⟩ | ⟨htakes, h⟩
  · rw [h.rto, (processAck_rto _ seg now).1, htakes, Bool.true_and, estimate, sndUna, hqueue, hretx, hrto]
    rfl
  · rw [h.rto, htakes, Bool.false_and, if_neg Bool.false_ne_true]

/-! ### The persist delay -/

theorem onRetransmitTimeout_delay (c : TCPConnection) (now : Time) :
    (c.onRetransmitTimeout now).persistDelay = c.persistDelay := by
  unfold onRetransmitTimeout
  split
  · rfl
  · dsimp only
    split_ifs
    · rfl
    · rw [resend_eq]

theorem onPersistTimeout_delay (now : Time) (h : c.persistDelay ≤ MAX_PERSIST_DELAY) :
    (c.onPersistTimeout now).persistDelay ≤ MAX_PERSIST_DELAY := by
  unfold onPersistTimeout
  split_ifs
  · exact (KeepsTime.sending.flush _ now).delay (KeepsTime.sending.relax c |>.delay h)
  · exact h
  · exact min_le_right _ _

theorem onTick_delay (now : Time) (h : c.persistDelay ≤ MAX_PERSIST_DELAY) :
    (c.onTick now).persistDelay ≤ MAX_PERSIST_DELAY := by
  have hif : ∀ (due : Bool) (b d : TCPConnection), b.persistDelay ≤ MAX_PERSIST_DELAY →
      (b.persistDelay ≤ MAX_PERSIST_DELAY → d.persistDelay ≤ MAX_PERSIST_DELAY) →
      (if due = true then d else b).persistDelay ≤ MAX_PERSIST_DELAY := by
    intro due b d hb hd
    split_ifs
    · exact hd hb
    · exact hb
  unfold onTick
  dsimp only
  have hack := hif (due c.delayedAckAt now) c _ h (KeepsTime.sendAck c now).delay
  generalize (if due c.delayedAckAt now = true then c.sendAck now else c) = b at hack ⊢
  have hretx := hif (due b.retransmitAt now) b _ hack ((onRetransmitTimeout_delay b now).trans_le)
  generalize (if due b.retransmitAt now = true then b.onRetransmitTimeout now else b) = b at hretx ⊢
  have hprobe := hif (due b.persistAt now) b _ hretx (onPersistTimeout_delay now)
  generalize (if due b.persistAt now = true then b.onPersistTimeout now else b) = b at hprobe ⊢
  split_ifs <;> exact hprobe

end TCPConnection

open TCPConnection

theorem persistDelay_le {p : Endpoint} (hp : endpoint.Reachable p) : p.conn.persistDelay ≤ MAX_PERSIST_DELAY := by
  have hdefault : DEFAULT_PERSIST_DELAY ≤ MAX_PERSIST_DELAY := by decide +kernel
  apply Machine.ReachableBy.induction (P := fun q => q.conn.persistDelay ≤ MAX_PERSIST_DELAY) endpoint _ _ hp
  · rintro q (⟨cfg, rfl⟩ | ⟨cfg, seg, draw, now, -, -, rfl⟩)
    · exact hdefault
    · rw [Endpoint.passive, beginPassiveOpen_eq]
      exact hdefault
  · intro q e _ hq _
    cases e with
    | listen =>
      simp only [endpoint_next, Endpoint.step, TCPConnection.listen]
      split_ifs <;> exact hq
    | connect draw now =>
      simp only [endpoint_next, Endpoint.step]
      cases hconn : q.conn.connect draw now with
      | error err => exact hq
      | ok c =>
        obtain ⟨-, rfl⟩ := connect_eq hconn
        exact hq
    | send data now =>
      simp only [endpoint_next, Endpoint.step]
      cases hsend : q.conn.send data now with
      | error err => exact hq
      | ok r =>
        obtain ⟨-, rfl | ⟨-, rfl⟩⟩ := send_ok _ hsend
        · exact hq
        · exact (KeepsTime.sending.flush _ now).delay hq
    | recv maxBytes now =>
      simp only [endpoint_next, Endpoint.step, Endpoint.put_conn, TCPConnection.recv]
      split_ifs
      · exact hq
      · exact (KeepsTime.sendAck _ now).delay hq
      · exact hq
    | close now =>
      simp only [endpoint_next, Endpoint.step, Endpoint.put_conn, TCPConnection.close, abort_eq, sendFin_eq]
      split
      all_goals first
        | exact hq
        | split_ifs <;> exact hq
    | abort now =>
      simp only [endpoint_next, Endpoint.step, Endpoint.put_conn, abort_eq]
      split_ifs <;> exact hq
    | tick now => exact onTick_delay now hq
    | segment seg srcIp draw now =>
      rcases KeepsTime.handshaking.onSegment q.conn seg srcIp draw now with ⟨-, h⟩ | ⟨-, h⟩
      · apply h.delay
        apply (processAck_rto _ seg now).2
        rw [(q.conn.ackTaker_spec seg now).2.2.2.2]
        exact hq
      · exact h.delay hq

end MiniTcp
