import MiniTcp.Net.Tcp.Teardown

/-!
# Unread data at a graceful end

`recv()` works in every state, so what the application has not read when the connection ends could still be
read afterwards. But a graceful end goes through `_teardown` like a reset, and that clears the receive queue.
What is readable then is at most what the segment that ended LAST_ACK has put into the cleared queue.
`unread_kept_iff` says that nothing is lost exactly when nothing was unread, that coincidence aside.
-/

namespace MiniTcp

namespace ReceiveQueue

variable {q : ReceiveQueue} {seq : SeqNo} {payload : Bytes}

theorem Within.read_eq (h : q.Within) (n : Nat) :
    (q.read n).2 = q.readable.take n ∧ (q.read n).1.readable = q.readable.drop n := by
  unfold Within at h
  unfold ReceiveQueue.read
  split_ifs with hzero
  · simp [hzero]
  · dsimp only
    have hchunk : (q.buf.take (min (q.readPos + n) q.buf.length)).drop q.readPos = q.readable.take n := by
      rw [readable, List.drop_take, List.take_eq_take_iff, List.length_drop]
      omega
    have hrest : q.buf.drop (min (q.readPos + n) q.buf.length) = q.readable.drop n := by
      rw [readable, List.drop_drop]
      rcases Nat.le_total (q.readPos + n) q.buf.length with hle | hle
      · rw [min_eq_left hle]
      · rw [min_eq_right hle, List.drop_length, List.drop_eq_nil_of_le hle]
    split_ifs
    · exact ⟨hchunk, hrest⟩
    · exact ⟨hchunk, hrest⟩

theorem Within.accept_of_nothing_parked (h : q.Within) (hooo : q.ooo.data = []) (payload : Bytes) :
    (q.accept payload).1.readable = q.readable ++ payload.take q.window := by
  have hpeek : ∀ seq, q.ooo.peek seq = none := by
    intro seq
    simp [ReorderQueue.peek, hooo]
  unfold ReceiveQueue.accept
  split_ifs with hfull
  · simp [hfull]
  · dsimp only
    rw [ReceiveQueue.drain]
    simp only [ReceiveQueue.extend, ReorderQueue.take, hpeek]
    exact h.readable_extend _

end ReceiveQueue

namespace TCPConnection

variable {c d : TCPConnection} {seg : TCPSegment} {now : Time}

/-! ### Reading from a connection -/

theorem recv_eq (h : c.recvQueue.Within) (n : Nat) (now : Time) :
    (c.recv n now).2 = c.recvQueue.readable.take n ∧
      (c.recv n now).1.recvQueue.readable = c.recvQueue.readable.drop n := by
  obtain ⟨hchunk, hrest⟩ := h.read_eq n
  unfold recv
  split_ifs with hnone
  · have hnil : c.recvQueue.readable = [] := by
      rw [← List.length_eq_zero_iff]
      simpa [ReceiveQueue.readable, ReceiveQueue.available] using hnone
    simp [hnil]
  · dsimp only
    split_ifs
    · rw [(sendFrame_sendAck _ now).recvQueue]
      exact ⟨hchunk, hrest⟩
    · exact ⟨hchunk, hrest⟩

theorem onTick_of_closed (h : c.Basic) (hst : c.state = .closed) (now : Time) :
    (c.onTick now).state = .closed ∧ (c.onTick now).recvQueue = c.recvQueue := by
  have hold : c.retxQueue.oldest = none := by
    rw [RetransmitQueue.oldest, (h.idle (.inl hst)).2]
    rfl
  unfold onTick
  dsimp only
  have hack : ∀ b, b = (if due c.delayedAckAt now = true then c.sendAck now else c) →
      b.state = .closed ∧ b.recvQueue = c.recvQueue ∧ b.retxQueue.oldest = none := by
    rintro b rfl
    rw [sendAck_of_closed hst]
    split_ifs <;> exact ⟨hst, rfl, hold⟩
  obtain ⟨hst1, hrecv1, hold1⟩ := hack _ rfl
  generalize (if due c.delayedAckAt now = true then c.sendAck now else c) = b at hst1 hrecv1 hold1 ⊢
  have hretx : ∀ d, d = (if due b.retransmitAt now = true then b.onRetransmitTimeout now else b) →
      d.state = .closed ∧ d.recvQueue = c.recvQueue := by
    rintro d rfl
    simp only [onRetransmitTimeout, hold1]
    split_ifs <;> exact ⟨hst1, hrecv1⟩
  obtain ⟨hst2, hrecv2⟩ := hretx _ rfl
  generalize (if due b.retransmitAt now = true then b.onRetransmitTimeout now else b) = d at hst2 hrecv2 ⊢
  obtain ⟨delay, hprobe⟩ := onPersistTimeout_of_closed hst2 now
  rw [hprobe]
  split_ifs with h1 h2 h3 <;> simp_all

/-! ### What the end of a connection leaves to read -/

/-- The timers keep the receive queue, or tear the connection down. -/
def KeepsInput (c d : TCPConnection) : Prop :=
  d.state = c.state ∧ d.recvQueue = c.recvQueue ∨ d.state = .closed ∧ d.recvQueue = c.recvQueue.clear

theorem KeepsInput.timed : Timed KeepsInput where
  refl _ := .inl ⟨rfl, rfl⟩
  trans h h' := by
    rcases h' with ⟨hst', hrecv'⟩ | ⟨hst', hrecv'⟩
    · unfold KeepsInput
      rw [hst', hrecv']
      exact h
    · right
      refine ⟨hst', hrecv'.trans ?_⟩
      rcases h with ⟨-, hrecv⟩ | ⟨-, hrecv⟩ <;> rw [hrecv]
      rfl
  emit _ _ _ _ _ := .inl ⟨rfl, rfl⟩
  remember _ _ _ _ := .inl ⟨rfl, rfl⟩
  nxt _ _ := .inl ⟨rfl, rfl⟩
  count _ _ := .inl ⟨rfl, rfl⟩
  persist _ _ := .inl ⟨rfl, rfl⟩
  relax _ := .inl ⟨rfl, rfl⟩
  window _ _ := .inl ⟨rfl, rfl⟩
  sendAck c now := .inl ⟨(sendFrame_sendAck c now).state, (sendFrame_sendAck c now).recvQueue⟩
  backoff _ := .inl ⟨rfl, rfl⟩
  delay _ _ _ := .inl ⟨rfl, rfl⟩
  teardown _ := .inr ⟨rfl, rfl⟩

/-- What the payload of the segment that ends LAST_ACK leaves in the cleared queue. -/
def leftover (c : TCPConnection) (seg : TCPSegment) : Bytes :=
  if c.recvQueue.clear.takesIn seg.seq seg.payload then
    (c.recvQueue.fresh seg.seq seg.payload).take c.recvQueue.capacity
  else []

theorem readable_of_lastAck (hends : c.EndsLastAck seg) (hrst : seg.isRst = false) (srcIp : Option Bytes)
    (draw : SeqNo) : (c.onSegment seg srcIp draw now).1.recvQueue.readable = c.leftover seg := by
  obtain ⟨hst, hsyn, hacc, hack, finSeq, hfin, hge⟩ := hends
  have hproc : c.processes seg = true := by simp [processes, hst, TcpState.isSynchronised, hrst, hsyn, hacc]
  obtain ⟨d, hdone, -, heq⟩ := onSegment_payloadDone srcIp draw now hproc
  have hclear : c.queueAfterAck seg = c.recvQueue.clear := if_pos ⟨hst, by simp [acksFin, hack, hfin, hge]⟩
  have hwithin : c.recvQueue.clear.Within := Nat.zero_le _
  have hd : d.recvQueue.readable = c.leftover seg := by
    rw [hdone.recvQueue, hclear]
    unfold leftover
    cases htakes : c.recvQueue.clear.takesIn seg.seq seg.payload with
    | true =>
      have hparts := htakes
      simp only [ReceiveQueue.takesIn, Bool.and_eq_true, decide_eq_true_eq, Bool.not_eq_true'] at hparts
      obtain ⟨⟨⟨hne, -⟩, hgt⟩, hlt⟩ := hparts
      obtain ⟨n, hins⟩ := ReceiveQueue.insert_of_due hne hgt hlt
      have haccept := ReceiveQueue.Within.accept_of_nothing_parked
        (q := { c.recvQueue.clear with duplicates := n }) hwithin rfl (c.recvQueue.clear.fresh seg.seq seg.payload)
      rw [hins, haccept, if_pos rfl]
      rfl
    | false => exact (hwithin.insert_of_not_takesIn htakes).2
  rw [heq]
  split_ifs with hisFin
  · rw [(handleFin_readable d seg now hisFin).1, hd]
  · exact hd

end TCPConnection

namespace Endpoint

open TCPConnection

variable {p q : Endpoint} {e : Event}

/-! ### Later calls -/

/-- The application reads, and the network and the clock go on. -/
def Reading : Event → Prop
  | .recv maxBytes _ => 0 < maxBytes
  | .tick _ | .segment .. => True
  | _ => False

/-- Whenever a later `recv()` returns nothing, the earlier ones have returned all of `unread`, in order. -/
def StillReturned (q : Endpoint) (unread : Bytes) : Prop :=
  ∀ es, (∀ e ∈ es, Reading e) → ∀ n now, 0 < n → ((endpoint.run q es).conn.recv n now).2 = [] →
    q.returned ++ unread <+: (endpoint.run q es).returned

/-- On a closed connection reading moves the readable bytes to the application, and nothing else touches them. -/
theorem reading_step (hq : endpoint.Reachable q) (hst : q.conn.state = .closed) (he : Reading e) :
    (q.step e).conn.state = .closed ∧ (q.step e).returned ++ (q.step e).conn.recvQueue.readable =
      q.returned ++ q.conn.recvQueue.readable := by
  cases e with
  | recv maxBytes now =>
    obtain ⟨hdata, hrest⟩ := recv_eq (within_of_reachable hq) maxBytes now
    refine ⟨(recv_window q.conn maxBytes now).1.trans hst, ?_⟩
    show q.returned ++ (q.conn.recv maxBytes now).2 ++ (q.conn.recv maxBytes now).1.recvQueue.readable = _
    rw [hdata, hrest, List.append_assoc, List.take_append_drop]
  | tick now =>
    obtain ⟨hst', hrecv⟩ := onTick_of_closed (basic_of_reachable hq) hst now
    exact ⟨hst', by simp [step, hrecv]⟩
  | segment seg srcIp draw now =>
    have hframe := sendFrame_reject (q.conn.stamp now) seg now
    simp only [step, put_conn, put_returned, onSegment_of_closed srcIp draw now hst]
    exact ⟨hframe.state.trans hst, by rw [hframe.recvQueue]; rfl⟩
  | _ => exact he.elim

theorem stillReturned_iff (hq : endpoint.Reachable q) (hst : q.conn.state = .closed) (unread : Bytes) :
    q.StillReturned unread ↔ unread <+: q.conn.recvQueue.readable := by
  have hrun : ∀ es, (∀ e ∈ es, Reading e) → endpoint.Reachable (endpoint.run q es) ∧
      (endpoint.run q es).conn.state = .closed ∧
      (endpoint.run q es).returned ++ (endpoint.run q es).conn.recvQueue.readable =
        q.returned ++ q.conn.recvQueue.readable := by
    intro es hes
    have hmeets : endpoint.Meets (fun _ e => Reading e) q es := (endpoint.meets_const q es).mpr hes
    refine endpoint.run_induction (P := fun s => endpoint.Reachable s ∧ s.conn.state = .closed ∧
      s.returned ++ s.conn.recvQueue.readable = q.returned ++ q.conn.recvQueue.readable) ?_ ⟨hq, hst, rfl⟩ hmeets
    rintro s e ⟨hs, hclosed, hkept⟩ he
    obtain ⟨hclosed', hkept'⟩ := reading_step hs hclosed he
    exact ⟨hs.step endpoint e trivial, hclosed', hkept'.trans hkept⟩
  constructor
  · intro h
    -- one call that asks for everything, and the next one returns nothing
    have hall := h [.recv (q.conn.recvQueue.readable.length + 1) 0] (by simp [Reading]) 1 0 Nat.one_pos
    obtain ⟨hdata, hrest⟩ := recv_eq (within_of_reachable hq) (q.conn.recvQueue.readable.length + 1) 0
    obtain ⟨hreach, -, -⟩ := hrun [.recv (q.conn.recvQueue.readable.length + 1) 0] (by simp [Reading])
    have hnone := (recv_eq (within_of_reachable hreach) 1 0).1
    have hempty : (endpoint.run q [.recv (q.conn.recvQueue.readable.length + 1) 0]).conn.recvQueue.readable = [] :=
      hrest.trans (List.drop_eq_nil_of_le (Nat.le_succ _))
    rw [hempty, List.take_nil] at hnone
    have hret : (endpoint.run q [.recv (q.conn.recvQueue.readable.length + 1) 0]).returned =
        q.returned ++ q.conn.recvQueue.readable := by
      show q.returned ++ (q.conn.recv (q.conn.recvQueue.readable.length + 1) 0).2 = _
      rw [hdata, List.take_of_length_le (Nat.le_succ _)]
    rw [hret] at hall
    exact (List.prefix_append_right_inj _).mp (hall hnone)
  · intro hprefix es hes n now hn hnone
    obtain ⟨hreach, -, hkept⟩ := hrun es hes
    have hempty : (endpoint.run q es).conn.recvQueue.readable = [] := by
      rw [(recv_eq (within_of_reachable hreach) n now).1, List.take_eq_nil_iff] at hnone
      exact hnone.resolve_left hn.ne'
    rw [hempty, List.append_nil] at hkept
    rw [hkept]
    exact (List.prefix_append_right_inj _).mpr hprefix

/-! ### The end of a connection -/

/-- The event ends LAST_ACK with the ACK of the FIN, or TIME_WAIT with its timer. -/
def GracefulEnd (p : Endpoint) : Event → Prop
  | .segment seg _ _ _ => seg.isRst = false ∧ p.conn.EndsLastAck seg
  | .tick now => p.conn.state = .timeWait ∧ due p.conn.timeWaitUntil now = true
  | _ => False

/-- Nothing is unread; or else what is unread stands once more in the payload of the segment that ends
LAST_ACK. -/
def NothingUnread (p : Endpoint) : Event → Prop
  | .segment seg _ _ _ => p.conn.recvQueue.readable = [] ∨
      p.conn.recvQueue.clear.takesIn seg.seq seg.payload = true ∧
        p.conn.recvQueue.readable <+: (p.conn.recvQueue.fresh seg.seq seg.payload).take p.conn.recvQueue.capacity
  | _ => p.conn.recvQueue.readable = []

/-- At a graceful end everything that was not read yet is still returned. -/
def KeepsUnread (p : Endpoint) (e : Event) : Prop :=
  p.GracefulEnd e → (p.step e).StillReturned p.conn.recvQueue.readable

/-- At a graceful end nothing is unread. -/
def ReadBefore (p : Endpoint) (e : Event) : Prop := p.GracefulEnd e → p.NothingUnread e

theorem keepsUnread_iff (hp : endpoint.Reachable p) (e : Event) : p.KeepsUnread e ↔ p.ReadBefore e := by
  apply imp_congr_right
  intro hends
  have hq : endpoint.Reachable (p.step e) := hp.step endpoint e trivial
  cases e with
  | segment seg srcIp draw now =>
    obtain ⟨hrst, hlast⟩ := hends
    have hclosed : (p.step (.segment seg srcIp draw now)).conn.state = .closed :=
      (ends_step_iff (by simp [hlast.1]) _).mpr (.inr hlast)
    rw [stillReturned_iff hq hclosed]
    simp only [step, put_conn, readable_of_lastAck hlast hrst, leftover, NothingUnread]
    cases htakes : p.conn.recvQueue.clear.takesIn seg.seq seg.payload with
    | true =>
      simp only [if_true, true_and]
      exact ⟨.inr, fun h => h.elim (fun hnil => hnil ▸ List.nil_prefix) id⟩
    | false => simp
  | tick now =>
    obtain ⟨hst, hdue⟩ := hends
    have hclosed : (p.step (.tick now)).conn.state = .closed :=
      (ends_step_iff (by simp [hst]) _).mpr (.inr ⟨hst, hdue⟩)
    have hempty : (p.step (.tick now)).conn.recvQueue.readable = [] := by
      rcases KeepsInput.timed.onTick p.conn now with ⟨hsame, -⟩ | ⟨-, hclear⟩
      · rw [step, put_conn, hsame, hst] at hclosed
        cases hclosed
      · rw [step, put_conn, hclear]
        rfl
    rw [stillReturned_iff hq hclosed, hempty, List.prefix_nil]
    rfl
  | _ => exact hends.elim

/-- In a run every graceful end keeps what is unread exactly when at every graceful end nothing is. -/
theorem unread_kept_iff {es : List Event} (hp : endpoint.Reachable p) :
    endpoint.Meets KeepsUnread p es ↔ endpoint.Meets ReadBefore p es := by
  apply endpoint.meets_iff_meets (E := fun _ _ => True) (Q := fun q => endpoint.Reachable q)
  · exact fun q e hq _ _ => hq.step endpoint e trivial
  · exact fun q e hq _ => keepsUnread_iff hq e
  · exact endpoint.meets_true p es
  · exact hp

/-- A client in LAST_ACK that has not read two bytes, which it has acknowledged with the peer's FIN. -/
def unreadClient : Endpoint :=
  endpoint.run establishedClient
    [.segment { srcPort := 2000, dstPort := 1000, seq := 501, ack := 101, flags := FLAG_ACK ||| FLAG_FIN,
                window := 1000, payload := [7, 8] } none 0 0,
      .close 0]

theorem reachable_unreadClient : endpoint.Reachable unreadClient :=
  reachable_establishedClient.run endpoint (endpoint.meets_true _ _)

/-- The ACK of its FIN. -/
def finAck : Event :=
  .segment { srcPort := 2000, dstPort := 1000, seq := 504, ack := 102, flags := FLAG_ACK, window := 1000 } none 0 0

/-- Reading before that ACK comes in loses nothing. -/
theorem unread_kept_unreadClient :
    (unreadClient.step (.recv 2 0)).GracefulEnd finAck ∧
      endpoint.Meets KeepsUnread unreadClient [.recv 2 0, finAck] := by
  refine ⟨⟨by decide, by decide +kernel, by decide, by decide +kernel, by decide, 101, by decide +kernel, by decide⟩,
    (unread_kept_iff reachable_unreadClient).mpr ⟨False.elim, fun _ => .inl ?_, trivial⟩⟩
  decide +kernel

/-- When it comes in first, the two bytes are gone. -/
theorem unread_lost :
    endpoint.Reachable unreadClient ∧ unreadClient.conn.state = .lastAck ∧
      unreadClient.conn.recvQueue.readable = [7, 8] ∧ unreadClient.conn.rcvNxt = 504 ∧
      (unreadClient.step finAck).conn.state = .closed ∧
      ((unreadClient.step finAck).conn.recv 10 0).2 = [] ∧ ¬ unreadClient.KeepsUnread finAck := by
  refine ⟨reachable_unreadClient, by decide +kernel, by decide +kernel, by decide +kernel, by decide +kernel,
    by decide +kernel, ?_⟩
  intro hkeeps
  have hends : unreadClient.GracefulEnd finAck :=
    ⟨by decide, by decide +kernel, by decide, by decide +kernel, by decide, 101, by decide +kernel, by decide⟩
  have hall := hkeeps hends [] (by simp) 10 0 (by decide) (by decide +kernel)
  exact absurd hall (by decide +kernel)

end Endpoint

end MiniTcp
