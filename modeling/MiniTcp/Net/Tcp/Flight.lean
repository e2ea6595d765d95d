import MiniTcp.Net.Tcp.Reset

/-!
# `snd_nxt` and `snd_una`

`in_flight`, `unsent` and `peek` read the signed distance from `snd_una` to `snd_nxt`. Every event but
two keeps it between zero and one more than what is buffered: acknowledgements, also those beyond
`snd_nxt`, transmissions and writes all do (`InOrder.action`). The two are `close()`, whose FIN takes a
number that no buffered byte stands for, and `listen()`, which opens an object with the numbers of its
last life. `always_inOrder_iff` says of both exactly when they keep the distance.
-/

namespace MiniTcp

namespace TCPConnection

variable {c d : TCPConnection}

/-- The signed distance from `snd_una` to `snd_nxt` is not negative and exceeds the buffered bytes by
at most one. -/
def InOrder (c : TCPConnection) : Prop :=
  c.state ≠ .closed → 0 ≤ seqDiff c.sndNxt c.sndUna ∧
    seqDiff c.sndNxt c.sndUna ≤ c.sendQueue.buf.length + 1

/-- The same with the distance counted upwards from `snd_una`. -/
def Ordered (c : TCPConnection) : Prop :=
  c.state ≠ .closed → Serial.gap c.sendQueue.una c.sendQueue.nxt ≤ c.sendQueue.buf.length + 1

/-- As long as the buffer is less than half the ring, the signed distance is the count upwards. -/
theorem inOrder_iff_ordered (hbuf : c.sendQueue.buf.length + 1 < 2 ^ 31) : c.InOrder ↔ c.Ordered := by
  have hgap := Serial.gap_lt c.sendQueue.una c.sendQueue.nxt
  unfold InOrder Ordered sndNxt sndUna
  rw [seqDiff_eq]
  refine imp_congr_right fun _ => ⟨fun h => ?_, fun h => ?_⟩
  · have hhalf := Serial.diff_nonneg_iff.mp h.1
    have hle := h.2
    rw [Serial.diff_of_nonneg hhalf] at hle
    omega
  · have hhalf : 2 * Serial.gap c.sendQueue.una c.sendQueue.nxt < 2 ^ 32 := by omega
    rw [Serial.diff_of_nonneg hhalf]
    omega

namespace Ordered

theorem congr (h : Ordered c) (hstate : c.state = .closed → d.state = .closed)
    (hsend : d.sendQueue = c.sendQueue) : Ordered d := by
  intro hopen
  rw [hsend]
  exact h fun hst => hopen (hstate hst)

theorem of_syn {s : SeqNo} (huna : d.sendQueue.una = s) (hnxt : d.sendQueue.nxt = seqAdd s 1) :
    Ordered d := by
  intro _
  rw [huna, hnxt, seqAdd, Serial.gap_shift (by decide)]
  omega

theorem acknowledge {q : SendQueue} {ack : SeqNo} (h : Serial.gap q.una q.nxt ≤ q.buf.length + 1)
    (hbuf : q.buf.length + 1 < 2 ^ 31) (hgt : seqGt ack q.una = true) :
    Serial.gap (q.acknowledge ack).1.una (q.acknowledge ack).1.nxt ≤
      (q.acknowledge ack).1.buf.length + 1 := by
  obtain ⟨hpos, hhalf⟩ := seqGt_iff.mp hgt
  rw [SendQueue.acknowledge_of_gt hgt]
  dsimp only
  split_ifs with hbeyond
  · rw [Serial.gap_self]
    omega
  · -- the ACK is among the numbers in flight
    have hack : ack = Serial.shift q.una (Serial.gap q.una ack) := (Serial.shift_gap q.una ack).symm
    have hnxt : q.nxt = Serial.shift q.una (Serial.gap q.una q.nxt) := (Serial.shift_gap q.una q.nxt).symm
    have hle : Serial.gap q.una ack ≤ Serial.gap q.una q.nxt := by
      by_contra hlt
      refine hbeyond (seqLt_iff.mpr ?_)
      rw [hack, hnxt, Serial.lt_shift_iff (by omega) (by omega)]
      omega
    have hgap : Serial.gap ack q.nxt = Serial.gap q.una q.nxt - Serial.gap q.una ack := by
      conv_lhs => rw [hack, hnxt]
      exact Serial.gap_shift_shift hle (by omega)
    rw [hgap, List.length_drop]
    omega

theorem acknowledged (h : Ordered c) (hopen : c.state ≠ .closed)
    (hbuf : c.sendQueue.buf.length + 1 < 2 ^ 31) {ack : SeqNo} (t : Time)
    (hgt : seqGt ack c.sendQueue.una = true) {st : TcpState} :
    Ordered { c.acknowledged ack t with state := st } :=
  fun _ => acknowledge (h hopen) hbuf hgt

/-- New data is read out of the buffer at `snd_nxt`, so `snd_nxt` stays within it. -/
theorem push {q : SendQueue} {n : Nat} (hbuf : q.buf.length + 1 < 2 ^ 31)
    (hne : q.peek q.nxt n ≠ []) :
    Serial.gap q.una (seqAdd q.nxt (q.peek q.nxt n).length) ≤ q.buf.length + 1 := by
  unfold SendQueue.peek at hne ⊢
  dsimp only at hne ⊢
  split_ifs at hne ⊢ with hoff
  · exact absurd rfl hne
  · rw [not_or, seqDiff_eq] at hoff
    have hhalf := Serial.diff_nonneg_iff.mp (not_lt.mp hoff.1)
    have hoffset : (seqDiff q.nxt q.una).toNat = Serial.gap q.una q.nxt := by
      rw [seqDiff_eq, Serial.diff_of_nonneg hhalf, Int.toNat_natCast]
    rw [hoffset] at hne ⊢
    have hpos := List.length_pos_iff.mpr hne
    rw [List.length_take, List.length_drop] at hpos ⊢
    have hshift : seqAdd q.nxt (min n (q.buf.length - Serial.gap q.una q.nxt)) =
        Serial.shift q.una (Serial.gap q.una q.nxt +
          min n (q.buf.length - Serial.gap q.una q.nxt)) := by
      rw [seqAdd, ← Serial.shift_shift, Serial.shift_gap]
    rw [hshift, Serial.gap_shift (by omega)]
    omega

end Ordered

theorem Ordered.action {r : Bool} {e : Event} {q q' : Endpoint} (hclose : ∀ now, e ≠ .close now)
    (hlisten : e ≠ .listen) (hbuf : q.conn.sendQueue.buf.length + 1 < 2 ^ 31) (h : q.conn.Ordered)
    (ha : Action r e q q') : q'.conn.Ordered := by
  cases ha with
  | quiet hq => exact h.congr (fun hst => hq.state.trans hst) hq.sendQueue
  | listen he => exact absurd he hlisten
  | connect _ hconn =>
    obtain ⟨-, rfl⟩ := connect_eq hconn
    exact .of_syn rfl rfl
  | simultaneousOpen _ hstate =>
    simp only [Endpoint.put_conn]
    rw [handleSimultaneousOpen_eq]
    exact h.congr (fun hst => by rw [hstate] at hst; cases hst) rfl
  | retire t _ _ _ hstate hgt =>
    exact h.acknowledged (TcpState.ne_of_isSynchronised hstate).1 hbuf t hgt
  | establish t _ _ _ hstate =>
    have hopen : q.conn.state ≠ .closed := by
      rcases hstate with ⟨hst, -⟩ | hst <;> simp [hst]
    simp only [Endpoint.put_conn, settled]
    split_ifs with hgt
    · exact h.acknowledged hopen hbuf t hgt
    · exact fun _ => h hopen
  | push payload n now _ hpeek hne =>
    simp only [Endpoint.put_conn]
    rw [transmitData_eq _ now hne]
    subst hpeek
    exact fun _ => Ordered.push hbuf hne
  | resend now =>
    simp only [Endpoint.put_conn]
    rw [resend_eq]
    exact h.congr id rfl
  | fin he => exact absurd he (hclose _)
  | consumeFin =>
    exact h.congr (fun hst => by simp [Endpoint.put_conn, finTaken, hst]) (finTaken_spec _ _).1
  | advance _ _ _ _ _ hstate =>
    simp only [Endpoint.put_conn, finAcknowledged]
    rcases hstate with hst | hst | hst
    · rw [hst]
      exact h.congr (fun h' => by rw [hst] at h'; cases h') rfl
    · rw [hst]
      exact h.congr (fun h' => by rw [hst] at h'; cases h') rfl
    · rw [hst]
      exact fun hopen => absurd rfl hopen
  | reset | expire | drop => exact fun hopen => absurd rfl hopen
  | abort =>
    simp only [Endpoint.put_conn, TCPConnection.abort]
    exact fun hopen => absurd rfl hopen
  | write =>
    intro hopen
    have := h hopen
    simp only [Endpoint.put_conn, SendQueue.write_una, SendQueue.write_nxt, SendQueue.write_buf,
      List.length_append]
    omega
  | _ => exact h.congr id rfl

end TCPConnection

/-! ### Runs -/

namespace Endpoint

open TCPConnection

/-- What `close()` and `listen()` need: a FIN that takes the number after the buffered bytes at the
latest, and an object whose last life left at most one number in flight. -/
def KeepsOrder (p : Endpoint) : Event → Prop
  | .close _ => p.conn.state = .established ∨ p.conn.state = .closeWait →
      seqDiff p.conn.sndNxt p.conn.sndUna ≤ p.conn.sendQueue.buf.length
  | .listen => p.conn.state = .closed →
      0 ≤ seqDiff p.conn.sndNxt p.conn.sndUna ∧ seqDiff p.conn.sndNxt p.conn.sndUna ≤ 1
  | _ => True

variable {p : Endpoint}

theorem inOrder_close_iff (now : Time) (hbuf : p.conn.sendQueue.buf.length + 1 < 2 ^ 31)
    (h : p.conn.InOrder) : (p.step (.close now)).conn.InOrder ↔ KeepsOrder p (.close now) := by
  have hfin : ∀ st : TcpState, p.conn.state ≠ .closed →
      (({ p.conn.sendFin now with state := st } : TCPConnection).Ordered ↔
        (st ≠ .closed → seqDiff p.conn.sndNxt p.conn.sndUna ≤ p.conn.sendQueue.buf.length)) := by
    intro st hopen
    have hgap := (inOrder_iff_ordered hbuf).mp h hopen
    have hdiff : seqDiff p.conn.sndNxt p.conn.sndUna =
        Serial.gap p.conn.sendQueue.una p.conn.sendQueue.nxt := by
      rw [seqDiff_eq, sndNxt, sndUna]
      exact Serial.diff_of_nonneg (by omega)
    have hnext : Serial.gap p.conn.sendQueue.una (seqAdd p.conn.sendQueue.nxt 1) =
        Serial.gap p.conn.sendQueue.una p.conn.sendQueue.nxt + 1 := by
      conv_lhs => rw [← Serial.shift_gap p.conn.sendQueue.una p.conn.sendQueue.nxt, seqAdd,
        Serial.shift_shift]
      exact Serial.gap_shift (by omega)
    rw [sendFin_eq]
    unfold Ordered
    simp only [hnext, hdiff]
    refine imp_congr_right fun _ => ?_
    omega
  have hlen : ∀ st : TcpState,
      ({ p.conn.sendFin now with state := st } : TCPConnection).sendQueue.buf.length + 1 < 2 ^ 31 := by
    intro st
    rw [sendFin_eq]
    exact hbuf
  simp only [step, put_conn, KeepsOrder, TCPConnection.close]
  cases hst : p.conn.state with
  | established | closeWait =>
    simp only [inOrder_iff_ordered (hlen _), hfin _ (by simp [hst])]
    simp
  | synSent | synReceived =>
    have hclosed : (p.conn.abort now).state = .closed := rfl
    simp [InOrder, hclosed]
  | finWait1 | finWait2 | closing | lastAck | timeWait => simp [h]
  | closed | listen => simp [InOrder, notify]

theorem inOrder_listen_iff (hbasic : p.conn.Basic) (h : p.conn.InOrder) :
    (p.step .listen).conn.InOrder ↔ KeepsOrder p .listen := by
  simp only [step, KeepsOrder, TCPConnection.listen]
  by_cases hst : p.conn.state = .closed
  · have hbuf := (hbasic.idle (.inl hst)).1
    simp [hst, InOrder, sndUna, sndNxt, hbuf]
  · simp [hst, h]

/-- In every run of a connection whose send capacity is below `2^31 - 1`, the signed distance from
`snd_una` to `snd_nxt` stays between zero and one more than what is buffered, in every state but
CLOSED, exactly when `close()` and `listen()` are called only as `KeepsOrder` says. -/
theorem always_inOrder_iff (hp : p.Created) (hcap : p.conn.cfg.sendCapacity < 2 ^ 31 - 1)
    (es : List Event) :
    endpoint.Always (·.conn.InOrder) p es ↔ endpoint.Meets KeepsOrder p es := by
  have hbufOf : ∀ q : Endpoint, endpoint.Reachable q → q.conn.cfg = p.conn.cfg →
      q.conn.sendQueue.buf.length + 1 < 2 ^ 31 := by
    intro q hq hcfg
    have hbasic := basic_of_reachable hq
    have := hbasic.buf_le
    rw [hbasic.capacity, hcfg] at this
    omega
  refine endpoint.always_iff_meets (E := fun _ _ => True)
    (Q := fun q => endpoint.Reachable q ∧ q.conn.cfg = p.conn.cfg) ?_ ?_ (endpoint.meets_true _ _)
    ⟨.init endpoint hp, rfl⟩ ?_
  · rintro q e ⟨hq, hcfg⟩ - - -
    exact ⟨hq.step endpoint e trivial, (step_cfg q e).trans hcfg⟩
  · rintro q e ⟨hq, hcfg⟩ hord -
    have hbuf := hbufOf q hq hcfg
    by_cases hclose : ∃ now, e = .close now
    · obtain ⟨now, rfl⟩ := hclose
      exact inOrder_close_iff now hbuf hord
    · by_cases hlisten : e = .listen
      · subst hlisten
        exact inOrder_listen_iff (basic_of_reachable hq) hord
      · have hkeeps : KeepsOrder q e := by
          cases e <;> simp_all [KeepsOrder]
        refine iff_of_true ?_ hkeeps
        have hstep := keeps_step (e := e) (p := q)
          (I := fun r => r.conn.Ordered ∧ r.conn.Basic ∧ r.conn.cfg = p.conn.cfg) ?_
          ⟨(inOrder_iff_ordered hbuf).mp hord, basic_of_reachable hq, hcfg⟩
        · exact (inOrder_iff_ordered (hbufOf _ (hq.step endpoint e trivial)
            ((step_cfg q e).trans hcfg))).mpr hstep.1
        · rintro r r' ⟨hord', hbasic, hcfg'⟩ hact
          have hlen : r.conn.sendQueue.buf.length + 1 < 2 ^ 31 := by
            have := hbasic.buf_le
            rw [hbasic.capacity, hcfg'] at this
            omega
          exact ⟨hord'.action (fun now he => hclose ⟨now, he⟩) hlisten hlen hact, hbasic.action hact,
            hact.cfg.trans hcfg'⟩
  · rcases hp with ⟨cfg, rfl⟩ | ⟨cfg, seg, draw, now, -, -, rfl⟩
    · exact fun hopen => absurd rfl hopen
    · have hlen : (passive cfg seg draw now).conn.sendQueue.buf.length + 1 < 2 ^ 31 := by
        simp [passive, beginPassiveOpen_eq, SendQueue.new]
      refine (inOrder_iff_ordered hlen).mpr (.of_syn (s := (TCPConnection.new cfg).chooseIss draw) ?_ ?_)
      · simp only [passive, beginPassiveOpen_eq, SendQueue.new]
      · simp only [passive, beginPassiveOpen_eq, SendQueue.new]

/-- A handshake, data in flight, and a graceful close. -/
theorem inOrder_of_handshake_and_close :
    (Endpoint.new (.plain 100)).Created ∧
      (Endpoint.new (.plain 100)).conn.cfg.sendCapacity < 2 ^ 31 - 1 ∧
      endpoint.Always (·.conn.InOrder) (.new (.plain 100))
        [.connect 0 0, .segment synAck none 0 0, .send [1, 2, 3] 0, .close 0] :=
  ⟨.inl ⟨_, rfl⟩, by decide,
    (always_inOrder_iff (.inl ⟨_, rfl⟩) (by decide) _).mpr
      ⟨trivial, trivial, trivial, fun _ => (by decide), trivial⟩⟩

/-- A SYN+ACK whose ACK lies exactly half the ring beyond the SYN's number. -/
def farSynAck : TCPSegment :=
  { srcPort := 2000, dstPort := 1000, seq := 500, ack := 0x80000064, flags := FLAG_SYN ||| FLAG_ACK,
    window := 1000 }

/-- That SYN+ACK establishes the connection with the SYN still in flight, and `close()` then puts
`snd_nxt` two beyond `snd_una` with nothing buffered. -/
theorem close_overshoots :
    let p := endpoint.run (.new (.plain 100)) [.connect 0 0, .segment farSynAck none 0 0]
    endpoint.Reachable p ∧ p.conn.cfg.sendCapacity < 2 ^ 31 - 1 ∧ p.conn.state = .established ∧
      (p.step (.close 0)).conn.state = .finWait1 ∧
      seqDiff (p.step (.close 0)).conn.sndNxt (p.step (.close 0)).conn.sndUna = 2 ∧
      (p.step (.close 0)).conn.sendQueue.buf.length = 0 :=
  ⟨(Machine.ReachableBy.init endpoint (.inl ⟨_, rfl⟩)).run endpoint (endpoint.meets_true _ _),
    by decide, by decide, by decide, by decide, by decide⟩

end Endpoint

end MiniTcp
