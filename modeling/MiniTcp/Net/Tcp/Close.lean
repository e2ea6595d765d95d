import MiniTcp.Net.Tcp.Emission
import MiniTcp.Net.Tcp.Reassembly

/-!
# Graceful close

`close()` puts the FIN at `snd_nxt`. As long as the peer acknowledges only what was sent, `snd_una` and
`snd_nxt` are the numbers of two bytes of the accepted stream, the buffer is what lies beyond `snd_una`,
and every byte before `snd_nxt` was transmitted (`Streamed`). So the FIN follows the last accepted byte
exactly when nothing in the buffer is still unsent, and then no data goes out behind it (`Finishing`).
Otherwise the FIN takes the number of the first unsent byte.
-/

namespace MiniTcp

open Stream (At)
open TCPConnection

/-- The segment carries byte `i` of the stream `s` that follows `iss`, under its own number. -/
def TCPSegment.Carries (iss : SeqNo) (s : Bytes) (i : Nat) (seg : TCPSegment) : Prop :=
  ∃ k, seg.seq = streamSeq iss k ∧ At s k seg.payload ∧ k ≤ i ∧ i < k + seg.payload.length

theorem TCPSegment.Carries.of_isPrefix {iss : SeqNo} {s t : Bytes} {i : Nat} {x : TCPSegment}
    (h : x.Carries iss s i) (hst : s <+: t) : x.Carries iss t i := by
  obtain ⟨k, hseq, hat, hrange⟩ := h
  exact ⟨k, hseq, hat.of_isPrefix hst, hrange⟩

namespace Endpoint

/-- The peer acknowledges only what was sent. -/
def Honest (p : Endpoint) (e : Event) : Prop :=
  ∀ seg, e.inbound = some seg → seg.isAck = true → seg.isRst = false →
    p.conn.state ≠ .closed → p.conn.state ≠ .listen → seqGt seg.ack p.conn.sndNxt = false

/-- In the midst of a call: the acknowledgement is still one of what was sent, or it was already taken. -/
def Faithful (e : Event) (p : Endpoint) : Prop :=
  ∀ seg, e.inbound = some seg → seg.isAck = true → seg.isRst = false →
    p.conn.state = .closed ∨ p.conn.state = .listen ∨ seqGt seg.ack p.conn.sendQueue.nxt = false ∨
      (p.conn.state.isSynchronised = true ∧ seqGt seg.ack p.conn.sendQueue.una = false)

variable {r : Bool} {e : Event} {p q q' : Endpoint} {k : Nat}

theorem Honest.faithful (h : Honest p e) : Faithful e p := by
  intro seg hseg hack hrst
  by_cases hclosed : p.conn.state = .closed
  · exact .inl hclosed
  by_cases hlisten : p.conn.state = .listen
  · exact .inr (.inl hlisten)
  exact .inr (.inr (.inl (h seg hseg hack hrst hclosed hlisten)))

namespace Faithful

theorem congr (h : Faithful e q) (hstate : q'.conn.state = q.conn.state)
    (hsend : q'.conn.sendQueue = q.conn.sendQueue) : Faithful e q' := by
  unfold Faithful
  rw [hstate, hsend]
  exact h

theorem of_closed (h : q.conn.state = .closed) : Faithful e q := fun _ _ _ _ => .inl h

theorem of_processed (hsync : q.conn.state.isSynchronised = true) (hdone : e.Processed q.conn) :
    Faithful e q := fun seg hseg _ _ => .inr (.inr (.inr ⟨hsync, hdone seg hseg⟩))

theorem of_sync (h : Faithful e q) (hsync : q.conn.state.isSynchronised = true)
    (hsync' : q'.conn.state.isSynchronised = true)
    (hsend : q'.conn.sendQueue = q.conn.sendQueue) : Faithful e q' := by
  intro seg hseg hack hrst
  have hne := TcpState.ne_of_isSynchronised hsync
  rw [hsend]
  rcases h seg hseg hack hrst with hst | hst | hnxt | ⟨-, huna⟩
  · exact absurd hst hne.1
  · exact absurd hst hne.2.1
  · exact .inr (.inr (.inl hnxt))
  · exact .inr (.inr (.inr ⟨hsync', huna⟩))

/-- The ACK of a segment that was not processed yet is not beyond `snd_nxt`. -/
theorem not_beyond {seg : TCPSegment} (h : Faithful e q) (hseg : e.inbound = some seg)
    (hack : seg.isAck = true) (hrst : seg.isRst = false) (hclosed : q.conn.state ≠ .closed)
    (hlisten : q.conn.state ≠ .listen)
    (hnew : q.conn.state.isSynchronised = true → seqGt seg.ack q.conn.sendQueue.una = true) :
    seqGt seg.ack q.conn.sendQueue.nxt = false := by
  rcases h seg hseg hack hrst with hst | hst | hnxt | ⟨hsync, huna⟩
  · exact absurd hst hclosed
  · exact absurd hst hlisten
  · exact hnxt
  · rw [hnew hsync] at huna
    cases huna

theorem processed_acknowledge {seg : TCPSegment} {srcIp : Option Bytes} {draw : SeqNo} {now : Time}
    {c : TCPConnection} (he : e = .segment seg srcIp draw now) (huna : c.sendQueue.una = seg.ack) :
    e.Processed c := by
  rintro x hx
  subst he
  obtain rfl := Option.some.inj hx
  rw [huna, ← Bool.not_eq_true, seqGt_iff]
  exact Serial.not_lt_self _

theorem action (h : Faithful e q) (ha : Action r e q q') : Faithful e q' := by
  cases ha with
  | quiet hq => exact h.congr hq.state hq.sendQueue
  | @simultaneousOpen seg _ _ now he hstate =>
    intro x hx hack hrst
    rw [put_conn, handleSimultaneousOpen_eq]
    rcases h x hx hack hrst with hst | hst | hnxt | ⟨hst, -⟩
    · rw [hstate] at hst; cases hst
    · rw [hstate] at hst; cases hst
    · exact .inr (.inr (.inl hnxt))
    · rw [hstate] at hst; cases hst
  | @retire seg _ _ _ t he _ _ hstate hgt =>
    refine of_processed hstate (processed_acknowledge he ?_)
    simp only [put_conn, acknowledged, SendQueue.acknowledge_of_gt hgt]
  | @establish seg _ _ _ t he =>
    refine of_processed (by unfold settled; rfl) ?_
    by_cases hgt : seqGt seg.ack q.conn.sendQueue.una = true
    · refine processed_acknowledge he ?_
      rw [put_conn, settled, if_pos hgt]
      simp only [acknowledged, SendQueue.acknowledge_of_gt hgt]
    · rintro x hx
      subst he
      obtain rfl := Option.some.inj hx
      rw [put_conn, settled, if_neg hgt]
      simpa using hgt
  | push payload n now hstate _ hne hdone =>
    rw [transmitData_eq _ now hne]
    exact of_processed hstate (hdone.of_una rfl)
  | resend now =>
    rw [resend_eq]
    exact h.congr rfl rfl
  | @consumeFin _ _ _ now =>
    have hsend := (finTaken_spec q.conn now).1
    rcases finTaken_state q.conn now with hst | ⟨hst, hst'⟩
    · exact h.congr hst hsend
    · exact h.of_sync hst hst' hsend
  | advance _ _ _ _ _ hstate =>
    have hsync : q.conn.state.isSynchronised = true := by
      rcases hstate with hst | hst | hst <;> rw [hst] <;> rfl
    unfold finAcknowledged
    split
    · exact h.of_sync hsync rfl rfl
    · exact h.of_sync hsync rfl rfl
    · exact of_closed rfl
  | abort =>
    rw [abort_eq]
    exact of_closed rfl
  | reset | expire | drop => exact of_closed rfl
  | listen he | connect he | fin he | write he =>
    subst he
    exact fun _ hx => by cases hx
  | _ => exact h.congr rfl rfl

end Faithful

/-! ### While the application writes -/

/-- `snd_una` is the number of byte `k` of the accepted stream, the buffer is what follows, every byte
before `snd_nxt` was transmitted, and whatever may be sent again is a piece of the stream. -/
structure Streamed (k : Nat) (p : Endpoint) : Prop where
  una : p.conn.sendQueue.una = streamSeq p.conn.iss k
  buf : p.conn.sendQueue.buf = p.accepted.drop k
  le : k + Serial.gap p.conn.sendQueue.una p.conn.sendQueue.nxt ≤ p.accepted.length
  carried : ∀ i < k + Serial.gap p.conn.sendQueue.una p.conn.sendQueue.nxt,
    ∃ x ∈ p.conn.sent, x.Carries p.conn.iss p.accepted i
  retx : ∀ y ∈ p.conn.retxQueue.segments, y.payload ≠ [] →
    ∃ i, y.seq = streamSeq p.conn.iss i ∧ At p.accepted i y.payload

namespace Streamed

theorem nxt (h : Streamed k p) : p.conn.sendQueue.nxt =
    streamSeq p.conn.iss (k + Serial.gap p.conn.sendQueue.una p.conn.sendQueue.nxt) := by
  rw [← seqAdd_streamSeq, ← h.una]
  exact (Serial.shift_gap _ _).symm

theorem length (h : Streamed k p) : p.accepted.length = k + p.conn.sendQueue.buf.length := by
  have hle := h.le
  rw [h.buf, List.length_drop]
  omega

theorem peek (h : Streamed k p) {n : Nat} (hne : p.conn.sendQueue.peek p.conn.sendQueue.nxt n ≠ []) :
    At p.accepted (k + Serial.gap p.conn.sendQueue.una p.conn.sendQueue.nxt)
      (p.conn.sendQueue.peek p.conn.sendQueue.nxt n) := by
  unfold SendQueue.peek at hne ⊢
  dsimp only at hne ⊢
  split_ifs at hne ⊢ with hoff
  · exact absurd rfl hne
  · rw [not_or, seqDiff_eq] at hoff
    have hhalf := Serial.diff_nonneg_iff.mp (not_lt.mp hoff.1)
    rw [seqDiff_eq, Serial.diff_of_nonneg hhalf, Int.toNat_natCast, h.buf, List.drop_drop]
    exact Stream.at_drop_take _ _ _

theorem emission (h : Streamed k q) {x : TCPSegment} (hx : Emission r e q q' x) (hne : x.payload ≠ []) :
    ∃ i, x.seq = streamSeq q.conn.iss i ∧ At q.accepted i x.payload := by
  cases hx with
  | data payload n _ hpeek =>
    subst hpeek
    exact ⟨_, h.nxt, h.peek hne⟩
  | resent hold => exact h.retx _ (List.mem_of_mem_head? hold) hne
  | rejection =>
    refine absurd ?_ hne
    unfold TCPConnection.rejection
    split_ifs <;> rfl
  | ack | syn | synAck | fin | abort => exact absurd rfl hne

theorem retx_action (h : Streamed k q) (ha : Action r e q q') :
    ∀ y ∈ q'.conn.retxQueue.segments, y.payload ≠ [] →
      ∃ i, y.seq = streamSeq q.conn.iss i ∧ At q.accepted i y.payload := by
  intro y hy hne
  rcases ha.retx hy with ⟨x, hx, hseq, -, hpayload⟩ | ⟨x, hx, -, hseq, -, hpayload⟩
  · rw [hseq, hpayload]
    exact h.retx x hx (hpayload ▸ hne)
  · rw [hseq, hpayload]
    exact h.emission hx (hpayload ▸ hne)

theorem congr (h : Streamed k q) (ha : Action r e q q') (hiss : q'.conn.iss = q.conn.iss)
    (hacc : q'.accepted = q.accepted) (hsend : q'.conn.sendQueue = q.conn.sendQueue) :
    Streamed k q' where
  una := by rw [hsend, hiss]; exact h.una
  buf := by rw [hsend, hacc]; exact h.buf
  le := by rw [hsend, hacc]; exact h.le
  carried := by
    intro i hi
    rw [hsend] at hi
    obtain ⟨x, hx, hcarries⟩ := h.carried i hi
    rw [hiss, hacc]
    exact ⟨x, ha.mem_sent hx, hcarries⟩
  retx := by
    rw [hiss, hacc]
    exact h.retx_action ha

theorem acknowledged (h : Streamed k q) {ack : SeqNo} (t : Time)
    (hgt : seqGt ack q.conn.sendQueue.una = true) (hno : seqGt ack q.conn.sendQueue.nxt = false) :
    Streamed (k + Serial.gap q.conn.sendQueue.una ack) (q.put (q.conn.acknowledged ack t)) := by
  obtain ⟨hle, hgap⟩ := Serial.gap_sub (seqGt_iff.mp hgt)
    (fun hlt => by rw [seqGt_iff.mpr hlt] at hno; cases hno)
  have hclamp : seqLt q.conn.sendQueue.nxt ack = false := hno
  have htotal : k + Serial.gap q.conn.sendQueue.una ack + Serial.gap ack q.conn.sendQueue.nxt =
      k + Serial.gap q.conn.sendQueue.una q.conn.sendQueue.nxt := by omega
  have hack : ack = streamSeq q.conn.iss (k + Serial.gap q.conn.sendQueue.una ack) := by
    rw [← seqAdd_streamSeq, ← h.una]
    exact (Serial.shift_gap _ _).symm
  simp only [TCPConnection.acknowledged, SendQueue.acknowledge_of_gt hgt, hclamp, Bool.false_eq_true,
    if_false]
  exact
    { una := hack
      buf := by
        rw [put_conn, h.buf, List.drop_drop]
        rfl
      le := by
        rw [put_conn, htotal]
        exact h.le
      carried := by
        intro i hi
        rw [put_conn, htotal] at hi
        exact h.carried i hi
      retx := fun y hy => h.retx y (List.mem_filter.mp hy).1 }

theorem transmitData (h : Streamed k q) {payload : Bytes} {n : Nat} (now : Time)
    (hpeek : payload = q.conn.sendQueue.peek q.conn.sendQueue.nxt n) (hne : payload ≠ [])
    (ha : Action r e q (q.put (q.conn.transmitData payload now))) :
    Streamed k (q.put (q.conn.transmitData payload now)) := by
  have hat : At q.accepted (k + Serial.gap q.conn.sendQueue.una q.conn.sendQueue.nxt) payload := by
    subst hpeek
    exact h.peek hne
  have hgap : Serial.gap q.conn.sendQueue.una (seqAdd q.conn.sendQueue.nxt payload.length) ≤
      Serial.gap q.conn.sendQueue.una q.conn.sendQueue.nxt + payload.length := by
    have hshift : seqAdd q.conn.sendQueue.nxt payload.length = Serial.shift q.conn.sendQueue.una
        (Serial.gap q.conn.sendQueue.una q.conn.sendQueue.nxt + payload.length) := by
      rw [seqAdd, ← Serial.shift_shift, Serial.shift_gap]
    rw [hshift, Serial.gap_shift_mod]
    exact Nat.mod_le _ _
  have hlen := hat.length_le hne
  have hretx := h.retx_action ha
  rw [put_conn, transmitData_eq _ now hne] at hretx
  rw [transmitData_eq _ now hne]
  exact
    { una := h.una
      buf := h.buf
      le := by
        simp only [put_conn, put_accepted]
        omega
      carried := by
        intro i hi
        simp only [put_conn] at hi
        by_cases hold : i < k + Serial.gap q.conn.sendQueue.una q.conn.sendQueue.nxt
        · obtain ⟨x, hx, hcarries⟩ := h.carried i hold
          exact ⟨x, List.mem_append_left _ hx, hcarries⟩
        · refine ⟨q.conn.dataSegment payload, List.mem_append_right _ List.mem_cons_self, _, h.nxt, hat,
            by omega, ?_⟩
          have hpayload : (q.conn.dataSegment payload).payload = payload := rfl
          rw [hpayload]
          omega
      retx := hretx }

theorem write (h : Streamed k q) (data : Bytes) :
    Streamed k { q.put { q.conn with sendQueue := (q.conn.sendQueue.write data).1 } with
      accepted := q.accepted ++ data.take (q.conn.sendQueue.write data).2 } := by
  have hgrow : q.accepted <+: q.accepted ++ data.take (q.conn.sendQueue.write data).2 :=
    List.prefix_append _ _
  have hle := h.le
  exact
    { una := (SendQueue.write_una _ data).trans h.una
      buf := by
        refine (SendQueue.write_buf _ data).trans ?_
        rw [h.buf, List.drop_append_of_le_length (by omega)]
      le := by
        simp only [put_conn, SendQueue.write_una, SendQueue.write_nxt, List.length_append]
        omega
      carried := by
        intro i hi
        simp only [put_conn, SendQueue.write_una, SendQueue.write_nxt] at hi
        obtain ⟨x, hx, hcarries⟩ := h.carried i hi
        exact ⟨x, hx, hcarries.of_isPrefix hgrow⟩
      retx := by
        intro y hy hne
        obtain ⟨i, hseq, hat⟩ := h.retx y hy hne
        exact ⟨i, hseq, hat.of_isPrefix hgrow⟩ }

end Streamed

/-- Nothing is accepted before the handshake is over, and until `close()` the stream is in order. -/
structure Sending (p : Endpoint) : Prop where
  opening : p.conn.state = .synSent ∨ p.conn.state = .synReceived →
    p.accepted = [] ∧ ∀ y ∈ p.conn.retxQueue.segments, y.payload = []
  flowing : p.conn.state = .established ∨ p.conn.state = .closeWait → ∃ k, Streamed k p

theorem emission_payload {x : TCPSegment} (hx : Emission r e q q' x) (hne : x.payload ≠ []) :
    q.conn.state.isSynchronised = true ∨
      ∃ y ∈ q.conn.retxQueue.segments, x.payload = y.payload := by
  cases hx with
  | data _ _ hsync => exact .inl hsync
  | resent hold => exact .inr ⟨_, List.mem_of_mem_head? hold, rfl⟩
  | rejection =>
    refine absurd ?_ hne
    unfold TCPConnection.rejection
    split_ifs <;> rfl
  | ack | syn | synAck | fin | abort => exact absurd rfl hne

theorem finTaken_flowing {c : TCPConnection} {now : Time}
    (h : (c.finTaken now).state = .established ∨ (c.finTaken now).state = .closeWait) :
    c.state = .established ∨ c.state = .closeWait := by
  unfold TCPConnection.finTaken at h
  dsimp only at h
  split at h
  · rename_i hst
    exact .inl hst
  · split_ifs at h <;> rcases h with h | h <;> cases h
  · rcases h with h | h <;> cases h
  · rcases h with h | h <;> cases h
  · exact h

namespace Sending

theorem idle (hopening : ¬ (p.conn.state = .synSent ∨ p.conn.state = .synReceived))
    (hflowing : ¬ (p.conn.state = .established ∨ p.conn.state = .closeWait)) : Sending p :=
  ⟨fun h => absurd h hopening, fun h => absurd h hflowing⟩

theorem of_closed (h : p.conn.state = .closed) : Sending p :=
  idle (by simp [h]) (by simp [h])

theorem congr (h : Sending q) (ha : Action r e q q') (hiss : q'.conn.iss = q.conn.iss)
    (hacc : q'.accepted = q.accepted) (hsend : q'.conn.sendQueue = q.conn.sendQueue)
    (hopening : q'.conn.state = .synSent ∨ q'.conn.state = .synReceived →
      q.conn.state = .synSent ∨ q.conn.state = .synReceived)
    (hflowing : q'.conn.state = .established ∨ q'.conn.state = .closeWait →
      q.conn.state = .established ∨ q.conn.state = .closeWait) : Sending q' where
  opening := by
    intro hst
    obtain ⟨hnil, hretx⟩ := h.opening (hopening hst)
    refine ⟨hacc.trans hnil, fun y hy => ?_⟩
    rcases ha.retx hy with ⟨x, hx, -, -, hpayload⟩ | ⟨x, hx, -, -, -, hpayload⟩
    · rw [hpayload]
      exact hretx x hx
    · rw [hpayload]
      by_contra hne
      rcases emission_payload hx hne with hsync | ⟨z, hz, heq⟩
      · rcases hopening hst with hst' | hst' <;> rw [hst'] at hsync <;> cases hsync
      · exact hne (heq.trans (hretx z hz))
  flowing := by
    intro hst
    obtain ⟨k, hk⟩ := h.flowing (hflowing hst)
    exact ⟨k, hk.congr ha hiss hacc hsend⟩

theorem settled (h : Sending q) (hbasic : q.conn.Basic) {ack : SeqNo} (t : Time)
    (hstate : q.conn.state = .synSent ∨ q.conn.state = .synReceived)
    (hge : seqGe ack (seqAdd q.conn.iss 1) = true) (hno : seqGt ack q.conn.sendQueue.nxt = false) :
    Streamed 0 (q.put (q.conn.settled ack t)) := by
  obtain ⟨-, hnxt, hbuf⟩ := hbasic.handshake hstate
  obtain ⟨hnil, hretx⟩ := h.opening hstate
  have hack : ack = seqAdd q.conn.iss 1 := by
    rcases seqGe_iff.mp hge with heq | hlt
    · exact heq.symm
    · rw [← Bool.not_eq_true, hnxt, seqGt_iff] at hno
      exact absurd hlt hno
  have hgt : seqGt ack q.conn.sendQueue.una = true := hack ▸ (hbasic.acknowledge_syn hstate).1
  have hgap : Serial.gap ack q.conn.sendQueue.nxt = 0 := by
    rw [hnxt, hack]
    exact Serial.gap_self _
  rw [TCPConnection.settled, if_pos hgt]
  simp only [TCPConnection.acknowledged, SendQueue.acknowledge_of_gt hgt,
    show seqLt q.conn.sendQueue.nxt ack = false from hno, Bool.false_eq_true, if_false]
  exact
    { una := hack
      buf := by simp [hbuf, hnil]
      le := by simp [hgap]
      carried := by
        intro i hi
        simp only [put_conn, hgap] at hi
        omega
      retx := fun y hy hne => absurd (hretx y (List.mem_filter.mp hy).1) hne }

theorem action (h : Sending q) (hbasic : q.conn.Basic) (hfaith : Faithful e q)
    (ha : Action r e q q') : Sending q' := by
  have hact := ha
  cases ha with
  | quiet hq => exact h.congr hact hq.iss rfl hq.sendQueue (hq.state ▸ id) (hq.state ▸ id)
  | ack | delay | reject | adopt | arm | disarm | insert | read =>
    exact h.congr hact rfl rfl rfl id id
  | listen => exact idle (by simp) (by simp)
  | reset | expire | drop => exact of_closed rfl
  | connect _ hconn =>
    obtain ⟨hclosed, rfl⟩ := connect_eq hconn
    refine ⟨fun _ => ⟨rfl, fun y hy => ?_⟩, fun hst => by rcases hst with hst | hst <;> cases hst⟩
    rcases hact.retx hy with ⟨x, hx, -⟩ | ⟨x, hx, -, -, -, hpayload⟩
    · rw [(hbasic.idle (.inl hclosed)).2] at hx
      cases hx
    · rw [hpayload]
      by_contra hne
      rcases emission_payload hx hne with hsync | ⟨z, hz, -⟩
      · rw [hclosed] at hsync
        cases hsync
      · rw [(hbasic.idle (.inl hclosed)).2] at hz
        cases hz
  | simultaneousOpen _ hstate =>
    rw [handleSimultaneousOpen_eq] at hact ⊢
    refine h.congr hact rfl rfl rfl (fun _ => .inl hstate) (fun hst => ?_)
    rcases hst with hst | hst <;> cases hst
  | @retire seg _ _ _ t he hack hrst hstate hgt =>
    have hne := TcpState.ne_of_isSynchronised hstate
    refine ⟨fun hst => absurd hst (not_or.mpr hne.2.2), fun hst => ?_⟩
    obtain ⟨k, hk⟩ := h.flowing hst
    exact ⟨_, hk.acknowledged t hgt (hfaith.not_beyond (he ▸ rfl) hack hrst hne.1 hne.2.1 fun _ => hgt)⟩
  | @establish seg _ _ _ t he hack hrst hstate hge =>
    have hopening : q.conn.state = .synSent ∨ q.conn.state = .synReceived := hstate.imp (·.1) (·.1)
    have hidle : q.conn.state ≠ .closed ∧ q.conn.state ≠ .listen ∧ q.conn.state.isSynchronised = false := by
      rcases hopening with hst | hst <;> simp [hst, TcpState.isSynchronised]
    have hno : ¬ (TcpState.established = .synSent ∨ TcpState.established = .synReceived) := by decide
    refine ⟨fun hst => absurd hst hno, fun _ => ⟨0, h.settled hbasic t hopening hge ?_⟩⟩
    refine hfaith.not_beyond (he ▸ rfl) hack hrst hidle.1 hidle.2.1 fun hsync => ?_
    rw [hidle.2.2] at hsync
    cases hsync
  | push payload n now hstate hpeek hne =>
    have hst : (q.put (q.conn.transmitData payload now)).conn.state = q.conn.state :=
      (sendFrame_transmitData q.conn payload now).state
    have hsync := TcpState.ne_of_isSynchronised hstate
    refine ⟨fun hopening => ?_, fun hflowing => ?_⟩
    · rw [hst] at hopening
      exact absurd hopening (not_or.mpr hsync.2.2)
    · rw [hst] at hflowing
      obtain ⟨k, hk⟩ := h.flowing hflowing
      exact ⟨k, hk.transmitData now hpeek hne hact⟩
  | resend now =>
    rw [resend_eq] at hact ⊢
    exact h.congr hact rfl rfl rfl id id
  | fin _ hstate =>
    rcases hstate with ⟨-, rfl⟩ | ⟨-, rfl⟩
    · exact idle (by simp) (by simp)
    · exact idle (by simp) (by simp)
  | @consumeFin _ _ _ now =>
    obtain ⟨hsend, -, -, hiss, -⟩ := finTaken_spec q.conn now
    refine h.congr hact hiss rfl hsend (fun hst => ?_) finTaken_flowing
    rcases finTaken_state q.conn now with hsame | ⟨-, hsync⟩
    · rw [put_conn, hsame] at hst
      exact hst
    · exact absurd hst (not_or.mpr (TcpState.ne_of_isSynchronised hsync).2.2)
  | advance =>
    unfold finAcknowledged
    split
    · exact idle (by simp) (by simp)
    · exact idle (by simp [enterTimeWait]) (by simp [enterTimeWait])
    · exact of_closed rfl
  | abort =>
    rw [abort_eq]
    exact of_closed rfl
  | @write data _ _ hstate =>
    have hopen : q.conn.state = .established ∨ q.conn.state = .closeWait := by
      simpa [canSend] using hstate
    refine ⟨fun hst => ?_, fun _ => ?_⟩
    · have hst' : q.conn.state = .synSent ∨ q.conn.state = .synReceived := hst
      rcases hopen with hopen | hopen <;> rw [hopen] at hst' <;> rcases hst' with hst' | hst' <;> cases hst'
    · obtain ⟨k, hk⟩ := h.flowing hopen
      exact ⟨k, hk.write data⟩

end Sending

theorem sending_of_reachable (hp : endpoint.ReachableBy Honest p) : Sending p := by
  refine Machine.ReachableBy.induction endpoint (P := Sending) (fun q hq => ?_)
    (fun q e hreach hq he => ?_) hp
  · rcases hq with ⟨cfg, rfl⟩ | ⟨cfg, seg, draw, now, -, -, rfl⟩
    · exact .of_closed rfl
    · obtain ⟨-, hretx⟩ := tracking_new (c := (TCPConnection.new cfg).answering seg draw)
        (((TCPConnection.new cfg).answering seg draw).synAckSegment seg) now rfl rfl
      rw [passive, beginPassiveOpen_eq]
      refine ⟨fun _ => ⟨rfl, fun y hy => (hretx y hy).2.2⟩, fun hst => ?_⟩
      rcases hst with hst | hst <;> cases hst
  · have hkept : (q.step e).conn.Basic ∧ Faithful e (q.step e) ∧ Sending (q.step e) :=
      keeps_step (I := fun q => q.conn.Basic ∧ Faithful e q ∧ Sending q)
        (fun _ _ h ha => ⟨h.1.action ha, h.2.1.action ha, h.2.2.action h.1 h.2.1 ha⟩)
        ⟨basic_of_reachable hreach.reachable, Honest.faithful he, hq⟩
    exact hkept.2.2

/-! ### After `close()` -/

/-- The FIN follows the stream `s`, of which `snd_una` is the number of byte `k`; nothing is unsent. -/
structure Finishing (iss : SeqNo) (s : Bytes) (p : Endpoint) : Prop where
  opened : p.conn.state = .closed ∨ p.conn.state.isSynchronised = true
  shut : p.conn.canSend = false
  queue : p.conn.state.isSynchronised = true → ∃ k, k ≤ s.length + 1 ∧ s.length + 1 - k < 2 ^ 32 ∧
    p.conn.sendQueue.una = streamSeq iss k ∧
    p.conn.sendQueue.nxt = streamSeq iss (s.length + 1) ∧ p.conn.sendQueue.buf = s.drop k
  retx : ∀ y ∈ p.conn.retxQueue.segments, y.payload ≠ [] →
    ∃ i, y.seq = streamSeq iss i ∧ At s i y.payload

theorem shut_iff {c : TCPConnection} :
    c.canSend = false ↔ ¬ (c.state = .established ∨ c.state = .closeWait) := by
  simp [canSend]

namespace Finishing

variable {iss : SeqNo} {s : Bytes}

theorem peek (h : Finishing iss s q) (hsync : q.conn.state.isSynchronised = true) (n : Nat) :
    q.conn.sendQueue.peek q.conn.sendQueue.nxt n = [] := by
  obtain ⟨k, hk, hlt, huna, hnxt, hbuf⟩ := h.queue hsync
  unfold SendQueue.peek
  dsimp only
  split_ifs with hoff
  · rfl
  · rw [not_or, seqDiff_eq] at hoff
    have hhalf := Serial.diff_nonneg_iff.mp (not_lt.mp hoff.1)
    rw [seqDiff_eq, Serial.diff_of_nonneg hhalf, Int.toNat_natCast, huna, hnxt, gap_streamSeq hk (by omega), hbuf,
      List.drop_drop, List.drop_eq_nil_of_le (by omega), List.take_nil]

theorem emission (h : Finishing iss s q) {x : TCPSegment} (hx : Emission r e q q' x)
    (hne : x.payload ≠ []) : ∃ i, x.seq = streamSeq iss i ∧ At s i x.payload := by
  cases hx with
  | data payload n hsync hpeek => exact absurd (hpeek.trans (h.peek hsync n)) hne
  | resent hold => exact h.retx _ (List.mem_of_mem_head? hold) hne
  | rejection =>
    refine absurd ?_ hne
    unfold TCPConnection.rejection
    split_ifs <;> rfl
  | ack | syn | synAck | fin | abort => exact absurd rfl hne

theorem retx_action (h : Finishing iss s q) (ha : Action r e q q') :
    ∀ y ∈ q'.conn.retxQueue.segments, y.payload ≠ [] →
      ∃ i, y.seq = streamSeq iss i ∧ At s i y.payload := by
  intro y hy hne
  rcases ha.retx hy with ⟨x, hx, hseq, -, hpayload⟩ | ⟨x, hx, -, hseq, -, hpayload⟩
  · rw [hseq, hpayload]
    exact h.retx x hx (hpayload ▸ hne)
  · rw [hseq, hpayload]
    exact h.emission hx (hpayload ▸ hne)

theorem congr (h : Finishing iss s q) (ha : Action r e q q')
    (hsend : q'.conn.sendQueue = q.conn.sendQueue)
    (hopened : q'.conn.state = .closed ∨ q'.conn.state.isSynchronised = true)
    (hshut : q'.conn.canSend = false)
    (hsync : q'.conn.state.isSynchronised = true → q.conn.state.isSynchronised = true) :
    Finishing iss s q' where
  opened := hopened
  shut := hshut
  queue := by
    intro hst
    rw [hsend]
    exact h.queue (hsync hst)
  retx := h.retx_action ha

theorem of_closed (h : Finishing iss s q) (ha : Action r e q q') (hstate : q'.conn.state = .closed) :
    Finishing iss s q' where
  opened := .inl hstate
  shut := by simp [canSend, hstate]
  queue := fun hsync => by rw [hstate] at hsync; cases hsync
  retx := h.retx_action ha

theorem not_opening (h : Finishing iss s q) :
    q.conn.state ≠ .synSent ∧ q.conn.state ≠ .synReceived := by
  rcases h.opened with hst | hst
  · rw [hst]
    decide
  · exact (TcpState.ne_of_isSynchronised hst).2.2

theorem not_flowing (h : Finishing iss s q) :
    ¬ (q.conn.state = .established ∨ q.conn.state = .closeWait) := shut_iff.mp h.shut

theorem retire (h : Finishing iss s q) {ack : SeqNo} {t : Time}
    (ha : Action r e q (q.put (q.conn.acknowledged ack t))) (hstate : q.conn.state.isSynchronised = true)
    (hgt : seqGt ack q.conn.sendQueue.una = true) (hno : seqGt ack q.conn.sendQueue.nxt = false) :
    Finishing iss s (q.put (q.conn.acknowledged ack t)) := by
  obtain ⟨k, hk, hlt, huna, hnxt, hbuf⟩ := h.queue hstate
  obtain ⟨hle, -⟩ := Serial.gap_sub (seqGt_iff.mp hgt)
    (fun hlt => by rw [seqGt_iff.mpr hlt] at hno; cases hno)
  have htotal : Serial.gap q.conn.sendQueue.una q.conn.sendQueue.nxt = s.length + 1 - k := by
    rw [huna, hnxt, gap_streamSeq hk (by omega)]
  refine ⟨h.opened, h.shut, fun _ => ⟨k + Serial.gap q.conn.sendQueue.una ack, by omega, by omega,
    ?_, ?_, ?_⟩, h.retx_action ha⟩
  · simp only [put_conn, acknowledged, SendQueue.acknowledge_of_gt hgt]
    rw [← seqAdd_streamSeq, ← huna]
    exact (Serial.shift_gap _ _).symm
  · simp only [put_conn, acknowledged, SendQueue.acknowledge_of_gt hgt]
    rw [if_neg (by rw [show seqLt q.conn.sendQueue.nxt ack = false from hno]; decide)]
    exact hnxt
  · simp only [put_conn, acknowledged, SendQueue.acknowledge_of_gt hgt]
    rw [hbuf, List.drop_drop]

theorem action (h : Finishing iss s q) (hfaith : Faithful e q) (ha : Action r e q q')
    (hlisten : e ≠ .listen) (hconnect : ∀ draw now, e ≠ .connect draw now) : Finishing iss s q' := by
  have hact := ha
  cases ha with
  | @quiet d hq =>
    have hshut : (q.put d).conn.canSend = q.conn.canSend := by rw [put_conn, canSend, canSend, hq.state]
    refine h.congr hact hq.sendQueue ?_ (hshut.trans h.shut) ?_
    · rw [put_conn, hq.state]
      exact h.opened
    · rw [put_conn, hq.state]
      exact id
  | ack | delay | reject | arm | disarm | insert | read =>
    exact h.congr hact rfl h.opened h.shut id
  | listen he => exact absurd he hlisten
  | connect he => exact absurd he (hconnect _ _)
  | simultaneousOpen _ hstate | adopt _ hstate => exact absurd hstate h.not_opening.1
  | establish _ _ _ _ hstate =>
    exact absurd (hstate.imp (·.1) (·.1)) (not_or.mpr h.not_opening)
  | @retire seg _ _ _ t he hack hrst hstate hgt =>
    have hne := TcpState.ne_of_isSynchronised hstate
    exact h.retire hact hstate hgt (hfaith.not_beyond (he ▸ rfl) hack hrst hne.1 hne.2.1 fun _ => hgt)
  | push payload n now hstate hpeek hne => exact absurd (hpeek.trans (h.peek hstate n)) hne
  | resend now =>
    rw [resend_eq] at hact ⊢
    exact h.congr hact rfl h.opened h.shut id
  | fin _ hstate => exact absurd (hstate.imp (·.1) (·.1)) h.not_flowing
  | @consumeFin _ _ _ now =>
    have hshut : (q.put (q.conn.finTaken now)).conn.canSend = false :=
      shut_iff.mpr fun hst => h.not_flowing (finTaken_flowing hst)
    refine h.congr hact (finTaken_spec q.conn now).1 ?_ hshut ?_
    · rcases finTaken_state q.conn now with hst | ⟨-, hst⟩
      · rw [put_conn, hst]
        exact h.opened
      · exact .inr hst
    · rcases finTaken_state q.conn now with hst | ⟨hst, -⟩
      · rw [put_conn, hst]
        exact id
      · exact fun _ => hst
  | advance _ _ _ _ _ hstate =>
    have hsync : q.conn.state.isSynchronised = true := by
      rcases hstate with hst | hst | hst <;> rw [hst] <;> rfl
    unfold finAcknowledged at hact ⊢
    split at hact
    · exact h.congr hact rfl (.inr rfl) rfl (fun _ => hsync)
    · exact h.congr hact rfl (.inr rfl) rfl (fun _ => hsync)
    · exact h.of_closed hact rfl
  | reset | expire | drop => exact h.of_closed hact rfl
  | abort =>
    rw [abort_eq] at hact ⊢
    exact h.of_closed hact rfl
  | write _ hstate => rw [h.shut] at hstate; cases hstate

end Finishing

/-! ### What `close()` promises -/

/-- The connection goes on with an honest peer and is not opened again. -/
def Continues (p : Endpoint) (e : Event) : Prop :=
  Honest p e ∧ e ≠ .listen ∧ ∀ draw now, e ≠ .connect draw now

/-- `close()` shuts the stream down without loss. -/
structure Graceful (p : Endpoint) (now : Time) : Prop where
  /-- The FIN that goes out has the number after the last accepted byte. -/
  fin : (p.step (.close now)).conn.finSeq = some (streamSeq p.conn.iss p.accepted.length) ∧
    ∃ x, (p.step (.close now)).conn.sent = p.conn.sent ++ [x] ∧ x.isFin = true ∧
      x.seq = streamSeq p.conn.iss p.accepted.length
  /-- No accepted byte is skipped: by then each was transmitted under its own number. -/
  carried : ∀ i < p.accepted.length,
    ∃ x ∈ (p.step (.close now)).conn.sent, x.Carries p.conn.iss p.accepted i
  /-- All data that goes out later is the stream's own and lies before the FIN. -/
  before : ∀ es, endpoint.Meets Continues (p.step (.close now)) es →
    ∀ x ∈ (endpoint.run (p.step (.close now)) es).conn.sent.drop
        (p.step (.close now)).conn.sent.length, x.payload ≠ [] →
      ∃ i, x.seq = streamSeq p.conn.iss i ∧ At p.accepted i x.payload ∧
        i + x.payload.length ≤ p.accepted.length
  /-- A peer that has taken in a part of the stream and comes to the FIN has all of it. -/
  received : p.accepted.length < 2 ^ 31 → ∀ q done k, ReceiveQueue.Holds p.conn.iss p.accepted done k q →
    some q.nxt = (p.step (.close now)).conn.finSeq → done ++ q.readable = p.accepted

theorem step_close (hstate : p.conn.state = .established ∨ p.conn.state = .closeWait) (now : Time) :
    ∃ st, (st = .finWait1 ∨ st = .lastAck) ∧
      p.step (.close now) = p.put { p.conn.sendFin now with state := st } ∧
      Action true (.close now) p (p.step (.close now)) := by
  rcases hstate with hst | hst
  · have hstep : p.step (.close now) = p.put { p.conn.sendFin now with state := .finWait1 } := by
      simp only [step, TCPConnection.close, hst]
    exact ⟨_, .inl rfl, hstep, hstep ▸ .fin rfl (.inl ⟨hst, rfl⟩)⟩
  · have hstep : p.step (.close now) = p.put { p.conn.sendFin now with state := .lastAck } := by
      simp only [step, TCPConnection.close, hst]
    exact ⟨_, .inr rfl, hstep, hstep ▸ .fin rfl (.inr ⟨hst, rfl⟩)⟩

theorem finSeq_close (hstate : p.conn.state = .established ∨ p.conn.state = .closeWait) (now : Time) :
    (p.step (.close now)).conn.finSeq = some p.conn.sendQueue.nxt := by
  obtain ⟨st, -, hstep, -⟩ := step_close hstate now
  rw [hstep, put_conn, sendFin_eq]

theorem Streamed.finishing (h : Streamed k p)
    (hstate : p.conn.state = .established ∨ p.conn.state = .closeWait) (now : Time)
    (hgap : Serial.gap p.conn.sendQueue.una p.conn.sendQueue.nxt = p.conn.sendQueue.buf.length)
    (hbuf : p.conn.sendQueue.buf.length + 1 < 2 ^ 32) :
    Finishing p.conn.iss p.accepted (p.step (.close now)) := by
  obtain ⟨st, hst, hstep, hact⟩ := step_close hstate now
  have hretx := h.retx_action hact
  have hlen := h.length
  have hnxt := h.nxt
  rw [hgap, ← hlen] at hnxt
  rw [hstep, sendFin_eq] at hretx ⊢
  refine ⟨.inr ?_, ?_, fun _ => ⟨k, by omega, by omega, h.una, ?_, h.buf⟩, hretx⟩
  · rcases hst with rfl | rfl <;> rfl
  · rcases hst with rfl | rfl <;> rfl
  · simp only [put_conn]
    rw [hnxt, seqAdd_streamSeq]

theorem Finishing.run {iss : SeqNo} {s : Bytes} (h : Finishing iss s p) {es : List Event}
    (hes : endpoint.Meets Continues p es) :
    ∃ segs, (endpoint.run p es).conn.sent = p.conn.sent ++ segs ∧ ∀ x ∈ segs, x.payload ≠ [] →
      ∃ i, x.seq = streamSeq iss i ∧ At s i x.payload := by
  have hkept : Finishing iss s (endpoint.run p es) ∧
      ∃ segs, (endpoint.run p es).conn.sent = p.conn.sent ++ segs ∧ ∀ x ∈ segs, x.payload ≠ [] →
        ∃ i, x.seq = streamSeq iss i ∧ At s i x.payload := by
    refine endpoint.run_induction (P := fun q => Finishing iss s q ∧
      ∃ segs, q.conn.sent = p.conn.sent ++ segs ∧ ∀ x ∈ segs, x.payload ≠ [] →
        ∃ i, x.seq = streamSeq iss i ∧ At s i x.payload) ?_ ⟨h, [], by simp, by simp⟩ hes
    rintro q e ⟨hq, hsegs⟩ ⟨hhonest, hlisten, hconnect⟩
    have hcall := keeps_step (e := e) (I := fun q => Faithful e q ∧ Finishing iss s q ∧
      ∃ segs, q.conn.sent = p.conn.sent ++ segs ∧ ∀ x ∈ segs, x.payload ≠ [] →
        ∃ i, x.seq = streamSeq iss i ∧ At s i x.payload) ?_ ⟨hhonest.faithful, hq, hsegs⟩
    · exact hcall.2
    · rintro q q' ⟨hfaith, hq, segs, hsent, hall⟩ ha
      refine ⟨hfaith.action ha, hq.action hfaith ha hlisten hconnect, ?_⟩
      rcases ha.sent with hsame | ⟨x, hx, hemit⟩
      · exact ⟨segs, hsame.trans hsent, hall⟩
      · refine ⟨segs ++ [x], by rw [hx, hsent, List.append_assoc], fun y hy hne => ?_⟩
        rcases List.mem_append.mp hy with hold | hnew
        · exact hall y hold hne
        · obtain rfl := List.mem_singleton.mp hnew
          exact hq.emission hemit hne
  exact hkept.2

/-- With a peer that acknowledges only what was sent, `close()` is graceful only if everything in the
send buffer has been transmitted, that is, `snd_nxt` is `snd_una` plus what is buffered; and if so, it is
graceful. -/
theorem graceful_iff_transmitted (hp : endpoint.ReachableBy Honest p)
    (hstate : p.conn.state = .established ∨ p.conn.state = .closeWait) (now : Time) :
    (p.Graceful now → p.conn.sndNxt = seqAdd p.conn.sndUna p.conn.sendQueue.buffered) ∧
      (p.conn.sndNxt = seqAdd p.conn.sndUna p.conn.sendQueue.buffered →
        p.conn.sendQueue.buffered + 1 < 2 ^ 32 → p.Graceful now) := by
  obtain ⟨k, hk⟩ := (sending_of_reachable hp).flowing hstate
  have hlen := hk.length
  have hend : seqAdd p.conn.sndUna p.conn.sendQueue.buffered =
      streamSeq p.conn.iss p.accepted.length := by
    rw [sndUna, SendQueue.buffered, hk.una, seqAdd_streamSeq, hlen]
  rw [hend]
  constructor
  · intro h
    exact Option.some.inj ((finSeq_close hstate now).symm.trans h.fin.1)
  · intro hnxt hbuf
    have hfin : (p.step (.close now)).conn.finSeq = some (streamSeq p.conn.iss p.accepted.length) :=
      (finSeq_close hstate now).trans (congrArg some hnxt)
    have hgap : Serial.gap p.conn.sendQueue.una p.conn.sendQueue.nxt =
        p.conn.sendQueue.buf.length := by
      rw [show p.conn.sendQueue.nxt = _ from hnxt.trans hend.symm]
      exact Serial.gap_shift (by rw [SendQueue.buffered] at hbuf ⊢; omega)
    have hsent : (p.step (.close now)).conn.sent = p.conn.sent ++ [p.conn.finSegment] := by
      obtain ⟨st, -, hstep, -⟩ := step_close hstate now
      rw [hstep, put_conn, sendFin_eq]
      rfl
    exact
      { fin := ⟨hfin, p.conn.finSegment, hsent,
          show ((FLAG_ACK ||| FLAG_FIN) &&& FLAG_FIN != 0) = true by decide, hnxt⟩
        carried := by
          intro i hi
          obtain ⟨x, hx, hcarries⟩ := hk.carried i (by omega)
          exact ⟨x, hsent ▸ List.mem_append_left _ hx, hcarries⟩
        before := by
          intro es hes x hx hne
          obtain ⟨segs, hrun, hall⟩ := (hk.finishing hstate now hgap hbuf).run hes
          rw [hrun, List.drop_left] at hx
          obtain ⟨i, hseq, hat⟩ := hall x hx hne
          exact ⟨i, hseq, hat, hat.length_le hne⟩
        received := by
          intro hshort q done m hholds hnxt'
          rw [hfin, hholds.nxt] at hnxt'
          have hle := hholds.le
          have hm := (streamSeq_inj (by omega) (by omega)).mp (Option.some.inj hnxt')
          rw [hholds.stream, hm, List.take_length] }

instance (p : Endpoint) (e : Event) : Decidable (Honest p e) :=
  match h : e.inbound with
  | none => .isTrue fun seg hseg => by rw [h] at hseg; cases hseg
  | some x =>
    if hx : x.isAck = true → x.isRst = false → p.conn.state ≠ .closed → p.conn.state ≠ .listen →
        seqGt x.ack p.conn.sndNxt = false then
      .isTrue fun seg hseg => by rw [h] at hseg; exact Option.some.inj hseg ▸ hx
    else .isFalse fun hall => hx (hall x h)

/-- A SYN+ACK for the SYN numbered 100 whose sender offers a window. -/
def offer (window : Nat) : TCPSegment :=
  { srcPort := 2000, dstPort := 1000, seq := 500, ack := 101, flags := FLAG_SYN ||| FLAG_ACK,
    window := window }

/-- A client that has sent three bytes to a peer offering `window`. -/
def threeBytes (window : Nat) : Endpoint :=
  endpoint.run (.new (.plain 100)) [.connect 0 0, .segment (offer window) none 0 0, .send [1, 2, 3] 0]

theorem threeBytes_reachable (window : Nat) (h : endpoint.Meets Honest (.new (.plain 100))
    [.connect 0 0, .segment (offer window) none 0 0, .send [1, 2, 3] 0]) :
    endpoint.ReachableBy Honest (threeBytes window) :=
  (Machine.ReachableBy.init endpoint (.inl ⟨_, rfl⟩)).run endpoint h

/-- Everything was transmitted, so `close()` is graceful although nothing is acknowledged yet. -/
theorem graceful_in_flight : (threeBytes 1000).conn.sendQueue.buffered = 3 ∧
    (threeBytes 1000).Graceful 0 :=
  ⟨by decide, (graceful_iff_transmitted
    (threeBytes_reachable 1000 ⟨by decide, by decide, by decide, trivial⟩) (.inl (by decide)) 0).2
      (by decide) (by decide)⟩

/-- An ACK that opens the window and acknowledges nothing beyond the SYN. -/
def opened : TCPSegment :=
  { srcPort := 2000, dstPort := 1000, seq := 501, ack := 101, flags := FLAG_ACK, window := 1000 }

/-- With the window shut the FIN takes the number of the first unsent byte, and once the window opens
the bytes after it go out behind the FIN. -/
theorem close_truncates : endpoint.ReachableBy Honest (threeBytes 0) ∧
    (threeBytes 0).conn.state = .established ∧ (threeBytes 0).accepted = [1, 2, 3] ∧
    ¬ (threeBytes 0).Graceful 0 ∧
    endpoint.Meets Continues ((threeBytes 0).step (.close 0)) [.segment opened none 0 0] ∧
    ((endpoint.run ((threeBytes 0).step (.close 0)) [.segment opened none 0 0]).conn.sent.map
      fun x => (x.seq, x.payload, x.isFin)) =
        [(100, [], false), (101, [], false), (101, [], true), (101, [], true), (102, [2, 3], false)] := by
  have hreach := threeBytes_reachable 0 ⟨by decide, by decide, by decide, trivial⟩
  refine ⟨hreach, by decide, by decide, fun h => ?_,
    ⟨⟨by decide, fun he => (by cases he), fun _ _ he => (by cases he)⟩, trivial⟩, by decide⟩
  have hfin := h.fin.1
  rw [finSeq_close (.inl (by decide)) 0] at hfin
  exact absurd (Option.some.inj hfin) (by decide)

end Endpoint

end MiniTcp
