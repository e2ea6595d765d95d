import MiniTcp.Net.Tcp.Pacing

/-!
# What a connection hands to the outside

`Outputs c d` says what every method keeps to on the way from `c` to `d`: the segments handed out and the
callbacks made are only added to, the end of the connection is told by `on_closed`, and a connection whose
segments fit the wire keeps to such segments (`Modest`). `outputs_step` is the result for a call from outside,
and `ends_step_iff` says which calls end a connection.
-/

namespace MiniTcp

/-- The longest payload of a segment: what was negotiated, or what is taken for granted. -/
def Config.maxPayload (cfg : Config) : Nat := max cfg.mss 536

/-- A segment of the connection's ports, with a window and a payload that fit. -/
structure Config.Fits (cfg : Config) (x : TCPSegment) : Prop where
  srcPort : x.srcPort = cfg.localPort
  dstPort : x.dstPort = cfg.remotePort
  window : x.window ≤ 0xFFFF
  urgentPointer : x.urgentPointer = 0
  options : x.options = {} ∨ x.options = (TCPConnection.new cfg).synOptions
  payload : x.payload.length ≤ cfg.maxPayload

namespace TCPConnection

/-- Everything handed out fits, and so does everything that may be handed out again. -/
structure Modest (c : TCPConnection) : Prop where
  peerMss : c.peerMss ≤ c.cfg.maxPayload
  sent : ∀ x ∈ c.sent, c.cfg.Fits x
  retx : ∀ y ∈ c.retxQueue.segments, y.payload.length ≤ c.cfg.maxPayload

/-- What `c` hands out and tells on the way to `d`. -/
structure Outputs (c d : TCPConnection) : Prop where
  cfg : d.cfg = c.cfg
  sent : c.sent <+: d.sent
  told : ∃ ns, d.notices = c.notices ++ ns ∧ (d.state = .closed → c.state = .closed ∨ .closed ∈ ns)
  modest : c.Modest → d.Modest

variable {b c d : TCPConnection} {seg : TCPSegment} {now : Time}

theorem fits_segmentOf (c : TCPConnection) (seq : SeqNo) (flags : Flags) {payload : Bytes} (ack : SeqNo)
    {options : TCPOptions} (hoptions : options = {} ∨ options = c.synOptions)
    (hpayload : payload.length ≤ c.cfg.maxPayload) : c.cfg.Fits (c.segmentOf seq flags payload ack options) :=
  ⟨rfl, rfl, Nat.min_le_right _ _, rfl, hoptions, hpayload⟩

namespace Outputs

theorem refl (c : TCPConnection) : Outputs c c :=
  ⟨rfl, List.prefix_refl _, ⟨[], (List.append_nil _).symm, Or.inl⟩, id⟩

theorem trans (h : Outputs b c) (h' : Outputs c d) : Outputs b d where
  cfg := h'.cfg.trans h.cfg
  sent := h.sent.trans h'.sent
  told := by
    obtain ⟨ns, hns, hclosed⟩ := h.told
    obtain ⟨ns', hns', hclosed'⟩ := h'.told
    refine ⟨ns ++ ns', by rw [hns', hns, List.append_assoc], fun hd => ?_⟩
    rcases hclosed' hd with hc | hin
    · exact (hclosed hc).imp_right (List.mem_append_left _)
    · exact .inr (List.mem_append_right _ hin)
  modest := fun hb => h'.modest (h.modest hb)

theorem quiet (hcfg : d.cfg = c.cfg) (hsent : d.sent = c.sent) (hnotices : d.notices = c.notices)
    (hstate : d.state = .closed → c.state = .closed) (hmss : d.peerMss = c.peerMss)
    (hretx : ∀ y ∈ d.retxQueue.segments, ∃ x ∈ c.retxQueue.segments, y.payload = x.payload) : Outputs c d where
  cfg := hcfg
  sent := by rw [hsent]
  told := ⟨[], by rw [hnotices, List.append_nil], fun hd => .inl (hstate hd)⟩
  modest := by
    intro h
    refine ⟨by rw [hmss, hcfg]; exact h.peerMss, fun x hx => hcfg ▸ h.sent x (hsent ▸ hx), ?_⟩
    intro y hy
    obtain ⟨x, hx, heq⟩ := hretx y hy
    rw [heq, hcfg]
    exact h.retx x hx

theorem state {st : TcpState} (hst : st ≠ .closed) : Outputs c { c with state := st } :=
  quiet rfl rfl rfl (fun h => absurd h hst) rfl fun y hy => ⟨y, hy, rfl⟩

theorem notify (c : TCPConnection) (n : Notice) : Outputs c (c.notify n) :=
  ⟨rfl, List.prefix_refl _, ⟨[n], rfl, Or.inl⟩, fun h => ⟨h.peerMss, h.sent, h.retx⟩⟩

theorem finish (c : TCPConnection) : Outputs c (c.teardown.notify .closed) where
  cfg := rfl
  sent := List.prefix_refl _
  told := ⟨[.closed], rfl, fun _ => .inr List.mem_cons_self⟩
  modest := fun h => ⟨h.peerMss, h.sent, fun _ hy => absurd hy List.not_mem_nil⟩

theorem enterTimeWait (c : TCPConnection) (now : Time) : Outputs c (c.enterTimeWait now) :=
  quiet rfl rfl rfl nofun rfl fun _ hy => absurd hy List.not_mem_nil

theorem emit {x : TCPSegment} (hx : c.Modest → c.cfg.Fits x) : Outputs c (c.emit x) where
  cfg := rfl
  sent := List.prefix_append _ _
  told := ⟨[], (List.append_nil _).symm, Or.inl⟩
  modest := by
    intro h
    refine ⟨h.peerMss, fun y hy => ?_, h.retx⟩
    rcases List.mem_append.mp hy with hold | hnew
    · exact h.sent y hold
    · rw [List.mem_singleton.mp hnew]
      exact hx h

theorem tracking {x : TCPSegment} (now : Time) (hx : c.Modest → c.cfg.Fits x) : Outputs c (c.tracking x now) where
  cfg := rfl
  sent := List.prefix_append _ _
  told := ⟨[], (List.append_nil _).symm, Or.inl⟩
  modest := by
    intro h
    obtain ⟨hsent, hretx⟩ := c.mem_tracking x now
    refine ⟨h.peerMss, fun y hy => ?_, fun y hy => ?_⟩
    · rcases hsent y hy with hold | rfl
      · exact h.sent y hold
      · exact hx h
    · rcases hretx y hy with hold | ⟨-, -, heq⟩
      · exact h.retx y hold
      · rw [heq]
        exact (hx h).payload

theorem applyPeerOptions (c : TCPConnection) (options : TCPOptions) :
    Outputs c (c.applyPeerOptions options) where
  cfg := rfl
  sent := List.prefix_refl _
  told := ⟨[], (List.append_nil _).symm, Or.inl⟩
  modest := by
    intro h
    refine ⟨?_, h.sent, h.retx⟩
    have hmss := h.peerMss
    unfold TCPConnection.applyPeerOptions
    dsimp only
    split
    · change max (min _ c.cfg.mss) 64 ≤ max c.cfg.mss 536
      omega
    · exact hmss

/-! ### The sending methods -/

theorem transmit {payload : Bytes} {options : TCPOptions} (c : TCPConnection) (seq : SeqNo) (flags : Flags)
    (now : Time) (ack : Option SeqNo) (track : Bool) (hoptions : options = {} ∨ options = c.synOptions)
    (hpayload : c.Modest → payload.length ≤ c.cfg.maxPayload) :
    Outputs c (c.transmit seq flags payload now ack options track) := by
  have hfits := fun h => fits_segmentOf c seq flags (ack.getD c.recvQueue.nxt) hoptions (hpayload h)
  cases htrack : track && (flags &&& (FLAG_SYN ||| FLAG_FIN) != 0 || payload ≠ []) with
  | false =>
    rw [transmit_untracked c seq now ack options htrack]
    exact emit hfits
  | true =>
    obtain ⟨rfl, htrack⟩ := Bool.and_eq_true_iff.mp htrack
    rw [transmit_eq_tracking c seq now ack options htrack]
    exact tracking now hfits

theorem transmit_nil (c : TCPConnection) (seq : SeqNo) (flags : Flags) (now : Time) (ack : Option SeqNo) :
    Outputs c (c.transmit seq flags [] now ack) :=
  transmit c seq flags now ack true (.inl rfl) fun _ => Nat.zero_le _

theorem sendAck (c : TCPConnection) (now : Time) : Outputs c (c.sendAck now) := by
  have hquiet : Outputs c { c with delayedAckAt := none } :=
    quiet rfl rfl rfl id rfl fun y hy => ⟨y, hy, rfl⟩
  unfold TCPConnection.sendAck
  dsimp only
  split_ifs
  · exact hquiet
  · exact hquiet.trans (transmit_nil ..)

theorem reject (c : TCPConnection) (seg : TCPSegment) (now : Time) : Outputs c (c.reject seg now) := by
  unfold TCPConnection.reject
  split_ifs
  · exact refl c
  · exact transmit_nil ..
  · exact transmit_nil ..

theorem transmitData {payload : Bytes} (now : Time) (h : payload.length ≤ max c.peerMss 1) :
    Outputs c (c.transmitData payload now) := by
  have hsend : Outputs c (c.transmit c.sendQueue.nxt (FLAG_ACK ||| FLAG_PSH) payload now) := by
    apply transmit c _ _ now none true (.inl rfl)
    intro hmodest
    have hmss := hmodest.peerMss
    unfold Config.maxPayload at hmss ⊢
    omega
  apply hsend.trans
  exact quiet rfl rfl rfl id rfl fun y hy => ⟨y, hy, rfl⟩

theorem flushLoop (now : Time) (fuel : Nat) (c : TCPConnection) : Outputs c (flushLoop now fuel c) := by
  induction fuel generalizing c with
  | zero => exact refl c
  | succ fuel ih =>
    have hsend : Outputs c (c.transmitData c.nextPayload.1 now) := by
      apply transmitData
      have hpeek : c.nextPayload.1.length ≤ c.peerMss :=
        (SendQueue.length_peek_le _ _ _).trans (Nat.min_le_right _ _)
      omega
    unfold TCPConnection.flushLoop
    dsimp only
    split_ifs
    · exact refl c
    · exact refl c
    · exact hsend
    · exact hsend.trans (ih _)

theorem flush (c : TCPConnection) (now : Time) : Outputs c (c.flush now) := by
  unfold TCPConnection.flush
  split_ifs
  · exact refl c
  · unfold armPersistTimer
    split_ifs
    · exact quiet rfl rfl rfl id rfl fun y hy => ⟨y, hy, rfl⟩
    · split
      · exact quiet rfl rfl rfl id rfl fun y hy => ⟨y, hy, rfl⟩
      · exact refl c
  · refine Outputs.trans ?_ (flushLoop now _ _)
    exact quiet rfl rfl rfl id rfl fun y hy => ⟨y, hy, rfl⟩

theorem sendFin (c : TCPConnection) (now : Time) : Outputs c (c.sendFin now) := by
  rw [sendFin_eq]
  have hfin : Outputs c (c.tracking c.finSegment now) :=
    tracking now fun _ => fits_segmentOf c _ _ _ (.inl rfl) (Nat.zero_le _)
  apply hfin.trans
  exact quiet rfl rfl rfl id rfl fun y hy => ⟨y, hy, rfl⟩

theorem resend {entry : OutstandingSegment} (h : c.retxQueue.oldest = some entry) (now : Time) :
    Outputs c (c.resend entry now) := by
  have hemit : Outputs c (c.emit (c.resentSegment entry)) := by
    apply emit
    intro hmodest
    exact fits_segmentOf c _ _ _ (.inl rfl) (hmodest.retx entry (List.mem_of_mem_head? h))
  rw [resend_eq]
  apply hemit.trans
  refine quiet rfl rfl rfl id rfl fun y hy => ?_
  rcases RetransmitQueue.mem_markRetransmitted hy with hold | ⟨x, hx, rfl⟩
  · exact ⟨y, hold, rfl⟩
  · exact ⟨x, hx, rfl⟩

theorem retransmitOldest (c : TCPConnection) (now : Time) (fast : Bool) :
    Outputs c (c.retransmitOldest now fast) := by
  unfold TCPConnection.retransmitOldest
  split
  · exact refl c
  · rename_i oldest hold
    have hresend := resend hold now
    dsimp only
    split_ifs
    · exact hresend
    · apply hresend.trans
      exact quiet rfl rfl rfl id rfl fun y hy => ⟨y, hy, rfl⟩

/-! ### Acknowledgements and data -/

theorem processAck (c : TCPConnection) (seg : TCPSegment) (now : Time) : Outputs c (c.processAck seg now) := by
  unfold TCPConnection.processAck
  split_ifs
  · have hcount : Outputs c ((c.updatePeerWindow seg).1.countDuplicateAck seg).1 := by
      unfold countDuplicateAck
      split_ifs <;> exact quiet rfl rfl rfl id rfl fun y hy => ⟨y, hy, rfl⟩
    rw [processOldAck_eq]
    refine Outputs.trans ?_ (flush _ now)
    unfold answerOldAck
    dsimp only
    split_ifs
    · exact hcount.trans (retransmitOldest _ now true)
    · exact hcount.trans (retransmitOldest _ now false)
    · exact hcount
  · unfold processNewAck
    dsimp only
    split_ifs
    · exact quiet rfl rfl rfl id rfl fun y hy => ⟨y, hy, rfl⟩
    · refine Outputs.trans ?_ (flush _ now)
      exact quiet rfl rfl rfl id rfl fun y hy => ⟨y, (List.mem_filter.mp hy).1, rfl⟩

theorem handleData (c : TCPConnection) (seg : TCPSegment) (now : Time) : Outputs c (c.handleData seg now) := by
  have hack : ∀ (b : TCPConnection) (newly : Nat), Outputs b (b.acknowledgeData newly now) := by
    intro b newly
    unfold acknowledgeData
    split_ifs
    · split
      · exact quiet rfl rfl rfl id rfl fun y hy => ⟨y, hy, rfl⟩
      · exact refl b
    · exact sendAck b now
  have hinsert : Outputs c { c with recvQueue := (c.recvQueue.insert seg.seq seg.payload).1 } :=
    quiet rfl rfl rfl id rfl fun y hy => ⟨y, hy, rfl⟩
  have hcount : ∀ (b : TCPConnection) (newly : Nat),
      Outputs b ({ b with bytesReceived := b.bytesReceived + newly }.notify .data) := by
    intro b newly
    refine Outputs.trans ?_ (notify _ .data)
    exact quiet rfl rfl rfl id rfl fun y hy => ⟨y, hy, rfl⟩
  unfold TCPConnection.handleData
  dsimp only
  split_ifs
  · exact (hinsert.trans (hcount _ _)).trans (hack _ _)
  · exact hinsert.trans (hack _ _)
  · exact hinsert.trans (hcount _ _)
  · exact hinsert

theorem maybeAdvanceAfterAck (c : TCPConnection) (seg : TCPSegment) (now : Time) :
    Outputs c (c.maybeAdvanceAfterAck seg now) := by
  unfold TCPConnection.maybeAdvanceAfterAck
  split
  · exact refl c
  · split_ifs
    · exact refl c
    · exact refl c
    · exact state nofun
    · exact enterTimeWait c now
    · exact finish c
    · exact refl c

theorem consumeFin (c : TCPConnection) (now : Time) : Outputs c (c.consumeFin now) := by
  have hack : Outputs c
      ({ c with recvQueue := { c.recvQueue with nxt := seqAdd c.recvQueue.nxt 1 } }.sendAck now) := by
    refine Outputs.trans ?_ (sendAck _ now)
    exact quiet rfl rfl rfl id rfl fun y hy => ⟨y, hy, rfl⟩
  unfold TCPConnection.consumeFin
  dsimp only
  split_ifs
  · exact hack.trans (state nofun)
  · exact hack.trans (enterTimeWait _ now)
  · exact hack.trans (state nofun)
  · exact hack.trans (enterTimeWait _ now)
  · exact hack.trans (enterTimeWait _ now)
  · exact hack

theorem handleFin (c : TCPConnection) (seg : TCPSegment) (now : Time) : Outputs c (c.handleFin seg now) := by
  unfold TCPConnection.handleFin
  dsimp only
  split_ifs
  · exact sendAck c now
  · exact sendAck c now
  · exact consumeFin c now

theorem handleRst (c : TCPConnection) : Outputs c c.handleRst where
  cfg := rfl
  sent := List.prefix_refl _
  told := ⟨[.reset, .closed], by simp [TCPConnection.handleRst, TCPConnection.notify, teardown],
    fun _ => .inr (by decide)⟩
  modest := fun h => ⟨h.peerMss, h.sent, fun _ hy => absurd hy List.not_mem_nil⟩

/-! ### The handshake -/

theorem adopted (c : TCPConnection) (seg : TCPSegment) : Outputs c (c.adopted seg) := by
  refine Outputs.trans ?_ (applyPeerOptions _ seg.options)
  exact quiet rfl rfl rfl id rfl fun y hy => ⟨y, hy, rfl⟩

theorem handleSimultaneousOpen (c : TCPConnection) (seg : TCPSegment) (now : Time) :
    Outputs c (c.handleSimultaneousOpen seg now) := by
  rw [handleSimultaneousOpen_eq]
  have hsend : Outputs (c.adopted seg) ((c.adopted seg).tracking ((c.adopted seg).synAckSegment seg) now) :=
    tracking now fun _ => fits_segmentOf _ _ _ _ (.inr rfl) (Nat.zero_le _)
  apply ((adopted c seg).trans hsend).trans
  exact quiet rfl rfl rfl nofun rfl fun y hy => ⟨y, hy, rfl⟩

theorem established (c : TCPConnection) : Outputs c ({ c with state := .established }.notify .established) := by
  have hstate : Outputs c { c with state := .established } := state nofun
  exact hstate.trans (notify _ _)

theorem handleSynAck (c : TCPConnection) (seg : TCPSegment) (now : Time) :
    Outputs c (c.handleSynAck seg now) := by
  unfold TCPConnection.handleSynAck
  split_ifs
  · exact reject c seg now
  · refine Outputs.trans ?_ (established _)
    refine Outputs.trans ?_ (sendAck _ now)
    refine Outputs.trans ?_ (processAck _ seg now)
    apply (adopted c seg).trans
    exact quiet rfl rfl rfl id rfl fun y hy => ⟨y, hy, rfl⟩

theorem handleFinalAckOfHandshake (c : TCPConnection) (seg : TCPSegment) (now : Time) :
    Outputs c (c.handleFinalAckOfHandshake seg now) := by
  unfold TCPConnection.handleFinalAckOfHandshake
  split_ifs
  · exact refl c
  · exact (processAck c seg now).trans (established _)

/-! ### Calls from outside -/

theorem onSynchronised (c : TCPConnection) (seg : TCPSegment) (now : Time) :
    Outputs c (c.onSynchronised seg now) := by
  have hack : Outputs c (if seg.isAck then c.processAck seg now else c) := by
    split_ifs
    · exact processAck c seg now
    · exact refl c
  have hdata : ∀ b : TCPConnection, Outputs b (if seg.payload ≠ [] then b.handleData seg now else b) := by
    intro b
    split_ifs
    · exact handleData b seg now
    · exact refl b
  have hfin : ∀ b : TCPConnection, Outputs b (if seg.isFin then b.handleFin seg now else b) := by
    intro b
    split_ifs
    · exact handleFin b seg now
    · exact refl b
  unfold TCPConnection.onSynchronised
  split
  · split
    · exact sendAck c now
    · exact refl c
  · exact ((hack.trans (maybeAdvanceAfterAck _ seg now)).trans (hdata _)).trans (hfin _)

theorem onSegment (c : TCPConnection) (seg : TCPSegment) (srcIp : Option Bytes) (draw : SeqNo) (now : Time) :
    Outputs c (c.onSegment seg srcIp draw now).1 := by
  have hstamp : Outputs c (c.stamp now) := quiet rfl rfl rfl id rfl fun y hy => ⟨y, hy, rfl⟩
  apply hstamp.trans
  unfold TCPConnection.onSegment
  exact dispatch_cases (c.stamp now) seg srcIp draw now (fun _ => reject _ seg now) (fun _ _ => handleRst _)
    (fun _ _ => refl _) (fun _ _ _ _ => handleSynAck _ seg now) (fun _ _ _ _ => handleSimultaneousOpen _ seg now)
    (fun _ _ _ => retransmitOldest _ now false) (fun _ _ _ => reject _ seg now) (fun _ _ _ => refl _)
    (fun _ _ _ _ => handleFinalAckOfHandshake _ seg now) (fun _ _ _ _ => refl _)
    (fun _ _ _ => onSynchronised _ seg now)

theorem onRetransmitTimeout (c : TCPConnection) (now : Time) : Outputs c (c.onRetransmitTimeout now) := by
  unfold TCPConnection.onRetransmitTimeout
  split
  · exact quiet rfl rfl rfl id rfl fun y hy => ⟨y, hy, rfl⟩
  · rename_i oldest hold
    split_ifs
    · exact finish c
    · have hquiet : Outputs c { c with reno := c.reno.onTimeout, rto := c.rto.backoff } :=
        quiet rfl rfl rfl id rfl fun y hy => ⟨y, hy, rfl⟩
      have hresend := resend (c := { c with reno := c.reno.onTimeout, rto := c.rto.backoff }) hold now
      apply (hquiet.trans hresend).trans
      exact quiet rfl rfl rfl id rfl fun y hy => ⟨y, hy, rfl⟩

theorem onPersistTimeout (c : TCPConnection) (now : Time) : Outputs c (c.onPersistTimeout now) := by
  unfold TCPConnection.onPersistTimeout
  split_ifs
  · refine Outputs.trans ?_ (flush _ now)
    exact quiet rfl rfl rfl id rfl fun y hy => ⟨y, hy, rfl⟩
  · exact quiet rfl rfl rfl id rfl fun y hy => ⟨y, hy, rfl⟩
  · have htimer : ∀ {d : TCPConnection} (persistDelay : Time) (persistAt : Option Time), Outputs c d →
        Outputs c { d with persistDelay := persistDelay, persistAt := persistAt } :=
      fun _ _ h => h.trans (quiet rfl rfl rfl id rfl fun y hy => ⟨y, hy, rfl⟩)
    apply htimer
    split
    · rename_i oldest hold
      exact resend hold now
    · dsimp only
      split_ifs
      · exact refl c
      · exact transmitData now ((SendQueue.length_peek_le _ _ _).trans (Nat.le_max_right _ _))

theorem onTick (c : TCPConnection) (now : Time) : Outputs c (c.onTick now) := by
  have hack : ∀ b : TCPConnection, Outputs b (if due b.delayedAckAt now then b.sendAck now else b) := by
    intro b
    split_ifs
    · exact sendAck b now
    · exact refl b
  have hretx : ∀ b : TCPConnection,
      Outputs b (if due b.retransmitAt now then b.onRetransmitTimeout now else b) := by
    intro b
    split_ifs
    · exact onRetransmitTimeout b now
    · exact refl b
  have hpersist : ∀ b : TCPConnection,
      Outputs b (if due b.persistAt now then b.onPersistTimeout now else b) := by
    intro b
    split_ifs
    · exact onPersistTimeout b now
    · exact refl b
  have hend : ∀ b : TCPConnection, Outputs b
      (if b.state = .timeWait ∧ due b.timeWaitUntil now then b.teardown.notify .closed else b) := by
    intro b
    split_ifs
    · exact finish b
    · exact refl b
  exact (((hack c).trans (hretx _)).trans (hpersist _)).trans (hend _)

theorem connect {draw : SeqNo} (h : c.connect draw now = .ok d) : Outputs c d := by
  obtain ⟨-, rfl⟩ := connect_eq h
  have hopen : Outputs c (c.opening draw) := quiet rfl rfl rfl id rfl fun y hy => ⟨y, hy, rfl⟩
  have hsend : Outputs (c.opening draw) ((c.opening draw).tracking (c.opening draw).synSegment now) :=
    tracking now fun _ => fits_segmentOf _ _ _ _ (.inr rfl) (Nat.zero_le _)
  apply (hopen.trans hsend).trans
  exact quiet rfl rfl rfl nofun rfl fun y hy => ⟨y, hy, rfl⟩

theorem send {data : Bytes} {written : Nat} (h : c.send data now = .ok (d, written)) : Outputs c d := by
  have hwrite : Outputs c { c with sendQueue := (c.sendQueue.write data).1 } :=
    quiet rfl rfl rfl id rfl fun y hy => ⟨y, hy, rfl⟩
  unfold TCPConnection.send at h
  dsimp only at h
  split_ifs at h
  · cases h
    exact refl c
  · cases h
    exact hwrite.trans (flush _ now)
  · cases h
    exact hwrite

theorem recv (c : TCPConnection) (maxBytes : Nat) (now : Time) : Outputs c (c.recv maxBytes now).1 := by
  have hread : Outputs c { c with recvQueue := (c.recvQueue.read maxBytes).1 } :=
    quiet rfl rfl rfl id rfl fun y hy => ⟨y, hy, rfl⟩
  unfold TCPConnection.recv
  dsimp only
  split_ifs
  · exact refl c
  · exact hread.trans (sendAck _ now)
  · exact hread

theorem abort (c : TCPConnection) (now : Time) : Outputs c (c.abort now) := by
  unfold TCPConnection.abort
  dsimp only
  split_ifs
  · exact (transmit_nil ..).trans (finish _)
  · exact finish c

theorem close (c : TCPConnection) (now : Time) : Outputs c (c.close now) := by
  have hdrop : Outputs c ({ c with state := .closed }.notify .closed) :=
    ⟨rfl, List.prefix_refl _, ⟨[.closed], rfl, fun _ => .inr List.mem_cons_self⟩,
      fun h => ⟨h.peerMss, h.sent, h.retx⟩⟩
  unfold TCPConnection.close
  split
  · exact (sendFin c now).trans (state nofun)
  · exact (sendFin c now).trans (state nofun)
  all_goals first | exact abort c now | exact refl c | exact hdrop

end Outputs

theorem outputs_step (p : Endpoint) (e : Event) : Outputs p.conn (p.step e).conn := by
  cases e with
  | listen =>
    unfold Endpoint.step TCPConnection.listen
    dsimp only
    split_ifs
    · exact .refl _
    · exact .state nofun
  | connect draw now =>
    unfold Endpoint.step
    dsimp only
    split
    · rename_i c hconn
      exact .connect hconn
    · exact .refl _
  | send data now =>
    unfold Endpoint.step
    dsimp only
    split
    · rename_i c written hsend
      exact .send hsend
    · exact .refl _
  | recv maxBytes now => exact .recv _ maxBytes now
  | close now => exact .close _ now
  | abort now => exact .abort _ now
  | tick now => exact .onTick _ now
  | segment seg srcIp draw now => exact .onSegment _ seg srcIp draw now

theorem modest_new (cfg : Config) : (new cfg).Modest :=
  ⟨Nat.le_max_right _ _, fun _ hx => absurd hx List.not_mem_nil, fun _ hy => absurd hy List.not_mem_nil⟩

theorem modest_beginPassiveOpen (cfg : Config) (seg : TCPSegment) (draw : SeqNo) (now : Time) :
    ((new cfg).beginPassiveOpen seg draw now).Modest := by
  have hmss : ((new cfg).answering seg draw).Modest := by
    refine (Outputs.trans ?_ (.applyPeerOptions _ seg.options)).modest (modest_new cfg)
    exact .quiet rfl rfl rfl id rfl fun y hy => ⟨y, hy, rfl⟩
  have hsend := Outputs.tracking (c := (new cfg).answering seg draw)
    (x := ((new cfg).answering seg draw).synAckSegment seg) now
    fun _ => fits_segmentOf _ _ _ _ (.inr rfl) (Nat.zero_le _)
  rw [beginPassiveOpen_eq]
  obtain ⟨h1, h2, h3⟩ := hsend.modest hmss
  exact ⟨h1, h2, h3⟩

end TCPConnection

end MiniTcp
