import MiniTcp.Net.Tcp.State
import MiniTcp.Net.Tcp.Buffer
import MiniTcp.Net.Tcp.Retransmit
import MiniTcp.Net.Tcp.Congestion

/-!
# `minitcp/net/tcp/connection.py`: one connection endpoint

`TCPConnection` has the fields of the source, and each method of the source is a function of the same
name from the connection before to the connection after. What a method hands to the outside is kept
in the connection: `sent` has every segment given to the `transmit` callable, `notices` every
callback made. Callbacks are outputs: they do not call back into the connection.

Where the source reads its clock or its random generator the value is an argument (`now`, `draw`).
The checks of the constructor are fields of `Config`, so every configuration is one it accepts.
-/

namespace MiniTcp

def DEFAULT_MSS : Nat := 1460
def DEFAULT_WINDOW : Nat := 65535
def DEFAULT_MSL : Time := 30
def DEFAULT_DELAYED_ACK : Time := 1 / 20
def MAX_RETRANSMITS : Nat := 15
def DEFAULT_PERSIST_DELAY : Time := 1 / 2
def MAX_PERSIST_DELAY : Time := 60

theorem defaultMss_pos : 0 < DEFAULT_MSS := by decide

theorem defaultWindow_pos : 0 < DEFAULT_WINDOW := by decide

theorem defaultSendCapacity_pos : 0 < 2 ^ 20 := by decide

/-- An operation that is not valid in the connection's state. -/
structure TCPStateError where
  message : String
  deriving DecidableEq

/-- The constructor's arguments. `SendQueue`, `ReceiveQueue` and `RenoCongestion` raise `ValueError`
unless the last three fields hold. -/
structure Config where
  localIp : Bytes
  localPort : Nat
  remoteIp : Bytes
  remotePort : Nat
  mss : Nat := DEFAULT_MSS
  receiveCapacity : Nat := DEFAULT_WINDOW
  sendCapacity : Nat := 2 ^ 20
  windowScale : Nat := 0
  initialWindow : Option Nat := none
  iss : Option SeqNo := none
  msl : Time := DEFAULT_MSL
  delayedAck : Bool := false
  delayedAckDelay : Time := DEFAULT_DELAYED_ACK
  mss_pos : 0 < mss
  receiveCapacity_pos : 0 < receiveCapacity
  sendCapacity_pos : 0 < sendCapacity

/-- A small configuration with a fixed initial number, for runs that are written out. -/
def Config.plain (iss : SeqNo) : Config where
  localIp := [10, 0, 0, 1]
  localPort := 1000
  remoteIp := [10, 0, 0, 2]
  remotePort := 2000
  iss := some iss
  mss_pos := defaultMss_pos
  receiveCapacity_pos := defaultWindow_pos
  sendCapacity_pos := defaultSendCapacity_pos

/-- A callback the connection makes. -/
inductive Notice where
  | established | data | closed | reset
  deriving DecidableEq, Repr

/-- One TCP connection endpoint. -/
structure TCPConnection where
  cfg : Config
  state : TcpState := .closed
  iss : SeqNo := 0
  irs : SeqNo := 0
  peerMss : Nat := 536
  sndWscale : Nat := 0
  peerWindow : Nat := DEFAULT_WINDOW
  sendQueue : SendQueue
  recvQueue : ReceiveQueue
  reno : RenoCongestion
  rto : RTOEstimator := .default
  retxQueue : RetransmitQueue := {}
  retransmitAt : Option Time := none
  delayedAckAt : Option Time := none
  timeWaitUntil : Option Time := none
  finSeq : Option SeqNo := none
  synSentAt : Option Time := none
  lastActivity : Time := 0
  persistAt : Option Time := none
  persistDelay : Time := DEFAULT_PERSIST_DELAY
  segmentsSent : Nat := 0
  segmentsReceived : Nat := 0
  retransmissions : Nat := 0
  bytesSent : Nat := 0
  bytesReceived : Nat := 0
  resetReceived : Bool := false
  /-- Every segment given to `transmit`, oldest first. -/
  sent : List TCPSegment := []
  /-- Every callback made, oldest first. -/
  notices : List Notice := []
  /-- The transmitted segments that `retx_queue.add` refused: the source drops that result. -/
  untracked : List TCPSegment := []

namespace TCPConnection

/-- `TCPConnection(...)` -/
def new (cfg : Config) : TCPConnection where
  cfg := cfg
  sendQueue := .new 0 cfg.sendCapacity
  recvQueue := .new 0 cfg.receiveCapacity
  reno := .new cfg.mss cfg.initialWindow none

variable (c : TCPConnection)

/-! ### Inspection -/

def sndUna : SeqNo := c.sendQueue.una
def sndNxt : SeqNo := c.sendQueue.nxt
def rcvNxt : SeqNo := c.recvQueue.nxt
def isEstablished : Bool := c.state = .established
def isClosed : Bool := c.state = .closed
def canSend : Bool := c.state = .established || c.state = .closeWait
def canReceive : Bool := c.state = .established || c.state = .finWait1 || c.state = .finWait2

/-- True once the peer has sent its FIN. -/
def peerClosed : Bool :=
  c.state = .closeWait || c.state = .closing || c.state = .lastAck || c.state = .timeWait

/-! ### Helpers -/

def notify (n : Notice) : TCPConnection := { c with notices := c.notices ++ [n] }

/-- The receive window, right-shifted by the negotiated scale factor. -/
def advertisedWindow : Nat := min (c.recvQueue.window >>> c.cfg.windowScale) 0xFFFF

def synOptions : TCPOptions :=
  { mss := some c.cfg.mss
    windowScale := if c.cfg.windowScale = 0 then none else some c.cfg.windowScale
    sackPermitted := true }

def chooseIss (draw : SeqNo) : SeqNo := c.cfg.iss.getD draw

def applyPeerOptions (options : TCPOptions) : TCPConnection :=
  { c with
    peerMss := match options.mss with
      | some mss => max (min mss c.cfg.mss) 64
      | none => c.peerMss
    sndWscale := match options.windowScale with
      | some scale => min scale 14
      | none => c.sndWscale }

def teardown : TCPConnection :=
  { c with
    state := .closed
    retxQueue := c.retxQueue.clear
    sendQueue := c.sendQueue.clear
    recvQueue := c.recvQueue.clear
    retransmitAt := none
    delayedAckAt := none
    timeWaitUntil := none }

def enterTimeWait (now : Time) : TCPConnection :=
  { c with
    state := .timeWait
    timeWaitUntil := some (now + 2 * c.cfg.msl)
    retxQueue := c.retxQueue.clear
    retransmitAt := none }

/-- Whether a segment is relevant to this connection. -/
def acceptable (seg : TCPSegment) : Bool :=
  if !c.state.isSynchronised then true
  else
    let window := c.recvQueue.capacity
    if window = 0 then seg.payload = [] && seg.seq = c.recvQueue.nxt
    else
      let low := c.recvQueue.nxt
      let high := seqAdd low window
      if seg.payload = [] && seg.seqLen = 0 then seqGe seg.seq low && seqLt seg.seq high
      else seqLt seg.seq high && seqGt seg.seqEnd low

/-! ### Outbound transmission -/

/-- The segment `_transmit` builds. -/
def segmentOf (seq : SeqNo) (flags : Flags) (payload : Bytes) (ack : SeqNo) (options : TCPOptions) :
    TCPSegment :=
  { srcPort := c.cfg.localPort
    dstPort := c.cfg.remotePort
    seq := seq
    ack := ack
    flags := flags
    window := c.advertisedWindow
    payload := payload
    options := options }

def armRetransmitTimer (now : Time) : TCPConnection :=
  { c with retransmitAt := if c.retxQueue.segments = [] then none else some (now + c.rto.rto) }

/-- Hand a segment to the `transmit` callable. -/
def emit (seg : TCPSegment) : TCPConnection :=
  { c with
    segmentsSent := c.segmentsSent + 1
    bytesSent := c.bytesSent + seg.payload.length
    sent := c.sent ++ [seg] }

/-- Remember a transmitted segment for retransmission. -/
def track (seg : TCPSegment) (now : Time) : TCPConnection :=
  match c.retxQueue.add seg.seq seg.flags seg.payload now with
  | some q => { c with retxQueue := q }
  | none => { c with untracked := c.untracked ++ [seg] }

/-- Build a segment, hand it out, and track it when it takes sequence space. -/
def transmit (seq : SeqNo) (flags : Flags) (payload : Bytes) (now : Time)
    (ack : Option SeqNo := none) (options : TCPOptions := {}) (track : Bool := true) :
    TCPConnection :=
  let seg := c.segmentOf seq flags payload (ack.getD c.recvQueue.nxt) options
  let c := c.emit seg
  if track && (flags &&& (FLAG_SYN ||| FLAG_FIN) != 0 || payload ≠ []) then
    (c.track seg now).armRetransmitTimer now
  else c

def sendAck (now : Time) : TCPConnection :=
  let c := { c with delayedAckAt := none }
  if c.state = .closed ∨ c.state = .listen then c
  else c.transmit c.sendQueue.nxt FLAG_ACK [] now (some c.recvQueue.nxt)

/-- Answer an unexpected segment with an RST. -/
def reject (seg : TCPSegment) (now : Time) : TCPConnection :=
  if seg.isRst then c
  else if seg.isAck then c.transmit seg.ack FLAG_RST [] now
  else c.transmit 0 (FLAG_RST ||| FLAG_ACK) [] now (some (seqAdd seg.seq seg.seqLen))

/-- Transmit `payload` as new data at `snd_nxt`. -/
def transmitData (payload : Bytes) (now : Time) : TCPConnection :=
  let c := c.transmit c.sendQueue.nxt (FLAG_ACK ||| FLAG_PSH) payload now
  { c with sendQueue := { c.sendQueue with nxt := seqAdd c.sendQueue.nxt payload.length } }

/-- The next payload `_flush` would send, and how much it was allowed to send. -/
def nextPayload : Bytes × Nat :=
  let window := c.reno.effectiveWindow c.peerWindow
  let allowed := min (window - c.sendQueue.inFlight) c.peerMss
  (c.sendQueue.peek c.sendQueue.nxt allowed, allowed)

/-- The loop of `_flush`. Each round transmits at least one buffered byte, so the number of buffered
bytes bounds the rounds. -/
def flushLoop (now : Time) : Nat → TCPConnection → TCPConnection
  | 0, c => c
  | fuel + 1, c =>
    if c.sendQueue.inFlight ≥ c.reno.effectiveWindow c.peerWindow then c
    else
      let (payload, allowed) := c.nextPayload
      if payload = [] then c
      else
        let c := c.transmitData payload now
        if payload.length < allowed then c else flushLoop now fuel c

/-- Start the persist timer if there is anything to send. -/
def armPersistTimer (now : Time) : TCPConnection :=
  if c.sendQueue.unsent = 0 ∧ c.sendQueue.inFlight = 0 then { c with persistAt := none }
  else
    match c.persistAt with
    | none => { c with persistAt := some (now + c.persistDelay) }
    | some _ => c

/-- Send as much buffered data as the two windows allow. -/
def flush (now : Time) : TCPConnection :=
  if !c.state.isSynchronised then c
  else if c.peerWindow = 0 then c.armPersistTimer now
  else
    let c := { c with persistAt := none, persistDelay := DEFAULT_PERSIST_DELAY }
    flushLoop now (c.sendQueue.buf.length + 1) c

def sendFin (now : Time) : TCPConnection :=
  let finSeq := c.sendQueue.nxt
  let c := { c with finSeq := some finSeq }.transmit finSeq (FLAG_ACK ||| FLAG_FIN) [] now
  { c with sendQueue := { c.sendQueue with nxt := seqAdd finSeq 1 } }

/-- Resend an outstanding segment, which is already tracked. -/
def resend (entry : OutstandingSegment) (now : Time) : TCPConnection :=
  { c with
    retransmissions := c.retransmissions + 1
    retxQueue := c.retxQueue.markRetransmitted now }.transmit entry.seq entry.flags entry.payload now
    none {} false

/-- Resend the oldest unacknowledged segment. -/
def retransmitOldest (now : Time) (fast : Bool := false) : TCPConnection :=
  match c.retxQueue.oldest with
  | none => c
  | some oldest =>
    let c := c.resend oldest now
    if fast then c else { c with retransmitAt := some (now + c.rto.rto) }

/-! ### The data path -/

/-- Adopt the window the peer advertised; the result says whether it has just re-opened. -/
def updatePeerWindow (seg : TCPSegment) : TCPConnection × Bool :=
  let previous := c.peerWindow
  let window := seg.window <<< c.sndWscale
  ({ c with peerWindow := window }, previous = 0 && 0 < window)

/-- Count an ACK that repeats `snd_una` while data is in flight; the result says whether to
retransmit fast. -/
def countDuplicateAck (seg : TCPSegment) : TCPConnection × Bool :=
  if seg.ack = c.sendQueue.una ∧ 0 < c.sendQueue.inFlight then
    let counted := c.reno.onDuplicateAck (some seg.ack)
    ({ c with reno := counted.1 }, counted.2)
  else (c, false)

/-- An ACK that does not advance `snd_una`: a duplicate, perhaps with a window update. -/
def processOldAck (seg : TCPSegment) (now : Time) : TCPConnection :=
  let updated := c.updatePeerWindow seg
  let counted := updated.1.countDuplicateAck seg
  let c :=
    if counted.2 then counted.1.retransmitOldest now true
    else if updated.2 && counted.1.retxQueue.oldest.isSome then counted.1.retransmitOldest now
    else counted.1
  c.flush now

/-- The estimator after an ACK retired `acked`: the first entry that was never retransmitted gives a
sample; when there is none the backoff is dropped. -/
def estimate (acked : List OutstandingSegment) (now : Time) : RTOEstimator :=
  match acked.find? (·.retransmits = 0) with
  | some entry => c.rto.sample (max (now - entry.sentAt) 0)
  | none => c.rto.recompute

/-- The queues, the estimator and the congestion window after an ACK that advances `snd_una`. -/
def retire (seg : TCPSegment) (now : Time) : TCPConnection :=
  let acknowledged := c.sendQueue.acknowledge seg.ack
  let acked := c.retxQueue.acknowledge seg.ack
  { c with
    sendQueue := acknowledged.1
    retxQueue := acked.1
    rto := c.estimate acked.2 now
    reno := c.reno.onAck acknowledged.2 (some seg.ack) }

/-- An ACK that advances `snd_una`. -/
def processNewAck (seg : TCPSegment) (now : Time) : TCPConnection :=
  let acknowledged := c.sendQueue.acknowledge seg.ack
  if acknowledged.2 ≤ 0 then { c with sendQueue := acknowledged.1 }
  else ((((c.retire seg now).updatePeerWindow seg).1).armRetransmitTimer now).flush now

/-- Handle an acknowledgement, including duplicate and partial ACKs. -/
def processAck (seg : TCPSegment) (now : Time) : TCPConnection :=
  if !seqGt seg.ack c.sendQueue.una then c.processOldAck seg now else c.processNewAck seg now

/-- Acknowledge data: at once, or after a delay when it is new and delaying is on. -/
def acknowledgeData (newly : Nat) (now : Time) : TCPConnection :=
  if c.cfg.delayedAck ∧ newly ≠ 0 then
    match c.delayedAckAt with
    | none => { c with delayedAckAt := some (now + c.cfg.delayedAckDelay) }
    | some _ => c
  else c.sendAck now

def handleData (seg : TCPSegment) (now : Time) : TCPConnection :=
  let inserted := c.recvQueue.insert seg.seq seg.payload
  let c := { c with recvQueue := inserted.1 }
  let c :=
    if inserted.2 ≠ 0 then { c with bytesReceived := c.bytesReceived + inserted.2 }.notify .data
    else c
  if inserted.2 ≠ 0 ∨ seg.payload ≠ [] then c.acknowledgeData inserted.2 now else c

/-- Move through the closing states once our FIN is acknowledged. -/
def maybeAdvanceAfterAck (seg : TCPSegment) (now : Time) : TCPConnection :=
  match c.finSeq with
  | none => c
  | some finSeq =>
    if !seg.isAck then c
    else if !seqGe seg.ack (seqAdd finSeq 1) then c
    else if c.state = .finWait1 then { c with state := .finWait2 }
    else if c.state = .closing then c.enterTimeWait now
    else if c.state = .lastAck then c.teardown.notify .closed
    else c

/-- Take the peer's FIN, which is the next number expected. -/
def consumeFin (now : Time) : TCPConnection :=
  let c := { c with recvQueue := { c.recvQueue with nxt := seqAdd c.recvQueue.nxt 1 } }.sendAck now
  if c.state = .established then { c with state := .closeWait }
  else if c.state = .finWait1 then
    if c.finSeq.any (fun finSeq => seqGe c.sendQueue.una (seqAdd finSeq 1)) then c.enterTimeWait now
    else { c with state := .closing }
  else if c.state = .finWait2 then c.enterTimeWait now
  else if c.state = .closing then c.enterTimeWait now
  else c

/-- Handle the peer's FIN, tolerating out-of-order arrival. -/
def handleFin (seg : TCPSegment) (now : Time) : TCPConnection :=
  let finSeq := seqAdd seg.seq seg.payload.length
  if seqGt finSeq c.recvQueue.nxt then c.sendAck now
  else if seqLt finSeq c.recvQueue.nxt then c.sendAck now
  else c.consumeFin now

/-- A reset is honoured as it comes. -/
def handleRst : TCPConnection :=
  (({ c with resetReceived := true }.teardown).notify .reset).notify .closed

/-! ### The handshake -/

/-- Answer a SYN: the child of a listener becomes half-open. -/
def beginPassiveOpen (seg : TCPSegment) (draw : SeqNo) (now : Time) : TCPConnection :=
  let iss := c.chooseIss draw
  let c := { c with
    irs := seg.seq
    iss := iss
    sendQueue := .new iss c.cfg.sendCapacity
    recvQueue := .new seg.seq c.cfg.receiveCapacity
    reno := .new c.cfg.mss none none
    peerWindow := seg.window }.applyPeerOptions seg.options
  let c := c.transmit c.iss (FLAG_SYN ||| FLAG_ACK) [] now (some c.recvQueue.nxt) c.synOptions
  { c with
    sendQueue := { c.sendQueue with nxt := seqAdd c.iss 1 }
    state := .synReceived }

/-- The configuration a listener gives to the child it creates for `seg`. -/
def childConfig (seg : TCPSegment) (srcIp : Option Bytes) : Config :=
  { c.cfg with
    remoteIp := srcIp.getD c.cfg.remoteIp
    remotePort := seg.srcPort
    initialWindow := none }

/-- The child handed to `on_accept`, if the segment asks for one; the listener stays as it is. -/
def handleSegmentInListen (seg : TCPSegment) (srcIp : Option Bytes) (draw : SeqNo) (now : Time) :
    Option TCPConnection :=
  if seg.isRst then none
  else if !seg.isSyn then none
  else some ((new (c.childConfig seg srcIp)).beginPassiveOpen seg draw now)

/-- Both sides sent a SYN at the same time. -/
def handleSimultaneousOpen (seg : TCPSegment) (now : Time) : TCPConnection :=
  let c := { c with
    irs := seg.seq
    recvQueue := .new seg.seq c.cfg.receiveCapacity }.applyPeerOptions seg.options
  let c := { c with peerWindow := seg.window }
  let c := c.transmit c.iss (FLAG_SYN ||| FLAG_ACK) [] now (some c.recvQueue.nxt) c.synOptions
  { c with state := .synReceived }

def handleSynAck (seg : TCPSegment) (now : Time) : TCPConnection :=
  if !seqGe seg.ack (seqAdd c.iss 1) then c.reject seg now
  else
    let c := { c with
      irs := seg.seq
      recvQueue := .new seg.seq c.cfg.receiveCapacity }.applyPeerOptions seg.options
    let c := { c with peerWindow := seg.window <<< c.sndWscale }
    let c := (c.processAck seg now).sendAck now
    { c with state := .established }.notify .established

def handleFinalAckOfHandshake (seg : TCPSegment) (now : Time) : TCPConnection :=
  if !seqGe seg.ack (seqAdd c.iss 1) then c
  else { c.processAck seg now with state := .established }.notify .established

/-! ### Inbound segments -/

/-- The synchronised part of `on_segment`: acknowledgement, closing states, data, FIN. -/
def onSynchronised (seg : TCPSegment) (now : Time) : TCPConnection :=
  if !c.acceptable seg then
    if !seg.isRst then c.sendAck now else c
  else
    let c := if seg.isAck then c.processAck seg now else c
    let c := c.maybeAdvanceAfterAck seg now
    let c := if seg.payload ≠ [] then c.handleData seg now else c
    if seg.isFin then c.handleFin seg now else c

/-- The part of `on_segment` after its bookkeeping; the second result is the child handed to
`on_accept`. -/
def dispatch (seg : TCPSegment) (srcIp : Option Bytes) (draw : SeqNo) (now : Time) :
    TCPConnection × Option TCPConnection :=
  if c.state = .closed then (c.reject seg now, none)
  else if seg.isRst then (c.handleRst, none)
  else if c.state = .listen then (c, c.handleSegmentInListen seg srcIp draw now)
  else if seg.isSyn then
    if c.state = .synSent then
      if seg.isAck then (c.handleSynAck seg now, none) else (c.handleSimultaneousOpen seg now, none)
    else if c.state = .synReceived then (c.retransmitOldest now, none)
    else (c.reject seg now, none)
  else if c.state = .synSent then (c, none)
  else if c.state = .synReceived then
    if seg.isAck then (c.handleFinalAckOfHandshake seg now, none) else (c, none)
  else (c.onSynchronised seg now, none)

/-- What `on_segment` notes about every segment. -/
def stamp (now : Time) : TCPConnection :=
  { c with segmentsReceived := c.segmentsReceived + 1, lastActivity := now }

/-- Process one segment from the network. -/
def onSegment (seg : TCPSegment) (srcIp : Option Bytes) (draw : SeqNo) (now : Time) :
    TCPConnection × Option TCPConnection :=
  (c.stamp now).dispatch seg srcIp draw now

/-! ### Timers -/

def onRetransmitTimeout (now : Time) : TCPConnection :=
  match c.retxQueue.oldest with
  | none => { c with retransmitAt := none }
  | some oldest =>
    if oldest.retransmits ≥ MAX_RETRANSMITS then c.teardown.notify .closed
    else
      let c := { c with reno := c.reno.onTimeout, rto := c.rto.backoff }.resend oldest now
      { c with retransmitAt := some (now + c.rto.rto) }

/-- Probe a peer whose receive window has shut. -/
def onPersistTimeout (now : Time) : TCPConnection :=
  if 0 < c.peerWindow then
    { c with persistAt := none, persistDelay := DEFAULT_PERSIST_DELAY }.flush now
  else if !c.state.isSynchronised then { c with persistAt := none }
  else
    let c := match c.retxQueue.oldest with
      | some oldest => c.resend oldest now
      | none =>
        let payload := c.sendQueue.peek c.sendQueue.nxt 1
        if payload = [] then c else c.transmitData payload now
    let delay := min (c.persistDelay * 2) MAX_PERSIST_DELAY
    { c with persistDelay := delay, persistAt := some (now + delay) }

/-- Whether a timer is due. -/
def due (timer : Option Time) (now : Time) : Bool := timer.any (· ≤ now)

/-- Drive every time-based transition. -/
def onTick (now : Time) : TCPConnection :=
  let c := if due c.delayedAckAt now then c.sendAck now else c
  let c := if due c.retransmitAt now then c.onRetransmitTimeout now else c
  let c := if due c.persistAt now then c.onPersistTimeout now else c
  if c.state = .timeWait ∧ due c.timeWaitUntil now then c.teardown.notify .closed else c

/-! ### Application-facing operations -/

/-- Move to LISTEN and wait for an inbound SYN. -/
def listen : Except TCPStateError TCPConnection :=
  if c.state ≠ .closed then .error ⟨"cannot listen from state " ++ c.state.name⟩
  else .ok { c with state := .listen }

/-- Actively open the connection by sending a SYN. -/
def connect (draw : SeqNo) (now : Time) : Except TCPStateError TCPConnection :=
  if c.state ≠ .closed then .error ⟨"cannot connect from state " ++ c.state.name⟩
  else
    let iss := c.chooseIss draw
    let c := { c with
      iss := iss
      sendQueue := .new iss c.cfg.sendCapacity
      recvQueue := .new 0 c.cfg.receiveCapacity
      reno := .new c.cfg.mss none none }
    let c := c.transmit iss FLAG_SYN [] now none c.synOptions
    .ok { c with
      sendQueue := { c.sendQueue with nxt := seqAdd iss 1 }
      state := .synSent
      synSentAt := some now }

/-- Queue bytes for transmission; the result has how many were accepted. -/
def send (data : Bytes) (now : Time) : Except TCPStateError (TCPConnection × Nat) :=
  if !c.canSend then .error ⟨"cannot send in state " ++ c.state.name⟩
  else if data = [] then .ok (c, 0)
  else
    let (sendQueue, written) := c.sendQueue.write data
    let c := { c with sendQueue := sendQueue }
    .ok (if written ≠ 0 then c.flush now else c, written)

/-- Take up to `maxBytes` of received data. -/
def recv (maxBytes : Nat) (now : Time) : TCPConnection × Bytes :=
  if c.recvQueue.available = 0 then (c, [])
  else
    let (recvQueue, data) := c.recvQueue.read maxBytes
    let c := { c with recvQueue := recvQueue }
    if data ≠ [] ∧ (c.state = .established ∨ c.state = .finWait1 ∨ c.state = .finWait2) then
      (c.sendAck now, data)
    else (c, data)

/-- Send an RST and tear the connection down immediately. -/
def abort (now : Time) : TCPConnection :=
  let c :=
    if c.state ≠ .closed ∧ c.state ≠ .listen then
      c.transmit c.sendQueue.nxt (FLAG_RST ||| FLAG_ACK) [] now (some c.recvQueue.nxt)
    else c
  c.teardown.notify .closed

/-- Gracefully shut down this direction of the connection. -/
def close (now : Time) : TCPConnection :=
  match c.state with
  | .established => { c.sendFin now with state := .finWait1 }
  | .closeWait => { c.sendFin now with state := .lastAck }
  | .synSent | .synReceived => c.abort now
  | .finWait1 | .finWait2 | .closing | .lastAck | .timeWait => c
  | .closed | .listen => { c with state := .closed }.notify .closed

end TCPConnection

end MiniTcp
