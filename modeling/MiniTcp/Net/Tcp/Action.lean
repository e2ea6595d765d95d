import MiniTcp.Net.Tcp.Endpoint
import Mathlib.Logic.Relation

/-!
# What a connection can do, one action at a time

A call into a connection runs through several methods, and the same few changes occur in many of
them. `Action r e p p'` lists these changes: handing out an ACK, sending new data at `snd_nxt`,
resending the oldest outstanding segment, retiring acknowledged bytes, taking a payload in, and so
on, each with what the code has checked when it makes the change. `r` tells whether the call answers
its segment with an RST. `actions_step` shows that every call `e` is a sequence of such actions, so an
invariant is proved by looking at each action once, and never again at the control flow of
`on_segment`, `on_tick` and the methods they call.
-/

namespace MiniTcp

open Relation (ReflTransGen)

namespace TCPConnection

/-- A change of bookkeeping: congestion window, estimator, persist timer, counters, callbacks, the
peer's window, a delayed ACK called off. The fields the actions below are about stay. -/
structure Quiet (c c' : TCPConnection) : Prop where
  cfg : c'.cfg = c.cfg
  state : c'.state = c.state
  iss : c'.iss = c.iss
  irs : c'.irs = c.irs
  peerMss : c'.peerMss = c.peerMss
  sendQueue : c'.sendQueue = c.sendQueue
  recvQueue : c'.recvQueue = c.recvQueue
  retxQueue : c'.retxQueue = c.retxQueue
  retransmitAt : c'.retransmitAt = c.retransmitAt
  finSeq : c'.finSeq = c.finSeq
  sent : c'.sent = c.sent
  untracked : c'.untracked = c.untracked
  resetReceived : c'.resetReceived = c.resetReceived
  mss : c'.reno.mss = c.reno.mss
  delayed : c.delayedAckAt = none → c'.delayedAckAt = none

/-- The RST that `_reject` answers a segment with. -/
def rejection (c : TCPConnection) (seg : TCPSegment) : TCPSegment :=
  if seg.isAck then c.segmentOf seg.ack FLAG_RST [] c.recvQueue.nxt {}
  else c.segmentOf 0 (FLAG_RST ||| FLAG_ACK) [] (seqAdd seg.seq seg.seqLen) {}

/-- `on_segment` answers `seg`, which carries no RST, with one: nothing is open, or a SYN comes to an
open connection, or a SYN+ACK does not acknowledge our SYN. -/
def Rejects (c : TCPConnection) (seg : TCPSegment) : Prop :=
  c.state = .closed ∨ (c.state.isSynchronised = true ∧ seg.isSyn = true) ∨
    (c.state = .synSent ∧ seg.isSyn = true ∧ seg.isAck = true ∧
      seqGe seg.ack (seqAdd c.iss 1) = false)

/-- The connection is open, or was closed by an acknowledgement of its FIN while the segment at hand
was still being processed. -/
def Receiving (c : TCPConnection) : Prop :=
  c.state.isSynchronised = true ∨ (c.state = .closed ∧ c.finSeq ≠ none)

/-- The queues and the timer once `ack`, which advances `snd_una`, is processed. -/
def acknowledged (c : TCPConnection) (ack : SeqNo) (t : Time) : TCPConnection :=
  { c with
    sendQueue := (c.sendQueue.acknowledge ack).1
    retxQueue := (c.retxQueue.acknowledge ack).1
    retransmitAt := if (c.retxQueue.acknowledge ack).1.segments = [] then none else some t }

/-- The connection a handshake ACK establishes. -/
def settled (c : TCPConnection) (ack : SeqNo) (t : Time) : TCPConnection :=
  { (if seqGt ack c.sendQueue.una then c.acknowledged ack t else c) with state := .established }

/-- The connection after the peer's FIN, but for the ACK. -/
def finTaken (c : TCPConnection) (now : Time) : TCPConnection :=
  let c := { c with recvQueue := { c.recvQueue with nxt := seqAdd c.recvQueue.nxt 1 } }
  match c.state with
  | .established => { c with state := .closeWait }
  | .finWait1 =>
    if c.finSeq.any (fun finSeq => seqGe c.sendQueue.una (seqAdd finSeq 1)) then c.enterTimeWait now
    else { c with state := .closing }
  | .finWait2 | .closing => c.enterTimeWait now
  | _ => c

/-- The connection after the acknowledgement of its FIN. -/
def finAcknowledged (c : TCPConnection) (now : Time) : TCPConnection :=
  match c.state with
  | .finWait1 => { c with state := .finWait2 }
  | .closing => c.enterTimeWait now
  | _ => c.teardown.notify .closed

end TCPConnection

/-- The call brings no acknowledgement, or one that does not advance `snd_una` (any more). -/
def Event.Processed (e : Event) (c : TCPConnection) : Prop :=
  ∀ seg, e.inbound = some seg → seqGt seg.ack c.sendQueue.una = false

theorem Event.Processed.of_una {e : Event} {c d : TCPConnection} (h : e.Processed c)
    (huna : d.sendQueue.una = c.sendQueue.una) : e.Processed d := by
  unfold Event.Processed
  rw [huna]
  exact h

/-- One change a call `e` makes. -/
inductive Action (r : Bool) (e : Event) (p : Endpoint) : Endpoint → Prop
  | quiet {c} (h : p.conn.Quiet c) : Action r e p (p.put c)
  | ack (hstate : p.conn.state.isSynchronised = true ∨
        p.conn.delayedAckAt ≠ none ∧ p.conn.state ≠ .closed ∧ p.conn.state ≠ .listen) :
      Action r e p (p.put (p.conn.emit (p.conn.segmentOf p.conn.sendQueue.nxt FLAG_ACK []
        p.conn.recvQueue.nxt {})))
  | delay (t : Time) (hstate : p.conn.Receiving) :
      Action r e p (p.put { p.conn with delayedAckAt := some t })
  | reject {seg srcIp draw now} (hr : r = true) (he : e = .segment seg srcIp draw now)
      (hrst : seg.isRst = false) (hstate : p.conn.Rejects seg) :
      Action r e p (p.put (p.conn.emit (p.conn.rejection seg)))
  | listen (he : e = .listen) (hstate : p.conn.state = .closed) :
      Action r e p (p.put { p.conn with state := .listen })
  | connect {draw now c} (he : e = .connect draw now) (h : p.conn.connect draw now = .ok c) :
      Action r e p ⟨c, [], []⟩
  | simultaneousOpen {seg srcIp draw now} (he : e = .segment seg srcIp draw now)
      (hstate : p.conn.state = .synSent) (hsyn : seg.isSyn = true) (hack : seg.isAck = false)
      (hrst : seg.isRst = false) : Action r e p (p.put (p.conn.handleSimultaneousOpen seg now))
  | adopt {seg srcIp draw now} (he : e = .segment seg srcIp draw now)
      (hstate : p.conn.state = .synSent) (hsyn : seg.isSyn = true) (hack : seg.isAck = true)
      (hrst : seg.isRst = false) (hge : seqGe seg.ack (seqAdd p.conn.iss 1) = true) :
      Action r e p (p.put ({ p.conn with
        irs := seg.seq
        recvQueue := .new seg.seq p.conn.cfg.receiveCapacity }.applyPeerOptions seg.options))
  | retire {seg srcIp draw now} (t : Time) (he : e = .segment seg srcIp draw now)
      (hack : seg.isAck = true) (hrst : seg.isRst = false)
      (hstate : p.conn.state.isSynchronised = true)
      (hgt : seqGt seg.ack p.conn.sendQueue.una = true) :
      Action r e p (p.put (p.conn.acknowledged seg.ack t))
  | establish {seg srcIp draw now} (t : Time) (he : e = .segment seg srcIp draw now)
      (hack : seg.isAck = true) (hrst : seg.isRst = false)
      (hstate : p.conn.state = .synSent ∧ seg.isSyn = true ∧
          p.conn.recvQueue = .new seg.seq p.conn.cfg.receiveCapacity ∨
        p.conn.state = .synReceived ∧ seg.isSyn = false)
      (hge : seqGe seg.ack (seqAdd p.conn.iss 1) = true) :
      Action r e p (p.put (p.conn.settled seg.ack t))
  | push (payload : Bytes) (n : Nat) (now : Time) (hstate : p.conn.state.isSynchronised = true)
      (hpeek : payload = p.conn.sendQueue.peek p.conn.sendQueue.nxt n) (hne : payload ≠ [])
      (hdone : e.Processed p.conn) : Action r e p (p.put (p.conn.transmitData payload now))
  | resend {entry} (now : Time) (h : p.conn.retxQueue.oldest = some entry) :
      Action r e p (p.put (p.conn.resend entry now))
  | arm (t : Time) (h : p.conn.retxQueue.segments ≠ []) :
      Action r e p (p.put { p.conn with retransmitAt := some t })
  | disarm (h : p.conn.retxQueue.segments = []) :
      Action r e p (p.put { p.conn with retransmitAt := none })
  | fin {now st} (he : e = .close now)
      (hstate : p.conn.state = .established ∧ st = .finWait1 ∨
        p.conn.state = .closeWait ∧ st = .lastAck) :
      Action r e p (p.put { p.conn.sendFin now with state := st })
  | insert {seg srcIp draw now} (he : e = .segment seg srcIp draw now) (hrst : seg.isRst = false)
      (hstate : p.conn.Receiving) (hne : seg.payload ≠ []) :
      Action r e p (p.put { p.conn with
        recvQueue := (p.conn.recvQueue.insert seg.seq seg.payload).1 })
  | consumeFin {seg srcIp draw now} (he : e = .segment seg srcIp draw now) (hrst : seg.isRst = false)
      (hfin : seg.isFin = true) (hstate : p.conn.Receiving)
      (hgt : seqGt (seqAdd seg.seq seg.payload.length) p.conn.recvQueue.nxt = false)
      (hlt : seqLt (seqAdd seg.seq seg.payload.length) p.conn.recvQueue.nxt = false) :
      Action r e p (p.put (p.conn.finTaken now))
  | advance {seg srcIp draw now finSeq} (he : e = .segment seg srcIp draw now)
      (hack : seg.isAck = true) (hrst : seg.isRst = false) (hfin : p.conn.finSeq = some finSeq)
      (hge : seqGe seg.ack (seqAdd finSeq 1) = true)
      (hstate : p.conn.state = .finWait1 ∨ p.conn.state = .closing ∨ p.conn.state = .lastAck) :
      Action r e p (p.put (p.conn.finAcknowledged now))
  | reset {seg srcIp draw now} (he : e = .segment seg srcIp draw now) (hrst : seg.isRst = true)
      (hstate : p.conn.state ≠ .closed) : Action r e p (p.put p.conn.handleRst)
  | expire {now} (he : e = .tick now)
      (hcause : p.conn.state = .timeWait ∨
        ∃ entry, p.conn.retxQueue.oldest = some entry ∧ MAX_RETRANSMITS ≤ entry.retransmits) :
      Action r e p (p.put (p.conn.teardown.notify .closed))
  | abort {now} (he : e = .abort now ∨
        e = .close now ∧ (p.conn.state = .synSent ∨ p.conn.state = .synReceived)) :
      Action r e p (p.put (p.conn.abort now))
  | drop {now} (he : e = .close now)
      (hstate : p.conn.state = .closed ∨ p.conn.state = .listen) :
      Action r e p (p.put ({ p.conn with state := .closed }.notify .closed))
  | write {data now} (he : e = .send data now) (hstate : p.conn.canSend = true) :
      Action r e p { p.put { p.conn with sendQueue := (p.conn.sendQueue.write data).1 } with
        accepted := p.accepted ++ data.take (p.conn.sendQueue.write data).2 }
  | read {maxBytes now} (he : e = .recv maxBytes now) :
      Action r e p { p.put { p.conn with recvQueue := (p.conn.recvQueue.read maxBytes).1 } with
        returned := p.returned ++ (p.conn.recvQueue.read maxBytes).2 }

end MiniTcp
