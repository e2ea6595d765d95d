import MiniTcp.Net.Tcp.Seqno
import Mathlib.Order.Lattice

/-!
# `minitcp/net/tcp/congestion.py`: Reno
-/

namespace MiniTcp

inductive RenoState where
  | slowStart | congestionAvoidance | fastRecovery
  deriving DecidableEq, Repr

def INITIAL_WINDOW_CAP : Nat := 14600
def MAX_CWND : Nat := 2 ^ 30

/-- The congestion window and what moves it. -/
structure RenoCongestion where
  mss : Nat
  cwnd : Nat
  ssthresh : Nat
  state : RenoState := .slowStart
  duplicateAcks : Nat := 0
  recover : SeqNo := 0
  timeouts : Nat := 0
  fastRetransmits : Nat := 0
  deriving DecidableEq

namespace RenoCongestion

variable (r : RenoCongestion)

def new (mss : Nat) (initialWindow initialSsthresh : Option Nat) : RenoCongestion :=
  { mss := mss
    cwnd := initialWindow.getD (min (10 * mss) (max (2 * mss) INITIAL_WINDOW_CAP))
    ssthresh := initialSsthresh.getD MAX_CWND }

/-- A new acknowledgement covering `bytesAcked` fresh bytes. -/
def onAck (bytesAcked : Int) (ackNumber : Option SeqNo) : RenoCongestion :=
  if bytesAcked ≤ 0 then r
  else
    let acked := bytesAcked.toNat
    match r.state with
    | .fastRecovery =>
      if ackNumber.any (seqGe · r.recover) then
        { r with cwnd := max r.ssthresh r.mss, state := .congestionAvoidance, duplicateAcks := 0 }
      else
        -- a partial ACK: stay in recovery
        { r with cwnd := max r.ssthresh (r.cwnd - acked) + acked }
    | .slowStart =>
      let cwnd := min (r.cwnd + acked) MAX_CWND
      { r with
        duplicateAcks := 0
        cwnd := cwnd
        state := if cwnd ≥ r.ssthresh then .congestionAvoidance else .slowStart }
    | .congestionAvoidance =>
      let increment := r.mss * acked / max r.cwnd 1
      { r with duplicateAcks := 0, cwnd := min (r.cwnd + max increment 1) MAX_CWND }

/-- Register a duplicate ACK; the result says whether to retransmit fast. -/
def onDuplicateAck (ackNumber : Option SeqNo) : RenoCongestion × Bool :=
  if r.state = .fastRecovery then ({ r with cwnd := min (r.cwnd + r.mss) MAX_CWND }, false)
  else if r.duplicateAcks + 1 = 3 then
    let ssthresh := max (r.cwnd / 2) (2 * r.mss)
    ({ r with
      duplicateAcks := r.duplicateAcks + 1
      ssthresh := ssthresh
      cwnd := ssthresh + 3 * r.mss
      recover := ackNumber.getD 0
      state := .fastRecovery
      fastRetransmits := r.fastRetransmits + 1 }, true)
  else ({ r with duplicateAcks := r.duplicateAcks + 1 }, false)

/-- A retransmission timer fired. -/
def onTimeout : RenoCongestion :=
  { r with
    ssthresh := max (r.cwnd / 2) (2 * r.mss)
    cwnd := r.mss
    state := .slowStart
    duplicateAcks := 0
    timeouts := r.timeouts + 1 }

/-- Leave recovery once `recover` is acknowledged. -/
def onPartialAck (ackNumber : SeqNo) : RenoCongestion :=
  if r.state = .fastRecovery ∧ seqGe ackNumber r.recover then
    { r with cwnd := max r.ssthresh r.mss, state := .congestionAvoidance, duplicateAcks := 0 }
  else r

def inRecovery : Bool := r.state = .fastRecovery

/-- Bytes that may be in flight. -/
def effectiveWindow (receiverWindow : Nat) : Nat := max (min r.cwnd receiverWindow) r.mss

/-! ### The segment size never changes -/

@[simp] theorem onAck_mss (bytesAcked : Int) (ackNumber : Option SeqNo) :
    (r.onAck bytesAcked ackNumber).mss = r.mss := by
  unfold onAck
  split
  · rfl
  · cases r.state with
    | fastRecovery =>
      dsimp only
      split <;> rfl
    | slowStart => rfl
    | congestionAvoidance => rfl

@[simp] theorem onDuplicateAck_mss (ackNumber : Option SeqNo) :
    (r.onDuplicateAck ackNumber).1.mss = r.mss := by
  unfold onDuplicateAck
  split_ifs <;> rfl

@[simp] theorem onTimeout_mss : r.onTimeout.mss = r.mss := rfl

theorem mss_le_effectiveWindow (receiverWindow : Nat) : r.mss ≤ r.effectiveWindow receiverWindow :=
  le_max_right _ _

end RenoCongestion

end MiniTcp
