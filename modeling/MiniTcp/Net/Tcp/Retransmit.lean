import MiniTcp.Net.Tcp.Segment
import Mathlib.Algebra.Order.Group.Unbundled.Abs

/-!
# `minitcp/net/tcp/retransmit.py`: the RTO estimator and the queue of outstanding segments

Times are exact rationals where the source has floats.
-/

namespace MiniTcp

def DEFAULT_INITIAL_RTO : Time := 1
def DEFAULT_MIN_RTO : Time := 1 / 5
def DEFAULT_MAX_RTO : Time := 60

/-! ### The estimator -/

/-- Smoothed round-trip time and variance. -/
structure RTOEstimator where
  srtt : Option Time := none
  rttvar : Option Time := none
  minRto : Time
  maxRto : Time
  rto : Time
  samples : Nat := 0

namespace RTOEstimator

variable (e : RTOEstimator)

def new (initial minRto maxRto : Time) : RTOEstimator :=
  { minRto := minRto, maxRto := maxRto, rto := min (max initial minRto) maxRto }

/-- The estimator a connection starts with. -/
def default : RTOEstimator := new DEFAULT_INITIAL_RTO DEFAULT_MIN_RTO DEFAULT_MAX_RTO

/-- `min(max(srtt + 4 * rttvar, min_rto), max_rto)` -/
def clamped (srtt rttvar : Time) : Time := min (max (srtt + 4 * rttvar) e.minRto) e.maxRto

/-- Fold a fresh measurement in. -/
def sample (rtt : Time) : RTOEstimator :=
  if rtt ≤ 0 then e
  else
    let rttvar := match e.srtt with
      | none => rtt / 2
      | some srtt => 3 / 4 * e.rttvar.getD 0 + 1 / 4 * |srtt - rtt|
    let srtt := match e.srtt with
      | none => rtt
      | some srtt => 7 / 8 * srtt + 1 / 8 * rtt
    { e with
      srtt := some srtt
      rttvar := some rttvar
      samples := e.samples + 1
      rto := e.clamped srtt rttvar }

/-- Double the RTO after a timeout, capped at the maximum. -/
def backoff : RTOEstimator := { e with rto := min (e.rto * 2) e.maxRto }

/-- Recalculate the RTO from the current estimate, undoing any backoff. -/
def recompute : RTOEstimator :=
  match e.srtt with
  | none => { e with rto := min (max DEFAULT_INITIAL_RTO e.minRto) e.maxRto }
  | some srtt => { e with rto := e.clamped srtt (e.rttvar.getD 0) }

/-- Forget all history. -/
def reset : RTOEstimator :=
  { e with
    srtt := none
    rttvar := none
    rto := min (max DEFAULT_INITIAL_RTO e.minRto) e.maxRto
    samples := 0 }

end RTOEstimator

/-! ### The outstanding segments -/

/-- A segment that has been transmitted and not yet acknowledged. -/
structure OutstandingSegment where
  seq : SeqNo
  flags : Flags
  payload : Bytes
  sentAt : Time
  retransmits : Nat := 0
  rttSampled : Bool := false

namespace OutstandingSegment

variable (entry : OutstandingSegment)

def seqLen : Nat :=
  entry.payload.length + (if entry.flags &&& FLAG_SYN != 0 then 1 else 0)
    + (if entry.flags &&& FLAG_FIN != 0 then 1 else 0)

def seqEnd : SeqNo := seqAdd entry.seq entry.seqLen

/-- The entry after `mark_retransmitted`. -/
def retransmitted (now : Time) : OutstandingSegment :=
  { entry with retransmits := entry.retransmits + 1, sentAt := now, rttSampled := true }

end OutstandingSegment

/-- The segments awaiting acknowledgement, oldest first. -/
structure RetransmitQueue where
  segments : List OutstandingSegment := []
  capacity : Nat := 2 ^ 20

namespace RetransmitQueue

variable (q : RetransmitQueue)

def bytesOutstanding : Nat := (q.segments.map (·.payload.length)).sum

/-- Remember a newly transmitted segment; `none` when the queue is full. -/
def add (seq : SeqNo) (flags : Flags) (payload : Bytes) (now : Time) : Option RetransmitQueue :=
  if q.bytesOutstanding + payload.length > q.capacity then none
  else some { q with
    segments := q.segments ++ [{ seq := seq, flags := flags, payload := payload, sentAt := now }] }

/-- Drop the segments `ack` fully covers; the result also has the ones dropped. -/
def acknowledge (ack : SeqNo) : RetransmitQueue × List OutstandingSegment :=
  ({ q with segments := q.segments.filter (!seqLe ·.seqEnd ack) },
    q.segments.filter (seqLe ·.seqEnd ack))

def oldest : Option OutstandingSegment := q.segments.head?

/-- `mark_retransmitted`, which every caller applies to the oldest entry. -/
def markRetransmitted (now : Time) : RetransmitQueue :=
  match q.segments with
  | [] => q
  | entry :: rest => { q with segments := entry.retransmitted now :: rest }

/-- Discard the segments that end at or before `seq`. -/
def purgeBefore (seq : SeqNo) : RetransmitQueue × Nat :=
  let segments := q.segments.filter (!seqLe ·.seqEnd seq)
  ({ q with segments := segments }, q.segments.length - segments.length)

def clear : RetransmitQueue := { q with segments := [] }

end RetransmitQueue

end MiniTcp
