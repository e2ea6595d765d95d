import MiniTcp.Util.Basic
import MiniTcp.Net.Tcp.Seqno

/-!
# `minitcp/net/tcp/segment.py`: segments as the connection sees them

The fields of a decoded segment and the sequence space it occupies. The wire encoding is not part
of this module.
-/

namespace MiniTcp

/-- The flag word; nine bits on the wire. -/
abbrev Flags := BitVec 9

def FLAG_FIN : Flags := 0x001
def FLAG_SYN : Flags := 0x002
def FLAG_RST : Flags := 0x004
def FLAG_PSH : Flags := 0x008
def FLAG_ACK : Flags := 0x010
def FLAG_URG : Flags := 0x020
def FLAG_NS : Flags := 0x100

/-- The options the stack understands. -/
structure TCPOptions where
  mss : Option Nat := none
  windowScale : Option Nat := none
  sackPermitted : Bool := false
  sackBlocks : List (Nat × Nat) := []
  timestamp : Option Nat := none
  timestampEcho : Option Nat := none
  deriving DecidableEq, Repr

/-- A decoded TCP segment. -/
structure TCPSegment where
  srcPort : Nat
  dstPort : Nat
  seq : SeqNo
  ack : SeqNo := 0
  flags : Flags := 0
  window : Nat := 0
  payload : Bytes := []
  options : TCPOptions := {}
  urgentPointer : Nat := 0
  checksum : Nat := 0
  deriving DecidableEq

namespace TCPSegment

variable (seg : TCPSegment)

def isSyn : Bool := seg.flags &&& FLAG_SYN != 0
def isAck : Bool := seg.flags &&& FLAG_ACK != 0
def isFin : Bool := seg.flags &&& FLAG_FIN != 0
def isRst : Bool := seg.flags &&& FLAG_RST != 0
def isPsh : Bool := seg.flags &&& FLAG_PSH != 0
def isUrg : Bool := seg.flags &&& FLAG_URG != 0

/-- How much sequence space the segment occupies: SYN and FIN take a number each. -/
def seqLen : Nat :=
  seg.payload.length + (if seg.isSyn then 1 else 0) + (if seg.isFin then 1 else 0)

/-- The sequence number just past the segment. -/
def seqEnd : SeqNo := seqAdd seg.seq seg.seqLen

/-- Whether the segment's ACK covers `seq`. -/
def acknowledges (seq : SeqNo) : Bool := seg.isAck && seqGe seg.ack seq

end TCPSegment

end MiniTcp
