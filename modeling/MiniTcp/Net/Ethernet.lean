import MiniTcp.Util.Basic

/-!
# `minitcp/net/ethernet.py`: Ethernet II frames

A short frame is padded on the way out and the padding is left in the payload on the way in, so decoding an
encoded frame gives the frame back but for zeros behind its payload (`parse_toBytes`).
-/

namespace MiniTcp

def ETHERTYPE_IPV4 : Nat := 0x0800
def ETHERTYPE_ARP : Nat := 0x0806
def BROADCAST_MAC : Bytes := List.replicate 6 0xFF

/-- A decoded Ethernet II frame. -/
structure EthernetFrame where
  dst : Bytes
  src : Bytes
  ethertype : Nat
  payload : Bytes
  deriving DecidableEq, Repr

namespace EthernetFrame

def HEADER_LEN : Nat := 14
def MIN_FRAME_LEN : Nat := 60

variable (f : EthernetFrame)

/-- Serialise the frame, padding short payloads up to the minimum. -/
def toBytes (pad : Bool := true) : Except PyError Bytes :=
  -- `Writer.u16`
  if f.ethertype < 65536 then
    let frame := f.dst ++ f.src ++ packH f.ethertype ++ f.payload
    if pad && frame.length < MIN_FRAME_LEN then
      .ok (frame ++ List.replicate (MIN_FRAME_LEN - frame.length) 0)
    else .ok frame
  else .error (.valueError s!"value {f.ethertype} does not fit in 16 bits")

/-- Decode a frame; any padding is left in the payload. -/
def parse (data : Bytes) : Except PyError EthernetFrame :=
  if data.length < HEADER_LEN then
    .error (.valueError
      s!"ethernet frame too short: {data.length} bytes, need at least {HEADER_LEN}")
  else
    .ok
      { dst := data.take 6
        src := (data.drop 6).take 6
        ethertype := u16At data 12
        payload := data.drop HEADER_LEN }

def isBroadcast : Bool := f.dst = BROADCAST_MAC

/-- The low bit of the first octet is set. -/
def isMulticast : Bool := byteAt f.dst 0 &&& 0x01 != 0

/-- Whether an interface with address `mac` should process this frame. -/
def acceptedBy (mac : Bytes) : Bool := f.dst = mac || f.isBroadcast || f.isMulticast

/-! ### Encoding and decoding -/

variable {f}

/-- The bytes of the frame before any padding. -/
def unpadded (f : EthernetFrame) : Bytes := f.dst ++ (f.src ++ (packH f.ethertype ++ f.payload))

/-- What `to_bytes` writes: the frame and as many zeros as the minimum asks for. -/
theorem toBytes_eq (htype : f.ethertype < 65536) :
    f.toBytes = .ok (f.unpadded ++ List.replicate (MIN_FRAME_LEN - f.unpadded.length) 0) := by
  have hbytes : f.dst ++ f.src ++ packH f.ethertype ++ f.payload = f.unpadded := by
    simp only [unpadded, List.append_assoc]
  rw [toBytes, if_pos htype, hbytes]
  dsimp only
  split_ifs with hshort
  · rfl
  · have hnone : MIN_FRAME_LEN - f.unpadded.length = 0 := by
      simp only [Bool.true_and, decide_eq_true_eq] at hshort
      omega
    rw [hnone, List.replicate_zero, List.append_nil]

/-- A frame with addresses of six bytes is encoded in at least the minimum length, and decoding adds
nothing to it but zeros behind the payload. -/
theorem parse_toBytes (hdst : f.dst.length = 6) (hsrc : f.src.length = 6) (htype : f.ethertype < 65536) :
    ∃ data n, f.toBytes = .ok data ∧ MIN_FRAME_LEN ≤ data.length ∧
      parse data = .ok { f with payload := f.payload ++ List.replicate n 0 } := by
  refine ⟨_, MIN_FRAME_LEN - f.unpadded.length, toBytes_eq htype, ?_, ?_⟩
  · rw [List.length_append, List.length_replicate]
    omega
  simp only [unpadded, List.append_assoc]
  generalize f.payload ++ List.replicate _ 0 = body
  have hlength : ¬ (f.dst ++ (f.src ++ (packH f.ethertype ++ body))).length < HEADER_LEN := by
    simp only [List.length_append, length_packH, hdst, hsrc, HEADER_LEN]
    omega
  have hrest : (f.dst ++ (f.src ++ (packH f.ethertype ++ body))).drop 6 =
      f.src ++ (packH f.ethertype ++ body) := List.drop_left' hdst
  have htail : (f.dst ++ (f.src ++ (packH f.ethertype ++ body))).drop 12 = packH f.ethertype ++ body := by
    rw [show 12 = 6 + 6 from rfl, ← List.drop_drop, hrest, List.drop_left' hsrc]
  have hnumber : u16At (f.dst ++ (f.src ++ (packH f.ethertype ++ body))) 12 = f.ethertype := by
    rw [← List.append_assoc]
    have hfront : (f.dst ++ f.src).length = 12 := by rw [List.length_append, hdst, hsrc]
    exact (u16At_append hfront _ 0).trans (u16At_packH htype body)
  rw [parse, if_neg hlength, hnumber, hrest, List.take_left' hdst, List.take_left' hsrc,
    show HEADER_LEN = 12 + 2 from rfl, ← List.drop_drop, htail, List.drop_left' (length_packH _)]

end EthernetFrame

end MiniTcp
