import MiniTcp.Util.Checksum

/-!
# `minitcp/net/icmp.py`: ICMP messages

The checksum covers the message alone, so a message is decoded from exactly the bytes that were encoded
(`parse_toBytes`).
-/

namespace MiniTcp

def ECHO_REPLY : Nat := 0
def ECHO_REQUEST : Nat := 8

/-- A decoded ICMP message. -/
structure ICMPMessage where
  type : Nat
  code : Nat
  body : Bytes := []
  deriving DecidableEq, Repr

namespace ICMPMessage

def HEADER_LEN : Nat := 4

variable (m : ICMPMessage)

/-- Serialise the message, computing the checksum. -/
def toBytes : Except PyError Bytes :=
  if m.type ≤ 0xFF ∧ m.code ≤ 0xFF then
    let header := [UInt8.ofNat m.type, UInt8.ofNat m.code] ++ packH 0 ++ m.body
    .ok (header.take 2 ++ packH (checksum header) ++ header.drop 4)
  else .error .structError

def parse (data : Bytes) : Except PyError ICMPMessage :=
  if data.length < HEADER_LEN then
    .error (.valueError s!"ICMP message too short: {data.length} bytes, need at least {HEADER_LEN}")
  else if checksum data ≠ 0 then .error (.valueError "ICMP checksum mismatch")
  else
    .ok
      { type := (byteAt data 0).toNat
        code := (byteAt data 1).toNat
        body := data.drop HEADER_LEN }

/-! ### Encoding and decoding -/

variable {m}

/-- Type and code. -/
def front (m : ICMPMessage) : Bytes := [UInt8.ofNat m.type, UInt8.ofNat m.code]

theorem toBytes_eq (htype : m.type ≤ 0xFF) (hcode : m.code ≤ 0xFF) :
    m.toBytes = .ok (m.front ++ packH (checksum (m.front ++ packH 0 ++ m.body)) ++ m.body) := by
  rw [toBytes, if_pos ⟨htype, hcode⟩]
  rfl

theorem parse_toBytes (htype : m.type ≤ 0xFF) (hcode : m.code ≤ 0xFF) :
    ∃ data, m.toBytes = .ok data ∧ data.length = HEADER_LEN + m.body.length ∧ parse data = .ok m := by
  refine ⟨_, toBytes_eq htype hcode, ?_, ?_⟩
  · rw [List.length_append]
    rfl
  have hsum : checksum (m.front ++ packH (checksum (m.front ++ packH 0 ++ m.body)) ++ m.body) = 0 := by
    apply checksum_insert
    · rw [front, List.length_cons, List.length_singleton]
    · exact .inl rfl
  rw [parse, if_neg (by simp [HEADER_LEN, front]), if_neg (not_not.mpr hsum)]
  have htype' : (UInt8.ofNat m.type).toNat = m.type := toNat_ofNat_of_lt (by omega)
  have hcode' : (UInt8.ofNat m.code).toNat = m.code := toNat_ofNat_of_lt (by omega)
  exact congrArg Except.ok (congrArg₂ (fun t c => ICMPMessage.mk t c m.body) htype' hcode')

theorem parse_ne (data : Bytes) : parse data ≠ .error .structError := by
  unfold parse
  split_ifs <;> exact nofun

end ICMPMessage

/-- The body of an echo request or reply. -/
structure EchoMessage where
  identifier : Nat
  sequence : Nat
  data : Bytes := []
  deriving DecidableEq, Repr

namespace EchoMessage

def toIcmp (echo : EchoMessage) (type : Nat) : ICMPMessage :=
  { type := type
    code := 0
    body := packH (echo.identifier &&& 0xFFFF) ++ packH (echo.sequence &&& 0xFFFF) ++ echo.data }

def fromIcmp (message : ICMPMessage) : Except PyError EchoMessage :=
  if message.body.length < 4 then .error (.valueError "echo body needs at least 4 bytes")
  else
    .ok
      { identifier := u16At message.body 0
        sequence := u16At message.body 2
        data := message.body.drop 4 }

theorem fromIcmp_ne (message : ICMPMessage) : fromIcmp message ≠ .error .structError := by
  unfold fromIcmp
  split_ifs <;> exact nofun

end EchoMessage

end MiniTcp
