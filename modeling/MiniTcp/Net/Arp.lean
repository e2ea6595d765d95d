import MiniTcp.Lib.Dict
import MiniTcp.Lib.Rounding
import MiniTcp.Net.Ethernet
import Mathlib.Data.List.MinMax

/-!
# `minitcp/net/arp.py`: ARP packets and the cache

An `ARPCache` answers for an address with the last MAC stored for it, until the entry expires or makes room
for another. Only `store` adds an entry, and only for the address it is given (`known_of_known_store`).

Times are rational numbers. The time of expiry is a sum, which the source keeps as a floating-point number: the
field `rounding` says what becomes of it. A stack has a cache that keeps it as it is.
-/

namespace MiniTcp

def HARDWARE_ETHERNET : Nat := 1
def ARP_REQUEST : Nat := 1
def ARP_REPLY : Nat := 2
def PACKET_LEN : Nat := 28

/-- A decoded ARP request or reply. -/
structure ARPPacket where
  operation : Nat
  senderMac : Bytes
  senderIp : Bytes
  targetMac : Bytes
  targetIp : Bytes
  hardwareType : Nat := HARDWARE_ETHERNET
  protocolType : Nat := ETHERTYPE_IPV4
  hardwareLen : Nat := 6
  protocolLen : Nat := 4
  deriving DecidableEq, Repr

namespace ARPPacket

variable (p : ARPPacket)

def toBytes : Except PyError Bytes :=
  if p.senderMac.length ≠ p.hardwareLen then
    .error (.valueError "sender MAC length does not match hardware_len")
  else if p.targetMac.length ≠ p.hardwareLen then
    .error (.valueError "target MAC length does not match hardware_len")
  else if p.senderIp.length ≠ p.protocolLen then
    .error (.valueError "sender IP length does not match protocol_len")
  else if p.targetIp.length ≠ p.protocolLen then
    .error (.valueError "target IP length does not match protocol_len")
  -- `struct.pack("!HHBBH", ...)`
  else if p.hardwareType ≤ 0xFFFF ∧ p.protocolType ≤ 0xFFFF ∧ p.hardwareLen ≤ 0xFF ∧
      p.protocolLen ≤ 0xFF ∧ p.operation ≤ 0xFFFF then
    .ok (packH p.hardwareType ++ packH p.protocolType ++
      [UInt8.ofNat p.hardwareLen, UInt8.ofNat p.protocolLen] ++ packH p.operation ++
      p.senderMac ++ p.senderIp ++ p.targetMac ++ p.targetIp)
  else .error .structError

def parse (data : Bytes) : Except PyError ARPPacket :=
  if data.length < PACKET_LEN then
    .error (.valueError s!"ARP packet too short: {data.length} bytes, need at least {PACKET_LEN}")
  else
    let hardwareLen := (byteAt data 4).toNat
    let protocolLen := (byteAt data 5).toNat
    if hardwareLen ≠ 6 ∨ protocolLen ≠ 4 then
      .error (.valueError
        s!"unsupported ARP address sizes: hardware={hardwareLen} protocol={protocolLen}")
    else if data.length < 8 + 2 * (hardwareLen + protocolLen) then
      .error (.valueError "ARP packet truncated")
    else
      .ok
        { operation := u16At data 6
          senderMac := (data.drop 8).take 6
          senderIp := (data.drop 14).take 4
          targetMac := (data.drop 18).take 6
          targetIp := (data.drop 24).take 4
          hardwareType := u16At data 0
          protocolType := u16At data 2
          hardwareLen := hardwareLen
          protocolLen := protocolLen }

def isRequest : Bool := p.operation = ARP_REQUEST
def isReply : Bool := p.operation = ARP_REPLY

theorem isRequest_of_isReply {p : ARPPacket} (h : p.isReply = true) : p.isRequest = false := by
  rw [isReply, decide_eq_true_eq] at h
  rw [isRequest, h]
  rfl

theorem length_of_parse {data : Bytes} {p : ARPPacket} (h : parse data = .ok p) :
    p.senderMac.length = 6 ∧ p.senderIp.length = 4 ∧ p.targetMac.length = 6 ∧ p.targetIp.length = 4 := by
  rw [parse] at h
  dsimp only at h
  split_ifs at h with hshort
  cases h
  rw [PACKET_LEN] at hshort
  simp only [List.length_take, List.length_drop]
  omega

end ARPPacket

theorem defaultMaxEntries_pos : 0 < 256 := by decide

/-- A small, expiring map from IPv4 address to MAC address and time of expiry. -/
structure ARPCache where
  entries : Dict Bytes (Bytes × Time) := ∅
  timeout : Time := 300
  maxEntries : Nat := 256
  maxEntries_pos : 0 < maxEntries := by first | exact defaultMaxEntries_pos | decide
  rounding : Rounding := .exact

namespace ARPCache

variable (c : ARPCache)

/-- The MAC for `ip`, unless unknown or expired; an expired entry is deleted. -/
def lookup (ip : Bytes) (stamp : Time) : Option Bytes × ARPCache :=
  match c.entries.get? ip with
  | none => (none, c)
  | some (mac, expiresAt) =>
    if expiresAt ≤ stamp then (none, { c with entries := c.entries.erase ip }) else (some mac, c)

/-- The entry closest to expiry, the first of several. -/
def oldest : Option (Bytes × Bytes × Time) := c.entries.items.argmin fun e => e.2.2

/-- `stamp + self._timeout` -/
def expiry (stamp : Time) : Time := c.rounding.round (stamp + c.timeout)

/-- Record `ip`, refreshing the expiry; a new entry may evict another. -/
def store (ip mac : Bytes) (stamp : Time) : ARPCache :=
  let entries :=
    if !c.entries.contains ip && c.entries.size ≥ c.maxEntries then
      match c.oldest with
      | some e => c.entries.erase e.1
      | none => c.entries
    else c.entries
  { c with entries := entries.set ip (mac, c.expiry stamp) }

/-- Drop expired entries; the second result is how many were removed. -/
def expire (stamp : Time) : ARPCache × Nat :=
  let stale := c.entries.items.filter fun e => e.2.2 ≤ stamp
  ({ c with entries := c.entries.filter fun e => stamp < e.2.2 }, stale.length)

/-! ### What an operation does to the entries -/

/-- The MAC of the unexpired entry for `ip`. -/
def known (ip : Bytes) (stamp : Time) : Option Bytes :=
  (c.entries.get? ip).bind fun e => if e.2 ≤ stamp then none else some e.1

variable {c} {ip mac : Bytes} {stamp : Time}

theorem lookup_fst : (c.lookup ip stamp).1 = c.known ip stamp := by
  rw [lookup, known]
  cases c.entries.get? ip with
  | none => rfl
  | some e =>
    dsimp only [Option.bind]
    split_ifs <;> rfl

theorem lookup_of_known (h : c.known ip stamp = some mac) : c.lookup ip stamp = (some mac, c) := by
  rw [known, Option.bind_eq_some_iff] at h
  obtain ⟨⟨m, expiresAt⟩, he, hmac⟩ := h
  rw [lookup, he]
  dsimp only at hmac ⊢
  split_ifs at hmac ⊢
  rw [hmac]

theorem known_mono {stamp' : Time} (hle : stamp ≤ stamp') (h : c.known ip stamp' = some mac) :
    c.known ip stamp = some mac := by
  rw [known, Option.bind_eq_some_iff] at h ⊢
  obtain ⟨e, he, hmac⟩ := h
  split_ifs at hmac with hexpired
  exact ⟨e, he, (if_neg fun h => hexpired (h.trans hle)).trans hmac⟩

theorem known_of_known_filter {p : Bytes × Bytes × Time → Bool}
    (h : ({ c with entries := c.entries.filter p } : ARPCache).known ip stamp = some mac) :
    c.known ip stamp = some mac := by
  rw [known, Dict.get?_filter, Option.bind_eq_some_iff] at h
  obtain ⟨e, he, hmac⟩ := h
  rw [known, Option.bind_eq_some_iff]
  exact ⟨e, (Option.filter_eq_some_iff.mp he).1, hmac⟩

theorem known_of_known_lookup {ip' : Bytes} {stamp' : Time}
    (h : (c.lookup ip' stamp').2.known ip stamp = some mac) : c.known ip stamp = some mac := by
  rw [lookup] at h
  split at h
  · exact h
  · split_ifs at h
    · exact known_of_known_filter h
    · exact h

theorem known_of_known_expire {stamp' : Time} (h : (c.expire stamp').1.known ip stamp = some mac) :
    c.known ip stamp = some mac := known_of_known_filter h

theorem known_of_known_store {ip' mac' : Bytes} {stamp' : Time} (hne : ip ≠ ip')
    (h : (c.store ip' mac' stamp').known ip stamp = some mac) : c.known ip stamp = some mac := by
  rw [store, known, Dict.get?_set_of_ne hne] at h
  split_ifs at h
  · split at h
    · exact known_of_known_filter h
    · exact h
  · exact h

/-- What is stored is not expired at once. -/
def Lasts (c : ARPCache) : Prop := ∀ stamp, stamp < c.expiry stamp

theorem known_store (h : c.Lasts) : (c.store ip mac stamp).known ip stamp = some mac := by
  rw [known, store, Dict.get?_set_self, Option.bind_some, if_neg]
  exact not_le.mpr (h stamp)

@[simp] theorem expiry_lookup : (c.lookup ip stamp).2.expiry = c.expiry := by
  rw [lookup]
  split
  · rfl
  · split_ifs <;> rfl

@[simp] theorem expiry_store : (c.store ip mac stamp).expiry = c.expiry := rfl

@[simp] theorem expiry_expire : (c.expire stamp).1.expiry = c.expiry := rfl

end ARPCache

end MiniTcp
