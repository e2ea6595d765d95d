import MiniTcp.Net.Ipv4
import MiniTcp.Net.Tcp.Segment

/-!
# `TCPOptions` and `TCPSegment` on the wire

The encoding and decoding of options and segments with their errors. `parse` walks the option area item by
item (`walkAll_item`), so what `to_bytes` wrote is read back, and the padding behind it is skipped
(`parse_toBytes`). A segment has no length of its own: it is decoded from exactly the bytes that were
encoded (`TCPSegment.InWireRange.parse_toBytes`).
-/

namespace MiniTcp

def OPT_END : UInt8 := 0
def OPT_NOP : UInt8 := 1
def OPT_MSS : UInt8 := 2
def OPT_WINDOW_SCALE : UInt8 := 3
def OPT_SACK_PERMITTED : UInt8 := 4
def OPT_SACK : UInt8 := 5
def OPT_TIMESTAMP : UInt8 := 8

namespace TCPOptions

variable (o : TCPOptions)

/-! ### Encoding -/

/-- `struct.pack("!BBII", kind, 10, a & 0xFFFFFFFF, b & 0xFFFFFFFF)` -/
def packPair (kind : UInt8) (a b : Nat) : Bytes :=
  [kind, 10] ++ packI (a &&& 0xFFFFFFFF) ++ packI (b &&& 0xFFFFFFFF)

def mssPart : Except PyError Bytes :=
  match o.mss with
  | none => .ok []
  | some mss =>
    if 0 < mss ∧ mss ≤ 0xFFFF then .ok ([OPT_MSS, 4] ++ packH mss)
    else .error (.valueError "MSS must be between 1 and 65535")

def sackPermittedPart : Bytes := if o.sackPermitted then [OPT_SACK_PERMITTED, 2] else []

def windowScalePart : Except PyError Bytes :=
  match o.windowScale with
  | none => .ok []
  | some scale =>
    if scale ≤ 14 then .ok [OPT_WINDOW_SCALE, 3, UInt8.ofNat scale]
    else .error (.valueError "window scale must be between 0 and 14")

def timestampPart : Bytes :=
  match o.timestamp with
  | none => []
  | some timestamp => packPair OPT_TIMESTAMP timestamp (o.timestampEcho.getD 0)

def sackPart : Bytes := o.sackBlocks.flatMap fun block => packPair OPT_SACK block.1 block.2

/-- What `to_bytes` appends for `(-len(raw)) % 4`. -/
def filler : Nat → Bytes
  | 3 => [1, 1, 1]
  | 2 => [1, 1]
  | 1 => [0]
  | _ => []

/-- Serialise the options, padded to a 4-byte boundary. -/
def toBytes : Except PyError Bytes := do
  let mss ← o.mssPart
  let scale ← o.windowScalePart
  let raw := mss ++ o.sackPermittedPart ++ scale ++ o.timestampPart ++ o.sackPart
  if raw.length > 40 then .error (.valueError "TCP options may not exceed 40 bytes")
  else return raw ++ filler ((4 - raw.length % 4) % 4)

/-! ### Decoding -/

/-- The pairs of numbers in the body of a SACK option. -/
def blocksOf (body : Bytes) : List (Nat × Nat) :=
  (List.range (body.length / 8)).map fun i => (u32At body (8 * i), u32At body (8 * i + 4))

/-- What one item of the list sets. -/
def read (kind : UInt8) (length : Nat) (body : Bytes) : TCPOptions :=
  if kind = OPT_MSS ∧ length = 4 then { o with mss := some (u16At body 0) }
  else if kind = OPT_WINDOW_SCALE ∧ length = 3 then { o with windowScale := some (byteAt body 0).toNat }
  else if kind = OPT_SACK_PERMITTED ∧ length = 2 then { o with sackPermitted := true }
  else if kind = OPT_TIMESTAMP ∧ length = 10 then
    { o with timestamp := some (u32At body 0), timestampEcho := some (u32At body 4) }
  else if kind = OPT_SACK ∧ 8 ≤ body.length then { o with sackBlocks := blocksOf body }
  else o

/-- The loop of `parse` on `data[pos:]`. Each round takes at least one byte, so the length of the data
bounds the rounds. -/
def walk : Nat → Bytes → TCPOptions → TCPOptions
  | 0, _, o => o
  | _ + 1, [], o => o
  | fuel + 1, kind :: rest, o =>
    if kind = OPT_END then o
    else if kind = OPT_NOP then walk fuel rest o
    else
      match rest with
      | [] => o
      | size :: _ =>
        let length := size.toNat
        if length < 2 ∨ length > (kind :: rest).length then o
        else
          walk fuel ((kind :: rest).drop length)
            (o.read kind length (((kind :: rest).take length).drop 2))

/-- Walk the option list, ignoring anything it does not recognise. -/
def parse (data : Bytes) : TCPOptions := walk data.length data {}

/-! ### The walk, item by item -/

theorem walk_congr {fuel fuel' : Nat} {data : Bytes} (o : TCPOptions) (h : data.length ≤ fuel)
    (h' : data.length ≤ fuel') : walk fuel data o = walk fuel' data o := by
  induction fuel generalizing fuel' data o with
  | zero =>
    obtain rfl := List.length_eq_zero_iff.mp (Nat.le_zero.mp h)
    cases fuel' <;> rfl
  | succ fuel ih =>
    match data, fuel', h, h' with
    | [], 0, _, _ => rfl
    | [], _ + 1, _, _ => rfl
    | [kind], fuel' + 1, _, _ =>
      rw [walk, walk]
      split_ifs
      · rfl
      · exact ih _ (Nat.zero_le _) (Nat.zero_le _)
      · rfl
    | kind :: size :: rest, fuel' + 1, h, h' =>
      simp only [List.length_cons] at h h'
      simp only [walk]
      split_ifs with hend hnop hstop
      · rfl
      · exact ih _ (by simpa using h) (by simpa using h')
      · rfl
      · apply ih <;> simp only [List.length_drop, List.length_cons] <;> omega

/-- The walk over `data` from the options `o` on. -/
def walkAll (data : Bytes) (o : TCPOptions) : TCPOptions := walk data.length data o

@[simp] theorem walkAll_nil (o : TCPOptions) : walkAll [] o = o := rfl

theorem walkAll_item (kind size : UInt8) (body rest : Bytes) (o : TCPOptions)
    (hend : kind ≠ OPT_END) (hnop : kind ≠ OPT_NOP) (hsize : size.toNat = body.length + 2) :
    walkAll (kind :: size :: (body ++ rest)) o = walkAll rest (o.read kind size.toNat body) := by
  have htake : ((kind :: size :: (body ++ rest)).take (body.length + 2)).drop 2 = body := by
    rw [List.take_succ_cons, List.take_succ_cons, List.take_left]
    rfl
  have hdrop : (kind :: size :: (body ++ rest)).drop (body.length + 2) = rest := by
    rw [List.drop_succ_cons, List.drop_succ_cons, List.drop_left]
  rw [walkAll, List.length_cons, walk, if_neg hend, if_neg hnop]
  dsimp only
  rw [hsize, if_neg (by simp only [List.length_cons, List.length_append]; omega), htake, hdrop]
  apply walk_congr
  · simp only [List.length_cons, List.length_append]
    omega
  · exact Nat.le_refl _

/-! ### What was written is read back -/

theorem and_mask_of_lt {n : Nat} (h : n < 2 ^ 32) : n &&& 0xFFFFFFFF = n := by
  have hmod : n &&& 0xFFFFFFFF = n % 2 ^ 32 := Nat.and_two_pow_sub_one_eq_mod n 32
  omega

theorem walkAll_packPair {kind : UInt8} (a b : Nat) (rest : Bytes) (o : TCPOptions) (hend : kind ≠ OPT_END)
    (hnop : kind ≠ OPT_NOP) :
    walkAll (packPair kind a b ++ rest) o =
      walkAll rest (o.read kind 10 (packI (a &&& 0xFFFFFFFF) ++ packI (b &&& 0xFFFFFFFF))) := by
  rw [packPair, List.append_assoc [kind, 10], List.append_assoc [kind, 10]]
  exact walkAll_item kind 10 _ rest o hend hnop rfl

theorem u32At_packPair {a b : Nat} (ha : a < 2 ^ 32) (hb : b < 2 ^ 32) :
    u32At (packI (a &&& 0xFFFFFFFF) ++ packI (b &&& 0xFFFFFFFF)) 0 = a ∧
      u32At (packI (a &&& 0xFFFFFFFF) ++ packI (b &&& 0xFFFFFFFF)) 4 = b := by
  rw [and_mask_of_lt ha, and_mask_of_lt hb]
  exact ⟨u32At_packI ha _, u32At_packI hb []⟩

theorem blocksOf_of_length {body : Bytes} (h : body.length = 8) :
    blocksOf body = [(u32At body 0, u32At body 4)] := by
  rw [blocksOf, h]
  rfl

theorem walkAll_mssPart {o q : TCPOptions} {part : Bytes} (rest : Bytes) (h : o.mssPart = .ok part)
    (hq : q.mss = none) : walkAll (part ++ rest) q = walkAll rest { q with mss := o.mss } := by
  rw [mssPart] at h
  cases hmss : o.mss with
  | none =>
    rw [hmss] at h
    cases h
    rw [← hq]
    rfl
  | some mss =>
    rw [hmss] at h
    dsimp only at h
    split_ifs at h with hrange
    cases h
    have hitem := walkAll_item OPT_MSS 4 (packH mss) rest q (by decide) (by decide) rfl
    have hread : u16At (packH mss) 0 = mss := unpackH_packH (by omega)
    rw [read, if_pos ⟨rfl, rfl⟩, hread] at hitem
    exact hitem

theorem walkAll_sackPermittedPart {o q : TCPOptions} (rest : Bytes) (hq : q.sackPermitted = false) :
    walkAll (o.sackPermittedPart ++ rest) q = walkAll rest { q with sackPermitted := o.sackPermitted } := by
  rw [sackPermittedPart]
  split_ifs with hpermitted
  · rw [hpermitted]
    exact walkAll_item OPT_SACK_PERMITTED 2 [] rest q (by decide) (by decide) rfl
  · rw [Bool.not_eq_true] at hpermitted
    rw [hpermitted, ← hq]
    rfl

theorem walkAll_windowScalePart {o q : TCPOptions} {part : Bytes} (rest : Bytes)
    (h : o.windowScalePart = .ok part) (hq : q.windowScale = none) :
    walkAll (part ++ rest) q = walkAll rest { q with windowScale := o.windowScale } := by
  rw [windowScalePart] at h
  cases hscale : o.windowScale with
  | none =>
    rw [hscale] at h
    cases h
    rw [← hq]
    rfl
  | some scale =>
    rw [hscale] at h
    dsimp only at h
    split_ifs at h with hrange
    cases h
    have hitem := walkAll_item OPT_WINDOW_SCALE 3 [UInt8.ofNat scale] rest q (by decide) (by decide) rfl
    have hread : (byteAt [UInt8.ofNat scale] 0).toNat = scale := toNat_ofNat_of_lt (by omega)
    rw [read, if_neg (by decide), if_pos ⟨rfl, rfl⟩, hread] at hitem
    exact hitem

theorem walkAll_timestampPart {o q : TCPOptions} (rest : Bytes) (ht : ∀ t ∈ o.timestamp, t < 2 ^ 32)
    (he : ∀ t ∈ o.timestampEcho, t < 2 ^ 32) (hpaired : o.timestampEcho.isSome = o.timestamp.isSome)
    (hq : q.timestamp = none) (hq' : q.timestampEcho = none) :
    walkAll (o.timestampPart ++ rest) q =
      walkAll rest { q with timestamp := o.timestamp, timestampEcho := o.timestampEcho } := by
  rw [timestampPart]
  cases htime : o.timestamp with
  | none =>
    rw [htime, Option.isSome_none, Option.isSome_eq_false_iff, Option.isNone_iff_eq_none] at hpaired
    obtain ⟨_, _, _, _, _, _⟩ := q
    cases hq
    cases hq'
    rw [hpaired]
    rfl
  | some t =>
    rw [htime, Option.isSome_some, Option.isSome_iff_exists] at hpaired
    obtain ⟨e, hecho⟩ := hpaired
    obtain ⟨hfirst, hsecond⟩ := u32At_packPair (ht t htime) (he e hecho)
    rw [hecho]
    dsimp only [Option.getD_some]
    rw [walkAll_packPair _ _ _ _ (by decide) (by decide), read, if_neg (by decide), if_neg (by decide),
      if_neg (by decide), if_pos ⟨rfl, rfl⟩, hfirst, hsecond]

theorem walkAll_sackPart {blocks : List (Nat × Nat)} (rest : Bytes) (q : TCPOptions)
    (h : ∀ b ∈ blocks, b.1 < 2 ^ 32 ∧ b.2 < 2 ^ 32) :
    walkAll ((blocks.flatMap fun block => packPair OPT_SACK block.1 block.2) ++ rest) q =
      walkAll rest { q with sackBlocks := blocks.getLast?.elim q.sackBlocks fun b => [b] } := by
  induction blocks generalizing q with
  | nil => rfl
  | cons b blocks ih =>
    obtain ⟨hleft, hright⟩ := h b List.mem_cons_self
    obtain ⟨hfirst, hsecond⟩ := u32At_packPair hleft hright
    have hblocks : blocksOf (packI (b.1 &&& 0xFFFFFFFF) ++ packI (b.2 &&& 0xFFFFFFFF)) = [b] := by
      rw [blocksOf_of_length rfl, hfirst, hsecond]
    rw [List.flatMap_cons, List.append_assoc, List.getLast?_cons, walkAll_packPair _ _ _ _ (by decide) (by decide),
      read, if_neg (by decide), if_neg (by decide), if_neg (by decide), if_neg (by decide),
      if_pos ⟨rfl, Nat.le_refl 8⟩, hblocks, ih _ fun c hc => h c (List.mem_cons_of_mem _ hc)]
    cases blocks.getLast? <;> rfl

theorem walkAll_filler (n : Nat) (q : TCPOptions) : walkAll (filler n) q = q := by
  unfold filler
  split <;> rfl

/-- Numbers of thirty-two bits, an echo exactly with a timestamp, and at most one SACK block. -/
structure InWireRange (o : TCPOptions) : Prop where
  timestamp : ∀ t ∈ o.timestamp, t < 2 ^ 32
  echo : ∀ t ∈ o.timestampEcho, t < 2 ^ 32
  paired : o.timestampEcho.isSome = o.timestamp.isSome
  blocks : ∀ b ∈ o.sackBlocks, b.1 < 2 ^ 32 ∧ b.2 < 2 ^ 32
  single : o.sackBlocks.length ≤ 1

/-- The same for any number of blocks. -/
structure FitsWords (o : TCPOptions) : Prop where
  timestamp : ∀ t ∈ o.timestamp, t < 2 ^ 32
  echo : ∀ t ∈ o.timestampEcho, t < 2 ^ 32
  paired : o.timestampEcho.isSome = o.timestamp.isSome
  blocks : ∀ b ∈ o.sackBlocks, b.1 < 2 ^ 32 ∧ b.2 < 2 ^ 32

theorem InWireRange.fitsWords {o : TCPOptions} (h : o.InWireRange) : o.FitsWords :=
  ⟨h.timestamp, h.echo, h.paired, h.blocks⟩

theorem toBytes_parts {o : TCPOptions} {data : Bytes} (h : o.toBytes = .ok data) :
    ∃ mss scale n, o.mssPart = .ok mss ∧ o.windowScalePart = .ok scale ∧
      data = mss ++ (o.sackPermittedPart ++ (scale ++ (o.timestampPart ++ (o.sackPart ++ filler n)))) ∧
      data.length % 4 = 0 ∧ data.length ≤ 40 := by
  unfold toBytes at h
  cases hmss : o.mssPart with
  | error e =>
    rw [hmss] at h
    cases h
  | ok mss =>
    cases hscale : o.windowScalePart with
    | error e =>
      rw [hmss, hscale] at h
      cases h
    | ok scale =>
      rw [hmss, hscale] at h
      change (if _ then _ else _) = _ at h
      split_ifs at h with hlong
      generalize hraw : mss ++ o.sackPermittedPart ++ scale ++ o.timestampPart ++ o.sackPart = raw at h hlong
      cases h
      refine ⟨mss, scale, (4 - raw.length % 4) % 4, rfl, rfl, ?_, ?_⟩
      · rw [← hraw]
        simp only [List.append_assoc]
      · have hfill : (filler ((4 - raw.length % 4) % 4)).length = (4 - raw.length % 4) % 4 := by
          have hcases : (4 - raw.length % 4) % 4 < 4 := Nat.mod_lt _ (by decide)
          generalize (4 - raw.length % 4) % 4 = n at hcases ⊢
          match n, hcases with
          | 0, _ | 1, _ | 2, _ | 3, _ => rfl
        rw [List.length_append, hfill]
        omega

theorem FitsWords.parse_eq {o : TCPOptions} {data : Bytes} (hwords : o.FitsWords) (h : o.toBytes = .ok data) :
    parse data = { o with sackBlocks := o.sackBlocks.getLast?.elim [] fun b => [b] } := by
  obtain ⟨mss, scale, n, hmss, hscale, hdata, -, -⟩ := toBytes_parts h
  change walkAll data {} = _
  rw [hdata, walkAll_mssPart _ hmss rfl, walkAll_sackPermittedPart _ rfl, walkAll_windowScalePart _ hscale rfl,
    walkAll_timestampPart _ hwords.timestamp hwords.echo hwords.paired rfl rfl, sackPart,
    walkAll_sackPart _ _ hwords.blocks, walkAll_filler]

theorem InWireRange.parse_toBytes {o : TCPOptions} {data : Bytes} (hrange : o.InWireRange)
    (h : o.toBytes = .ok data) : parse data = o := by
  have hlast : (o.sackBlocks.getLast?.elim [] fun b => [b]) = o.sackBlocks := by
    have hsingle := hrange.single
    match o.sackBlocks, hsingle with
    | [], _ => rfl
    | [b], _ => rfl
  rw [hrange.fitsWords.parse_eq h, hlast]

end TCPOptions

namespace TCPSegment

def HEADER_LEN : Nat := 20

variable (seg : TCPSegment)

/-- `struct.pack("!HHIIBBHHH", ...)` with a checksum field of zero. -/
def packHeader (offsetByte : Nat) : Except PyError Bytes :=
  if offsetByte ≤ 0xFF ∧ seg.urgentPointer ≤ 0xFFFF then
    .ok (packH seg.srcPort ++ packH seg.dstPort ++ packI seg.seq.toNat ++ packI seg.ack.toNat ++
      [UInt8.ofNat offsetByte, UInt8.ofNat (seg.flags.toNat &&& 0xFF)] ++ packH seg.window ++ packH 0 ++
      packH seg.urgentPointer)
  else .error .structError

/-- The value `to_bytes` puts into the checksum field of `header + payload`. -/
def checksumFor (header : Bytes) (srcIp dstIp : Option Bytes) (computeChecksum : Bool) :
    Except PyError Nat :=
  if computeChecksum then
    match srcIp, dstIp with
    | some src, some dst => transportChecksum src dst PROTO_TCP (header ++ seg.payload)
    | _, _ =>
      .error (.valueError
        "source and destination addresses are required to compute the TCP checksum")
  else .ok seg.checksum

/-- Serialise the segment. -/
def toBytes (srcIp dstIp : Option Bytes := none) (computeChecksum : Bool := true) :
    Except PyError Bytes :=
  if ¬ seg.srcPort ≤ 0xFFFF then .error (.valueError "source port out of range")
  else if ¬ seg.dstPort ≤ 0xFFFF then .error (.valueError "destination port out of range")
  else if ¬ seg.window ≤ 0xFFFF then
    .error (.valueError "window must fit in 16 bits; use a window scale")
  else do
    let options ← seg.options.toBytes
    let dataOffset := (HEADER_LEN + options.length) / 4
    if dataOffset > 15 then .error (.valueError "TCP header cannot exceed 60 bytes")
    else
      let header ← seg.packHeader ((dataOffset <<< 4) ||| ((seg.flags.toNat >>> 8) &&& 0x01))
      let header := header ++ options
      let csum ← seg.checksumFor header srcIp dstIp computeChecksum
      -- `struct.pack("!H", csum)`
      if csum ≤ 0xFFFF then return header.take 16 ++ packH csum ++ header.drop 18 ++ seg.payload
      else .error .structError

/-- Whether the checksum of `data`, if it is to be verified, is wrong. -/
def mismatch (data : Bytes) (srcIp dstIp : Option Bytes) (verifyChecksum : Bool) :
    Except PyError Bool :=
  match srcIp, dstIp with
  | some src, some dst =>
    if verifyChecksum && u16At data 16 != 0 then do
      let csum ← transportChecksum src dst PROTO_TCP data
      return csum != 0
    else .ok false
  | _, _ => .ok false

/-- Decode a segment. -/
def parse (data : Bytes) (srcIp dstIp : Option Bytes := none) (verifyChecksum : Bool := true) :
    Except PyError TCPSegment :=
  if data.length < HEADER_LEN then
    .error (.valueError s!"TCP segment too short: {data.length} bytes, need at least {HEADER_LEN}")
  else
    let dataOffset := (byteAt data 12).toNat >>> 4
    let headerLen := dataOffset * 4
    if headerLen < HEADER_LEN then
      .error (.valueError s!"TCP data offset {dataOffset} is below the minimum of 5")
    else if data.length < headerLen then
      .error (.valueError s!"TCP header claims {headerLen} bytes but only {data.length} were received")
    else do
      if (← mismatch data srcIp dstIp verifyChecksum) then .error (.valueError "TCP checksum mismatch")
      else
        return {
          srcPort := u16At data 0
          dstPort := u16At data 2
          seq := BitVec.ofNat 32 (u32At data 4)
          ack := BitVec.ofNat 32 (u32At data 8)
          flags := BitVec.ofNat 9
            ((((byteAt data 12).toNat &&& 0x01) <<< 8) ||| (byteAt data 13).toNat)
          window := u16At data 14
          payload := data.drop headerLen
          options := TCPOptions.parse ((data.take headerLen).drop HEADER_LEN)
          urgentPointer := u16At data 18
          checksum := u16At data 16 }

/-! ### Segments on the wire -/

/-- Every field fits its place, and the options are of those that are read back. -/
structure InWireRange (seg : TCPSegment) : Prop where
  srcPort : seg.srcPort ≤ 0xFFFF
  dstPort : seg.dstPort ≤ 0xFFFF
  window : seg.window ≤ 0xFFFF
  urgentPointer : seg.urgentPointer ≤ 0xFFFF
  options : seg.options.InWireRange

variable {seg}

/-- The sixteen bytes in front of the checksum. -/
def front (seg : TCPSegment) (offsetByte : Nat) : Bytes :=
  packH seg.srcPort ++ packH seg.dstPort ++ packI seg.seq.toNat ++ packI seg.ack.toNat ++
    [UInt8.ofNat offsetByte, UInt8.ofNat (seg.flags.toNat &&& 0xFF)] ++ packH seg.window

theorem length_front (seg : TCPSegment) (offsetByte : Nat) : (seg.front offsetByte).length = 16 := rfl

/-- The segment with `csum` in the place of the checksum. -/
def bytes (seg : TCPSegment) (options : Bytes) (csum : Nat) : Bytes :=
  seg.front ((HEADER_LEN + options.length) / 4 * 16 + seg.flags.toNat / 256) ++ packH csum ++
    (packH seg.urgentPointer ++ (options ++ seg.payload))

theorem length_bytes (options : Bytes) (csum : Nat) :
    (seg.bytes options csum).length = HEADER_LEN + options.length + seg.payload.length := by
  simp only [bytes, List.length_append, length_front, length_packH, HEADER_LEN]
  omega

theorem bytes_eq (seg : TCPSegment) (options : Bytes) (csum : Nat) :
    seg.bytes options csum = packH seg.srcPort ++ (packH seg.dstPort ++ (packI seg.seq.toNat ++
      (packI seg.ack.toNat ++ ([UInt8.ofNat ((HEADER_LEN + options.length) / 4 * 16 + seg.flags.toNat / 256),
        UInt8.ofNat (seg.flags.toNat &&& 0xFF)] ++ (packH seg.window ++ (packH csum ++
          (packH seg.urgentPointer ++ (options ++ seg.payload)))))))) := by
  simp only [bytes, front, List.append_assoc]

theorem u16At_bytes_checksum {csum : Nat} (h : csum < 65536) (seg : TCPSegment) (options : Bytes) :
    u16At (seg.bytes options csum) 16 = csum := by
  rw [bytes, List.append_assoc]
  exact (u16At_append (length_front seg _) _ 0).trans (u16At_packH h _)

theorem checksumFor_some (seg : TCPSegment) (header src dst : Bytes) :
    seg.checksumFor header (some src) (some dst) true =
      transportChecksum src dst PROTO_TCP (header ++ seg.payload) := rfl

theorem offsetByte_eq (d : Nat) (flags : Flags) :
    (d <<< 4) ||| ((flags.toNat >>> 8) &&& 0x01) = d * 16 + flags.toNat / 256 := by
  have hlt := flags.isLt
  have hbit : (flags.toNat >>> 8) &&& 0x01 = flags.toNat / 256 := by
    rw [Nat.and_one_is_mod, Nat.shiftRight_eq_div_pow]
    omega
  have hadd := Nat.two_pow_add_eq_or_of_lt (i := 4) (b := flags.toNat / 256) (by omega) d
  rw [hbit, Nat.shiftLeft_eq, Nat.mul_comm d, ← hadd, Nat.mul_comm]

theorem flags_eq (d : Nat) (flags : Flags) :
    BitVec.ofNat 9 ((((d * 16 + flags.toNat / 256) &&& 0x01) <<< 8) ||| (flags.toNat &&& 0xFF)) = flags := by
  have hlt := flags.isLt
  have hhigh : (d * 16 + flags.toNat / 256) &&& 0x01 = flags.toNat / 256 := by
    rw [Nat.and_one_is_mod]
    omega
  have hlow : flags.toNat &&& 0xFF = flags.toNat % 2 ^ 8 := Nat.and_two_pow_sub_one_eq_mod _ 8
  have hadd := Nat.two_pow_add_eq_or_of_lt (i := 8) (b := flags.toNat % 2 ^ 8) (by omega) (flags.toNat / 256)
  apply BitVec.eq_of_toNat_eq
  rw [hhigh, hlow, Nat.shiftLeft_eq, Nat.mul_comm, ← hadd, BitVec.toNat_ofNat]
  omega

theorem byteAt_bytes_offset {options : Bytes} (h : seg.options.toBytes = .ok options) (csum : Nat) :
    (byteAt (seg.bytes options csum) 12).toNat =
      (HEADER_LEN + options.length) / 4 * 16 + seg.flags.toNat / 256 := by
  obtain ⟨-, -, -, -, -, -, hmod, hlong⟩ := TCPOptions.toBytes_parts h
  have hflags := seg.flags.isLt
  apply toNat_ofNat_of_lt
  rw [HEADER_LEN]
  omega

theorem toBytes_eq_bind {src dst options : Bytes} (hsrcPort : seg.srcPort ≤ 0xFFFF) (hdstPort : seg.dstPort ≤ 0xFFFF)
    (hwindow : seg.window ≤ 0xFFFF) (hurgent : seg.urgentPointer ≤ 0xFFFF)
    (hoptions : seg.options.toBytes = .ok options) :
    seg.toBytes (some src) (some dst) =
      transportChecksum src dst PROTO_TCP (seg.bytes options 0) >>= fun csum =>
        if csum ≤ 0xFFFF then .ok (seg.bytes options csum) else .error .structError := by
  obtain ⟨-, -, -, -, -, -, hmod, hlong⟩ := TCPOptions.toBytes_parts hoptions
  have hflags := seg.flags.isLt
  have hdiv : (HEADER_LEN + options.length) / 4 ≤ 15 := by
    rw [HEADER_LEN]
    omega
  have hpack : seg.packHeader ((HEADER_LEN + options.length) / 4 * 16 + seg.flags.toNat / 256) =
      .ok (seg.front ((HEADER_LEN + options.length) / 4 * 16 + seg.flags.toNat / 256) ++ packH 0 ++
        packH seg.urgentPointer) :=
    if_pos ⟨by omega, hurgent⟩
  have hblank : seg.front ((HEADER_LEN + options.length) / 4 * 16 + seg.flags.toNat / 256) ++ packH 0 ++
      packH seg.urgentPointer ++ options ++ seg.payload = seg.bytes options 0 := by
    simp only [bytes, List.append_assoc]
  have hbytes : ∀ csum, (seg.front ((HEADER_LEN + options.length) / 4 * 16 + seg.flags.toNat / 256) ++ packH 0 ++
      packH seg.urgentPointer ++ options).take 16 ++ packH csum ++
        (seg.front ((HEADER_LEN + options.length) / 4 * 16 + seg.flags.toNat / 256) ++ packH 0 ++
          packH seg.urgentPointer ++ options).drop 18 ++ seg.payload = seg.bytes options csum := by
    intro csum
    rw [bytes, ← List.append_assoc (packH _), ← List.append_assoc _ (_ ++ _)]
    rfl
  rw [toBytes, if_neg (not_not.mpr hsrcPort), if_neg (not_not.mpr hdstPort), if_neg (not_not.mpr hwindow),
    hoptions, ok_bind]
  dsimp only
  rw [if_neg (not_lt.mpr hdiv), offsetByte_eq, hpack, ok_bind, checksumFor_some, hblank]
  simp only [hbytes]
  rfl

namespace InWireRange

variable (h : seg.InWireRange) {src dst options : Bytes}
include h

theorem toBytes_eq (hsrc : src.length = 4) (hdst : dst.length = 4) (hoptions : seg.options.toBytes = .ok options)
    (htotal : HEADER_LEN + options.length + seg.payload.length ≤ 0xFFFF) :
    ∃ csum, csum < 65536 ∧ seg.toBytes (some src) (some dst) = .ok (seg.bytes options csum) ∧
      transportChecksum src dst PROTO_TCP (seg.bytes options csum) = .ok 0 := by
  obtain ⟨csum, hlt, hcsum, hzero⟩ := transportChecksum_insert
    (packH seg.urgentPointer ++ (options ++ seg.payload)) hsrc hdst (show PROTO_TCP ≤ 0xFF by decide)
    (congrArg (· % 2) (length_front seg ((HEADER_LEN + options.length) / 4 * 16 + seg.flags.toNat / 256)))
    (by
      simp only [List.length_append, length_front, length_packH]
      rw [HEADER_LEN] at htotal
      omega)
  rw [← bytes] at hcsum
  have hverified := hzero csum (.inl rfl)
  rw [← bytes] at hverified
  refine ⟨csum, hlt, ?_, hverified⟩
  rw [toBytes_eq_bind h.srcPort h.dstPort h.window h.urgentPointer hoptions, hcsum, ok_bind, if_pos (by omega)]

theorem parse_toBytes (hsrc : src.length = 4) (hdst : dst.length = 4) (hoptions : seg.options.toBytes = .ok options)
    (htotal : HEADER_LEN + options.length + seg.payload.length ≤ 0xFFFF) :
    ∃ data csum, seg.toBytes (some src) (some dst) = .ok data ∧
      data.length = HEADER_LEN + options.length + seg.payload.length ∧
      parse data (some src) (some dst) = .ok { seg with checksum := csum } := by
  obtain ⟨csum, hlt, hbytes, hzero⟩ := h.toBytes_eq hsrc hdst hoptions htotal
  obtain ⟨-, -, -, -, -, -, hmod, hlong⟩ := TCPOptions.toBytes_parts hoptions
  have hflags := seg.flags.isLt
  have hlength := @length_bytes seg options csum
  refine ⟨_, csum, hbytes, hlength, ?_⟩
  have hoffset := byteAt_bytes_offset hoptions csum
  have hlow : (byteAt (seg.bytes options csum) 13).toNat = seg.flags.toNat &&& 0xFF := by
    have hmask : seg.flags.toNat &&& 0xFF = seg.flags.toNat % 2 ^ 8 := Nat.and_two_pow_sub_one_eq_mod _ 8
    apply toNat_ofNat_of_lt
    omega
  have hwords : u16At (seg.bytes options csum) 0 = seg.srcPort ∧ u16At (seg.bytes options csum) 2 = seg.dstPort ∧
      u16At (seg.bytes options csum) 14 = seg.window ∧ u16At (seg.bytes options csum) 16 = csum ∧
      u16At (seg.bytes options csum) 18 = seg.urgentPointer := by
    rw [bytes_eq]
    exact ⟨unpackH_packH (Nat.lt_succ_of_le h.srcPort), unpackH_packH (Nat.lt_succ_of_le h.dstPort),
      unpackH_packH (Nat.lt_succ_of_le h.window), unpackH_packH hlt,
      unpackH_packH (Nat.lt_succ_of_le h.urgentPointer)⟩
  have hnumbers : u32At (seg.bytes options csum) 4 = seg.seq.toNat ∧
      u32At (seg.bytes options csum) 8 = seg.ack.toNat := by
    rw [bytes_eq]
    exact ⟨u32At_packI seg.seq.isLt [], u32At_packI seg.ack.isLt []⟩
  obtain ⟨hsrcPort, hdstPort, hwindow, hcsum, hurgent⟩ := hwords
  have hheader : ((HEADER_LEN + options.length) / 4 * 16 + seg.flags.toNat / 256) >>> 4 * 4 =
      HEADER_LEN + options.length := by
    rw [Nat.shiftRight_eq_div_pow, HEADER_LEN]
    omega
  have hbody : (seg.bytes options csum).drop (HEADER_LEN + options.length) = seg.payload := by
    rw [← List.drop_drop]
    change (options ++ seg.payload).drop options.length = _
    rw [List.drop_left]
  have harea : ((seg.bytes options csum).take (HEADER_LEN + options.length)).drop HEADER_LEN = options := by
    rw [List.drop_take]
    change (options ++ seg.payload).take _ = _
    rw [Nat.add_sub_cancel_left, List.take_left]
  have hmatch : mismatch (seg.bytes options csum) (some src) (some dst) true = .ok false := by
    rw [mismatch, hzero]
    split_ifs <;> rfl
  rw [parse, if_neg (by omega)]
  dsimp only
  rw [hoffset, hheader, if_neg (by omega), if_neg (by omega), hmatch, hlow, hsrcPort, hdstPort, hwindow, hcsum,
    hurgent, hnumbers.1, hnumbers.2, hbody, harea, flags_eq, h.options.parse_toBytes hoptions]
  simp only [BitVec.ofNat_toNat, BitVec.setWidth_eq]
  rfl

end InWireRange

/-! ### Errors of decoding -/

theorem mismatch_error_iff {data src dst : Bytes} :
    mismatch data (some src) (some dst) true = .error .structError ↔
      0xFFFF < data.length ∧ u16At data 16 ≠ 0 := by
  unfold mismatch
  dsimp only
  by_cases hfield : u16At data 16 = 0
  · simp [hfield]
  · rw [if_pos (by simpa using hfield)]
    by_cases hlength : data.length ≤ 0xFFFF
    · rw [transportChecksum_eq (by decide) hlength]
      simp [Nat.not_lt.mpr hlength]
    · rw [transportChecksum, pseudoHeader, if_neg fun h => hlength h.2]
      simp [hfield, Nat.lt_of_not_le hlength]

theorem parse_error_iff {data src dst : Bytes} :
    parse data (some src) (some dst) = .error .structError ↔
      0xFFFF < data.length ∧ 5 ≤ (byteAt data 12).toNat >>> 4 ∧ u16At data 16 ≠ 0 := by
  have hoffset : (byteAt data 12).toNat >>> 4 < 16 := by
    have hbyte := (byteAt data 12).toNat_lt
    rw [Nat.shiftRight_eq_div_pow]
    omega
  have hmismatch := @mismatch_error_iff data src dst
  unfold parse
  dsimp only
  rw [HEADER_LEN]
  split_ifs with h1 h2 h3
  · exact iff_of_false nofun fun h => by omega
  · exact iff_of_false nofun fun h => by omega
  · exact iff_of_false nofun fun h => by omega
  · have hiff : 0xFFFF < data.length ∧ 5 ≤ (byteAt data 12).toNat >>> 4 ∧ u16At data 16 ≠ 0 ↔
        mismatch data (some src) (some dst) true = .error .structError := by
      rw [hmismatch]
      exact and_congr_right fun _ => and_iff_right (by omega)
    rw [hiff]
    generalize mismatch data (some src) (some dst) true = r
    cases r with
    | error e => simp
    | ok wrong => cases wrong <;> exact iff_of_false nofun nofun

theorem ports_of_parse {data src dst : Bytes} {segment : TCPSegment}
    (h : parse data (some src) (some dst) = .ok segment) : segment.srcPort ≤ 0xFFFF ∧ segment.dstPort ≤ 0xFFFF := by
  unfold parse at h
  dsimp only at h
  split_ifs at h
  generalize mismatch data (some src) (some dst) true = r at h
  cases r with
  | error e => cases h
  | ok wrong =>
    cases wrong with
    | true => cases h
    | false =>
      cases h
      exact ⟨Nat.le_of_lt_succ (unpackH_lt _ _), Nat.le_of_lt_succ (unpackH_lt _ _)⟩

end TCPSegment

end MiniTcp
