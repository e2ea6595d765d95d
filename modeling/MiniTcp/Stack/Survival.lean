import MiniTcp.Stack.Frames

/-!
# Frames do not stop the stack

Every frame of a run is handled without an exception exactly when none completes an overlong segment
(`meets_survives_iff`). Two fragments are enough for one (`giant`): each of them fits its frame, together they
have 65536 bytes.
-/

namespace MiniTcp

namespace Stack

variable {s : Stack} {now : Time}

/-- `handle_frame` returns, and what failed on the way was a `ValueError` that is counted. -/
def Survives (s : Stack) : StackEvent → Prop
  | .frame raw draw now =>
    (s.handleFrame raw draw now).1 = .ok () ∧
      ∀ e, (s.attempt raw draw now).1 = .error e → (∃ message, e = .valueError message) ∧
        (s.handleFrame raw draw now).2.stats.malformed = (s.attempt raw draw now).2.stats.malformed + 1
  | _ => True

/-- No frame completes an overlong segment. -/
def Bearable (s : Stack) : StackEvent → Prop
  | .frame raw _ now => ∀ packet ∈ s.datagram raw now, ¬ packet.Overlong
  | _ => True

theorem Sound.survives_iff (h : s.Sound) (e : StackEvent) : s.Survives e ↔ s.Bearable e := by
  cases e with
  | frame raw draw now =>
    refine (and_iff_left_of_imp fun hok e he => ?_).trans (h.handleFrame raw draw now).1
    rw [handleFrame_eq] at hok ⊢
    have hne := caught_ok_iff.mp hok
    generalize s.attempt raw draw now = r at hne he
    obtain ⟨result, s'⟩ := r
    obtain rfl := he
    match e with
    | .structError => exact absurd rfl hne
    | .valueError message => exact ⟨⟨message, rfl⟩, rfl⟩
  | _ => exact Iff.rfl

/-- All along a run of a stack every frame is handled without an exception exactly when no frame completes an
overlong segment. -/
theorem meets_survives_iff (cfg : StackConfig) (es : List StackEvent) :
    stack.Meets Survives (.new cfg) es ↔ stack.Meets Bearable (.new cfg) es :=
  stack.meets_iff_meets (E := fun _ _ => True) (Q := Sound) (fun _ e hs _ _ => hs.step e)
    (fun _ e hs _ => hs.survives_iff e) (stack.meets_true _ es) (sound_new cfg)

/-- A stack at 10.0.0.1. -/
def host : StackConfig where
  mac := [2, 0, 0, 0, 0, 1]
  ip := [10, 0, 0, 1]
  netmask := [255, 255, 255, 0]
  mac_length := rfl
  ip_length := rfl
  netmask_length := rfl
  gateway_length := fun _ h => by cases h

/-- A frame from 10.0.0.2 for `host`. -/
def frameFor (payload : Bytes) : EthernetFrame :=
  { dst := host.mac, src := [2, 0, 0, 0, 0, 2], ethertype := ETHERTYPE_IPV4, payload := payload }

/-- The bytes of the frame that brings `p`. -/
def carry (p : IPv4Packet) : Bytes :=
  match p.toBytes >>= fun data => (frameFor data).toBytes with
  | .ok raw => raw
  | .error _ => []

/-- 65536 bytes with data offset 5 and checksum 1. -/
def giant : IPv4Packet where
  src := [10, 0, 0, 2]
  dst := host.ip
  protocol := PROTO_TCP
  payload := List.replicate 12 0 ++ ([0x50, 0, 0, 0, 0, 1] ++ List.replicate 65518 0)

theorem length_giant : giant.payload.length = 65536 := by
  rw [giant, List.length_append, List.length_append, List.length_replicate, List.length_replicate]
  rfl

theorem overlong_of_restores {p : IPv4Packet} (h : Feed.Restores giant p) : p.Overlong := by
  refine ⟨h.protocol, ?_, ?_, ?_⟩
  · rw [h.payload, length_giant]
    decide
  · rw [h.payload]
    change 5 ≤ (80 : UInt8).toNat >>> 4
    decide
  · rw [h.payload]
    change unpackH 0 1 ≠ 0
    decide

theorem parse_carry {p : IPv4Packet} (h : p.InWireRange) :
    ∃ frame, EthernetFrame.parse (carry p) = .ok frame ∧ frame.dst = host.mac ∧
      frame.ethertype = ETHERTYPE_IPV4 ∧ IPv4Packet.parse frame.payload = .ok p := by
  generalize hdata : p.header (checksum (p.header 0)) ++ p.payload = data
  have hbytes := h.toBytes_eq
  rw [hdata] at hbytes
  obtain ⟨raw, n, hraw, -, hparse⟩ := EthernetFrame.parse_toBytes (f := frameFor data) rfl rfl
    (show ETHERTYPE_IPV4 < 65536 by decide)
  obtain ⟨data', hdata', -, hread⟩ := h.parse_toBytes (List.replicate n 0)
  rw [hbytes] at hdata'
  obtain rfl := Except.ok.inj hdata'
  refine ⟨frameFor (data ++ List.replicate n 0), ?_, rfl, rfl, hread⟩
  rw [carry, hbytes, ok_bind, hraw]
  exact hparse

theorem step_carry {p : IPv4Packet} (h : p.InWireRange) (hmac : s.mac = host.mac) (hfrag : p.isFragmented = true)
    (hnone : (s.reassembler.add p now).2 = none) (draw : SeqNo) :
    (s.step (.frame (carry p) draw now)).mac = s.mac ∧ (s.step (.frame (carry p) draw now)).ip = s.ip ∧
      (s.step (.frame (carry p) draw now)).reassembler = (s.reassembler.add p now).1 := by
  obtain ⟨frame, hframe, hdst, htype, hpacket⟩ := parse_carry h
  have haccepted : frame.acceptedBy s.mac = true := by
    rw [EthernetFrame.acceptedBy, hdst, hmac]
    rfl
  have hattempt : s.attempt (carry p) draw now = (.ok (), { s with
      stats := { s.stats with ipv4In := s.stats.ipv4In + 1 }, reassembler := (s.reassembler.add p now).1 }) := by
    unfold attempt attemptIpv4 reassemble
    rw [hframe]
    dsimp only
    rw [haccepted, htype, hpacket]
    simp [ETHERTYPE_IPV4, ETHERTYPE_ARP, hfrag, hnone]
  rw [Stack.step, handleFrame_eq, hattempt]
  exact ⟨rfl, rfl, rfl⟩

theorem datagram_carry {p rebuilt : IPv4Packet} (h : p.InWireRange) (hmac : s.mac = host.mac)
    (hfrag : p.isFragmented = true) (hsome : (s.reassembler.add p now).2 = some rebuilt) (hdst : rebuilt.dst = s.ip) :
    s.datagram (carry p) now = some rebuilt := by
  obtain ⟨frame, hframe, hto, htype, hpacket⟩ := parse_carry h
  have haccepted : frame.acceptedBy s.mac = true := by
    rw [EthernetFrame.acceptedBy, hto, hmac]
    rfl
  unfold datagram completed reassemble
  rw [hframe]
  dsimp only
  rw [haccepted, htype, hpacket]
  simp [hfrag, hsome, hdst]

theorem inWireRange_piece {j : Nat} (hj : j ≤ 1) : (giant.piece 65512 (j * 65512)).InWireRange := by
  have hpayload := IPv4Packet.length_piece (p := giant) 65512 (j * 65512)
  have hflags : ∀ more : Prop, [Decidable more] →
      (((0 : Nat) &&& FLAG_DF) ||| (if more then FLAG_MF else 0)) &&& FLAG_MASK =
        ((0 : Nat) &&& FLAG_DF) ||| (if more then FLAG_MF else 0) := by
    intro more _
    split_ifs <;> decide
  refine ⟨rfl, rfl, show PROTO_TCP ≤ 255 by decide, show 64 ≤ 255 by decide, Nat.zero_le _, hflags _, ?_,
    Nat.zero_le _, rfl, Nat.zero_le _, ?_⟩
  · change j * 65512 / 8 ≤ FRAG_OFFSET_MASK
    rw [FRAG_OFFSET_MASK]
    omega
  · rw [IPv4Packet.totalLength, IPv4Packet.headerLength_piece, hpayload, length_giant, MAX_PACKET]
    omega

/-- A fresh reassembler, once a fragment has arrived that is not all, keeps it at least until its timeout. -/
theorem fresh_add {packet : IPv4Packet} {now : Time} (hfrag : packet.isFragmented = true)
    (hnone : (({} : Reassembler).joined packet now).tryComplete = none) :
    (({} : Reassembler).add packet now).2 = none ∧
      packet.key ∉ (({} : Reassembler).add packet now).1.stale now ∧
      (({} : Reassembler).add packet now).1.sets.lookup packet.key ≠ none := by
  have hadd : ({} : Reassembler).add packet now =
      ({ sets := (∅ : AList _).insert packet.key (({} : Reassembler).joined packet now) }, none) := by
    unfold Reassembler.add
    rw [if_neg (by simp [hfrag])]
    dsimp only
    rw [if_neg (by simp [Reassembler.expire, Reassembler.stale]), ← Reassembler.joined, hnone]
    rfl
  rw [hadd]
  refine ⟨rfl, ?_, by rw [AList.lookup_insert]; exact Option.some_ne_none _⟩
  rw [Reassembler.stale, AList.entries_insert_of_notMem (AList.notMem_empty _)]
  have hseen : (({} : Reassembler).joined packet now).firstSeen = now := rfl
  have htime : (0 : Time) ≤ 30 := by decide
  simp [hseen, htime]

theorem isFragmented_piece {p : IPv4Packet} {m : Nat} (hflags : p.flags = 0) (hm : 8 ∣ m) (hlow : m < p.payload.length)
    (hhigh : p.payload.length ≤ 2 * m) {j : Nat} (hj : j ≤ 1) :
    p.Cut m (p.piece m (j * m)) ∧ (p.piece m (j * m)).isFragmented = true := by
  have hcut : p.Cut m (p.piece m (j * m)) :=
    ⟨j, (Nat.mul_le_mul_right m hj).trans_lt (by omega), rfl⟩
  exact ⟨hcut, hcut.isFragmented (Feed.not_dontFragment_of_no_flags hflags) hm (by omega) hlow⟩

theorem reassembled {p : IPv4Packet} {m : Nat} (hflags : p.flags = 0) (hm : 8 ∣ m) (hlow : m < p.payload.length)
    (hhigh : p.payload.length ≤ 2 * m) (now : Time) :
    (({} : Reassembler).add (p.piece m (0 * m)) now).2 = none ∧
      ∃ rebuilt, ((({} : Reassembler).add (p.piece m (0 * m)) now).1.add (p.piece m (1 * m)) now).2 = some rebuilt ∧
        Feed.Restores p rebuilt := by
  have hpos : 0 < m := by omega
  have hdf : p.dontFragment = false := Feed.not_dontFragment_of_no_flags hflags
  have hcut : ∀ j ≤ 1, p.Cut m (p.piece m (j * m)) := fun j hj => (isFragmented_piece hflags hm hlow hhigh hj).1
  have hfrag : ∀ j ≤ 1, (p.piece m (j * m)).isFragmented = true := fun j hj =>
    (isFragmented_piece hflags hm hlow hhigh hj).2
  have hstart : Feed.Gathering p m { reassembler := {} } := Feed.gathering_init ⟨rfl, rfl, rfl⟩
  have hfirst : Feed.Undisturbed p [p.piece m (0 * m), p.piece m (1 * m)] { reassembler := {} }
      (p.piece m (0 * m), now) :=
    ⟨.inl List.mem_cons_self, List.not_mem_nil, fun _ _ => show 0 < 64 by decide⟩
  have hne : p.piece m (1 * m) ≠ p.piece m (0 * m) := fun h => by
    have heq := FragmentSet.piece_offset_inj hm h
    omega
  have hjoined := hstart.joined (e := (p.piece m (0 * m), now)) (hcut 0 (by decide)) hm hdf List.not_mem_nil
  have hnone := hjoined.tryComplete_of_missing (j := 1) (by omega) fun hmem => hne (List.mem_singleton.mp hmem)
  obtain ⟨hfirstNone, hstale, hlookup⟩ := fresh_add (hfrag 0 (by decide)) hnone
  obtain ⟨hgathering, hreturned⟩ := hstart.add_piece (hcut 0 (by decide)) hm hdf (hfrag 0 (by decide)) hfirst
    (j := 1) (by omega) fun hmem => hne (List.mem_singleton.mp hmem)
  simp only [IPv4Packet.piece_key] at hfirstNone hstale hlookup
  refine ⟨hfirstNone, ?_⟩
  have hroom : ((({} : Reassembler).add (p.piece m (0 * m)) now).1.expire now).sets.lookup p.key ≠ none := by
    rw [Reassembler.lookup_expire_of_not_stale hstale]
    exact hlookup
  have hsecond : Feed.Undisturbed p [p.piece m (0 * m), p.piece m (1 * m)]
      (Feed.add { reassembler := {} } (p.piece m (0 * m), now)) (p.piece m (1 * m), now) :=
    ⟨.inl (List.mem_cons_of_mem _ List.mem_cons_self), hstale, fun _ h => absurd h hroom⟩
  have hall : ∀ j, j * m < p.payload.length → p.piece m (j * m) ∈ [p.piece m (0 * m), p.piece m (1 * m)] := by
    intro j hj
    match j with
    | 0 => exact List.mem_cons_self
    | 1 => exact List.mem_cons_of_mem _ List.mem_cons_self
    | j + 2 =>
      have hmul : 2 * m ≤ (j + 2) * m := Nat.mul_le_mul_right m (by omega)
      omega
  obtain ⟨rebuilt, hrebuilt, hrestores⟩ := hgathering.add_last (hcut 1 (by decide)) hm hpos hdf
    (hfrag 1 (by decide)) hsecond hall
  refine ⟨rebuilt, ?_, hrestores⟩
  have hlist : ((({} : Reassembler).add (p.piece m (0 * m)) now).1.add (p.piece m (1 * m)) now).2.toList =
      [rebuilt] := by simpa [Feed.add, hfirstNone] using hrebuilt
  exact Option.mem_toList.mp (hlist ▸ List.mem_singleton_self rebuilt)

/-- The second of two fragments ends in a `struct.error`. -/
theorem giant_stops :
    (((Stack.new host).step (.frame (carry (giant.piece 65512 (0 * 65512))) 0 0)).handleFrame
      (carry (giant.piece 65512 (1 * 65512))) 0 0).1 = .error .structError ∧
    ¬ stack.Meets Survives (.new host) [.frame (carry (giant.piece 65512 (0 * 65512))) 0 0,
      .frame (carry (giant.piece 65512 (1 * 65512))) 0 0] := by
  have hlow : 65512 < giant.payload.length := by
    rw [length_giant]
    decide
  have hhigh : giant.payload.length ≤ 2 * 65512 := by
    rw [length_giant]
    decide
  have hm : 8 ∣ 65512 := by decide
  have hflags : giant.flags = 0 := rfl
  obtain ⟨hnone, rebuilt, hsome, hrestores⟩ := reassembled hflags hm hlow hhigh 0
  obtain ⟨-, hfrag⟩ := isFragmented_piece hflags hm hlow hhigh (Nat.zero_le 1)
  obtain ⟨-, hfrag'⟩ := isFragmented_piece hflags hm hlow hhigh (le_refl 1)
  have hfresh : (Stack.new host).reassembler = {} := rfl
  rw [← hfresh] at hnone hsome
  obtain ⟨hmac, hip, hadded⟩ := step_carry (inWireRange_piece (Nat.zero_le 1)) rfl hfrag hnone 0
  have hsound := (sound_new host).step (.frame (carry (giant.piece 65512 (0 * 65512))) 0 0)
  rw [← hadded] at hsome
  have hdatagram := datagram_carry (inWireRange_piece (le_refl 1)) hmac hfrag' hsome (hrestores.dst.trans hip.symm)
  have hover := overlong_of_restores hrestores
  have hstop := caught_error ((hsound.attempt _ 0 0).1.mpr ⟨rebuilt, hdatagram, hover⟩)
  rw [← handleFrame_eq] at hstop
  refine ⟨hstop, fun hmeets => ?_⟩
  have hok := hmeets.2.1.1
  rw [stack_next, hstop] at hok
  cases hok

end Stack

end MiniTcp
