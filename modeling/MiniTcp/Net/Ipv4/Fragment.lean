import MiniTcp.Net.Ipv4.Wire

/-!
# The pieces `fragment` makes

A datagram that does not fit is cut at the multiples of a multiple of eight (`fragment_cases`). Each piece
fits, is a datagram `to_bytes` can encode, and its offset field says where it was cut.
-/

namespace MiniTcp

namespace IPv4Packet

variable {p q : IPv4Packet} {m mtu offset j : Nat}

/-- `q` is one of the pieces of `p` with `m` bytes each. -/
def Cut (p : IPv4Packet) (m : Nat) (q : IPv4Packet) : Prop :=
  ∃ j, j * m < p.payload.length ∧ q = p.piece m (j * m)

@[simp] theorem piece_key (m offset : Nat) : (p.piece m offset).key = p.key := rfl

theorem length_piece (m offset : Nat) :
    (p.piece m offset).payload.length = min m (p.payload.length - offset) := by
  simp only [piece, List.length_take, List.length_drop]

theorem headerLength_of_no_options (h : p.options = []) : p.headerLength = 20 := by
  rw [headerLength, ihl, h]
  rfl

theorem headerLength_piece (m offset : Nat) : (p.piece m offset).headerLength = 20 :=
  headerLength_of_no_options rfl

theorem mem_fragmentLoop (hm : 0 < m) {fuel : Nat} (hfuel : p.payload.length ≤ offset + fuel) :
    q ∈ p.fragmentLoop m fuel offset ↔
      ∃ j, offset + j * m < p.payload.length ∧ q = p.piece m (offset + j * m) := by
  induction fuel generalizing offset with
  | zero =>
    simp only [fragmentLoop, List.not_mem_nil, false_iff, not_exists, not_and]
    intro j hj
    omega
  | succ fuel ih =>
    rw [fragmentLoop]
    split_ifs with hoffset
    · have hlen := length_piece (p := p) m offset
      rw [List.mem_cons, ih (by omega)]
      constructor
      · rintro (rfl | ⟨j, hj, rfl⟩)
        · exact ⟨0, by omega, by rw [Nat.zero_mul, Nat.add_zero]⟩
        · -- the loop goes on only after a full piece
          have hfull : (p.piece m offset).payload.length = m := by omega
          rw [hfull] at hj
          have hstep : offset + (j + 1) * m = offset + m + j * m := by
            rw [Nat.succ_mul]
            omega
          exact ⟨j + 1, by omega, by rw [hfull, hstep]⟩
      · rintro ⟨j, hj, rfl⟩
        cases j with
        | zero => exact .inl (by rw [Nat.zero_mul, Nat.add_zero])
        | succ j =>
          have hstep : offset + (j + 1) * m = offset + m + j * m := by
            rw [Nat.succ_mul]
            omega
          have hfull : (p.piece m offset).payload.length = m := by omega
          exact .inr ⟨j, by omega, by rw [hfull, hstep]⟩
    · simp only [List.not_mem_nil, false_iff, not_exists, not_and]
      intro j hj
      omega

theorem fragment_eq (hoptions : p.options = []) (hdf : p.dontFragment = false) (hmtu : MIN_MTU ≤ mtu) :
    (p.totalLength ≤ mtu ∧ fragment p mtu = .ok [p]) ∨
      ∃ m, 8 ∣ m ∧ 0 < m ∧ 20 + m ≤ mtu ∧ m < p.payload.length ∧ mtu < p.totalLength ∧
        fragment p mtu = .ok (p.fragmentLoop m p.payload.length 0) := by
  have hheader := headerLength_of_no_options hoptions
  rw [MIN_MTU] at hmtu
  rw [fragment, if_neg (by rw [MIN_MTU]; omega), totalLength, hheader]
  by_cases hfits : 20 + p.payload.length ≤ mtu
  · exact .inl ⟨hfits, if_pos hfits⟩
  · have hpos : (mtu - 20) / 8 * 8 ≠ 0 := by omega
    rw [if_neg hfits, hdf, if_neg Bool.false_ne_true, if_neg hpos]
    exact .inr ⟨(mtu - 20) / 8 * 8, Nat.dvd_mul_left _ _, by omega, by omega, by omega, by omega, rfl⟩

theorem fragment_cases (hoptions : p.options = []) (hdf : p.dontFragment = false) (hmtu : MIN_MTU ≤ mtu) :
    (p.totalLength ≤ mtu ∧ fragment p mtu = .ok [p]) ∨
      ∃ m pieces, 8 ∣ m ∧ 0 < m ∧ 20 + m ≤ mtu ∧ m < p.payload.length ∧ fragment p mtu = .ok pieces ∧
        ∀ q, q ∈ pieces ↔ p.Cut m q := by
  rcases fragment_eq hoptions hdf hmtu with hfits | ⟨m, hm, hpos, hmtu', hlong, -, hok⟩
  · exact .inl hfits
  · refine .inr ⟨m, _, hm, hpos, hmtu', hlong, hok, fun q => ?_⟩
    rw [mem_fragmentLoop hpos (by omega), Cut]
    simp only [Nat.zero_add]

/-! ### One piece -/

theorem piece_offset (hm : 8 ∣ m) (j : Nat) : (p.piece m (j * m)).fragmentOffset * 8 = j * m :=
  Nat.div_mul_cancel (Nat.dvd_mul_left_of_dvd hm j)

theorem piece_flags (hdf : p.dontFragment = false) (m offset : Nat) :
    (p.piece m offset).flags =
      if offset + (p.piece m offset).payload.length < p.payload.length then FLAG_MF else 0 := by
  have hclear : p.flags &&& FLAG_DF = 0 := by simpa [dontFragment] using hdf
  rw [piece, hclear, Nat.zero_or]

theorem piece_last_iff (hdf : p.dontFragment = false) (hoffset : offset < p.payload.length) :
    (p.piece m offset).flags &&& FLAG_MF = 0 ↔ p.payload.length ≤ offset + m := by
  have hlen := length_piece (p := p) m offset
  rw [piece_flags hdf]
  split_ifs with hmore
  · exact ⟨fun h => absurd h (by decide), fun h => by omega⟩
  · exact ⟨fun _ => by omega, fun _ => Nat.zero_and _⟩

theorem Cut.isFragmented (h : p.Cut m q) (hdf : p.dontFragment = false) (hm : 8 ∣ m) (hpos : 0 < m)
    (hlong : m < p.payload.length) : q.isFragmented = true := by
  obtain ⟨j, hj, rfl⟩ := h
  rw [IPv4Packet.isFragmented, Bool.or_eq_true, bne_iff_ne, Ne, piece_last_iff hdf hj, decide_eq_true_eq]
  have hoffset := piece_offset (p := p) hm j
  cases j with
  | zero => exact .inl (by omega)
  | succ j =>
    have hfirst : m ≤ (j + 1) * m := Nat.le_mul_of_pos_left m (Nat.succ_pos j)
    exact .inr (by omega)

theorem Cut.totalLength_le (h : p.Cut m q) (hmtu : 20 + m ≤ mtu) : q.totalLength ≤ mtu := by
  obtain ⟨j, -, rfl⟩ := h
  have hlen := length_piece (p := p) m (j * m)
  rw [totalLength, headerLength_piece]
  omega

theorem Cut.inWireRange (h : p.Cut m q) (hp : p.InWireRange) (hdf : p.dontFragment = false) :
    q.InWireRange := by
  obtain ⟨j, hj, rfl⟩ := h
  have htotal := hp.total
  rw [totalLength, hp.headerLength_eq, MAX_PACKET] at htotal
  have hflags : (p.piece m (j * m)).flags &&& FLAG_MASK = (p.piece m (j * m)).flags := by
    rw [piece_flags hdf]
    split_ifs <;> rfl
  have hoffset : (p.piece m (j * m)).fragmentOffset ≤ FRAG_OFFSET_MASK := by
    change j * m / 8 ≤ 0x1FFF
    omega
  have hlen : (p.piece m (j * m)).totalLength ≤ MAX_PACKET := by
    have hlength := length_piece (p := p) m (j * m)
    rw [totalLength, headerLength_piece, MAX_PACKET]
    omega
  exact ⟨hp.src, hp.dst, hp.protocol, hp.ttl, hp.identification, hflags, hoffset, hp.dscp, rfl,
    Nat.zero_le _, hlen⟩

end IPv4Packet

end MiniTcp
