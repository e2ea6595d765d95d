import MiniTcp.Lib.Pieces
import MiniTcp.Net.Ipv4.Fragment

/-!
# One set of fragments

A set is completed when the scan of its pieces finds no hole (`tryComplete_eq_none`,
`tryComplete_eq_some`). While the set of a datagram holds exactly what has arrived of it (`Collected`), the
scan finds a hole until the last missing piece is there, and then the buffer is the payload.
-/

namespace MiniTcp

/-! ### One set -/

namespace FragmentSet

variable {entry : FragmentSet} {whole : Bytes} {total : Nat}

theorem coverFrom_eq_reach (items : List (Nat × Bytes)) (cursor : Nat) :
    coverFrom items cursor = Pieces.reach items cursor := by
  induction items generalizing cursor with
  | nil => rfl
  | cons item rest ih =>
    obtain ⟨offset, data⟩ := item
    rw [coverFrom, Pieces.reach, ih]

theorem fill_eq_writeAll {items : List (Nat × Bytes)} {buffer : Bytes}
    (hitems : ∀ item ∈ items, item.1 + item.2.length ≤ total) (hlen : buffer.length = total) :
    fill total items buffer = Pieces.writeAll buffer items := by
  induction items generalizing buffer with
  | nil => rfl
  | cons item rest ih =>
    obtain ⟨offset, data⟩ := item
    have hle : offset + data.length ≤ total := hitems _ List.mem_cons_self
    have hdata : sliceTo data (((offset + data.length : Nat) : Int) - offset) = data := by
      rw [sliceTo, if_pos (by omega)]
      apply List.take_of_length_le
      omega
    have hassign : sliceAssign buffer offset (offset + data.length) data =
        Pieces.write buffer (offset, data) := by
      rw [sliceAssign, Pieces.write, max_eq_right (by omega)]
    have hwrite : (Pieces.write buffer (offset, data)).length = total := by
      rw [Pieces.length_write (by rw [hlen]; exact hle), hlen]
    rw [fill, min_eq_left hle, hdata, hassign,
      ih (fun item hitem => hitems item (List.mem_cons_of_mem _ hitem)) hwrite]
    rfl

theorem mem_ordered {item : Nat × Bytes} :
    item ∈ entry.ordered ↔ entry.pieces.lookup item.1 = some item.2 := by
  rw [ordered, List.mem_insertionSort, List.mem_map]
  constructor
  · rintro ⟨found, hmem, rfl⟩
    exact AList.mem_lookup_iff.mpr hmem
  · intro h
    exact ⟨⟨item.1, item.2⟩, AList.mem_lookup_iff.mp h, rfl⟩

theorem ordered_sorted : entry.ordered.Pairwise (·.1 ≤ ·.1) :=
  haveI : Std.Total fun a b : Nat × Bytes => a.1 ≤ b.1 := ⟨fun a b => Nat.le_total a.1 b.1⟩
  haveI : IsTrans (Nat × Bytes) fun a b => a.1 ≤ b.1 := ⟨fun _ _ _ => Nat.le_trans⟩
  List.pairwise_insertionSort _ _

theorem tryComplete_eq_none {x : Nat} (htotal : ∀ t, entry.totalLength = some t → x < t)
    (hhole : ∀ item ∈ entry.ordered, ¬ Pieces.Holds item x) : entry.tryComplete = none := by
  rw [tryComplete]
  split
  · rename_i t cursor head ht hcover _
    rw [if_pos]
    right
    by_contra hge
    rw [coverFrom_eq_reach] at hcover
    obtain ⟨item, hmem, hholds⟩ :=
      Pieces.covered_of_reach hcover (Nat.zero_le x) (by have := htotal t ht; omega)
    exact hhole item hmem hholds
  · rfl

/-- A set of parts of one byte string, without a hole, is completed, and its payload is that string. -/
theorem tryComplete_eq_some {head : IPv4Packet} (htotal : entry.totalLength = some whole.length)
    (hhead : entry.header = some head) (hpos : 0 < whole.length)
    (hparts : ∀ item ∈ entry.ordered, Pieces.PartOf whole item)
    (hcovered : ∀ x < whole.length, ∃ item ∈ entry.ordered, Pieces.Holds item x) :
    entry.tryComplete = some
      { src := head.src, dst := head.dst, protocol := head.protocol, payload := whole, ttl := head.ttl,
        identification := head.identification, dscp := head.dscp } := by
  have hends : ∀ item ∈ entry.ordered, item.1 + item.2.length ≤ whole.length :=
    fun item hitem => (hparts item hitem).1
  obtain ⟨cursor, hreach, hle⟩ :
      ∃ cursor, Pieces.reach entry.ordered 0 = some cursor ∧ whole.length ≤ cursor := by
    refine (Pieces.exists_reach_iff ordered_sorted).mpr ⟨fun x _ hx => hcovered x hx, ?_⟩
    intro item hitem x _ hx
    have := hends item hitem
    exact hcovered x (by omega)
  have hnonempty : entry.pieces.entries ≠ [] := by
    intro hnil
    obtain ⟨item, hmem, -⟩ := hcovered 0 hpos
    rw [ordered, hnil] at hmem
    cases hmem
  have hfill : fill whole.length entry.ordered (List.replicate whole.length 0) = whole := by
    rw [fill_eq_writeAll hends List.length_replicate]
    exact Pieces.writeAll_of_covered hparts List.length_replicate hcovered
  rw [tryComplete, htotal, coverFrom_eq_reach, hreach, hhead]
  dsimp only
  rw [if_neg (not_or.mpr ⟨hnonempty, by omega⟩), hfill]

/-! ### Collecting the pieces of one datagram -/

variable {p q : IPv4Packet} {m : Nat} {arrived : List IPv4Packet}

/-- The set holds the pieces of `p` that have arrived, and nothing else. -/
structure Collected (p : IPv4Packet) (m : Nat) (arrived : List IPv4Packet) (entry : FragmentSet) : Prop where
  header : ∀ head, entry.header = some head → p.Cut m head
  total : ∀ t, entry.totalLength = some t → t = p.payload.length
  last : ∀ j, j * m < p.payload.length → p.payload.length ≤ j * m + m → p.piece m (j * m) ∈ arrived →
    entry.totalLength = some p.payload.length
  sound : ∀ offset data, entry.pieces.lookup offset = some data →
    ∃ j, j * m < p.payload.length ∧ p.piece m (j * m) ∈ arrived ∧ offset = j * m ∧
      data = (p.piece m (j * m)).payload
  complete : ∀ j, j * m < p.payload.length → p.piece m (j * m) ∈ arrived →
    entry.pieces.lookup (j * m) = some (p.piece m (j * m)).payload

theorem collected_fresh (now : Time) (hnone : ∀ q ∈ arrived, ¬ p.Cut m q) :
    Collected p m arrived { firstSeen := now } where
  header := by
    intro head hhead
    cases hhead
  total := by
    intro t ht
    cases ht
  last := fun j hj _ hmem => absurd ⟨j, hj, rfl⟩ (hnone _ hmem)
  sound := by
    intro offset data hlookup
    rw [AList.lookup_empty] at hlookup
    cases hlookup
  complete := fun j hj hmem => absurd ⟨j, hj, rfl⟩ (hnone _ hmem)

theorem Collected.append_other (h : Collected p m arrived entry) (hother : ¬ p.Cut m q) :
    Collected p m (arrived ++ [q]) entry := by
  have hold : ∀ j, j * m < p.payload.length → p.piece m (j * m) ∈ arrived ++ [q] →
      p.piece m (j * m) ∈ arrived := by
    intro j hj hmem
    rcases List.mem_append.mp hmem with hmem | hmem
    · exact hmem
    · exact absurd ⟨j, hj, (List.mem_singleton.mp hmem).symm⟩ hother
  refine ⟨h.header, h.total, fun j hj hlast hmem => h.last j hj hlast (hold j hj hmem), ?_,
    fun j hj hmem => h.complete j hj (hold j hj hmem)⟩
  intro offset data hlookup
  obtain ⟨j, hj, hmem, hoffset, hdata⟩ := h.sound offset data hlookup
  exact ⟨j, hj, List.mem_append_left _ hmem, hoffset, hdata⟩

theorem piece_offset_inj (hm : 8 ∣ m) {i j : Nat} (h : p.piece m (i * m) = p.piece m (j * m)) :
    i * m = j * m := by
  rw [← IPv4Packet.piece_offset (p := p) hm i, ← IPv4Packet.piece_offset (p := p) hm j, h]

theorem Collected.record (h : Collected p m arrived entry) (hm : 8 ∣ m) (hdf : p.dontFragment = false)
    (hq : p.Cut m q) : Collected p m (arrived ++ [q]) (entry.record q) := by
  obtain ⟨j, hj, rfl⟩ := hq
  have hoffset := IPv4Packet.piece_offset (p := p) hm j
  have hlast := IPv4Packet.piece_last_iff (m := m) hdf hj
  have hlen := IPv4Packet.length_piece (p := p) m (j * m)
  refine ⟨?_, ?_, ?_, ?_, ?_⟩
  · intro head hhead
    cases hentry : entry.header with
    | none =>
      simp only [FragmentSet.record, hentry, Option.orElse_none, Option.some.injEq] at hhead
      exact ⟨j, hj, hhead.symm⟩
    | some first =>
      simp only [FragmentSet.record, hentry, Option.orElse_some, Option.some.injEq] at hhead
      exact hhead ▸ h.header first hentry
  · intro t ht
    simp only [FragmentSet.record, hoffset] at ht
    split_ifs at ht with hmf
    · have := hlast.mp hmf
      have := Option.some.inj ht
      omega
    · exact h.total t ht
  · intro i hi hend hmem
    simp only [FragmentSet.record, hoffset]
    split_ifs with hmf
    · have := hlast.mp hmf
      congr 1
      omega
    · rcases List.mem_append.mp hmem with hmem | hmem
      · exact h.last i hi hend hmem
      · -- the last piece has no "more fragments"
        have hij := piece_offset_inj hm (List.mem_singleton.mp hmem)
        exact absurd (hlast.mpr (by omega)) hmf
  · intro offset data hlookup
    simp only [FragmentSet.record, hoffset] at hlookup
    by_cases heq : offset = j * m
    · rw [heq, AList.lookup_insert] at hlookup
      exact ⟨j, hj, by simp, heq, (Option.some.inj hlookup).symm⟩
    · rw [AList.lookup_insert_ne heq] at hlookup
      obtain ⟨i, hi, hmem, hrest⟩ := h.sound offset data hlookup
      exact ⟨i, hi, List.mem_append_left _ hmem, hrest⟩
  · intro i hi hmem
    simp only [FragmentSet.record, hoffset]
    by_cases heq : i * m = j * m
    · rw [heq, AList.lookup_insert]
    · rw [AList.lookup_insert_ne heq]
      rcases List.mem_append.mp hmem with hmem | hmem
      · exact h.complete i hi hmem
      · exact absurd (piece_offset_inj hm (List.mem_singleton.mp hmem)) heq

theorem Collected.partOf (h : Collected p m arrived entry) {item : Nat × Bytes}
    (hitem : item ∈ entry.ordered) : Pieces.PartOf p.payload item := by
  obtain ⟨j, hj, -, hoffset, hdata⟩ := h.sound _ _ (mem_ordered.mp hitem)
  have hlen := IPv4Packet.length_piece (p := p) m (j * m)
  rw [Pieces.PartOf, hoffset, hdata]
  refine ⟨by omega, ?_⟩
  change (p.payload.drop (j * m)).take m = (p.payload.drop (j * m)).take _
  rw [hlen, List.take_eq_take_iff, List.length_drop]
  omega

theorem Collected.tryComplete_of_missing (h : Collected p m arrived entry) {j : Nat}
    (hj : j * m < p.payload.length) (hmissing : p.piece m (j * m) ∉ arrived) : entry.tryComplete = none := by
  apply tryComplete_eq_none (x := j * m)
  · intro t ht
    rw [h.total t ht]
    exact hj
  · rintro item hitem ⟨hle, hlt⟩
    obtain ⟨i, hi, hmem, hoffset, hdata⟩ := h.sound _ _ (mem_ordered.mp hitem)
    have hlen := IPv4Packet.length_piece (p := p) m (i * m)
    rw [hoffset] at hle hlt
    rw [hdata] at hlt
    -- `i * m ≤ j * m < i * m + m`
    have hij : i = j := by
      have hm : 0 < m := by omega
      have hle' : i ≤ j := Nat.le_of_mul_le_mul_right hle hm
      have hlt' : j < i + 1 := by
        apply Nat.lt_of_mul_lt_mul_right (a := m)
        rw [Nat.succ_mul]
        omega
      omega
    exact hmissing (hij ▸ hmem)

theorem Collected.tryComplete_of_all (h : Collected p m arrived entry) {head : IPv4Packet}
    (hhead : entry.header = some head) (hm : 0 < m) (hpos : 0 < p.payload.length)
    (hall : ∀ j, j * m < p.payload.length → p.piece m (j * m) ∈ arrived) :
    entry.tryComplete = some
      { src := p.src, dst := p.dst, protocol := p.protocol, payload := p.payload, ttl := p.ttl,
        identification := p.identification, dscp := p.dscp } := by
  -- the number of the piece in which a position lies
  have hpiece : ∀ x < p.payload.length, x / m * m ≤ x ∧ x < x / m * m + m := by
    intro x _
    have hmod := Nat.div_add_mod x m
    have hlt := Nat.mod_lt x hm
    rw [Nat.mul_comm] at hmod
    omega
  have htotal : entry.totalLength = some p.payload.length := by
    obtain ⟨hle, hlt⟩ := hpiece (p.payload.length - 1) (by omega)
    exact h.last ((p.payload.length - 1) / m) (by omega) (by omega) (hall _ (by omega))
  have hcovered : ∀ x < p.payload.length, ∃ item ∈ entry.ordered, Pieces.Holds item x := by
    intro x hx
    obtain ⟨hle, hlt⟩ := hpiece x hx
    have hlen := IPv4Packet.length_piece (p := p) m (x / m * m)
    refine ⟨(x / m * m, (p.piece m (x / m * m)).payload),
      mem_ordered.mpr (h.complete _ (by omega) (hall _ (by omega))), hle, ?_⟩
    change x < x / m * m + (p.piece m (x / m * m)).payload.length
    omega
  obtain ⟨j, -, rfl⟩ := h.header head hhead
  rw [tryComplete_eq_some htotal hhead hpos (fun item hitem => h.partOf hitem) hcovered]
  rfl

end FragmentSet

end MiniTcp
