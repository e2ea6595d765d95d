import MiniTcp.Net.Ipv4.Completion

/-!
# What a rebuilt datagram can look like

The buffer begins with the recorded length. A piece that begins beyond the end is cut by the distance, by a
slice that counts from its back, and the rest of it is appended (`length_fill`). So a rebuilt payload has the
recorded length, and fits into a datagram with its header, exactly when no piece of the completed set reaches
that far and the end leaves room (`legal_iff_contained`).
-/

namespace MiniTcp

/-- How many bytes a piece that begins beyond the end appends to the buffer. -/
def excess (total : Nat) (item : Nat × Bytes) : Nat :=
  if item.1 ≤ total then 0 else item.2.length - (item.1 - total)

theorem excess_eq_zero_iff {total : Nat} {item : Nat × Bytes} :
    excess total item = 0 ↔ (total < item.1 → item.2.length ≤ item.1 - total) := by
  unfold excess
  split_ifs <;> omega

theorem length_sliceTo (data : Bytes) (stop : Int) :
    (sliceTo data stop).length = if 0 ≤ stop then min stop.toNat data.length
      else (data.length + stop).toNat := by
  unfold sliceTo
  split_ifs
  · simp
  · rw [List.length_take]
    omega

theorem length_sliceAssign {total : Nat} {buffer : Bytes} (offset : Nat) (data : Bytes)
    (hle : total ≤ buffer.length) :
    (sliceAssign buffer offset (min (offset + data.length) total)
      (sliceTo data ((min (offset + data.length) total : Nat) - offset : Int))).length =
      buffer.length + excess total (offset, data) := by
  simp only [sliceAssign, excess, List.length_append, List.length_take, List.length_drop, length_sliceTo]
  split_ifs <;> omega

theorem length_fill {total : Nat} {items : List (Nat × Bytes)} {buffer : Bytes} (hle : total ≤ buffer.length) :
    (fill total items buffer).length = buffer.length + (items.map (excess total)).sum := by
  induction items generalizing buffer with
  | nil => simp [fill]
  | cons item rest ih =>
    obtain ⟨offset, data⟩ := item
    have hlen := length_sliceAssign offset data hle
    rw [fill, ih (by omega), hlen]
    simp only [List.map_cons, List.sum_cons]
    omega

theorem length_fill_eq_iff {total : Nat} {items : List (Nat × Bytes)} :
    (fill total items (List.replicate total 0)).length = total ↔
      ∀ item ∈ items, total < item.1 → item.2.length ≤ item.1 - total := by
  rw [length_fill (by simp), List.length_replicate, Nat.add_eq_left,
    List.sum_eq_zero_iff_forall_eq_nat, List.forall_mem_map]
  exact forall₂_congr fun item _ => excess_eq_zero_iff

namespace Feed

/-- A packet that comes back from a set has as many bytes as the set has recorded, and is not longer than a
datagram can be. -/
def Legal (s : Feed) (e : IPv4Packet × Time) : Prop :=
  e.1.isFragmented = true → ∀ rebuilt, (s.reassembler.add e.1 e.2).2 = some rebuilt →
    (s.reassembler.joined e.1 e.2).totalLength = some rebuilt.payload.length ∧ rebuilt.totalLength ≤ MAX_PACKET

/-- If the fragment completes its set, no piece begins beyond the end by less than its own length, and the end
leaves room for a header. -/
def Contained (s : Feed) (e : IPv4Packet × Time) : Prop :=
  s.reassembler.Admits e.1 e.2 → ∀ total, (s.reassembler.kept e.1 e.2).CompletedBy e.1 total →
    (∀ item, (s.reassembler.kept e.1 e.2).Beside e.1 item → total < item.1 → item.2.length ≤ item.1 - total) ∧
    total + HEADER_LEN ≤ MAX_PACKET

theorem legal_iff (s : Feed) (e : IPv4Packet × Time) : Legal s e ↔ Contained s e := by
  by_cases hadmits : s.reassembler.Admits e.1 e.2
  · rcases Reassembler.add_of_admits hadmits with ⟨total, rebuilt, hcompleted, hadd, -, hoptions, hpayload⟩ |
      ⟨hopen, hadd, -⟩
    · have hlength : rebuilt.payload.length = total ↔ ∀ item, (s.reassembler.kept e.1 e.2).Beside e.1 item →
          total < item.1 → item.2.length ≤ item.1 - total := by
        rw [hpayload, length_fill_eq_iff, Reassembler.joined_eq_record]
        simp only [FragmentSet.mem_ordered_record]
      have htotal : rebuilt.totalLength = HEADER_LEN + rebuilt.payload.length := by
        rw [IPv4Packet.totalLength, IPv4Packet.headerLength_of_no_options hoptions, HEADER_LEN]
      constructor
      · rintro h - t hcompleted'
        obtain rfl : total = t := by simpa [hcompleted.ends] using hcompleted'.ends
        obtain ⟨hrecorded, hfits⟩ := h hadmits.1 rebuilt hadd
        have heq : total = rebuilt.payload.length := by
          simpa [Reassembler.joined_eq_record, FragmentSet.record_totalLength, hcompleted.ends] using hrecorded
        exact ⟨hlength.mp heq.symm, by omega⟩
      · intro h _ rebuilt' hadd'
        obtain rfl : rebuilt = rebuilt' := by simpa [hadd] using hadd'
        obtain ⟨hpieces, hroom⟩ := h hadmits total hcompleted
        have heq := hlength.mpr hpieces
        rw [Reassembler.joined_eq_record, FragmentSet.record_totalLength, hcompleted.ends, heq]
        exact ⟨rfl, by omega⟩
    · refine iff_of_true (fun _ rebuilt hsome => ?_) fun _ total hcompleted => absurd hcompleted (hopen total)
      simp [hadd] at hsome
  · refine iff_of_true (fun hfrag rebuilt hsome => ?_) fun h => absurd h hadmits
    simp [Reassembler.add_of_not_admits hfrag hadmits] at hsome

/-- Whatever fragments arrive, the packets that come back from sets are legal exactly when every set is
contained in its datagram when it is completed. -/
theorem legal_iff_contained (s : Feed) (es : List (IPv4Packet × Time)) :
    feeding.Meets Legal s es ↔ feeding.Meets Contained s es :=
  feeding.meets_iff_meets (Q := fun _ => True) (fun _ _ _ _ _ => trivial) (fun s e _ _ => legal_iff s e)
    (feeding.meets_true s es) trivial

/-- The last fragment ends the datagram at 17, and an older piece begins at 24. -/
def spillingRun : List (IPv4Packet × Time) :=
  [(sevens 0 8 true, 0), (sevens 8 32 true, 1), (sevens 24 24 true, 2), (sevens 16 1 false, 3)]

/-- The piece is cut by 7 bytes and the other 17 are appended. -/
theorem spillingRun_not_legal :
    (feeding.run { reassembler := {} } spillingRun).returned.map (fun p => p.payload.length) = [34] ∧
      ¬ feeding.Meets Legal { reassembler := {} } spillingRun := by
  refine ⟨by decide +kernel, ?_⟩
  rintro ⟨-, -, -, hlast, -⟩
  let s := feeding.run { reassembler := {} } (spillingRun.take 3)
  have hrecorded : (s.reassembler.joined (sevens 16 1 false) 3).totalLength = some 17 := by decide +kernel
  have hreturned : (s.reassembler.add (sevens 16 1 false) 3).2.map (fun p => p.payload.length) = some 34 := by
    decide +kernel
  obtain ⟨rebuilt, hadd, hlength⟩ := Option.map_eq_some_iff.mp hreturned
  have hlegal := (hlast rfl rebuilt hadd).1
  rw [hlength] at hlegal
  exact absurd (hrecorded.symm.trans hlegal) (by decide)

end Feed

end MiniTcp
