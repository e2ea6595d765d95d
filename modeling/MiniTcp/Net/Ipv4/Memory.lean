import MiniTcp.Net.Ipv4.Completion
import Mathlib.Algebra.Order.BigOperators.Group.List
import Mathlib.Algebra.Order.Ring.Nat

/-!
# What a reassembler holds

A new set is begun only while fewer than `max_pending` are there, so their number is bounded whatever arrives.
Their bytes are not: pieces of one set may overlap, and each offset keeps its own. They are bounded while every
fragment that is kept leaves its set with no more bytes than a datagram can have (`memory_bounded`).
-/

namespace AList

variable {α : Type} {β : α → Type} [DecidableEq α] {d : AList β} {a : α} {b : β a} {bound : Nat}

theorem entries_erase (d : AList β) (a : α) : (d.erase a).entries = d.entries.kerase a := rfl

theorem length_erase_le (d : AList β) (a : α) : (d.erase a).entries.length ≤ d.entries.length :=
  (List.kerase_sublist a d.entries).length_le

theorem length_insert_le (hle : d.entries.length ≤ bound)
    (hroom : d.lookup a = none → d.entries.length < bound) : (d.insert a b).entries.length ≤ bound := by
  rw [entries_insert, List.length_cons]
  by_cases hmem : a ∈ d.entries.keys
  · have hkeys : (List.kerase a d.entries).keys.length + 1 = d.entries.keys.length := by
      rw [List.keys_kerase, List.length_erase_of_mem hmem]
      exact Nat.sub_add_cancel (List.length_pos_of_mem hmem)
    simp only [List.keys, List.length_map] at hkeys
    omega
  · have hlen := (List.kerase_sublist a d.entries).length_le
    have hlt := hroom (lookup_eq_none.mpr hmem)
    omega

theorem erase_insert (d : AList β) (a : α) (b : β a) : (d.insert a b).erase a = d.erase a := by
  apply ext
  simp [entries_erase, List.kerase_cons_eq]

end AList

namespace MiniTcp

namespace FragmentSet

/-- The payload bytes in the pieces of the set. -/
def heldBytes (entry : FragmentSet) : Nat := (entry.pieces.entries.map fun item => item.2.length).sum

/-- The payload bytes of the fragment and of the pieces at other offsets. -/
def bytesWith (entry : FragmentSet) (packet : IPv4Packet) : Nat :=
  packet.payload.length + ((entry.pieces.erase packet.item.1).entries.map fun item => item.2.length).sum

theorem heldBytes_record (entry : FragmentSet) (packet : IPv4Packet) :
    (entry.record packet).heldBytes = entry.bytesWith packet := by
  simp [heldBytes, bytesWith, record, IPv4Packet.item, AList.entries_erase]

end FragmentSet

namespace Reassembler

variable {r : Reassembler} {packet : IPv4Packet} {now : Time}

def pending (r : Reassembler) : Nat := r.sets.entries.length

/-- The payload bytes in all sets. -/
def heldBytes (r : Reassembler) : Nat := (r.sets.entries.map fun item => item.2.heldBytes).sum

/-- No set has more bytes than a datagram can have. -/
def SetsFit (r : Reassembler) : Prop := ∀ item ∈ r.sets.entries, item.2.heldBytes ≤ MAX_PACKET

theorem SetsFit.heldBytes_le (h : r.SetsFit) : r.heldBytes ≤ r.pending * MAX_PACKET := by
  have hle : ∀ n ∈ r.sets.entries.map fun item => item.2.heldBytes, n ≤ MAX_PACKET :=
    List.forall_mem_map.mpr fun item hitem => h item hitem
  have hsum := List.sum_le_card_nsmul _ MAX_PACKET hle
  simpa [heldBytes, pending] using hsum

theorem expire_sublist (r : Reassembler) (now : Time) :
    (r.expire now).sets.entries.Sublist r.sets.entries := by
  rw [expire]
  generalize r.stale now = keys
  generalize r.sets = sets
  induction keys generalizing sets with
  | nil => simp
  | cons key keys ih =>
    rw [List.foldl_cons]
    exact (ih (sets.erase key)).trans (List.kerase_sublist key sets.entries)

theorem add_maxPending (r : Reassembler) (packet : IPv4Packet) (now : Time) :
    (r.add packet now).1.maxPending = r.maxPending := by
  unfold add
  dsimp only
  split_ifs
  · rfl
  · rfl
  · split <;> rfl

theorem pending_add_le (h : r.pending ≤ r.maxPending) : (r.add packet now).1.pending ≤ r.maxPending := by
  have hexpire : (r.expire now).sets.entries.length ≤ r.maxPending :=
    (r.expire_sublist now).length_le.trans h
  by_cases hadmits : r.Admits packet now
  · have hinsert : ((r.expire now).sets.insert packet.key (r.joined packet now)).entries.length ≤ r.maxPending :=
      AList.length_insert_le hexpire hadmits.2
    rcases add_of_admits hadmits with ⟨_, _, -, -, hsets, -⟩ | ⟨-, -, hsets⟩
    · rw [pending, hsets]
      exact (AList.length_erase_le _ _).trans hinsert
    · rw [pending, hsets]
      exact hinsert
  · cases hfrag : packet.isFragmented with
    | false => simpa [add, hfrag] using h
    | true =>
      rw [pending, (add_of_not_admits hfrag hadmits).2]
      exact hexpire

/-- Every set stays within a datagram exactly when the fragment leaves its own there, unless it completes it. -/
theorem setsFit_add_iff (h : r.SetsFit) : (r.add packet now).1.SetsFit ↔
    (r.Admits packet now → (∀ total, ¬ (r.kept packet now).CompletedBy packet total) →
      (r.kept packet now).bytesWith packet ≤ MAX_PACKET) := by
  have hexpire : ∀ item ∈ (r.expire now).sets.entries, item.2.heldBytes ≤ MAX_PACKET :=
    fun item hitem => h item ((r.expire_sublist now).subset hitem)
  by_cases hadmits : r.Admits packet now
  · rcases add_of_admits hadmits with ⟨total, _, hcompleted, -, hsets, -⟩ | ⟨hopen, -, hsets⟩
    · refine iff_of_true ?_ fun _ hopen => absurd hcompleted (hopen total)
      intro item hitem
      rw [hsets, AList.erase_insert] at hitem
      exact hexpire item ((List.kerase_sublist _ _).subset hitem)
    · have hjoined : (r.joined packet now).heldBytes = (r.kept packet now).bytesWith packet :=
        FragmentSet.heldBytes_record _ _
      simp only [SetsFit, hsets, AList.entries_insert, List.forall_mem_cons, hjoined, hadmits, hopen,
        not_false_eq_true, implies_true, forall_const, and_iff_left_iff_imp]
      exact fun _ item hitem => hexpire item ((List.kerase_sublist _ _).subset hitem)
  · refine iff_of_true ?_ fun h => absurd h hadmits
    cases hfrag : packet.isFragmented with
    | false => simpa [add, hfrag] using h
    | true =>
      rw [SetsFit, (add_of_not_admits hfrag hadmits).2]
      exact hexpire

end Reassembler

namespace Feed

variable {s : Feed} {es : List (IPv4Packet × Time)}

/-- A fragment that is kept leaves its set with no more bytes than a datagram can have. -/
def Fits (s : Feed) (e : IPv4Packet × Time) : Prop :=
  s.reassembler.Admits e.1 e.2 → (∀ total, ¬ (s.reassembler.kept e.1 e.2).CompletedBy e.1 total) →
    (s.reassembler.kept e.1 e.2).bytesWith e.1 ≤ MAX_PACKET

/-- Whatever arrives, no more sets are pending than the cap allows. No set ever has more bytes than a datagram
can have exactly in the runs in which every fragment that is kept leaves its set so, and then all sets together
have no more than the cap allows for. -/
theorem memory_bounded (hinit : feeding.init s) :
    feeding.Always (fun s' => s'.reassembler.pending ≤ s.reassembler.maxPending) s es ∧
      (feeding.Always (fun s' => s'.reassembler.SetsFit) s es ↔ feeding.Meets Fits s es) ∧
      (feeding.Meets Fits s es →
        feeding.Always (fun s' => s'.reassembler.heldBytes ≤ s.reassembler.maxPending * MAX_PACKET) s es) := by
  have hcap : ∀ s' e, s'.reassembler.maxPending = s.reassembler.maxPending ∧
      s'.reassembler.pending ≤ s.reassembler.maxPending →
      (feeding.next s' e).reassembler.maxPending = s.reassembler.maxPending ∧
        (feeding.next s' e).reassembler.pending ≤ s.reassembler.maxPending := by
    rintro s' e ⟨hmax, hpending⟩
    rw [← hmax] at hpending ⊢
    exact ⟨Reassembler.add_maxPending _ _ _, Reassembler.pending_add_le hpending⟩
  have hcap₀ : s.reassembler.pending ≤ s.reassembler.maxPending := by
    simp [Reassembler.pending, hinit.1]
  have hfit₀ : s.reassembler.SetsFit := by simp [Reassembler.SetsFit, hinit.1]
  have hstep : ∀ s' e, s'.reassembler.SetsFit → ((feeding.next s' e).reassembler.SetsFit ↔ Fits s' e) :=
    fun s' e h => Reassembler.setsFit_add_iff h
  refine ⟨?_, ?_, fun hfits => ?_⟩
  · exact feeding.always_of_meets (fun s' h => h.2) (fun s' e h _ => hcap s' e h) ⟨rfl, hcap₀⟩
      (feeding.meets_true s es)
  · exact feeding.always_iff_meets (Q := fun _ => True) (fun _ _ _ _ _ _ => trivial)
      (fun s' e _ h _ => hstep s' e h) (feeding.meets_true s es) trivial hfit₀
  · refine feeding.always_of_meets (P := fun s' => (s'.reassembler.maxPending = s.reassembler.maxPending ∧
      s'.reassembler.pending ≤ s.reassembler.maxPending) ∧ s'.reassembler.SetsFit) ?_ ?_ ⟨⟨rfl, hcap₀⟩, hfit₀⟩ hfits
    · rintro s' ⟨⟨-, hpending⟩, hfit⟩
      exact hfit.heldBytes_le.trans (Nat.mul_le_mul_right _ hpending)
    · rintro s' e ⟨h, hfit⟩ he
      exact ⟨hcap s' e h, (hstep s' e hfit).mpr he⟩

/-- A reassembler with room for one set. -/
def narrow : Feed := { reassembler := { maxPending := 1 } }

/-- Three fragments of one datagram, each of which overlaps the one before. -/
def overlappingThree : List (IPv4Packet × Time) :=
  [(sevens 0 16 true, 0), (sevens 8 16 true, 1), (sevens 16 16 true, 2)]

theorem memory_bounded_narrow :
    (feeding.run narrow overlappingThree).reassembler.heldBytes = 48 ∧
      feeding.Always (fun s => s.reassembler.heldBytes ≤ narrow.reassembler.maxPending * MAX_PACKET) narrow
        overlappingThree := by
  refine ⟨by decide +kernel, (memory_bounded ⟨rfl, rfl, rfl⟩).2.2 ⟨fun _ _ => ?_, fun _ _ => ?_, fun _ _ => ?_,
    trivial⟩⟩
  · decide +kernel
  · decide +kernel
  · decide +kernel

theorem parse_eq_sevens {offset length : Nat} (more : Bool) (hoffset : offset / 8 ≤ FRAG_OFFSET_MASK)
    (hlength : 20 + length ≤ MAX_PACKET) : ∃ data, IPv4Packet.parse data = .ok (sevens offset length more) := by
  have hflags : (if more then FLAG_MF else 0) &&& FLAG_MASK = if more then FLAG_MF else 0 := by
    cases more <;> decide
  have hwire : (sevens offset length more).InWireRange := by
    constructor <;> simp [sevens, IPv4Packet.totalLength, IPv4Packet.headerLength_of_no_options, *]
  obtain ⟨data, -, -, hparse⟩ := hwire.parse_toBytes []
  exact ⟨_, hparse⟩

theorem heldBytes_of_two (n m : Nat) :
    (feeding.run narrow [(sevens 0 n true, 0), (sevens 8 m true, 0)]).reassembler.heldBytes = n + m := by
  have hfrag : ∀ offset length, (sevens offset length true).isFragmented = true := by
    simp [IPv4Packet.isFragmented, sevens, FLAG_MF]
  have hmore : ∀ offset length, ¬ (sevens offset length true).IsLast := by
    simp [IPv4Packet.IsLast, sevens, FLAG_MF]
  have hkey : (sevens 8 m true).key = (sevens 0 n true).key := rfl
  obtain ⟨hkept, hexpire, hadmits⟩ := Reassembler.after_first Nat.one_pos (hfrag 0 n) (hmore 0 n) hkey 0
  change ((narrow.reassembler.add (sevens 0 n true) 0).1.add (sevens 8 m true) 0).1.heldBytes = n + m
  generalize hentry : ({ firstSeen := 0 } : FragmentSet).record (sevens 0 n true) = entry at hkept hexpire
  have hends : entry.endWith (sevens 8 m true) = none := by
    rw [← hentry, FragmentSet.endWith, if_neg (hmore 8 m)]
    exact if_neg (hmore 0 n)
  rcases Reassembler.add_of_admits (hadmits (hfrag 8 m)) with ⟨total, _, hcompleted, -⟩ | ⟨-, -, hsets⟩
  · rw [hkept] at hcompleted
    exact absurd (hends.symm.trans hcompleted.ends) (by simp)
  · have herase : ((entry.pieces.erase (sevens 8 m true).item.1).entries.map fun item => item.2.length).sum = n := by
      simp [← hentry, FragmentSet.record, sevens, IPv4Packet.item, AList.entries_erase]
    have hlength : (sevens 8 m true).payload.length = m := by simp [sevens]
    rw [Reassembler.heldBytes, narrow, hsets, hexpire, Reassembler.joined_eq_record, hkept, hkey]
    simp only [AList.insert_singleton_eq, AList.singleton_entries, List.map_cons, List.map_nil, List.sum_cons,
      List.sum_nil, FragmentSet.heldBytes_record, FragmentSet.bytesWith, herase, hlength]
    omega

/-- Together they have more bytes than a datagram, though both come from the wire. -/
theorem sevens_exceed :
    (∃ data, IPv4Packet.parse data = .ok (sevens 0 40000 true)) ∧
      (∃ data, IPv4Packet.parse data = .ok (sevens 8 40000 true)) ∧
      ¬ feeding.Always (fun s => s.reassembler.heldBytes ≤ narrow.reassembler.maxPending * MAX_PACKET) narrow
        [(sevens 0 40000 true, 0), (sevens 8 40000 true, 0)] := by
  refine ⟨parse_eq_sevens true (by decide) (by decide), parse_eq_sevens true (by decide) (by decide), ?_⟩
  rintro ⟨-, -, hlast⟩
  have hheld : (feeding.run narrow [(sevens 0 40000 true, 0), (sevens 8 40000 true, 0)]).reassembler.heldBytes ≤
      narrow.reassembler.maxPending * MAX_PACKET := hlast
  rw [heldBytes_of_two] at hheld
  simp [narrow, MAX_PACKET] at hheld

end Feed

end MiniTcp
