import MiniTcp.Lib.Machine
import MiniTcp.Net.Ipv4.Reassembly

/-!
# Fragmentation and reassembly are inverse

A reassembler is fed any datagrams. One key does not disturb another, and what it returns carries the key
of what arrived last (`Labelled`). So as long as a piece of a datagram is missing, its set is `Collected`,
and the piece that completes it brings the datagram back (`Feed.restores_fragmented`).
-/

namespace MiniTcp

namespace Reassembler

variable {r : Reassembler} {packet : IPv4Packet} {now : Time} {key : FragmentKey} {entry : FragmentSet}

/-! ### Expiry -/

theorem lookup_foldl_erase (keys : List FragmentKey) (sets : AList fun _ : FragmentKey => FragmentSet) :
    (keys.foldl (fun sets key => sets.erase key) sets).lookup key =
      if key ∈ keys then none else sets.lookup key := by
  induction keys generalizing sets with
  | nil => rw [List.foldl_nil, if_neg List.not_mem_nil]
  | cons first keys ih =>
    rw [List.foldl_cons, ih]
    by_cases hkey : key = first
    · rw [hkey, AList.lookup_erase, ite_self, if_pos List.mem_cons_self]
    · rw [AList.lookup_erase_ne hkey]
      simp only [List.mem_cons, hkey, false_or]

theorem lookup_expire_of_not_stale (h : key ∉ r.stale now) :
    (r.expire now).sets.lookup key = r.sets.lookup key := by
  rw [expire, lookup_foldl_erase, if_neg h]

theorem lookup_of_lookup_expire (h : (r.expire now).sets.lookup key = some entry) :
    r.sets.lookup key = some entry := by
  rw [expire, lookup_foldl_erase] at h
  split_ifs at h
  exact h

/-! ### One arrival -/

/-- The set the fragment is recorded in. -/
def joined (r : Reassembler) (packet : IPv4Packet) (now : Time) : FragmentSet :=
  (((r.expire now).sets.lookup packet.key).getD { firstSeen := now }).record packet

/-- The arrival is a fragment, and its set is there or may be begun. -/
def Admits (r : Reassembler) (packet : IPv4Packet) (now : Time) : Prop :=
  packet.isFragmented = true ∧ ((r.expire now).sets.lookup packet.key = none →
    (r.expire now).sets.entries.length < r.maxPending)

theorem add_cases (r : Reassembler) (packet : IPv4Packet) (now : Time) :
    (packet.isFragmented = false ∧ r.add packet now = (r, some packet)) ∨
      (packet.isFragmented = true ∧ (r.expire now).sets.lookup packet.key = none ∧
        r.maxPending ≤ (r.expire now).sets.entries.length ∧
        (r.add packet now).1.sets = (r.expire now).sets ∧ (r.add packet now).2 = none) ∨
      (r.Admits packet now ∧ (r.joined packet now).tryComplete = none ∧
        (r.add packet now).1.sets = (r.expire now).sets.insert packet.key (r.joined packet now) ∧
        (r.add packet now).2 = none) ∨
      ∃ rebuilt, r.Admits packet now ∧ (r.joined packet now).tryComplete = some rebuilt ∧
        (r.add packet now).1.sets =
          ((r.expire now).sets.insert packet.key (r.joined packet now)).erase packet.key ∧
        (r.add packet now).2 = some rebuilt := by
  unfold add
  cases hfrag : packet.isFragmented with
  | false => exact .inl ⟨rfl, rfl⟩
  | true =>
    right
    rw [if_neg (by simp)]
    dsimp only
    split_ifs with hfull
    · exact .inl ⟨rfl, hfull.1, hfull.2, rfl, rfl⟩
    · right
      have hadmits : r.Admits packet now := ⟨hfrag, fun hnone => not_le.mp fun hle => hfull ⟨hnone, hle⟩⟩
      rw [← joined]
      cases htry : (r.joined packet now).tryComplete with
      | none => exact .inl ⟨hadmits, rfl, rfl, rfl⟩
      | some rebuilt => exact .inr ⟨rebuilt, hadmits, rfl, rfl, rfl⟩

theorem lookup_add_of_ne (hne : key ≠ packet.key) (h : key ∉ r.stale now) :
    (r.add packet now).1.sets.lookup key = r.sets.lookup key := by
  rw [← lookup_expire_of_not_stale h]
  rcases r.add_cases packet now with ⟨-, hadd⟩ | ⟨-, -, -, hsets, -⟩ | ⟨-, -, hsets, -⟩ | ⟨_, -, -, hsets, -⟩
  · rw [hadd, lookup_expire_of_not_stale h]
  · rw [hsets]
  · rw [hsets, AList.lookup_insert_ne hne]
  · rw [hsets, AList.lookup_erase_ne hne, AList.lookup_insert_ne hne]

/-- The header kept in a set has the key of the set. -/
def Labelled (r : Reassembler) : Prop :=
  ∀ key entry, r.sets.lookup key = some entry → ∀ head, entry.header = some head → head.key = key

theorem Labelled.joined (h : r.Labelled) {head : IPv4Packet}
    (hhead : (r.joined packet now).header = some head) : head.key = packet.key := by
  rw [Reassembler.joined] at hhead
  cases hlookup : (r.expire now).sets.lookup packet.key with
  | none =>
    rw [hlookup] at hhead
    exact congrArg IPv4Packet.key (Option.some.inj hhead).symm
  | some entry =>
    rw [hlookup, Option.getD_some] at hhead
    cases hentry : entry.header with
    | none =>
      simp only [FragmentSet.record, hentry, Option.orElse_none, Option.some.injEq] at hhead
      exact congrArg IPv4Packet.key hhead.symm
    | some first =>
      simp only [FragmentSet.record, hentry, Option.orElse_some, Option.some.injEq] at hhead
      exact hhead ▸ h _ _ (lookup_of_lookup_expire hlookup) _ hentry

theorem header_of_tryComplete {rebuilt : IPv4Packet} (h : entry.tryComplete = some rebuilt) :
    ∃ head, entry.header = some head ∧ rebuilt.key = head.key ∧ rebuilt.ttl = head.ttl ∧
      rebuilt.dscp = head.dscp ∧ rebuilt.flags = 0 ∧ rebuilt.fragmentOffset = 0 := by
  rw [FragmentSet.tryComplete] at h
  split at h
  · rename_i head _ _ hhead
    split_ifs at h
    refine ⟨head, hhead, ?_⟩
    rw [← Option.some.inj h]
    exact ⟨rfl, rfl, rfl, rfl, rfl⟩
  · cases h

theorem Labelled.add (h : r.Labelled) (packet : IPv4Packet) (now : Time) :
    (r.add packet now).1.Labelled ∧
      ∀ rebuilt, (r.add packet now).2 = some rebuilt → rebuilt.key = packet.key := by
  have hexpire : ∀ key entry, (r.expire now).sets.lookup key = some entry →
      ∀ head, entry.header = some head → head.key = key :=
    fun key entry hlookup => h key entry (lookup_of_lookup_expire hlookup)
  have hinsert : ∀ key entry,
      ((r.expire now).sets.insert packet.key (r.joined packet now)).lookup key = some entry →
      ∀ head, entry.header = some head → head.key = key := by
    intro key entry hlookup head hhead
    by_cases hkey : key = packet.key
    · rw [hkey, AList.lookup_insert] at hlookup
      rw [hkey]
      exact h.joined (Option.some.inj hlookup ▸ hhead)
    · rw [AList.lookup_insert_ne hkey] at hlookup
      exact hexpire key entry hlookup head hhead
  rcases r.add_cases packet now with ⟨-, hadd⟩ | ⟨-, -, -, hsets, hnone⟩ | ⟨-, -, hsets, hnone⟩ |
    ⟨rebuilt, -, htry, hsets, hsome⟩
  · rw [hadd]
    refine ⟨h, ?_⟩
    rintro rebuilt ⟨⟩
    rfl
  · rw [Labelled, hsets, hnone]
    exact ⟨hexpire, fun _ hnone => by cases hnone⟩
  · rw [Labelled, hsets, hnone]
    exact ⟨hinsert, fun _ hnone => by cases hnone⟩
  · rw [Labelled, hsets, hsome]
    constructor
    · intro key entry hlookup
      by_cases hkey : key = packet.key
      · rw [hkey, AList.lookup_erase] at hlookup
        cases hlookup
      · rw [AList.lookup_erase_ne hkey] at hlookup
        exact hinsert key entry hlookup
    · intro other hother
      obtain ⟨head, hhead, hkey, -⟩ := header_of_tryComplete htry
      rw [← Option.some.inj hother, hkey]
      exact h.joined hhead

end Reassembler

/-! ### Feeding -/

/-- A reassembler, what has arrived at it and what it has returned. -/
structure Feed where
  reassembler : Reassembler
  arrived : List IPv4Packet := []
  returned : List IPv4Packet := []

namespace Feed

/-- A datagram arrives at a time. -/
def add (s : Feed) (e : IPv4Packet × Time) : Feed :=
  { reassembler := (s.reassembler.add e.1 e.2).1
    arrived := s.arrived ++ [e.1]
    returned := s.returned ++ (s.reassembler.add e.1 e.2).2.toList }

/-- A fresh reassembler that is fed. -/
def feeding : Machine Feed (IPv4Packet × Time) where
  init s := s.reassembler.sets = ∅ ∧ s.arrived = [] ∧ s.returned = []
  next := add

variable {p : IPv4Packet} {pieces : List IPv4Packet} {m : Nat} {s : Feed} {e : IPv4Packet × Time}

/-- What arrives is a piece of `p` or has another key, the set of `p` is not out of time, and there is room
for it when it begins. -/
structure Undisturbed (p : IPv4Packet) (pieces : List IPv4Packet) (s : Feed) (e : IPv4Packet × Time) :
    Prop where
  own : e.1 ∈ pieces ∨ e.1.key ≠ p.key
  inTime : p.key ∉ s.reassembler.stale e.2
  room : e.1.key = p.key → (s.reassembler.expire e.2).sets.lookup p.key = none →
    (s.reassembler.expire e.2).sets.entries.length < s.reassembler.maxPending

/-- `rebuilt` is `p` again, with no fragment flags. -/
structure Restores (p rebuilt : IPv4Packet) : Prop where
  src : rebuilt.src = p.src
  dst : rebuilt.dst = p.dst
  protocol : rebuilt.protocol = p.protocol
  payload : rebuilt.payload = p.payload
  ttl : rebuilt.ttl = p.ttl
  identification : rebuilt.identification = p.identification
  dscp : rebuilt.dscp = p.dscp
  isFragmented : rebuilt.isFragmented = false
  dontFragment : rebuilt.dontFragment = false

/-- A piece of `p` is missing: the set of `p` holds what has arrived, and nothing of `p` was returned. -/
structure Gathering (p : IPv4Packet) (m : Nat) (s : Feed) : Prop where
  labelled : s.reassembler.Labelled
  returned : ∀ rebuilt ∈ s.returned, rebuilt.key ≠ p.key
  collected : ∀ now, FragmentSet.Collected p m s.arrived
    ((s.reassembler.sets.lookup p.key).getD { firstSeen := now })

theorem gathering_init (h : feeding.init s) : Gathering p m s := by
  obtain ⟨hsets, harrived, hreturned⟩ := h
  refine ⟨?_, ?_, ?_⟩
  · intro key entry hlookup
    rw [hsets, AList.lookup_empty] at hlookup
    cases hlookup
  · intro rebuilt hmem
    rw [hreturned] at hmem
    cases hmem
  · intro now
    rw [hsets, AList.lookup_empty, harrived]
    exact FragmentSet.collected_fresh now fun q hq => absurd hq List.not_mem_nil

theorem Gathering.add_other (h : Gathering p m s) (hother : e.1.key ≠ p.key)
    (htime : p.key ∉ s.reassembler.stale e.2) : Gathering p m (s.add e) := by
  obtain ⟨hlabelled, hkey⟩ := h.labelled.add e.1 e.2
  have hcut : ¬ p.Cut m e.1 := by
    rintro ⟨j, -, hq⟩
    exact hother (by rw [hq, IPv4Packet.piece_key])
  refine ⟨hlabelled, ?_, ?_⟩
  · intro rebuilt hmem
    rcases List.mem_append.mp hmem with hmem | hmem
    · exact h.returned rebuilt hmem
    · rw [hkey rebuilt (Option.mem_toList.mp hmem)]
      exact hother
  · intro now
    change FragmentSet.Collected p m (s.arrived ++ [e.1])
      (((s.reassembler.add e.1 e.2).1.sets.lookup p.key).getD { firstSeen := now })
    rw [Reassembler.lookup_add_of_ne hother.symm htime]
    exact (h.collected now).append_other hcut

theorem Gathering.joined (h : Gathering p m s) (hcut : p.Cut m e.1) (hm : 8 ∣ m)
    (hdf : p.dontFragment = false) (htime : p.key ∉ s.reassembler.stale e.2) :
    FragmentSet.Collected p m (s.arrived ++ [e.1]) (s.reassembler.joined e.1 e.2) := by
  obtain ⟨j, -, hq⟩ := id hcut
  have hkey : e.1.key = p.key := by rw [hq, IPv4Packet.piece_key]
  rw [Reassembler.joined, hkey, Reassembler.lookup_expire_of_not_stale htime]
  exact (h.collected e.2).record hm hdf hcut

theorem Gathering.add_piece (h : Gathering p m s) (hcut : p.Cut m e.1) (hm : 8 ∣ m)
    (hdf : p.dontFragment = false) (hfrag : e.1.isFragmented = true) (hallowed : Undisturbed p pieces s e)
    {j : Nat} (hj : j * m < p.payload.length) (hmissing : p.piece m (j * m) ∉ (s.add e).arrived) :
    Gathering p m (s.add e) ∧ (s.add e).returned = s.returned := by
  have hcollected := h.joined hcut hm hdf hallowed.inTime
  have htry := hcollected.tryComplete_of_missing hj hmissing
  have hkey : e.1.key = p.key := by
    obtain ⟨i, -, hq⟩ := hcut
    rw [hq, IPv4Packet.piece_key]
  rcases s.reassembler.add_cases e.1 e.2 with ⟨hfalse, -⟩ | ⟨-, hlookup, hfull, -⟩ | ⟨-, -, hsets, hnone⟩ |
    ⟨rebuilt, -, hsome, -⟩
  · rw [hfrag] at hfalse
    cases hfalse
  · rw [hkey] at hlookup
    have hroom := hallowed.room hkey hlookup
    omega
  · have hreturned : (s.add e).returned = s.returned := by
      rw [Feed.add, hnone]
      exact List.append_nil _
    refine ⟨⟨(h.labelled.add e.1 e.2).1, ?_, ?_⟩, hreturned⟩
    · rw [hreturned]
      exact h.returned
    · intro now
      change FragmentSet.Collected p m (s.arrived ++ [e.1])
        (((s.reassembler.add e.1 e.2).1.sets.lookup p.key).getD { firstSeen := now })
      rw [hsets, ← hkey, AList.lookup_insert]
      exact hcollected
  · rw [htry] at hsome
    cases hsome

theorem not_dontFragment_of_no_flags (h : p.flags = 0) : p.dontFragment = false := by
  rw [IPv4Packet.dontFragment, h, Nat.zero_and]
  rfl

theorem not_isFragmented_of_no_flags (h : p.flags = 0) (hoffset : p.fragmentOffset = 0) :
    p.isFragmented = false := by
  rw [IPv4Packet.isFragmented, h, hoffset, Nat.zero_and]
  rfl

theorem Gathering.add_last (h : Gathering p m s) (hcut : p.Cut m e.1) (hm : 8 ∣ m) (hpos : 0 < m)
    (hdf : p.dontFragment = false) (hfrag : e.1.isFragmented = true) (hallowed : Undisturbed p pieces s e)
    (hall : ∀ j, j * m < p.payload.length → p.piece m (j * m) ∈ (s.add e).arrived) :
    ∃ rebuilt, (s.add e).returned = s.returned ++ [rebuilt] ∧ Restores p rebuilt := by
  have hcollected := h.joined hcut hm hdf hallowed.inTime
  have hkey : e.1.key = p.key := by
    obtain ⟨i, -, hq⟩ := hcut
    rw [hq, IPv4Packet.piece_key]
  have hpayload : 0 < p.payload.length := by
    obtain ⟨i, hi, -⟩ := hcut
    omega
  obtain ⟨head, hhead⟩ : ∃ head, (s.reassembler.joined e.1 e.2).header = some head := by
    rw [Reassembler.joined]
    generalize (((s.reassembler.expire e.2).sets.lookup e.1.key).getD { firstSeen := e.2 }) = entry
    cases hentry : entry.header with
    | none => exact ⟨e.1, by simp only [FragmentSet.record, hentry, Option.orElse_none]⟩
    | some first => exact ⟨first, by simp only [FragmentSet.record, hentry, Option.orElse_some]⟩
  have htry := hcollected.tryComplete_of_all hhead hpos hpayload hall
  rcases s.reassembler.add_cases e.1 e.2 with ⟨hfalse, -⟩ | ⟨-, hlookup, hfull, -⟩ | ⟨-, hnone, -⟩ |
    ⟨rebuilt, -, hsome, -, hreturned⟩
  · rw [hfrag] at hfalse
    cases hfalse
  · rw [hkey] at hlookup
    have hroom := hallowed.room hkey hlookup
    omega
  · rw [htry] at hnone
    cases hnone
  · refine ⟨rebuilt, ?_, ?_⟩
    · rw [Feed.add, hreturned]
      rfl
    · rw [htry] at hsome
      obtain rfl := Option.some.inj hsome
      exact ⟨rfl, rfl, rfl, rfl, rfl, rfl, rfl, not_isFragmented_of_no_flags rfl rfl,
        not_dontFragment_of_no_flags rfl⟩

theorem gathering_of_missing (hm : 8 ∣ m) (hpos : 0 < m) (hdf : p.dontFragment = false)
    (hlong : m < p.payload.length) (hpieces : ∀ q, q ∈ pieces ↔ p.Cut m q)
    (hs : feeding.ReachableBy (Undisturbed p pieces) s) {j : Nat} (hj : j * m < p.payload.length)
    (hmissing : p.piece m (j * m) ∉ s.arrived) : Gathering p m s := by
  refine Machine.ReachableBy.induction feeding
    (P := fun s => p.piece m (j * m) ∉ s.arrived → Gathering p m s) (fun s hinit _ => gathering_init hinit)
    ?_ hs hmissing
  intro s e _ ih hallowed hmissing
  have h : Gathering p m s := ih fun hmem => hmissing (List.mem_append_left _ hmem)
  rcases hallowed.own with hown | hother
  · have hcut := (hpieces e.1).mp hown
    exact (h.add_piece hcut hm hdf (hcut.isFragmented hdf hm hpos hlong) hallowed hj hmissing).1
  · exact h.add_other hother hallowed.inTime

theorem untouched_of_missing (hs : feeding.ReachableBy (Undisturbed p [p]) s) (hmissing : p ∉ s.arrived) :
    ∀ rebuilt ∈ s.returned, rebuilt.key ≠ p.key := by
  refine (Machine.ReachableBy.induction feeding
    (P := fun s => s.reassembler.Labelled ∧ (p ∉ s.arrived → ∀ rebuilt ∈ s.returned, rebuilt.key ≠ p.key))
    ?_ ?_ hs).2 hmissing
  · intro s hinit
    have h := gathering_init (p := p) (m := 0) hinit
    exact ⟨h.labelled, fun _ => h.returned⟩
  · rintro s e - ⟨hlabelled, ih⟩ hallowed
    obtain ⟨hlabelled', hkey⟩ := hlabelled.add e.1 e.2
    refine ⟨hlabelled', fun hmissing rebuilt hmem => ?_⟩
    rcases List.mem_append.mp hmem with hmem | hmem
    · exact ih (fun hold => hmissing (List.mem_append_left _ hold)) rebuilt hmem
    · rw [hkey rebuilt (Option.mem_toList.mp hmem)]
      rcases hallowed.own with hown | hother
      · -- then `p` has arrived
        have harrived : p ∈ (s.add e).arrived := by
          rw [← List.mem_singleton.mp hown]
          exact List.mem_append_right _ List.mem_cons_self
        exact absurd harrived hmissing
      · exact hother

/-- Every piece of a datagram fits and survives the wire. Fed to a reassembler in any order, any number of
times and between other datagrams, the pieces bring it back exactly when the last missing one arrives. -/
theorem restores_fragmented {mtu : Nat} (hp : p.InWireRange) (hoptions : p.options = [])
    (hdf : p.dontFragment = false) (hwhole : p.isFragmented = false) (hmtu : MIN_MTU ≤ mtu) :
    ∃ pieces, fragment p mtu = .ok pieces ∧ pieces ≠ [] ∧
      (∀ q ∈ pieces, q.totalLength ≤ mtu ∧
        ∃ data, q.toBytes = .ok data ∧ IPv4Packet.parse data = .ok q) ∧
      ∀ s, feeding.ReachableBy (Undisturbed p pieces) s → (∃ q ∈ pieces, q ∉ s.arrived) →
        (∀ rebuilt ∈ s.returned, rebuilt.key ≠ p.key) ∧
        ∀ q ∈ pieces, ∀ now, Undisturbed p pieces s (q, now) →
          ((∃ q' ∈ pieces, q' ∉ s.arrived ++ [q]) → (s.add (q, now)).returned = s.returned) ∧
          ((∀ q' ∈ pieces, q' ∈ s.arrived ++ [q]) →
            ∃ rebuilt, (s.add (q, now)).returned = s.returned ++ [rebuilt] ∧ Restores p rebuilt) := by
  have hwire : ∀ q : IPv4Packet, q.InWireRange → ∃ data, q.toBytes = .ok data ∧ IPv4Packet.parse data = .ok q := by
    intro q hq
    obtain ⟨data, hdata, -, hparse⟩ := hq.parse_toBytes []
    rw [List.append_nil] at hparse
    exact ⟨data, hdata, hparse⟩
  rcases IPv4Packet.fragment_cases hoptions hdf hmtu with ⟨hfits, hok⟩ |
    ⟨m, pieces, hm, hpos, hmtu', hlong, hok, hpieces⟩
  · refine ⟨[p], hok, List.cons_ne_nil _ _, ?_, ?_⟩
    · intro q hq
      rw [List.mem_singleton.mp hq]
      exact ⟨hfits, hwire p hp⟩
    · rintro s hs ⟨q', hq', hmissing⟩
      rw [List.mem_singleton.mp hq'] at hmissing
      refine ⟨untouched_of_missing hs hmissing, ?_⟩
      intro q hq now _
      rw [List.mem_singleton.mp hq]
      have hadd : (s.reassembler.add p now).2 = some p := by
        rw [Reassembler.add, hwhole]
        rfl
      constructor
      · rintro ⟨q', hq', hnot⟩
        rw [List.mem_singleton.mp hq'] at hnot
        exact absurd (List.mem_append_right _ List.mem_cons_self) hnot
      · intro _
        refine ⟨p, ?_, rfl, rfl, rfl, rfl, rfl, rfl, rfl, hwhole, hdf⟩
        rw [Feed.add, hadd]
        rfl
  · refine ⟨pieces, hok, ?_, ?_, ?_⟩
    · have hfirst : p.piece m (0 * m) ∈ pieces := (hpieces _).mpr ⟨0, by omega, rfl⟩
      exact List.ne_nil_of_mem hfirst
    · intro q hq
      have hcut := (hpieces q).mp hq
      exact ⟨hcut.totalLength_le hmtu', hwire q (hcut.inWireRange hp hdf)⟩
    · rintro s hs ⟨q', hq', hmissing⟩
      obtain ⟨j, hj, rfl⟩ := (hpieces q').mp hq'
      have h := gathering_of_missing hm hpos hdf hlong hpieces hs hj hmissing
      refine ⟨h.returned, ?_⟩
      intro q hq now hallowed
      have hcut := (hpieces q).mp hq
      have hfrag := hcut.isFragmented hdf hm hpos hlong
      constructor
      · rintro ⟨other, hother, hnot⟩
        obtain ⟨i, hi, rfl⟩ := (hpieces other).mp hother
        exact (h.add_piece (e := (q, now)) hcut hm hdf hfrag hallowed hi hnot).2
      · intro hall
        exact h.add_last (e := (q, now)) hcut hm hpos hdf hfrag hallowed fun i hi =>
          hall _ ((hpieces _).mpr ⟨i, hi, rfl⟩)

/-- 56 bytes, in pieces of 48 and 8 on a link with an MTU of 68. -/
def sample : IPv4Packet :=
  { src := [10, 0, 0, 1], dst := [10, 0, 0, 2], protocol := 17, payload := List.replicate 56 7,
    identification := 9 }

/-- The second piece comes first, then a fragment of another datagram, then the second piece again. -/
def sampleRun : List (IPv4Packet × Time) :=
  [(sample.piece 48 48, 0), ({ sample.piece 48 0 with identification := 8 }, 1), (sample.piece 48 48, 2)]

theorem undisturbed_sampleRun :
    feeding.Meets (Undisturbed sample [sample.piece 48 0, sample.piece 48 48]) { reassembler := {} }
      (sampleRun ++ [(sample.piece 48 0, 3)]) := by
  refine ⟨⟨?_, ?_, ?_⟩, ⟨?_, ?_, ?_⟩, ⟨?_, ?_, ?_⟩, ⟨?_, ?_, ?_⟩, trivial⟩ <;> decide +kernel

theorem sample_restored :
    ∃ rebuilt, (feeding.run { reassembler := {} } (sampleRun ++ [(sample.piece 48 0, 3)])).returned = [rebuilt] ∧
      Restores sample rebuilt := by
  have hp : sample.InWireRange := by constructor <;> decide
  have hmtu : MIN_MTU ≤ 68 := by decide
  obtain ⟨pieces, hok, -, -, h⟩ := restores_fragmented hp rfl rfl rfl hmtu
  have hpieces : fragment sample 68 = .ok [sample.piece 48 0, sample.piece 48 48] := by decide +kernel
  obtain rfl := Except.ok.inj (hok.symm.trans hpieces)
  obtain ⟨hrun, hlast, -⟩ := (feeding.meets_append _ _ _).mp undisturbed_sampleRun
  have hreach := (Machine.ReachableBy.init feeding ⟨rfl, rfl, rfl⟩).run feeding hrun
  obtain ⟨rebuilt, hreturned, hrestores⟩ := ((h _ hreach ⟨_, List.mem_cons_self, by decide +kernel⟩).2 _
    List.mem_cons_self 3 hlast).2 (by decide +kernel)
  have hnone : (feeding.run { reassembler := {} } sampleRun).returned = [] := by decide +kernel
  refine ⟨rebuilt, ?_, hrestores⟩
  rw [feeding.run_append]
  change (Feed.add _ _).returned = _
  rw [hreturned, hnone]
  rfl

end Feed

end MiniTcp
