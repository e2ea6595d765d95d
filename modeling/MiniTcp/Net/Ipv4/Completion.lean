import MiniTcp.Net.Ipv4.Restore

/-!
# When a set is complete

A fragment takes the place of the piece with its offset. What its set then holds is the fragment and the
pieces at other offsets (`Beside`), and the set is complete exactly when these have no hole
(`tryComplete_record`).

A set holds nothing that has not arrived (`Assembled`), so a packet never comes back too early. But a
fragment that replaces a longer piece takes away what no other piece holds. In a run of fragments that agree
on where the datagram ends, the packet comes back with the fragment that makes it whole if and only if
nothing is lost by then (`prompt_iff_nothingLost`).
-/

namespace MiniTcp

namespace IPv4Packet

variable (p : IPv4Packet)

/-- The payload, and where it lies in the datagram. -/
def item : Nat × Bytes := (p.fragmentOffset * 8, p.payload)

/-- Where the payload ends in the datagram. -/
def stop : Nat := p.fragmentOffset * 8 + p.payload.length

def IsLast : Prop := p.flags &&& FLAG_MF = 0

instance : Decidable p.IsLast := inferInstanceAs (Decidable (p.flags &&& FLAG_MF = 0))

end IPv4Packet

/-! ### One set and a fragment -/

namespace FragmentSet

variable {entry : FragmentSet} {packet : IPv4Packet} {item : Nat × Bytes} {total x : Nat}

/-- The fragment, or a piece of the set at another offset. -/
def Beside (entry : FragmentSet) (packet : IPv4Packet) (item : Nat × Bytes) : Prop :=
  item = packet.item ∨ item.1 ≠ packet.item.1 ∧ entry.pieces.lookup item.1 = some item.2

/-- The fragment, or a piece of the set at another offset, lies over the position. -/
def Held (entry : FragmentSet) (packet : IPv4Packet) (x : Nat) : Prop :=
  ∃ item, entry.Beside packet item ∧ Pieces.Holds item x

/-- The end of the datagram that the set knows of with the fragment. -/
def endWith (entry : FragmentSet) (packet : IPv4Packet) : Option Nat :=
  if packet.IsLast then some packet.stop else entry.totalLength

/-- With the fragment the set knows where the datagram ends, and there is no hole before this end, nor before
one of the pieces. -/
structure CompletedBy (entry : FragmentSet) (packet : IPv4Packet) (total : Nat) : Prop where
  ends : entry.endWith packet = some total
  whole : ∀ x < total, entry.Held packet x
  gapless : ∀ item, entry.Beside packet item → ∀ x < item.1, entry.Held packet x

theorem mem_ordered_record : item ∈ (entry.record packet).ordered ↔ entry.Beside packet item := by
  rw [mem_ordered, Beside]
  simp only [record]
  by_cases hoffset : item.1 = packet.fragmentOffset * 8
  · rw [hoffset, AList.lookup_insert]
    simp [IPv4Packet.item, Prod.ext_iff, hoffset, eq_comm]
  · rw [AList.lookup_insert_ne hoffset]
    simp [IPv4Packet.item, Prod.ext_iff, hoffset]

theorem record_totalLength : (entry.record packet).totalLength = entry.endWith packet := rfl

theorem exists_header_record (entry : FragmentSet) (packet : IPv4Packet) :
    ∃ head, (entry.record packet).header = some head := by
  simp only [record]
  cases entry.header <;> simp

theorem pieces_record_ne_nil : (entry.record packet).pieces.entries ≠ [] := by
  simp [record]

/-- With the fragment recorded, the scan finds no hole exactly when there is none. -/
theorem completedBy_iff : entry.CompletedBy packet total ↔ (entry.record packet).totalLength = some total ∧
    ∃ cursor, coverFrom (entry.record packet).ordered 0 = some cursor ∧ total ≤ cursor := by
  simp only [coverFrom_eq_reach, Pieces.exists_reach_iff ordered_sorted, mem_ordered_record,
    Nat.zero_le, forall_const]
  exact ⟨fun h => ⟨h.ends, h.whole, h.gapless⟩, fun ⟨hends, hwhole, hgapless⟩ => ⟨hends, hwhole, hgapless⟩⟩

theorem tryComplete_record (entry : FragmentSet) (packet : IPv4Packet) :
    (∃ total rebuilt, entry.CompletedBy packet total ∧ (entry.record packet).tryComplete = some rebuilt ∧
      rebuilt.options = [] ∧
      rebuilt.payload = fill total (entry.record packet).ordered (List.replicate total 0)) ∨
    (∀ total, ¬ entry.CompletedBy packet total) ∧ (entry.record packet).tryComplete = none := by
  obtain ⟨head, hhead⟩ := exists_header_record entry packet
  simp only [completedBy_iff, tryComplete, hhead]
  cases htotal : (entry.record packet).totalLength with
  | none => simp
  | some total =>
    cases hcover : coverFrom (entry.record packet).ordered 0 with
    | none => simp
    | some cursor =>
      by_cases hshort : cursor < total
      · simp [hshort]
      · left
        have hwhole : ¬ ((entry.record packet).pieces.entries = [] ∨ cursor < total) := by
          simp [hshort, pieces_record_ne_nil]
        exact ⟨total, _, ⟨rfl, cursor, rfl, not_lt.mp hshort⟩, if_neg hwhole, rfl, rfl⟩

end FragmentSet

/-! ### What has arrived -/

/-- The fragments under the key lie over every position before the end, and the last one is among them. -/
structure Whole (key : FragmentKey) (total : Nat) (arrived : List IPv4Packet) : Prop where
  covered : ∀ x < total, ∃ f ∈ arrived, f.key = key ∧ Pieces.Holds f.item x
  marked : ∃ f ∈ arrived, f.key = key ∧ f.IsLast

/-- As many bytes as the datagram has, each from a fragment that lies over its position. -/
structure MadeOf (key : FragmentKey) (total : Nat) (arrived : List IPv4Packet) (payload : Bytes) : Prop where
  length : payload.length = total
  bytes : ∀ x < total, ∃ f ∈ arrived, f.key = key ∧ Pieces.Holds f.item x ∧
    payload[x]? = f.payload[x - f.item.1]?

/-- Fragments under the key end within the datagram, and the last ones with it. -/
def Agreed (key : FragmentKey) (total : Nat) (arrived : List IPv4Packet) : Prop :=
  ∀ f ∈ arrived, f.key = key → f.stop ≤ total ∧ (f.IsLast → f.stop = total)

section

variable {key : FragmentKey} {total : Nat} {arrived : List IPv4Packet} {packet : IPv4Packet} {entry : FragmentSet}

theorem Whole.append (h : Whole key total arrived) (more : List IPv4Packet) :
    Whole key total (arrived ++ more) := by
  obtain ⟨hcovered, f, hf, hlast⟩ := h
  refine ⟨fun x hx => ?_, f, List.mem_append_left _ hf, hlast⟩
  obtain ⟨g, hg, hholds⟩ := hcovered x hx
  exact ⟨g, List.mem_append_left _ hg, hholds⟩

theorem mem_of_mem_append (hne : packet.key ≠ key) {f : IPv4Packet} (hf : f ∈ arrived ++ [packet])
    (hkey : f.key = key) : f ∈ arrived := by
  rcases List.mem_append.mp hf with hf | hf
  · exact hf
  · exact absurd hkey (List.mem_singleton.mp hf ▸ hne)

theorem whole_append_of_ne (hne : packet.key ≠ key) :
    Whole key total (arrived ++ [packet]) ↔ Whole key total arrived := by
  refine ⟨fun ⟨hcovered, f, hf, hkey, hlast⟩ => ?_, fun h => h.append _⟩
  refine ⟨fun x hx => ?_, f, mem_of_mem_append hne hf hkey, hkey, hlast⟩
  obtain ⟨g, hg, hgkey, hholds⟩ := hcovered x hx
  exact ⟨g, mem_of_mem_append hne hg hgkey, hgkey, hholds⟩

namespace FragmentSet

/-- Every piece of the set has arrived, and the set knows the end if the last fragment has. -/
structure Assembled (key : FragmentKey) (total : Nat) (arrived : List IPv4Packet) (entry : FragmentSet) :
    Prop where
  ends : ∀ t, entry.totalLength = some t → t = total ∧ ∃ f ∈ arrived, f.key = key ∧ f.IsLast
  marked : ∀ f ∈ arrived, f.key = key → f.IsLast → entry.totalLength = some total
  sound : ∀ offset data, entry.pieces.lookup offset = some data →
    ∃ f ∈ arrived, f.key = key ∧ f.item = (offset, data)

theorem assembled_fresh (now : Time) (hnone : ∀ f ∈ arrived, f.key ≠ key) :
    Assembled key total arrived { firstSeen := now } := by
  refine ⟨?_, fun f hf hkey => absurd hkey (hnone f hf), ?_⟩ <;> simp

theorem Assembled.append_other (h : Assembled key total arrived entry) (hne : packet.key ≠ key) :
    Assembled key total (arrived ++ [packet]) entry := by
  refine ⟨?_, ?_, ?_⟩
  · intro t ht
    obtain ⟨htotal, f, hf, hlast⟩ := h.ends t ht
    exact ⟨htotal, f, List.mem_append_left _ hf, hlast⟩
  · exact fun f hf hkey => h.marked f (mem_of_mem_append hne hf hkey) hkey
  · intro offset data hlookup
    obtain ⟨f, hf, hitem⟩ := h.sound offset data hlookup
    exact ⟨f, List.mem_append_left _ hf, hitem⟩

theorem Assembled.beside (h : Assembled key total arrived entry) (hkey : packet.key = key) {item : Nat × Bytes}
    (hitem : entry.Beside packet item) : ∃ f ∈ arrived ++ [packet], f.key = key ∧ f.item = item := by
  rcases hitem with rfl | ⟨-, hlookup⟩
  · exact ⟨packet, by simp, hkey, rfl⟩
  · obtain ⟨f, hf, hfkey, hfitem⟩ := h.sound _ _ hlookup
    exact ⟨f, List.mem_append_left _ hf, hfkey, hfitem⟩

theorem Assembled.record (h : Assembled key total arrived entry) (hkey : packet.key = key)
    (hlast : packet.IsLast → packet.stop = total) :
    Assembled key total (arrived ++ [packet]) (entry.record packet) := by
  refine ⟨?_, ?_, ?_⟩
  · intro t ht
    rw [record_totalLength, endWith] at ht
    split_ifs at ht with hmark
    · have heq : packet.stop = t := Option.some.inj ht
      exact ⟨by rw [← heq, hlast hmark], packet, by simp, hkey, hmark⟩
    · obtain ⟨htotal, f, hf, hrest⟩ := h.ends t ht
      exact ⟨htotal, f, List.mem_append_left _ hf, hrest⟩
  · intro f hf hfkey hmark
    rw [record_totalLength, endWith]
    split_ifs with hpacket
    · rw [hlast hpacket]
    · rcases List.mem_append.mp hf with hf | hf
      · exact h.marked f hf hfkey hmark
      · exact absurd (List.mem_singleton.mp hf ▸ hmark) hpacket
  · intro offset data hlookup
    have hmem : (offset, data) ∈ (entry.record packet).ordered := mem_ordered.mpr hlookup
    exact h.beside hkey (mem_ordered_record.mp hmem)

theorem Assembled.whole_of_completedBy (h : Assembled key total arrived entry) (hkey : packet.key = key)
    (hlast : packet.IsLast → packet.stop = total) {t : Nat} (hcompleted : entry.CompletedBy packet t) :
    t = total ∧ Whole key total (arrived ++ [packet]) := by
  obtain ⟨rfl, hmarked⟩ := (h.record hkey hlast).ends t hcompleted.ends
  refine ⟨rfl, fun x hx => ?_, hmarked⟩
  obtain ⟨item, hitem, hholds⟩ := hcompleted.whole x hx
  obtain ⟨f, hf, hfkey, rfl⟩ := h.beside hkey hitem
  exact ⟨f, hf, hfkey, hholds⟩

/-- With the datagram whole, what can be missing is a position that no piece of the set holds. -/
theorem Assembled.completedBy_of_whole (h : Assembled key total arrived entry) (hkey : packet.key = key)
    (hagreed : Agreed key total (arrived ++ [packet])) (hwhole : Whole key total (arrived ++ [packet]))
    (hheld : ∀ x < total, entry.Held packet x) : entry.CompletedBy packet total := by
  have hpacket := hagreed packet (by simp) hkey
  obtain ⟨f, hf, hfkey, hmark⟩ := hwhole.marked
  refine ⟨(h.record hkey hpacket.2).marked f hf hfkey hmark, hheld, fun item hitem x hx => hheld x ?_⟩
  obtain ⟨g, hg, hgkey, rfl⟩ := h.beside hkey hitem
  have hstop := (hagreed g hg hgkey).1
  simp only [IPv4Packet.stop, IPv4Packet.item] at hstop hx
  omega

theorem Assembled.madeOf (h : Assembled key total arrived entry) (hkey : packet.key = key)
    (hagreed : Agreed key total (arrived ++ [packet])) (hcompleted : entry.CompletedBy packet total) :
    MadeOf key total (arrived ++ [packet])
      (fill total (entry.record packet).ordered (List.replicate total 0)) := by
  have hfrom : ∀ item ∈ (entry.record packet).ordered, ∃ f ∈ arrived ++ [packet], f.key = key ∧ f.item = item :=
    fun item hitem => h.beside hkey (mem_ordered_record.mp hitem)
  have hstop : ∀ item ∈ (entry.record packet).ordered, item.1 + item.2.length ≤ total := by
    intro item hitem
    obtain ⟨f, hf, hfkey, rfl⟩ := hfrom item hitem
    exact (hagreed f hf hfkey).1
  have hbuffer : ∀ item ∈ (entry.record packet).ordered,
      item.1 + item.2.length ≤ (List.replicate total (0 : UInt8)).length := by simpa using hstop
  rw [fill_eq_writeAll hstop List.length_replicate]
  refine ⟨by rw [Pieces.length_writeAll hbuffer, List.length_replicate], fun x hx => ?_⟩
  rcases Pieces.getElem?_writeAll hbuffer x with ⟨item, hitem, hholds, heq⟩ | ⟨hnone, -⟩
  · obtain ⟨f, hf, hfkey, rfl⟩ := hfrom item hitem
    exact ⟨f, hf, hfkey, hholds, heq⟩
  · obtain ⟨item, hitem, hholds⟩ := hcompleted.whole x hx
    exact absurd hholds (hnone item (mem_ordered_record.mpr hitem))

end FragmentSet

end

/-! ### One arrival -/

namespace Reassembler

variable {r : Reassembler} {packet : IPv4Packet} {now : Time}

/-- The set that a fragment joins. -/
def kept (r : Reassembler) (packet : IPv4Packet) (now : Time) : FragmentSet :=
  ((r.expire now).sets.lookup packet.key).getD { firstSeen := now }

theorem joined_eq_record : r.joined packet now = (r.kept packet now).record packet := rfl

/-- A fragment that completes its set brings the datagram back and ends the set, another one is kept in it. -/
theorem add_of_admits (h : r.Admits packet now) :
    (∃ total rebuilt, (r.kept packet now).CompletedBy packet total ∧ (r.add packet now).2 = some rebuilt ∧
      (r.add packet now).1.sets =
        ((r.expire now).sets.insert packet.key (r.joined packet now)).erase packet.key ∧
      rebuilt.options = [] ∧
      rebuilt.payload = fill total (r.joined packet now).ordered (List.replicate total 0)) ∨
    (∀ total, ¬ (r.kept packet now).CompletedBy packet total) ∧ (r.add packet now).2 = none ∧
      (r.add packet now).1.sets = (r.expire now).sets.insert packet.key (r.joined packet now) := by
  have htry := (r.kept packet now).tryComplete_record packet
  rw [← joined_eq_record] at htry
  rcases r.add_cases packet now with ⟨hwhole, -⟩ | ⟨-, hlookup, hfull, -⟩ | ⟨-, hnone, hsets, hadd⟩ |
    ⟨rebuilt, -, hsome, hsets, hadd⟩
  · simp [h.1] at hwhole
  · have := h.2 hlookup
    omega
  · rcases htry with ⟨total, rebuilt, -, hsome, -⟩ | ⟨hopen, -⟩
    · simp [hnone] at hsome
    · exact .inr ⟨hopen, hadd, hsets⟩
  · rcases htry with ⟨total, rebuilt', hcompleted, hsome', hoptions, hpayload⟩ | ⟨-, hnone⟩
    · obtain rfl : rebuilt = rebuilt' := by simpa [hsome] using hsome'
      exact .inl ⟨total, rebuilt, hcompleted, hadd, hsets, hoptions, hpayload⟩
    · simp [hsome] at hnone

theorem add_of_not_admits (hfrag : packet.isFragmented = true) (h : ¬ r.Admits packet now) :
    (r.add packet now).2 = none ∧ (r.add packet now).1.sets = (r.expire now).sets := by
  rcases r.add_cases packet now with ⟨hwhole, -⟩ | ⟨-, -, -, hsets, hnone⟩ | ⟨hadmits, -⟩ | ⟨_, hadmits, -⟩
  · simp [hfrag] at hwhole
  · exact ⟨hnone, hsets⟩
  · exact absurd hadmits h
  · exact absurd hadmits h

theorem add_first {limit : Nat} (hlimit : 0 < limit) (hfrag : packet.isFragmented = true)
    (hmore : ¬ packet.IsLast) (now : Time) :
    ({ maxPending := limit } : Reassembler).add packet now =
      ({ sets := AList.singleton packet.key (({ firstSeen := now } : FragmentSet).record packet)
         maxPending := limit }, none) := by
  have hexpire : ({ maxPending := limit } : Reassembler).expire now = { maxPending := limit } := rfl
  have hopen : (({ firstSeen := now } : FragmentSet).record packet).tryComplete = none := by
    have hends : (({ firstSeen := now } : FragmentSet).record packet).totalLength = none := if_neg hmore
    simp [FragmentSet.tryComplete, hends]
  simp [add, hfrag, hexpire, hopen, hlimit.ne']

theorem after_first {limit : Nat} {second : IPv4Packet} (hlimit : 0 < limit) (hfrag : packet.isFragmented = true)
    (hmore : ¬ packet.IsLast) (hkey : second.key = packet.key) (now : Time) :
    let r := (({ maxPending := limit } : Reassembler).add packet now).1
    let entry := ({ firstSeen := now } : FragmentSet).record packet
    r.kept second now = entry ∧ (r.expire now).sets = AList.singleton packet.key entry ∧
      (second.isFragmented = true → r.Admits second now) := by
  intro r entry
  have hr : r = { sets := AList.singleton packet.key entry, maxPending := limit } :=
    congrArg Prod.fst (add_first hlimit hfrag hmore now)
  have hyoung : now - entry.firstSeen ≤ 30 := by
    change now - now ≤ 30
    rw [Rat.sub_self]
    decide
  have hstale : r.stale now = [] := by
    simpa [hr, stale] using hyoung
  have hexpire : (r.expire now).sets = AList.singleton packet.key entry := by
    rw [expire, hstale, List.foldl_nil, hr]
  have hlookup : (r.expire now).sets.lookup second.key = some entry := by
    rw [hexpire, hkey]
    simp [AList.lookup, AList.singleton_entries]
  refine ⟨by rw [kept, hlookup, Option.getD_some], hexpire, fun hfrag' => ⟨hfrag', fun hnone => ?_⟩⟩
  simp [hlookup] at hnone

end Reassembler

/-! ### Runs -/

namespace Feed

variable {key : FragmentKey} {total : Nat} {s : Feed} {e : IPv4Packet × Time}

/-- What arrives has another key or is a fragment that agrees on the end. The set is not out of time, and
there is room for it when it begins. -/
structure Agrees (key : FragmentKey) (total : Nat) (s : Feed) (e : IPv4Packet × Time) : Prop where
  fragment : e.1.key = key → e.1.isFragmented = true
  within : e.1.key = key → e.1.stop ≤ total
  last : e.1.key = key → e.1.IsLast → e.1.stop = total
  inTime : key ∉ s.reassembler.stale e.2
  room : e.1.key = key → (s.reassembler.expire e.2).sets.lookup key = none →
    (s.reassembler.expire e.2).sets.entries.length < s.reassembler.maxPending

/-- What arrives is a fragment of a datagram that is not whole yet. -/
def Awaited (key : FragmentKey) (total : Nat) (s : Feed) (e : IPv4Packet × Time) : Prop :=
  e.1.key = key ∧ ¬ Whole key total s.arrived

/-- A packet comes back with the fragment that makes the datagram whole, made of what has arrived, and with
none before. -/
def Prompt (key : FragmentKey) (total : Nat) (s : Feed) (e : IPv4Packet × Time) : Prop :=
  Awaited key total s e →
    (Whole key total (s.arrived ++ [e.1]) → ∃ rebuilt, (s.reassembler.add e.1 e.2).2 = some rebuilt ∧
      MadeOf key total (s.arrived ++ [e.1]) rebuilt.payload) ∧
    (¬ Whole key total (s.arrived ++ [e.1]) → (s.reassembler.add e.1 e.2).2 = none)

/-- When a fragment makes the datagram whole, every position lies in it or in a piece at another offset that
its set still has. -/
def NothingLost (key : FragmentKey) (total : Nat) (s : Feed) (e : IPv4Packet × Time) : Prop :=
  Awaited key total s e → Whole key total (s.arrived ++ [e.1]) →
    ∀ x < total, (s.reassembler.kept e.1 e.2).Held e.1 x

/-- Every position of the piece that a fragment replaces lies in the fragment or in a piece at another
offset. -/
def Spares (key : FragmentKey) (s : Feed) (e : IPv4Packet × Time) : Prop :=
  e.1.key = key → ∀ data, (s.reassembler.kept e.1 e.2).pieces.lookup e.1.item.1 = some data →
    ∀ x, Pieces.Holds (e.1.item.1, data) x → (s.reassembler.kept e.1 e.2).Held e.1 x

/-- The fragments under the key agree, and while they leave a hole their set is assembled from them. -/
structure Collecting (key : FragmentKey) (total : Nat) (s : Feed) : Prop where
  agreed : Agreed key total s.arrived
  assembled : ¬ Whole key total s.arrived → ∀ now, FragmentSet.Assembled key total s.arrived
    ((s.reassembler.sets.lookup key).getD { firstSeen := now })

theorem collecting_init (h : feeding.init s) : Collecting key total s := by
  obtain ⟨hsets, harrived, -⟩ := h
  refine ⟨by simp [Agreed, harrived], fun _ now => ?_⟩
  rw [hsets, AList.lookup_empty]
  exact FragmentSet.assembled_fresh now (by simp [harrived])

theorem Agrees.agreed (he : Agrees key total s e) (h : Agreed key total s.arrived) :
    Agreed key total (s.arrived ++ [e.1]) := by
  intro f hf hkey
  rcases List.mem_append.mp hf with hf | hf
  · exact h f hf hkey
  · obtain rfl := List.mem_singleton.mp hf
    exact ⟨he.within hkey, he.last hkey⟩

theorem Agrees.admits (he : Agrees key total s e) (hkey : e.1.key = key) :
    s.reassembler.Admits e.1 e.2 :=
  ⟨he.fragment hkey, by rw [hkey]; exact he.room hkey⟩

theorem Agrees.kept_eq (he : Agrees key total s e) (hkey : e.1.key = key) :
    s.reassembler.kept e.1 e.2 = (s.reassembler.sets.lookup key).getD { firstSeen := e.2 } := by
  rw [Reassembler.kept, hkey, Reassembler.lookup_expire_of_not_stale he.inTime]

theorem Collecting.kept (h : Collecting key total s) (he : Agrees key total s e) (hawaited : Awaited key total s e) :
    FragmentSet.Assembled key total s.arrived (s.reassembler.kept e.1 e.2) := by
  rw [he.kept_eq hawaited.1]
  exact h.assembled hawaited.2 e.2

/-- An awaited fragment brings a packet back exactly when the pieces the set then has leave no hole. -/
theorem Collecting.prompt_iff (h : Collecting key total s) (he : Agrees key total s e) :
    Prompt key total s e ↔ NothingLost key total s e := by
  refine forall_congr' fun hawaited => ?_
  have hkept := h.kept he hawaited
  have hkey := hawaited.1
  have hagreed := he.agreed h.agreed
  rcases Reassembler.add_of_admits (he.admits hkey) with ⟨t, rebuilt, hcompleted, hadd, -, -, hpayload⟩ |
    ⟨hopen, hadd, -⟩
  · obtain ⟨rfl, hwhole⟩ := hkept.whole_of_completedBy hkey (he.last hkey) hcompleted
    have hmade := hkept.madeOf hkey hagreed hcompleted
    rw [← Reassembler.joined_eq_record, ← hpayload] at hmade
    refine iff_of_true ⟨fun _ => ⟨rebuilt, hadd, hmade⟩, fun hnot => absurd hwhole hnot⟩ fun _ => ?_
    exact hcompleted.whole
  · rw [hadd]
    constructor
    · rintro ⟨hlate, -⟩ hwhole
      simpa using hlate hwhole
    · intro hheld
      refine ⟨fun hwhole => ?_, fun _ => rfl⟩
      exact absurd (hkept.completedBy_of_whole hkey hagreed hwhole (hheld hwhole)) (hopen total)

theorem awaited_of_hole (hkey : e.1.key = key) (hhole : ¬ Whole key total (s.arrived ++ [e.1])) :
    Awaited key total s e :=
  ⟨hkey, fun hwhole => hhole (hwhole.append [e.1])⟩

theorem Collecting.lookup_add (h : Collecting key total s) (he : Agrees key total s e) (hkey : e.1.key = key)
    (hhole : ¬ Whole key total (s.arrived ++ [e.1])) :
    (s.reassembler.add e.1 e.2).1.sets.lookup key = some ((s.reassembler.kept e.1 e.2).record e.1) := by
  have hkept := h.kept he (awaited_of_hole hkey hhole)
  rcases Reassembler.add_of_admits (he.admits hkey) with ⟨t, -, hcompleted, -⟩ | ⟨-, -, hsets⟩
  · exact absurd (hkept.whole_of_completedBy hkey (he.last hkey) hcompleted).2 hhole
  · rw [hsets, hkey, AList.lookup_insert, Reassembler.joined_eq_record]

theorem Collecting.add (h : Collecting key total s) (he : Agrees key total s e) :
    Collecting key total (s.add e) := by
  refine ⟨he.agreed h.agreed, fun hhole now => ?_⟩
  change ¬ Whole key total (s.arrived ++ [e.1]) at hhole
  change FragmentSet.Assembled key total (s.arrived ++ [e.1])
    (((s.reassembler.add e.1 e.2).1.sets.lookup key).getD { firstSeen := now })
  by_cases hkey : e.1.key = key
  · rw [h.lookup_add he hkey hhole, Option.getD_some]
    exact (h.kept he (awaited_of_hole hkey hhole)).record hkey (he.last hkey)
  · rw [Reassembler.lookup_add_of_ne (Ne.symm hkey) he.inTime]
    rw [whole_append_of_ne hkey] at hhole
    exact (h.assembled hhole now).append_other hkey

/-! ### Nothing is lost when no fragment takes a position away -/

/-- While the datagram is not whole, every position that a fragment has covered lies in a piece of the set. -/
def Keeping (key : FragmentKey) (total : Nat) (s : Feed) : Prop :=
  ¬ Whole key total s.arrived → ∀ f ∈ s.arrived, f.key = key → ∀ x, Pieces.Holds f.item x → ∀ now,
    ∃ offset data, ((s.reassembler.sets.lookup key).getD { firstSeen := now }).pieces.lookup offset = some data ∧
      Pieces.Holds (offset, data) x

/-- A fragment that spares what it replaces leaves every position that was covered in a piece. -/
theorem Keeping.held (h : Keeping key total s) (he : Agrees key total s e) (hspares : Spares key s e)
    (hawaited : Awaited key total s e) {f : IPv4Packet} (hf : f ∈ s.arrived ++ [e.1]) (hfkey : f.key = key)
    {x : Nat} (hx : Pieces.Holds f.item x) : (s.reassembler.kept e.1 e.2).Held e.1 x := by
  rcases List.mem_append.mp hf with hf | hf
  · obtain ⟨offset, data, hlookup, hholds⟩ := h hawaited.2 f hf hfkey x hx e.2
    rw [← he.kept_eq hawaited.1] at hlookup
    by_cases hoffset : offset = e.1.item.1
    · subst hoffset
      exact hspares hawaited.1 data hlookup x hholds
    · exact ⟨(offset, data), .inr ⟨hoffset, hlookup⟩, hholds⟩
  · obtain rfl := List.mem_singleton.mp hf
    exact ⟨e.1.item, .inl rfl, hx⟩

theorem Keeping.add (h : Keeping key total s) (hcollecting : Collecting key total s)
    (he : Agrees key total s e) (hspares : Spares key s e) : Keeping key total (s.add e) := by
  intro hhole f hf hfkey x hx now
  change ¬ Whole key total (s.arrived ++ [e.1]) at hhole
  change f ∈ s.arrived ++ [e.1] at hf
  change ∃ offset data, (((s.reassembler.add e.1 e.2).1.sets.lookup key).getD
    { firstSeen := now }).pieces.lookup offset = some data ∧ Pieces.Holds (offset, data) x
  by_cases hkey : e.1.key = key
  · rw [hcollecting.lookup_add he hkey hhole, Option.getD_some]
    obtain ⟨item, hitem, hholds⟩ := h.held he hspares (awaited_of_hole hkey hhole) hf hfkey hx
    exact ⟨item.1, item.2, FragmentSet.mem_ordered.mp (FragmentSet.mem_ordered_record.mpr hitem), hholds⟩
  · rw [Reassembler.lookup_add_of_ne (Ne.symm hkey) he.inTime]
    rw [whole_append_of_ne hkey] at hhole
    exact h hhole f (mem_of_mem_append hkey hf hfkey) hfkey x hx now

theorem nothingLost_of_spares {es : List (IPv4Packet × Time)} (hinit : feeding.init s)
    (hes : feeding.Meets (Agrees key total) s es) (hspares : feeding.Meets (Spares key) s es) :
    feeding.Meets (NothingLost key total) s es := by
  have hkeeping : Keeping key total s := by simp [Keeping, hinit.2.1]
  refine ((feeding.meets_and s es).mpr ⟨hes, hspares⟩).of_invariant feeding
    (Q := fun s => Collecting key total s ∧ Keeping key total s) ?_ ⟨collecting_init hinit, hkeeping⟩
  rintro s e ⟨hcollecting, hkeeping⟩ ⟨he, hspares⟩
  refine ⟨fun hawaited hwhole x hx => ?_, hcollecting.add he, hkeeping.add hcollecting he hspares⟩
  obtain ⟨f, hf, hfkey, hholds⟩ := hwhole.covered x hx
  exact hkeeping.held he hspares hawaited hf hfkey hholds

/-- Among fragments that agree on the end of their datagram, the packet comes back with the one that makes the
datagram whole, and never before, exactly in the runs in which nothing is lost by then. It is enough that no
fragment takes a position away from the set. -/
theorem prompt_iff_nothingLost {es : List (IPv4Packet × Time)} (hinit : feeding.init s)
    (hes : feeding.Meets (Agrees key total) s es) :
    (feeding.Meets (Prompt key total) s es ↔ feeding.Meets (NothingLost key total) s es) ∧
      (feeding.Meets (Spares key) s es → feeding.Meets (Prompt key total) s es) := by
  have hiff : feeding.Meets (Prompt key total) s es ↔ feeding.Meets (NothingLost key total) s es :=
    feeding.meets_iff_meets (fun s e h he _ => Collecting.add h he) (fun s e h he => Collecting.prompt_iff h he)
      hes (collecting_init hinit)
  exact ⟨hiff, fun hspares => hiff.mpr (nothingLost_of_spares hinit hes hspares)⟩

/-- A fragment with `length` bytes at `offset`. -/
def sevens (offset length : Nat) (more : Bool) : IPv4Packet :=
  { src := [10, 0, 0, 1], dst := [10, 0, 0, 2], protocol := 17, payload := List.replicate length 7,
    identification := 9, flags := if more then FLAG_MF else 0, fragmentOffset := offset / 8 }

/-- The pieces overlap, and the first of the datagram comes last. -/
def overlappingRun : List (IPv4Packet × Time) :=
  [(sevens 8 16 true, 0), (sevens 16 16 false, 1), (sevens 0 16 true, 2)]

theorem prompt_overlappingRun :
    feeding.Meets (Prompt (sevens 0 16 true).key 32) { reassembler := {} } overlappingRun := by
  have hagrees : feeding.Meets (Agrees (sevens 0 16 true).key 32) { reassembler := {} } overlappingRun := by
    refine ⟨⟨?_, ?_, ?_, ?_, ?_⟩, ⟨?_, ?_, ?_, ?_, ?_⟩, ⟨?_, ?_, ?_, ?_, ?_⟩, trivial⟩ <;> decide +kernel
  apply (prompt_iff_nothingLost ⟨rfl, rfl, rfl⟩ hagrees).2
  -- no two of them have the same offset
  have hfresh : feeding.Meets (fun s e =>
      (s.reassembler.kept e.1 e.2).pieces.lookup e.1.item.1 = none) { reassembler := {} } overlappingRun := by
    decide +kernel
  exact Machine.Meets.mono feeding (fun s e hnone _ data hdata => by simp [hnone] at hdata) hfresh

/-- The first 16 bytes, the first 8 of them again, and the last 8. -/
def shrinkingRun : List (IPv4Packet × Time) :=
  [(sevens 0 16 true, 0), (sevens 0 8 true, 1), (sevens 16 8 false, 2)]

/-- The shorter repeat takes the place of the longer piece, and all 24 bytes have arrived in vain. -/
theorem shrinkingRun_not_prompt :
    feeding.Meets (Agrees (sevens 0 16 true).key 24) { reassembler := {} } shrinkingRun ∧
      Whole (sevens 0 16 true).key 24 (shrinkingRun.map Prod.fst) ∧
      (feeding.run { reassembler := {} } shrinkingRun).returned = [] ∧
      ¬ feeding.Meets (Prompt (sevens 0 16 true).key 24) { reassembler := {} } shrinkingRun := by
  have hwhole : Whole (sevens 0 16 true).key 24 (shrinkingRun.map Prod.fst) := by
    refine ⟨fun x hx => ?_, sevens 16 8 false, by simp [shrinkingRun], rfl, rfl⟩
    by_cases hfirst : x < 16
    · refine ⟨sevens 0 16 true, by simp [shrinkingRun], rfl, ?_⟩
      simp [Pieces.Holds, IPv4Packet.item, sevens, hfirst]
    · refine ⟨sevens 16 8 false, by simp [shrinkingRun], rfl, ?_⟩
      simp only [Pieces.Holds, IPv4Packet.item, sevens, List.length_replicate]
      omega
  have hopen : ¬ Whole (sevens 0 16 true).key 24 [sevens 0 16 true, sevens 0 8 true] := by
    rintro ⟨-, f, hf, -, hlast⟩
    rcases (by simpa using hf : f = sevens 0 16 true ∨ f = sevens 0 8 true) with rfl | rfl <;>
      exact absurd hlast (by decide)
  refine ⟨?_, hwhole, by decide +kernel, ?_⟩
  · refine ⟨⟨?_, ?_, ?_, ?_, ?_⟩, ⟨?_, ?_, ?_, ?_, ?_⟩, ⟨?_, ?_, ?_, ?_, ?_⟩, trivial⟩ <;> decide +kernel
  · rintro ⟨-, -, hlast, -⟩
    obtain ⟨rebuilt, hadd, -⟩ := (hlast ⟨rfl, hopen⟩).1 hwhole
    have hnone : ((feeding.run { reassembler := {} } [(sevens 0 16 true, 0), (sevens 0 8 true, 1)]).reassembler.add
        (sevens 16 8 false) 2).2 = none := by decide +kernel
    exact absurd (hadd.symm.trans hnone) (by simp)

end Feed

end MiniTcp
