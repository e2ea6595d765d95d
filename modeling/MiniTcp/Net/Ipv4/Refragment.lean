import MiniTcp.Lib.Tiling
import MiniTcp.Net.Ipv4.Completion

/-!
# Fragments of fragments

`Tiles p pieces` says that the pieces take the place of `p` in the datagram that `p` is, or is a part of.
Tiles may be cut again (`Tiles.substitute`), and fed to a reassembler in any order they bring the datagram
back (`reassembles_of_tiles`). The pieces that `fragment` makes tile a whole datagram. But their offsets begin at
zero, and the last one never has "more fragments", so the pieces of a fragment tile it only when it is not cut
(`recut_iff`).
-/

namespace MiniTcp

open Pieces (Contiguous content)

namespace IPv4Packet

variable {o p q : IPv4Packet} {m mtu offset : Nat} {pieces before after : List IPv4Packet}

/-- What a datagram and its pieces have in common. -/
structure SameHeader (q p : IPv4Packet) : Prop where
  key : q.key = p.key
  ttl : q.ttl = p.ttl
  dscp : q.dscp = p.dscp
  dontFragment : q.dontFragment = p.dontFragment

/-- The pieces lie end to end from the offset of `p` on and hold its payload. "More fragments" is set on all
but the last, and on the last exactly if it is on `p`. -/
structure Tiles (p : IPv4Packet) (pieces : List IPv4Packet) : Prop where
  header : ∀ q ∈ pieces, q.SameHeader p
  contiguous : Contiguous item (p.fragmentOffset * 8) pieces
  payload : content item pieces = p.payload
  marked : ∃ front last, pieces = front ++ [last] ∧ (∀ q ∈ front, ¬ q.IsLast) ∧ (last.IsLast ↔ p.IsLast)

/-- An empty piece stands alone. -/
def Proper (pieces : List IPv4Packet) : Prop := ∀ q ∈ pieces, q.payload = [] → pieces = [q]

theorem SameHeader.refl (p : IPv4Packet) : p.SameHeader p := ⟨rfl, rfl, rfl, rfl⟩

theorem SameHeader.trans (h : q.SameHeader p) (h' : p.SameHeader o) : q.SameHeader o :=
  ⟨h.key.trans h'.key, h.ttl.trans h'.ttl, h.dscp.trans h'.dscp, h.dontFragment.trans h'.dontFragment⟩

theorem tiles_self (p : IPv4Packet) : Tiles p [p] where
  header := by simp [SameHeader.refl]
  contiguous := by simp [Pieces.contiguous_cons, item]
  payload := by simp [item]
  marked := ⟨[], p, by simp⟩

theorem Tiles.substitute (h : Tiles o (before ++ p :: after)) (hp : Tiles p pieces) :
    Tiles o (before ++ (pieces ++ after)) := by
  have hsplit : ∀ {start}, Contiguous item start (before ++ p :: after) ↔ Contiguous item start before ∧
      start + (content item before).length = p.fragmentOffset * 8 ∧
      Contiguous item (p.fragmentOffset * 8 + p.payload.length) after := by
    intro start
    rw [Pieces.contiguous_append, Pieces.contiguous_cons]
    refine and_congr_right fun _ => ⟨?_, ?_⟩
    · rintro ⟨hstart, hrest⟩
      exact ⟨hstart.symm, by rwa [← hstart] at hrest⟩
    · rintro ⟨hstart, hrest⟩
      exact ⟨hstart.symm, by rwa [hstart]⟩
  obtain ⟨hbefore, hstart, hafter⟩ := hsplit.mp h.contiguous
  refine ⟨?_, ?_, ?_, ?_⟩
  · intro q hq
    simp only [List.mem_append] at hq
    rcases hq with hq | hq | hq
    · exact h.header q (by simp [hq])
    · exact (hp.header q hq).trans (h.header p (by simp))
    · exact h.header q (by simp [hq])
  · rw [Pieces.contiguous_append, Pieces.contiguous_append, hp.payload, hstart]
    exact ⟨hbefore, hp.contiguous, hafter⟩
  · rw [← h.payload]
    simp [hp.payload, item]
  · obtain ⟨front, last, hpieces, hfront, hlast⟩ := hp.marked
    obtain ⟨front', last', heq, hfront', hlast'⟩ := h.marked
    rcases List.eq_nil_or_concat after with rfl | ⟨after', tail, rfl⟩
    · -- `p` is the last tile
      obtain ⟨rfl, htail⟩ := List.append_inj' heq rfl
      obtain rfl : p = last' := by simpa using htail
      refine ⟨before ++ front, last, by simp [hpieces], ?_, hlast.trans hlast'⟩
      intro q hq
      exact (List.mem_append.mp hq).elim (hfront' q) (hfront q)
    · have heq' : (before ++ p :: after') ++ [tail] = front' ++ [last'] := by simpa using heq
      obtain ⟨rfl, htail⟩ := List.append_inj' heq' rfl
      obtain rfl : tail = last' := by simpa using htail
      have hopen : ¬ p.IsLast := hfront' p (by simp)
      refine ⟨before ++ (pieces ++ after'), tail, by simp, ?_, hlast'⟩
      intro q hq
      simp only [List.mem_append] at hq
      rcases hq with hq | hq | hq
      · exact hfront' q (by simp [hq])
      · rw [hpieces, List.mem_append, List.mem_singleton] at hq
        rcases hq with hq | rfl
        · exact hfront q hq
        · rwa [hlast]
      · exact hfront' q (by simp [hq])

/-! ### The pieces of a whole datagram -/

theorem piece_isLast_iff (hdf : p.dontFragment = false) (hoffset : offset < p.payload.length) :
    (p.piece m offset).IsLast ↔ p.payload.length ≤ offset + m := piece_last_iff hdf hoffset

/-- The loop cuts what is left of the payload into contiguous pieces, and marks all but the last. -/
theorem fragmentLoop_tiles (hdf : p.dontFragment = false) (hm : 8 ∣ m) (hpos : 0 < m) {fuel : Nat}
    (hfuel : p.payload.length ≤ offset + fuel) (hdvd : 8 ∣ offset) (hoffset : offset < p.payload.length) :
    Contiguous item offset (p.fragmentLoop m fuel offset) ∧
      content item (p.fragmentLoop m fuel offset) = p.payload.drop offset ∧
      ∃ front last, p.fragmentLoop m fuel offset = front ++ [last] ∧ (∀ q ∈ front, ¬ q.IsLast) ∧
        last.IsLast := by
  induction fuel generalizing offset with
  | zero => omega
  | succ fuel ih =>
    have hlen := length_piece (p := p) m offset
    have hlast := piece_isLast_iff (m := m) hdf hoffset
    have hstart : (p.piece m offset).fragmentOffset * 8 = offset := Nat.div_mul_cancel hdvd
    have hchunk : (p.piece m offset).payload = (p.payload.drop offset).take m := rfl
    rw [fragmentLoop, if_pos hoffset]
    by_cases hmore : offset + m < p.payload.length
    · have hfull : (p.piece m offset).payload.length = m := by omega
      obtain ⟨hcontiguous, hcontent, front, last, heq, hfront, hend⟩ :=
        ih (by omega) ((Nat.dvd_add_right hdvd).mpr hm) hmore
      rw [hfull]
      refine ⟨⟨hstart, by simpa [item, hfull] using hcontiguous⟩, ?_, p.piece m offset :: front, last, ?_, ?_,
        hend⟩
      · rw [Pieces.content_cons, hcontent]
        change (p.piece m offset).payload ++ _ = _
        rw [hchunk, ← List.drop_drop, List.take_append_drop]
      · rw [heq]
        rfl
      · intro q hq
        rcases List.mem_cons.mp hq with rfl | hq
        · rw [hlast]
          omega
        · exact hfront q hq
    · -- the piece reaches the end, and the loop stops
      have hshort : (p.piece m offset).payload.length = p.payload.length - offset := by omega
      have hstop : p.fragmentLoop m fuel (offset + (p.piece m offset).payload.length) = [] := by
        cases fuel with
        | zero => rfl
        | succ fuel => rw [fragmentLoop, if_neg (by omega)]
      rw [hstop]
      refine ⟨⟨hstart, trivial⟩, ?_, [], p.piece m offset, rfl, by simp, hlast.mpr (by omega)⟩
      simp only [Pieces.content_cons, Pieces.content_nil, List.append_nil, item]
      rw [hchunk, List.take_of_length_le]
      rw [List.length_drop]
      omega

theorem not_isFragmented_iff : p.isFragmented = false ↔ p.IsLast ∧ p.fragmentOffset = 0 := by
  simp [isFragmented, IsLast]

theorem sameHeader_piece (hdf : p.dontFragment = false) (m offset : Nat) : (p.piece m offset).SameHeader p := by
  refine ⟨rfl, rfl, rfl, ?_⟩
  rw [hdf, dontFragment, piece_flags hdf]
  split_ifs <;> rfl

theorem mem_fragmentLoop_iff_cut (hpos : 0 < m) :
    q ∈ p.fragmentLoop m p.payload.length 0 ↔ p.Cut m q := by
  rw [mem_fragmentLoop hpos (by omega), Cut]
  simp only [Nat.zero_add]

theorem payload_ne_nil_of_cut (hpos : 0 < m) (h : p.Cut m q) : q.payload ≠ [] := by
  obtain ⟨j, hj, rfl⟩ := h
  have hlen := length_piece (p := p) m (j * m)
  apply List.ne_nil_of_length_pos
  omega

theorem tiles_fragmentLoop_iff (hdf : p.dontFragment = false) (hm : 8 ∣ m) (hpos : 0 < m)
    (hlong : 0 < p.payload.length) :
    Tiles p (p.fragmentLoop m p.payload.length 0) ↔ p.isFragmented = false := by
  obtain ⟨hcontiguous, hcontent, front, last, heq, hfront, hlast⟩ :=
    fragmentLoop_tiles hdf hm hpos (Nat.zero_add p.payload.length).ge ⟨0, rfl⟩ hlong
  rw [not_isFragmented_iff]
  constructor
  · intro h
    obtain ⟨front', last', heq', -, hlast'⟩ := h.marked
    obtain ⟨rfl, hsame⟩ := List.append_inj' (heq.symm.trans heq') rfl
    obtain rfl : last = last' := by simpa using hsame
    refine ⟨hlast'.mp hlast, ?_⟩
    obtain ⟨q, rest, hhead⟩ : ∃ q rest, p.fragmentLoop m p.payload.length 0 = q :: rest := by
      apply List.exists_cons_of_ne_nil
      simp [heq]
    have hstart := h.contiguous
    rw [hhead] at hcontiguous hstart
    have := hcontiguous.1.symm.trans hstart.1
    omega
  · rintro ⟨hend, hoffset⟩
    refine ⟨?_, by simpa [hoffset] using hcontiguous, hcontent, front, last, heq, hfront, iff_of_true hlast hend⟩
    intro q hq
    obtain ⟨j, -, rfl⟩ := (mem_fragmentLoop_iff_cut hpos).mp hq
    exact sameHeader_piece hdf m _

/-! ### Tiles of a whole datagram -/

variable {ts : List IPv4Packet} {x : Nat}

namespace Tiles

theorem agrees (h : Tiles o ts) (hwhole : o.isFragmented = false) (hq : q ∈ ts) :
    Pieces.PartOf o.payload q.item ∧ (q.IsLast → q.stop = o.payload.length) := by
  obtain ⟨hend, hoffset⟩ := not_isFragmented_iff.mp hwhole
  have hcontiguous := h.contiguous
  rw [hoffset, Nat.zero_mul] at hcontiguous
  refine ⟨h.payload ▸ hcontiguous.partOf hq, fun hlast => ?_⟩
  obtain ⟨front, last, rfl, hfront, -⟩ := h.marked
  obtain rfl : q = last := by
    rcases List.mem_append.mp hq with hq | hq
    · exact absurd hlast (hfront q hq)
    · simpa using hq
  have hstart := (Pieces.contiguous_append.mp hcontiguous).2.1
  rw [← h.payload]
  simp only [Nat.zero_add, item] at hstart
  simp [stop, hstart, item]

theorem isFragmented (h : Tiles o ts) (hproper : Proper ts) (hlong : ts.length ≠ 1) (hq : q ∈ ts) :
    q.isFragmented = true := by
  by_contra hno
  obtain ⟨hlast, hoffset⟩ := not_isFragmented_iff.mp (Bool.not_eq_true _ ▸ hno)
  obtain ⟨front, last, rfl, hfront, -⟩ := h.marked
  obtain rfl : q = last := by
    rcases List.mem_append.mp hq with hq | hq
    · exact absurd hlast (hfront q hq)
    · simpa using hq
  -- what lies in front of the last tile is not empty
  have hstart := (Pieces.contiguous_append.mp h.contiguous).2.1
  cases front with
  | nil => simp at hlong
  | cons f front =>
    have hne : f.payload.length ≠ 0 := by
      intro hnil
      have halone := hproper f (by simp) (List.length_eq_zero_iff.mp hnil)
      simp at halone
    simp only [item, hoffset, Pieces.content_cons, List.length_append] at hstart
    omega

theorem eq_of_holds (h : Tiles o ts) {q' : IPv4Packet} (hq : q ∈ ts) (hq' : q' ∈ ts)
    (hx : Pieces.Holds q.item x) (hx' : Pieces.Holds q'.item x) : q = q' :=
  h.contiguous.eq_of_holds hq hq' hx hx'

theorem whole_iff (h : Tiles o ts) (hwhole : o.isFragmented = false) (hne : ∀ q ∈ ts, q.payload ≠ [])
    {arrived : List IPv4Packet} (hown : ∀ f ∈ arrived, f.key = o.key → f ∈ ts) :
    Whole o.key o.payload.length arrived ↔ ∀ q ∈ ts, q ∈ arrived := by
  constructor
  · intro hall q hq
    obtain ⟨hfits, -⟩ := (h.agrees hwhole hq).1
    have hpos := List.length_pos_of_ne_nil (hne q hq)
    have hself : Pieces.Holds q.item q.item.1 := ⟨le_rfl, by simpa [item] using hpos⟩
    simp only [item] at hfits
    obtain ⟨f, hf, hkey, hholds⟩ := hall.covered q.item.1 (by simp only [item]; omega)
    rwa [h.eq_of_holds hq (hown f hf hkey) hself hholds]
  · intro hall
    obtain ⟨hend, hoffset⟩ := not_isFragmented_iff.mp hwhole
    obtain ⟨front, last, heq, -, hlast⟩ := h.marked
    have hmem : last ∈ ts := by simp [heq]
    refine ⟨fun x hx => ?_, last, hall last hmem, (h.header last hmem).key, hlast.mpr hend⟩
    obtain ⟨q, hq, hholds⟩ := h.contiguous.exists_holds (x := x) (by omega) (by rw [h.payload]; omega)
    exact ⟨q, hall q hq, (h.header q hq).key, hholds⟩

end Tiles

end IPv4Packet

/-! ### Tiles come back as the datagram -/

namespace Feed

open IPv4Packet (Tiles SameHeader Proper)

variable {o : IPv4Packet} {ts : List IPv4Packet} {s : Feed} {e : IPv4Packet × Time}

/-- Fed in any order, any number of times and between other datagrams, the tiles bring `o` back exactly when
the last missing one arrives. -/
def Reassembles (o : IPv4Packet) (ts : List IPv4Packet) : Prop :=
  ∀ s, feeding.ReachableBy (Undisturbed o ts) s → (∃ q ∈ ts, q ∉ s.arrived) →
    (∀ rebuilt ∈ s.returned, rebuilt.key ≠ o.key) ∧
    ∀ q ∈ ts, ∀ now, Undisturbed o ts s (q, now) →
      ((∃ q' ∈ ts, q' ∉ s.arrived ++ [q]) → (s.add (q, now)).returned = s.returned) ∧
      ((∀ q' ∈ ts, q' ∈ s.arrived ++ [q]) →
        ∃ rebuilt, (s.add (q, now)).returned = s.returned ++ [rebuilt] ∧ Restores o rebuilt)

/-- What the set of `o` keeps as its header is one of its tiles. -/
def HeaderOf (o : IPv4Packet) (s : Feed) : Prop :=
  ∀ entry, s.reassembler.sets.lookup o.key = some entry → ∀ head, entry.header = some head → head.SameHeader o

/-- What holds of the set of `o` along a run of its tiles. -/
structure Tiled (o : IPv4Packet) (ts : List IPv4Packet) (s : Feed) : Prop where
  labelled : s.reassembler.Labelled
  own : ∀ f ∈ s.arrived, f.key = o.key → f ∈ ts
  collecting : Collecting o.key o.payload.length s
  keeping : Keeping o.key o.payload.length s
  header : HeaderOf o s
  returned : ¬ Whole o.key o.payload.length s.arrived → ∀ rebuilt ∈ s.returned, rebuilt.key ≠ o.key

theorem tiled_init (h : feeding.init s) : Tiled o ts s := by
  obtain ⟨hsets, harrived, hreturned⟩ := id h
  refine ⟨?_, by simp [harrived], collecting_init h, by simp [Keeping, harrived], ?_, by simp [hreturned]⟩
  · simp [Reassembler.Labelled, hsets]
  · simp [HeaderOf, hsets]

theorem HeaderOf.joined (h : HeaderOf o s) (hkey : e.1.key = o.key) (hsame : e.1.SameHeader o)
    (htime : o.key ∉ s.reassembler.stale e.2) {head : IPv4Packet}
    (hhead : (s.reassembler.joined e.1 e.2).header = some head) : head.SameHeader o := by
  rw [Reassembler.joined, hkey, Reassembler.lookup_expire_of_not_stale htime] at hhead
  cases hlookup : s.reassembler.sets.lookup o.key with
  | none =>
    simp only [hlookup, FragmentSet.record, Option.getD_none, Option.orElse_none, Option.some.injEq] at hhead
    exact hhead ▸ hsame
  | some entry =>
    cases hentry : entry.header with
    | none =>
      simp only [hlookup, hentry, FragmentSet.record, Option.getD_some, Option.orElse_none,
        Option.some.injEq] at hhead
      exact hhead ▸ hsame
    | some first =>
      simp only [hlookup, hentry, FragmentSet.record, Option.getD_some, Option.orElse_some,
        Option.some.injEq] at hhead
      exact hhead ▸ h entry hlookup first hentry

theorem HeaderOf.add (h : HeaderOf o s) (hsame : e.1.key = o.key → e.1.SameHeader o)
    (htime : o.key ∉ s.reassembler.stale e.2) : HeaderOf o (s.add e) := by
  intro entry hlookup head hhead
  change (s.reassembler.add e.1 e.2).1.sets.lookup o.key = some entry at hlookup
  by_cases hkey : e.1.key = o.key
  · rcases s.reassembler.add_cases e.1 e.2 with ⟨-, hadd⟩ | ⟨-, -, -, hsets, -⟩ | ⟨-, -, hsets, -⟩ |
      ⟨_, -, -, hsets, -⟩
    · rw [hadd] at hlookup
      exact h entry hlookup head hhead
    · rw [hsets] at hlookup
      exact h entry (Reassembler.lookup_of_lookup_expire hlookup) head hhead
    · rw [hsets, hkey, AList.lookup_insert] at hlookup
      exact h.joined hkey (hsame hkey) htime (Option.some.inj hlookup ▸ hhead)
    · rw [hsets, hkey, AList.lookup_erase] at hlookup
      cases hlookup
  · rw [Reassembler.lookup_add_of_ne (Ne.symm hkey) htime] at hlookup
    exact h entry hlookup head hhead

theorem mem_of_undisturbed (he : Undisturbed o ts s e) (hkey : e.1.key = o.key) : e.1 ∈ ts :=
  he.own.resolve_right fun hother => hother hkey

section

variable (htiles : Tiles o ts) (hwhole : o.isFragmented = false) (hne : ∀ q ∈ ts, q.payload ≠ [])
  (hfrag : ∀ q ∈ ts, q.isFragmented = true)
include htiles

include hwhole hfrag in
theorem agrees_of_undisturbed (he : Undisturbed o ts s e) : Agrees o.key o.payload.length s e where
  fragment := fun hkey => hfrag _ (mem_of_undisturbed he hkey)
  within := fun hkey => (htiles.agrees hwhole (mem_of_undisturbed he hkey)).1.1
  last := fun hkey => (htiles.agrees hwhole (mem_of_undisturbed he hkey)).2
  inTime := he.inTime
  room := he.room

include hne in
theorem Tiled.spares (h : Tiled o ts s) (he : Undisturbed o ts s e) (hagrees : Agrees o.key o.payload.length s e)
    (hopen : ¬ Whole o.key o.payload.length s.arrived) : Spares o.key s e := by
  intro hkey data hlookup x hx
  obtain ⟨f, hf, hfkey, hitem⟩ := (h.collecting.kept hagrees ⟨hkey, hopen⟩).sound _ _ hlookup
  have hmem := mem_of_undisturbed he hkey
  have hfmem := h.own f hf hfkey
  have hstart : ∀ q ∈ ts, q.item.1 = e.1.item.1 → Pieces.Holds q.item e.1.item.1 := by
    intro q hq heq
    have hpos := List.length_pos_of_ne_nil (hne q hq)
    exact ⟨heq.le, by rw [← heq]; simpa [IPv4Packet.item] using hpos⟩
  obtain rfl : f = e.1 :=
    htiles.eq_of_holds hfmem hmem (hstart f hfmem (by rw [hitem])) (hstart _ hmem rfl)
  exact ⟨e.1.item, .inl rfl, by rwa [hitem]⟩

include hwhole hne hfrag in
theorem Tiled.add (h : Tiled o ts s) (he : Undisturbed o ts s e) : Tiled o ts (s.add e) := by
  have hagrees := agrees_of_undisturbed htiles hwhole hfrag he
  obtain ⟨hlabelled, hkeys⟩ := h.labelled.add e.1 e.2
  refine ⟨hlabelled, ?_, h.collecting.add hagrees, ?_, ?_, ?_⟩
  · intro f hf hkey
    rcases List.mem_append.mp hf with hf | hf
    · exact h.own f hf hkey
    · obtain rfl := List.mem_singleton.mp hf
      exact mem_of_undisturbed he hkey
  · by_cases hopen : Whole o.key o.payload.length s.arrived
    · exact fun hhole => absurd (hopen.append [e.1]) hhole
    · exact h.keeping.add h.collecting hagrees (h.spares htiles hne he hagrees hopen)
  · exact h.header.add (fun hkey => htiles.header _ (mem_of_undisturbed he hkey)) he.inTime
  · intro hhole rebuilt hmem
    change ¬ Whole o.key o.payload.length (s.arrived ++ [e.1]) at hhole
    rcases List.mem_append.mp hmem with hmem | hmem
    · exact h.returned (fun hopen => hhole (hopen.append [e.1])) rebuilt hmem
    · rw [hkeys rebuilt (Option.mem_toList.mp hmem)]
      intro hkey
      -- a tile that leaves a hole brings nothing back
      have hprompt := (h.collecting.prompt_iff hagrees).mpr (fun _ hall => absurd hall hhole)
      have hnone := (hprompt (awaited_of_hole hkey hhole)).2 hhole
      rw [hnone] at hmem
      cases hmem

include hwhole hne hfrag in
theorem tiled_of_reachable (hs : feeding.ReachableBy (Undisturbed o ts) s) : Tiled o ts s :=
  Machine.ReachableBy.induction feeding (P := Tiled o ts) (fun _ => tiled_init)
    (fun _ _ _ h he => h.add htiles hwhole hne hfrag he) hs

include hwhole in
theorem payload_of_madeOf {arrived : List IPv4Packet} {payload : Bytes}
    (hown : ∀ f ∈ arrived, f.key = o.key → f ∈ ts) (h : MadeOf o.key o.payload.length arrived payload) :
    payload = o.payload := by
  apply List.ext_getElem?
  intro x
  by_cases hx : x < o.payload.length
  · obtain ⟨f, hf, hkey, ⟨hle, hlt⟩, heq⟩ := h.bytes x hx
    obtain ⟨hfits, hpart⟩ := (htiles.agrees hwhole (hown f hf hkey)).1
    have hdata : f.payload = (o.payload.drop f.item.1).take f.payload.length := hpart
    simp only [IPv4Packet.item] at hle hlt heq hdata
    rw [heq, hdata, List.getElem?_take_of_lt (by omega), List.getElem?_drop]
    congr 1
    omega
  · rw [List.getElem?_eq_none (by rw [h.length]; omega), List.getElem?_eq_none (by omega)]

include hwhole hne hfrag in
theorem Tiled.add_last (h : Tiled o ts s) (he : Undisturbed o ts s e) (hkey : e.1.key = o.key)
    (hopen : ¬ Whole o.key o.payload.length s.arrived)
    (hall : Whole o.key o.payload.length (s.arrived ++ [e.1])) :
    ∃ rebuilt, (s.add e).returned = s.returned ++ [rebuilt] ∧ Restores o rebuilt := by
  have hagrees := agrees_of_undisturbed htiles hwhole hfrag he
  have hspares := h.spares htiles hne he hagrees hopen
  have hprompt : Prompt o.key o.payload.length s e := by
    refine (h.collecting.prompt_iff hagrees).mpr fun hawaited hfull x hx => ?_
    obtain ⟨f, hf, hfkey, hholds⟩ := hfull.covered x hx
    exact h.keeping.held hagrees hspares hawaited hf hfkey hholds
  obtain ⟨rebuilt, hadd, hmade⟩ := (hprompt ⟨hkey, hopen⟩).1 hall
  have hown := (h.add htiles hwhole hne hfrag he).own
  have hpayload := payload_of_madeOf htiles hwhole hown hmade
  have hmem := mem_of_undisturbed he hkey
  obtain ⟨head, hhead, hrkey, httl, hdscp, hflags, hoffset⟩ :
      ∃ head, (s.reassembler.joined e.1 e.2).header = some head ∧ rebuilt.key = head.key ∧
        rebuilt.ttl = head.ttl ∧ rebuilt.dscp = head.dscp ∧ rebuilt.flags = 0 ∧ rebuilt.fragmentOffset = 0 := by
    apply Reassembler.header_of_tryComplete
    rcases s.reassembler.add_cases e.1 e.2 with ⟨hno, -⟩ | ⟨-, -, -, -, hnone⟩ | ⟨-, -, -, hnone⟩ |
      ⟨rebuilt', -, htry, -, hsome⟩
    · rw [hfrag _ hmem] at hno
      cases hno
    · simp [hadd] at hnone
    · simp [hadd] at hnone
    · rw [hadd] at hsome
      rw [htry, hsome]
  have hsame := h.header.joined hkey (htiles.header _ hmem) he.inTime hhead
  have hfields := hrkey.trans hsame.key
  simp only [IPv4Packet.key, Prod.mk.injEq] at hfields
  obtain ⟨hsrc, hdst, hprotocol, hid⟩ := hfields
  refine ⟨rebuilt, by simp [Feed.add, hadd], hsrc, hdst, hprotocol, hpayload, httl.trans hsame.ttl, hid,
    hdscp.trans hsame.dscp, not_isFragmented_of_no_flags hflags hoffset, not_dontFragment_of_no_flags hflags⟩

end

theorem reassembles_of_tiles (htiles : Tiles o ts) (hwhole : o.isFragmented = false)
    (hdf : o.dontFragment = false) (hproper : Proper ts) : Reassembles o ts := by
  rintro s hs ⟨q', hq', hmissing⟩
  by_cases hone : ts.length = 1
  · -- a datagram that was not cut
    obtain ⟨q, rfl⟩ := List.length_eq_one_iff.mp hone
    obtain rfl := List.mem_singleton.mp hq'
    have hsame := htiles.header q' (by simp)
    have hkey := hsame.key
    have hs' : feeding.ReachableBy (Undisturbed q' [q']) s :=
      hs.mono feeding fun s e he => ⟨by rw [hkey]; exact he.own, by rw [hkey]; exact he.inTime,
        by rw [hkey]; exact he.room⟩
    obtain ⟨hend, hoffset⟩ := IPv4Packet.not_isFragmented_iff.mp hwhole
    have hno : q'.isFragmented = false := by
      obtain ⟨front, last, heq, -, hlast⟩ := htiles.marked
      obtain rfl : q' = last := by
        have hlen := congrArg List.length heq
        obtain rfl := List.length_eq_zero_iff.mp (by simpa using hlen)
        simpa using heq
      have hstart := htiles.contiguous.1
      simp only [IPv4Packet.item, hoffset] at hstart
      exact IPv4Packet.not_isFragmented_iff.mpr ⟨hlast.mpr hend, by omega⟩
    refine ⟨fun rebuilt hmem => hkey ▸ untouched_of_missing hs' hmissing rebuilt hmem, ?_⟩
    intro q hq now _
    obtain rfl := List.mem_singleton.mp hq
    refine ⟨fun hwaits => ?_, fun _ => ?_⟩
    · obtain ⟨q', hq', hnot⟩ := hwaits
      exact absurd (by simp [List.mem_singleton.mp hq']) hnot
    have hfields := hkey
    simp only [IPv4Packet.key, Prod.mk.injEq] at hfields
    obtain ⟨hsrc, hdst, hprotocol, hid⟩ := hfields
    have hpayload : q.payload = o.payload := by simpa [IPv4Packet.item] using htiles.payload
    refine ⟨q, by simp [Feed.add, Reassembler.add, hno], hsrc, hdst, hprotocol, hpayload, hsame.ttl, hid,
      hsame.dscp, hno, hsame.dontFragment.trans hdf⟩
  · have hfrag : ∀ q ∈ ts, q.isFragmented = true := fun q hq => htiles.isFragmented hproper hone hq
    have hne : ∀ q ∈ ts, q.payload ≠ [] := by
      intro q hq hnil
      rw [hproper q hq hnil] at hone
      exact hone rfl
    have h := tiled_of_reachable htiles hwhole hne hfrag hs
    have hopen : ¬ Whole o.key o.payload.length s.arrived := fun hall =>
      hmissing ((htiles.whole_iff hwhole hne h.own).mp hall q' hq')
    refine ⟨h.returned hopen, ?_⟩
    intro q hq now he
    have hkey := (htiles.header q hq).key
    have hnext := h.add htiles hwhole hne hfrag he
    have hiff := htiles.whole_iff hwhole hne hnext.own
    constructor
    · rintro ⟨other, hother, hnot⟩
      have hhole : ¬ Whole o.key o.payload.length (s.arrived ++ [q]) := fun hall => hnot (hiff.mp hall other hother)
      have hprompt := (h.collecting.prompt_iff (agrees_of_undisturbed htiles hwhole hfrag he)).mpr
        (fun _ hall => absurd hall hhole)
      simp [Feed.add, (hprompt (awaited_of_hole hkey hhole)).2 hhole]
    · intro hall
      exact h.add_last htiles hwhole hne hfrag he hkey hopen (hiff.mpr hall)

end Feed

namespace IPv4Packet

variable {p : IPv4Packet} {mtu : Nat}

/-- The pieces that `fragment` makes of a datagram, whole or itself a piece, tile its place, so that they may
stand for it among the tiles of its own datagram, exactly when it is not cut or is no fragment. -/
theorem recut_iff (hoptions : p.options = []) (hdf : p.dontFragment = false) (hmtu : MIN_MTU ≤ mtu) :
    (∃ pieces, fragment p mtu = .ok pieces ∧ Tiles p pieces ∧
      ∀ o before after, o.isFragmented = false → Tiles o (before ++ p :: after) → Proper (before ++ p :: after) →
        Feed.Reassembles o (before ++ (pieces ++ after))) ↔
      p.totalLength ≤ mtu ∨ p.isFragmented = false := by
  have hreassembles : ∀ {pieces o before after}, Tiles p pieces → o.isFragmented = false →
      Tiles o (before ++ p :: after) → Proper (before ++ (pieces ++ after)) →
      Feed.Reassembles o (before ++ (pieces ++ after)) := by
    intro pieces o before after hp hwhole htiles hproper
    have hsame := htiles.header p (by simp)
    exact Feed.reassembles_of_tiles (htiles.substitute hp) hwhole (hsame.dontFragment.symm.trans hdf) hproper
  rcases fragment_eq hoptions hdf hmtu with ⟨hfits, hok⟩ | ⟨m, hm, hpos, -, hlong, hbig, hok⟩
  · refine iff_of_true ⟨[p], hok, tiles_self p, ?_⟩ (.inl hfits)
    intro o before after hwhole htiles hproper
    exact hreassembles (tiles_self p) hwhole htiles hproper
  · have htiles := tiles_fragmentLoop_iff hdf hm hpos (by omega)
    rw [or_iff_right (not_le.mpr hbig), ← htiles]
    constructor
    · rintro ⟨pieces, hok', hp, -⟩
      rwa [Except.ok.inj (hok.symm.trans hok')]
    · intro hp
      refine ⟨_, hok, hp, ?_⟩
      intro o before after hwhole htiles hproper
      refine hreassembles hp hwhole htiles ?_
      intro q hq hnil
      -- then the empty tile would be `p`
      have hmem : q ∈ before ++ p :: after := by
        simp only [List.mem_append, List.mem_cons] at hq ⊢
        rcases hq with hq | hq | hq
        · exact .inl hq
        · exact absurd hnil (payload_ne_nil_of_cut hpos ((mem_fragmentLoop_iff_cut hpos).mp hq))
        · exact .inr (.inr hq)
      have hp : p ∈ [q] := by
        rw [← hproper q hmem hnil]
        simp
      rw [List.mem_singleton.mp hp, hnil] at hlong
      simp at hlong

/-- 56 bytes at offset 48 of a longer datagram, with more to come. -/
def middle : IPv4Packet := { Feed.sample with flags := FLAG_MF, fragmentOffset := 6 }

/-- A whole datagram is cut into tiles. -/
theorem recut_sample : ∃ pieces, fragment Feed.sample 68 = .ok pieces ∧ Tiles Feed.sample pieces := by
  obtain ⟨pieces, hok, htiles, -⟩ := (recut_iff (p := Feed.sample) rfl rfl (le_refl MIN_MTU)).mpr (.inr rfl)
  exact ⟨pieces, hok, htiles⟩

/-- The pieces of a fragment say that they begin the datagram, and the last one that it ends there. -/
theorem middle_not_tiled :
    (∃ first last, fragment middle 68 = .ok [first, last] ∧ first.fragmentOffset = 0 ∧
      last.fragmentOffset = 6 ∧ last.IsLast ∧ ¬ middle.IsLast) ∧
      ∀ pieces, fragment middle 68 = .ok pieces → ¬ Tiles middle pieces := by
  have hok : fragment middle 68 = .ok [middle.piece 48 0, middle.piece 48 48] := by decide +kernel
  refine ⟨⟨_, _, hok, rfl, rfl, by decide, by decide⟩, ?_⟩
  rintro pieces hpieces h
  obtain rfl := Except.ok.inj (hok.symm.trans hpieces)
  exact absurd h.contiguous.1 (by decide)

end IPv4Packet

end MiniTcp
