import MiniTcp.Lib.Tlv
import MiniTcp.Net.Tcp.Wire

/-!
# Options, item by item

`applyItem` says what one item of the option area means, and `parse` applies the items in order until the list
ends (`parse_items`). `parseChecked` is the loop of the source with its positions, where a read outside the
buffer raises: there is none.

Every part that `to_bytes` writes is such an item. But it writes an option for each SACK block, and an option
takes the place of the one before, so options come back exactly when they have at most one block
(`parse_toBytes_iff`).
-/

namespace MiniTcp

open Tlv (Item Ends encode)

namespace TCPOptions

variable {o : TCPOptions} {front rest tail body : Bytes} {kind : UInt8} {items : List Item}

/-! ### What an item means -/

/-- The pairs of numbers in the body of a SACK option. -/
def pairs : Bytes → List (Nat × Nat)
  | a :: b :: c :: d :: e :: f :: g :: h :: rest =>
    (unpackH a b * 65536 + unpackH c d, unpackH e f * 65536 + unpackH g h) :: pairs rest
  | _ => []

/-- The kinds with the lengths they must have. -/
def Recognised (kind : UInt8) (length : Nat) : Prop :=
  kind = OPT_MSS ∧ length = 4 ∨ kind = OPT_WINDOW_SCALE ∧ length = 3 ∨ kind = OPT_SACK_PERMITTED ∧ length = 2 ∨
    kind = OPT_TIMESTAMP ∧ length = 10 ∨ kind = OPT_SACK ∧ 10 ≤ length

def Ignored : Item → Prop
  | .nop => True
  | .option kind body _ _ => ¬ Recognised kind (body.length + 2)

instance (kind : UInt8) (length : Nat) : Decidable (Recognised kind length) :=
  inferInstanceAs (Decidable (_ ∨ _))

instance : DecidablePred Ignored
  | .nop => isTrue trivial
  | .option kind body _ _ => inferInstanceAs (Decidable (¬ Recognised kind (body.length + 2)))

/-- The options after one more item. -/
def applyItem (o : TCPOptions) : Item → TCPOptions
  | .nop => o
  | .option kind body _ _ =>
    match kind.toNat, body with
    | 2, [a, b] => { o with mss := some (unpackH a b) }
    | 3, [scale] => { o with windowScale := some scale.toNat }
    | 4, [] => { o with sackPermitted := true }
    | 8, [a, b, c, d, e, f, g, h] =>
      { o with
        timestamp := some (unpackH a b * 65536 + unpackH c d)
        timestampEcho := some (unpackH e f * 65536 + unpackH g h) }
    | 5, body => if 8 ≤ body.length then { o with sackBlocks := pairs body } else o
    | _, _ => o

theorem exists_eight (h : 8 ≤ body.length) :
    ∃ a b c d e f g h rest, body = a :: b :: c :: d :: e :: f :: g :: h :: rest := by
  obtain _ | ⟨a, _ | ⟨b, _ | ⟨c, _ | ⟨d, _ | ⟨e, _ | ⟨f, _ | ⟨g, _ | ⟨i, rest⟩⟩⟩⟩⟩⟩⟩⟩ := body
  case cons.cons.cons.cons.cons.cons.cons.cons => exact ⟨a, b, c, d, e, f, g, i, rest, rfl⟩
  all_goals simp at h

theorem exists_eq_eight (h : body.length = 8) : ∃ a b c d e f g h, body = [a, b, c, d, e, f, g, h] := by
  obtain ⟨a, b, c, d, e, f, g, i, rest, rfl⟩ := exists_eight h.ge
  obtain rfl : rest = [] := List.length_eq_zero_iff.mp (Nat.add_right_cancel (m := 8) (h.trans (Nat.zero_add 8).symm))
  exact ⟨a, b, c, d, e, f, g, i, rfl⟩

theorem blocksOf_eq_pairs (body : Bytes) : blocksOf body = pairs body := by
  induction body using pairs.induct with
  | case1 a b c d e f g h rest ih =>
    have hlength : (a :: b :: c :: d :: e :: f :: g :: h :: rest).length / 8 = rest.length / 8 + 1 := by
      simp only [List.length_cons]
      omega
    have hshift : ∀ i, u32At (a :: b :: c :: d :: e :: f :: g :: h :: rest) (8 + i) = u32At rest i := by
      intro i
      have hfront : [a, b, c, d, e, f, g, h].length = 8 := rfl
      have happend : a :: b :: c :: d :: e :: f :: g :: h :: rest = [a, b, c, d, e, f, g, h] ++ rest := rfl
      rw [happend, u32At, u32At, u16At_append hfront, Nat.add_assoc, u16At_append hfront]
    rw [pairs, ← ih, blocksOf, hlength, List.range_succ_eq_map, List.map_cons, List.map_map]
    refine congrArg₂ List.cons rfl (List.map_congr_left fun i _ => ?_)
    have hindex : 8 * i.succ = 8 + 8 * i := by omega
    simp only [Function.comp_apply, hindex, Nat.add_assoc, hshift]
  | case2 body hno =>
    have hshort : body.length / 8 = 0 := by
      rw [Nat.div_eq_zero_iff_lt (by decide), ← Nat.not_le]
      intro hlong
      obtain ⟨a, b, c, d, e, f, g, h, rest, heq⟩ := exists_eight hlong
      exact hno a b c d e f g h rest heq
    rw [pairs, blocksOf, hshort]
    · rfl
    · exact hno

theorem read_of_not_recognised (o : TCPOptions) (h : ¬ Recognised kind (body.length + 2)) :
    o.read kind (body.length + 2) body = o := by
  simp only [Recognised, not_or] at h
  obtain ⟨h1, h2, h3, h4, h5⟩ := h
  rw [read, if_neg h1, if_neg h2, if_neg h3, if_neg h4, if_neg fun hsack => h5 ⟨hsack.1, by omega⟩]

theorem read_eq_applyItem (o : TCPOptions) (kind : UInt8) (body : Bytes) (hkind : 2 ≤ kind.toNat)
    (hshort : body.length ≤ 253) :
    o.read kind (body.length + 2) body = o.applyItem (.option kind body hkind hshort) := by
  have hkindEq : ∀ {k : UInt8}, kind.toNat = k.toNat → kind = k := UInt8.toNat_inj.mp
  unfold applyItem
  dsimp only
  split
  · rename_i h
    rw [hkindEq (k := OPT_MSS) h]
    rfl
  · rename_i h
    rw [hkindEq (k := OPT_WINDOW_SCALE) h]
    rfl
  · rename_i h
    rw [hkindEq (k := OPT_SACK_PERMITTED) h]
    rfl
  · rename_i h
    rw [hkindEq (k := OPT_TIMESTAMP) h]
    rfl
  · rename_i h
    rw [hkindEq (k := OPT_SACK) h, ← blocksOf_eq_pairs, read, if_neg (by simp [OPT_SACK, OPT_MSS]),
      if_neg (by simp [OPT_SACK, OPT_WINDOW_SCALE]), if_neg (by simp [OPT_SACK, OPT_SACK_PERMITTED]),
      if_neg (by simp [OPT_SACK, OPT_TIMESTAMP])]
    simp only [true_and]
  · rename_i body _ _ _ _ hsack hmss hscale hpermitted htimestamp
    have hno : ¬ Recognised kind (body.length + 2) := by
      rintro (⟨rfl, h⟩ | ⟨rfl, h⟩ | ⟨rfl, h⟩ | ⟨rfl, h⟩ | ⟨rfl, -⟩)
      · obtain ⟨a, b, rfl⟩ := List.length_eq_two.mp (Nat.add_right_cancel h)
        exact hmss a b _ rfl rfl HEq.rfl
      · obtain ⟨a, rfl⟩ := List.length_eq_one_iff.mp (Nat.add_right_cancel (k := 1) h)
        exact hscale a _ rfl rfl HEq.rfl
      · obtain rfl := List.length_eq_zero_iff.mp (Nat.add_right_cancel (k := 0) h)
        exact hpermitted _ rfl rfl HEq.rfl
      · obtain ⟨a, b, c, d, e, f, g, i, rfl⟩ := exists_eq_eight (Nat.add_right_cancel h)
        exact htimestamp a b c d e f g i _ rfl rfl HEq.rfl
      · exact hsack rfl
    exact read_of_not_recognised o hno

theorem applyItem_of_ignored {item : Item} (h : Ignored item) (o : TCPOptions) : o.applyItem item = o := by
  cases item with
  | nop => rfl
  | option kind body hkind hshort =>
    rw [← read_eq_applyItem, read_of_not_recognised o h]

/-! ### The loop with its positions -/

/-- What a read raises that does not stay inside the buffer. -/
inductive ReadError where
  | indexError
  | structError
  deriving DecidableEq, Repr

@[simp] theorem read_bind {α β : Type} (a : α) (f : α → Except ReadError β) : Except.ok a >>= f = f a := rfl

/-- `data[pos]` -/
def indexAt (data : Bytes) (pos : Nat) : Except ReadError UInt8 :=
  match data[pos]? with
  | some byte => .ok byte
  | none => .error .indexError

/-- `struct.unpack("!H", body)[0]` -/
def unpackShort : Bytes → Except ReadError Nat
  | [a, b] => .ok (unpackH a b)
  | _ => .error .structError

/-- `struct.unpack("!II", body)` -/
def unpackPair : Bytes → Except ReadError (Nat × Nat)
  | [a, b, c, d, e, f, g, h] =>
    .ok (unpackH a b * 65536 + unpackH c d, unpackH e f * 65536 + unpackH g h)
  | _ => .error .structError

/-- `struct.unpack_from("!II", body, offset)` -/
def unpackPairFrom (body : Bytes) (offset : Nat) : Except ReadError (Nat × Nat) :=
  if offset + 8 ≤ body.length then .ok (u32At body offset, u32At body (offset + 4)) else .error .structError

/-- What one item sets, with every read checked. -/
def readChecked (o : TCPOptions) (kind : UInt8) (length : Nat) (body : Bytes) : Except ReadError TCPOptions :=
  if kind = OPT_MSS ∧ length = 4 then do
    let mss ← unpackShort body
    return { o with mss := some mss }
  else if kind = OPT_WINDOW_SCALE ∧ length = 3 then do
    let scale ← indexAt body 0
    return { o with windowScale := some scale.toNat }
  else if kind = OPT_SACK_PERMITTED ∧ length = 2 then return { o with sackPermitted := true }
  else if kind = OPT_TIMESTAMP ∧ length = 10 then do
    let pair ← unpackPair body
    return { o with timestamp := some pair.1, timestampEcho := some pair.2 }
  else if kind = OPT_SACK ∧ 8 ≤ body.length then do
    -- `range(0, len(body) - 7, 8)`
    let blocks ← (List.range' 0 (body.length / 8) 8).mapM (unpackPairFrom body)
    return { o with sackBlocks := blocks }
  else return o

/-- The loop of `parse` from position `pos` on, with every read checked. -/
def walkFrom (data : Bytes) (pos : Nat) (o : TCPOptions) : Except ReadError TCPOptions :=
  if pos < data.length then do
    let kind ← indexAt data pos
    if kind = OPT_END then return o
    else if kind = OPT_NOP then walkFrom data (pos + 1) o
    else if data.length ≤ pos + 1 then return o
    else
      let size ← indexAt data (pos + 1)
      let length := size.toNat
      if length < 2 ∨ data.length < pos + length then return o
      else
        let o ← o.readChecked kind length ((data.take (pos + length)).drop (pos + 2))
        walkFrom data (pos + length) o
  else return o
termination_by data.length - pos

def parseChecked (data : Bytes) : Except ReadError TCPOptions := walkFrom data 0 {}

theorem indexAt_append (front : Bytes) (byte : UInt8) (rest : Bytes) :
    indexAt (front ++ byte :: rest) front.length = .ok byte := by
  simp [indexAt]

theorem indexAt_append_succ (front : Bytes) (byte next : UInt8) (rest : Bytes) :
    indexAt (front ++ byte :: next :: rest) (front.length + 1) = .ok next := by
  have h := indexAt_append (front ++ [byte]) next rest
  rwa [List.append_assoc, List.length_append] at h

theorem mapM_eq_ok {α β : Type} {f : α → Except ReadError β} {g : α → β} {xs : List α}
    (h : ∀ x ∈ xs, f x = .ok (g x)) : xs.mapM f = .ok (xs.map g) := by
  induction xs with
  | nil => rfl
  | cons x xs ih =>
    rw [List.mapM_cons, h x List.mem_cons_self, read_bind,
      ih fun y hy => h y (List.mem_cons_of_mem x hy), read_bind]
    rfl

theorem unpackBlocks_eq (body : Bytes) :
    (List.range' 0 (body.length / 8) 8).mapM (unpackPairFrom body) = .ok (blocksOf body) := by
  have hoffsets : List.range' 0 (body.length / 8) 8 = (List.range (body.length / 8)).map (8 * ·) := by
    apply List.ext_getElem <;> simp
  rw [hoffsets, mapM_eq_ok (g := fun i => (u32At body i, u32At body (i + 4))), List.map_map]
  · rfl
  · intro i hi
    obtain ⟨j, hj, rfl⟩ := List.mem_map.mp hi
    rw [List.mem_range] at hj
    exact if_pos (by omega)

theorem readChecked_eq (o : TCPOptions) (kind : UInt8) (body : Bytes) :
    o.readChecked kind (body.length + 2) body = .ok (o.read kind (body.length + 2) body) := by
  rw [readChecked, read]
  split_ifs with hmss hscale hpermitted htimestamp hsack
  · obtain ⟨a, b, rfl⟩ := List.length_eq_two.mp (Nat.add_right_cancel hmss.2)
    rfl
  · obtain ⟨a, rfl⟩ := List.length_eq_one_iff.mp (Nat.add_right_cancel (k := 1) hscale.2)
    rfl
  · rfl
  · obtain ⟨a, b, c, d, e, f, g, h, rfl⟩ := exists_eq_eight (Nat.add_right_cancel htimestamp.2)
    rfl
  · rw [unpackBlocks_eq]
    rfl
  · rfl

/-! ### The loop, item by item -/

theorem ne_of_two_le (hkind : 2 ≤ kind.toNat) : kind ≠ OPT_END ∧ kind ≠ OPT_NOP := by
  constructor <;> rintro rfl <;> revert hkind <;> decide

theorem walkFrom_nop (front rest : Bytes) (o : TCPOptions) :
    walkFrom (front ++ 1 :: rest) front.length o = walkFrom (front ++ 1 :: rest) (front.length + 1) o := by
  rw [walkFrom, if_pos (by simp), indexAt_append, read_bind, if_neg (by decide), if_pos (by decide)]

theorem walkFrom_option (front body rest : Bytes) (kind size : UInt8) (o : TCPOptions) (hkind : 2 ≤ kind.toNat)
    (hsize : size.toNat = body.length + 2) :
    walkFrom (front ++ kind :: size :: (body ++ rest)) front.length o =
      walkFrom (front ++ kind :: size :: (body ++ rest)) (front.length + (body.length + 2))
        (o.read kind (body.length + 2) body) := by
  have hbody : ((front ++ kind :: size :: (body ++ rest)).take (front.length + (body.length + 2))).drop
      (front.length + 2) = body := by
    rw [List.take_length_add_append, List.drop_length_add_append]
    simp
  obtain ⟨hend, hnop⟩ := ne_of_two_le hkind
  rw [walkFrom, if_pos (by simp), indexAt_append, read_bind, if_neg hend, if_neg hnop, if_neg (by simp),
    indexAt_append_succ, read_bind]
  dsimp only
  rw [hsize, if_neg (by simp only [List.length_append, List.length_cons]; omega), hbody, readChecked_eq, read_bind]

theorem walkFrom_item (front rest : Bytes) (item : Item) (o : TCPOptions) :
    walkFrom (front ++ (item.bytes ++ rest)) front.length o =
      walkFrom (front ++ (item.bytes ++ rest)) (front.length + item.bytes.length) (o.applyItem item) := by
  cases item with
  | nop => exact walkFrom_nop front rest o
  | option kind body hkind hshort =>
    rw [← read_eq_applyItem]
    exact walkFrom_option front body rest kind _ o hkind (Tlv.toNat_size hshort)

theorem walkFrom_ends (front : Bytes) (o : TCPOptions) (htail : Ends tail) :
    walkFrom (front ++ tail) front.length o = .ok o := by
  rw [walkFrom]
  cases htail with
  | nil =>
    rw [if_neg (by simp)]
    rfl
  | eol rest =>
    rw [if_pos (by simp), indexAt_append, read_bind, if_pos (by decide)]
    rfl
  | cut kind hkind =>
    obtain ⟨hend, hnop⟩ := ne_of_two_le hkind
    rw [if_pos (by simp), indexAt_append, read_bind, if_neg hend, if_neg hnop, if_pos (by simp)]
    rfl
  | short kind size rest hkind hsize =>
    obtain ⟨hend, hnop⟩ := ne_of_two_le hkind
    rw [if_pos (by simp), indexAt_append, read_bind, if_neg hend, if_neg hnop, if_neg (by simp),
      indexAt_append_succ, read_bind]
    dsimp only
    rw [if_pos (Or.inl hsize)]
    rfl
  | past kind size rest hkind hsize =>
    obtain ⟨hend, hnop⟩ := ne_of_two_le hkind
    rw [if_pos (by simp), indexAt_append, read_bind, if_neg hend, if_neg hnop, if_neg (by simp),
      indexAt_append_succ, read_bind]
    dsimp only
    rw [if_pos (Or.inr (by rw [List.length_append]; omega))]
    rfl

theorem walkFrom_items (htail : Ends tail) (items : List Item) (front : Bytes) (o : TCPOptions) :
    walkFrom (front ++ (encode items ++ tail)) front.length o = .ok (items.foldl applyItem o) := by
  induction items generalizing front o with
  | nil => exact walkFrom_ends front o htail
  | cons item items ih =>
    rw [Tlv.encode_cons, List.append_assoc, walkFrom_item, ← List.append_assoc, ← List.length_append, ih,
      List.foldl_cons]

/-! ### The same for `walk` -/

theorem walkAll_bytes (item : Item) (rest : Bytes) (o : TCPOptions) :
    walkAll (item.bytes ++ rest) o = walkAll rest (o.applyItem item) := by
  cases item with
  | nop => rfl
  | option kind body hkind hshort =>
    obtain ⟨hend, hnop⟩ := ne_of_two_le hkind
    have hsize := Tlv.toNat_size hshort
    have h := walkAll_item kind _ body rest o hend hnop hsize
    rwa [hsize, read_eq_applyItem o kind body hkind hshort] at h

theorem walkAll_ends (o : TCPOptions) (htail : Ends tail) : walkAll tail o = o := by
  cases htail with
  | nil => rfl
  | eol rest => rfl
  | cut kind hkind =>
    obtain ⟨hend, hnop⟩ := ne_of_two_le hkind
    rw [walkAll, List.length_singleton, walk, if_neg hend, if_neg hnop]
  | short kind size rest hkind hsize =>
    obtain ⟨hend, hnop⟩ := ne_of_two_le hkind
    rw [walkAll, List.length_cons, walk, if_neg hend, if_neg hnop]
    exact if_pos (Or.inl hsize)
  | past kind size rest hkind hsize =>
    obtain ⟨hend, hnop⟩ := ne_of_two_le hkind
    rw [walkAll, List.length_cons, walk, if_neg hend, if_neg hnop]
    exact if_pos (Or.inr hsize)

theorem walkAll_items (htail : Ends tail) (items : List Item) (o : TCPOptions) :
    walkAll (encode items ++ tail) o = items.foldl applyItem o := by
  induction items generalizing o with
  | nil => exact walkAll_ends o htail
  | cons item items ih => rw [Tlv.encode_cons, List.append_assoc, walkAll_bytes, ih, List.foldl_cons]

theorem parseChecked_eq (data : Bytes) : parseChecked data = .ok (parse data) := by
  obtain ⟨items, tail, rfl, htail⟩ := Tlv.exists_items data
  have hchecked := walkFrom_items htail items [] {}
  have hwalk := walkAll_items htail items {}
  exact hchecked.trans (congrArg _ hwalk.symm)

theorem foldl_applyItem (items : List Item) (o : TCPOptions) :
    items.foldl applyItem o = (items.filter (¬ Ignored ·)).foldl applyItem o := by
  induction items generalizing o with
  | nil => rfl
  | cons item items ih =>
    rw [List.foldl_cons, ih, List.filter_cons]
    by_cases h : Ignored item
    · rw [if_neg (by simpa using h), applyItem_of_ignored h]
    · rw [if_pos (by simpa using h), List.foldl_cons]

/-- The walk ends with every read inside the buffer and applies the recognised items in order; nothing else in
the option area counts. -/
theorem parse_items (htail : Ends tail) (items : List Item) :
    parseChecked (encode items ++ tail) = .ok ((items.filter (¬ Ignored ·)).foldl applyItem {}) ∧
      parse (encode items ++ tail) = (items.filter (¬ Ignored ·)).foldl applyItem {} ∧
      ∀ items' tail', Ends tail' → items'.filter (¬ Ignored ·) = items.filter (¬ Ignored ·) →
        parseChecked (encode items' ++ tail') = parseChecked (encode items ++ tail) ∧
          parse (encode items' ++ tail') = parse (encode items ++ tail) := by
  have hparse : ∀ {items tail}, Ends tail →
      parse (encode items ++ tail) = (items.filter (¬ Ignored ·)).foldl applyItem {} := by
    intro items tail htail
    rw [← foldl_applyItem]
    exact walkAll_items htail items {}
  refine ⟨by rw [parseChecked_eq, hparse htail], hparse htail, fun items' tail' htail' hsame => ?_⟩
  rw [parseChecked_eq, parseChecked_eq, hparse htail', hparse htail, hsame]
  exact ⟨rfl, rfl⟩

/-- MSS 1460, a filler byte and an unknown option, then an option that claims nine bytes. -/
theorem parse_items_sample :
    parseChecked [2, 4, 5, 180, 1, 30, 3, 7, 3, 9] = .ok { mss := some 1460 } :=
  (parse_items (show Ends [3, 9] from .past 3 9 [] (by decide) (by decide))
    [.option 2 [5, 180] (by decide) (by decide), .nop, .option 30 [7] (by decide) (by decide)]).1

/-! ### What `to_bytes` wrote -/

/-- Options come back if they have no more than one SACK block, and only then. -/
theorem parse_toBytes_iff {o : TCPOptions} {data : Bytes} (hwords : o.FitsWords) (h : o.toBytes = .ok data) :
    (parse data = o ∧ data.length % 4 = 0 ∧ data.length ≤ 40) ↔ o.sackBlocks.length ≤ 1 := by
  obtain ⟨-, -, -, -, -, -, haligned, hlength⟩ := toBytes_parts h
  rw [and_iff_left ⟨haligned, hlength⟩]
  constructor
  · intro hsame
    rw [hwords.parse_eq h] at hsame
    rw [← congrArg sackBlocks hsame]
    cases o.sackBlocks.getLast? with
    | none => exact Nat.zero_le 1
    | some b => exact Nat.le_refl 1
  · intro hsingle
    exact InWireRange.parse_toBytes
      { timestamp := hwords.timestamp
        echo := hwords.echo
        paired := hwords.paired
        blocks := hwords.blocks
        single := hsingle } h

def oneBlock : TCPOptions where
  mss := some 1460
  sackBlocks := [(1000, 2000)]

theorem parse_toBytes_oneBlock :
    parse [2, 4, 5, 180, 5, 10, 0, 0, 3, 232, 0, 0, 7, 208, 1, 1] = oneBlock :=
  ((parse_toBytes_iff (o := oneBlock) ⟨nofun, nofun, rfl, by decide⟩ rfl).mpr (by decide)).1

def twoBlocks : TCPOptions where
  sackBlocks := [(1000, 2000), (3000, 4000)]

/-- Of two blocks the second comes back. -/
theorem parse_toBytes_twoBlocks :
    ¬ ∀ (o : TCPOptions) (data : Bytes), o.FitsWords → o.toBytes = .ok data →
      parse data = o ∧ data.length % 4 = 0 ∧ data.length ≤ 40 := by
  intro hall
  have hsame := (hall twoBlocks _ ⟨nofun, nofun, rfl, by decide⟩ rfl).1
  exact absurd hsame (by decide +kernel)

end TCPOptions

end MiniTcp
