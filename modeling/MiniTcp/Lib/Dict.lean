import Mathlib.Data.List.Nodup

/-!
# Dictionaries in insertion order

Association lists without repeated keys that behave as a `dict` does: setting a key that is there keeps its
place, a new key goes to the end, and deletion closes the gap. Whatever is read is settled by membership
(`get?_eq_some_iff`), so the laws of reading after writing follow from what an operation does to the members
(`mem_set`, `mem_filter`).
-/

/-- Entries in insertion order, one for each key. -/
structure Dict (κ ν : Type) where
  items : List (κ × ν) := []
  nodup : (items.map Prod.fst).Nodup := by exact List.nodup_nil

namespace Dict

variable {κ ν : Type}

instance : EmptyCollection (Dict κ ν) := ⟨{}⟩

def keys (d : Dict κ ν) : List κ := d.items.map Prod.fst

def values (d : Dict κ ν) : List ν := d.items.map Prod.snd

def size (d : Dict κ ν) : Nat := d.items.length

/-- The entries that satisfy `p`. -/
def filter (d : Dict κ ν) (p : κ × ν → Bool) : Dict κ ν where
  items := d.items.filter p
  nodup := d.nodup.sublist (List.filter_sublist.map Prod.fst)

theorem mem_filter {d : Dict κ ν} {p : κ × ν → Bool} {e : κ × ν} :
    e ∈ (d.filter p).items ↔ e ∈ d.items ∧ p e = true := List.mem_filter

variable [DecidableEq κ]

/-- `d.get(k)` -/
def get? (d : Dict κ ν) (k : κ) : Option ν := d.items.lookup k

/-- `k in d` -/
def contains (d : Dict κ ν) (k : κ) : Bool := (d.get? k).isSome

/-- `d.pop(k, None)` -/
def erase (d : Dict κ ν) (k : κ) : Dict κ ν := d.filter fun e => e.1 ≠ k

/-- The entries once `k` is set to `v`. -/
def setItems (d : Dict κ ν) (k : κ) (v : ν) : List (κ × ν) :=
  if k ∈ d.keys then d.items.map fun e => if e.1 = k then (k, v) else e else d.items ++ [(k, v)]

theorem map_fst_setItems (d : Dict κ ν) (k : κ) (v : ν) :
    (d.setItems k v).map Prod.fst = if k ∈ d.keys then d.keys else d.keys ++ [k] := by
  unfold setItems
  split_ifs with hk
  · rw [List.map_map, keys]
    apply List.map_congr_left
    intro e _
    by_cases he : e.1 = k <;> simp [he]
  · rw [List.map_append]
    rfl

/-- `d[k] = v` -/
def set (d : Dict κ ν) (k : κ) (v : ν) : Dict κ ν where
  items := d.setItems k v
  nodup := by
    rw [map_fst_setItems]
    split_ifs with hk
    · exact d.nodup
    · exact List.Nodup.append d.nodup (List.nodup_singleton k) (List.disjoint_singleton.mpr hk)

variable {d : Dict κ ν} {k k' : κ} {v : ν}

/-! ### Membership -/

theorem mem_erase {e : κ × ν} : e ∈ (d.erase k).items ↔ e ∈ d.items ∧ e.1 ≠ k := by
  rw [erase, mem_filter, decide_eq_true_eq]

theorem mem_set {e : κ × ν} : e ∈ (d.set k v).items ↔ e = (k, v) ∨ e.1 ≠ k ∧ e ∈ d.items := by
  change e ∈ d.setItems k v ↔ _
  unfold setItems
  split_ifs with hk
  · rw [List.mem_map]
    constructor
    · rintro ⟨f, hf, rfl⟩
      by_cases hfk : f.1 = k
      · rw [if_pos hfk]
        exact .inl rfl
      · rw [if_neg hfk]
        exact .inr ⟨hfk, hf⟩
    · rintro (rfl | ⟨hne, he⟩)
      · obtain ⟨f, hf, hfk⟩ := List.mem_map.mp hk
        exact ⟨f, hf, if_pos hfk⟩
      · exact ⟨e, he, if_neg hne⟩
  · rw [List.mem_append, List.mem_singleton, or_comm]
    refine or_congr_right ⟨fun he => ⟨?_, he⟩, And.right⟩
    rintro rfl
    exact hk (List.mem_map_of_mem he)

theorem mem_keys_erase : k' ∈ (d.erase k).keys ↔ k' ≠ k ∧ k' ∈ d.keys := by
  simp only [keys, List.mem_map, mem_erase]
  constructor
  · rintro ⟨e, ⟨he, hne⟩, rfl⟩
    exact ⟨hne, e, he, rfl⟩
  · rintro ⟨hne, e, he, rfl⟩
    exact ⟨e, ⟨he, hne⟩, rfl⟩

theorem mem_keys_set : k' ∈ (d.set k v).keys ↔ k' = k ∨ k' ∈ d.keys := by
  simp only [keys, List.mem_map, mem_set]
  constructor
  · rintro ⟨e, rfl | ⟨-, he⟩, rfl⟩
    · exact .inl rfl
    · exact .inr ⟨e, he, rfl⟩
  · rintro (rfl | ⟨e, he, rfl⟩)
    · exact ⟨_, .inl rfl, rfl⟩
    · by_cases hek : e.1 = k
      · exact ⟨_, .inl rfl, hek.symm⟩
      · exact ⟨e, .inr ⟨hek, he⟩, rfl⟩

theorem get?_eq_some_iff : d.get? k = some v ↔ (k, v) ∈ d.items := by
  obtain ⟨items, hnodup⟩ := d
  rw [get?]
  dsimp only
  induction items with
  | nil => simp
  | cons e items ih =>
    rw [List.map_cons, List.nodup_cons] at hnodup
    obtain ⟨a, b⟩ := e
    by_cases hak : k = a
    · subst hak
      rw [List.lookup_cons_self, Option.some.injEq, List.mem_cons]
      constructor
      · rintro rfl
        exact .inl rfl
      · rintro (heq | hmem)
        · exact (Prod.mk.inj heq).2.symm
        · exact absurd (List.mem_map_of_mem hmem) hnodup.1
    · rw [List.lookup_cons, beq_eq_false_iff_ne.mpr hak, List.mem_cons, Prod.mk.injEq]
      exact (ih hnodup.2).trans (by simp [hak])

theorem get?_eq_none_iff : d.get? k = none ↔ k ∉ d.keys := by
  rw [Option.eq_none_iff_forall_ne_some]
  constructor
  · intro h hk
    obtain ⟨e, he, rfl⟩ := List.mem_map.mp hk
    exact h e.2 (get?_eq_some_iff.mpr he)
  · rintro h v hv
    exact h (List.mem_map_of_mem (get?_eq_some_iff.mp hv))

/-! ### Sizes -/

theorem contains_iff : d.contains k = true ↔ k ∈ d.keys := by
  rw [contains, ← not_iff_not, Bool.not_eq_true, Option.isSome_eq_false_iff, Option.isNone_iff_eq_none,
    get?_eq_none_iff]

theorem size_set (d : Dict κ ν) (k : κ) (v : ν) : (d.set k v).size = if k ∈ d.keys then d.size else d.size + 1 := by
  have hkeys := congrArg List.length (d.map_fst_setItems k v)
  rw [List.length_map] at hkeys
  refine hkeys.trans ?_
  split_ifs <;> simp [keys, size]

theorem size_erase_lt {e : κ × ν} (h : e ∈ d.items) : (d.erase e.1).size < d.size :=
  List.length_filter_lt_length_iff_exists.mpr ⟨e, h, by simp⟩

/-! ### Reading after writing -/

@[simp] theorem get?_empty : (∅ : Dict κ ν).get? k = none := rfl

@[simp] theorem get?_set_self : (d.set k v).get? k = some v := get?_eq_some_iff.mpr (mem_set.mpr (.inl rfl))

theorem get?_set_of_ne (h : k' ≠ k) : (d.set k v).get? k' = d.get? k' := by
  apply Option.ext
  intro w
  rw [get?_eq_some_iff, get?_eq_some_iff, mem_set, Prod.mk.injEq]
  exact ⟨fun hw => (hw.resolve_left fun heq => h heq.1).2, fun hw => .inr ⟨h, hw⟩⟩

theorem get?_filter (p : κ × ν → Bool) : (d.filter p).get? k = (d.get? k).filter fun w => p (k, w) := by
  apply Option.ext
  intro w
  rw [get?_eq_some_iff, mem_filter, Option.filter_eq_some_iff, get?_eq_some_iff]

@[simp] theorem get?_erase_self : (d.erase k).get? k = none := by
  rw [get?_eq_none_iff]
  intro hk
  obtain ⟨e, he, heq⟩ := List.mem_map.mp hk
  exact (mem_erase.mp he).2 heq

theorem get?_erase_of_ne (h : k' ≠ k) : (d.erase k).get? k' = d.get? k' := by
  apply Option.ext
  intro w
  rw [get?_eq_some_iff, get?_eq_some_iff, mem_erase]
  exact and_iff_left h

end Dict
