import MiniTcp.Lib.Recency
import MiniTcp.Net.Arp
import Mathlib.Tactic.Linarith

/-!
# The cache and what was stored in it

`stored` is the log of the stores in a sequence of calls. Every entry of the cache is the last store for its
address, and of the `maxEntries` addresses stored last the cache has all that are not expired (`Tracks`): the
entry that makes room is the one closest to expiry, which is the one stored the longest time ago.

That is so as long as rounding tells the expiries apart. When an older store has the same expiry after rounding,
`min` takes the entry whose key came first, and that may be the newer one (`equal_expiry_evicts`). So `Tracks.kept`
speaks of entries that stand `Apart` from the older ones.
-/

namespace MiniTcp

open Recency

/-- A call of the cache. -/
inductive CacheCall where
  | store (ip mac : Bytes)
  | lookup (ip : Bytes)
  | expire

namespace ARPCache

variable {c : ARPCache} {ip mac : Bytes} {t : Time} {es : List (Time × CacheCall)}

/-- The cache after a call at its time. -/
def call (c : ARPCache) : Time × CacheCall → ARPCache
  | (t, .store ip mac) => c.store ip mac t
  | (t, .lookup ip) => (c.lookup ip t).2
  | (t, .expire) => (c.expire t).1

def calls (c : ARPCache) (es : List (Time × CacheCall)) : ARPCache := es.foldl call c

/-- Address, MAC and time of every store, newest first. -/
def stored (es : List (Time × CacheCall)) : List (Bytes × Bytes × Time) :=
  (es.filterMap fun
    | (t, .store ip mac) => some (ip, mac, t)
    | _ => none).reverse

/-- A time after all the calls. -/
def Later (es : List (Time × CacheCall)) (t : Time) : Prop := ∀ e ∈ es, e.1 < t

theorem later_concat {e : Time × CacheCall} : Later (es ++ [e]) t ↔ Later es t ∧ e.1 < t := by
  simp only [Later, List.forall_mem_append, List.forall_mem_singleton]

theorem calls_concat (c : ARPCache) (es : List (Time × CacheCall)) (e : Time × CacheCall) :
    c.calls (es ++ [e]) = (c.calls es).call e := List.foldl_concat ..

theorem stored_store (es : List (Time × CacheCall)) (t : Time) (ip mac : Bytes) :
    stored (es ++ [(t, .store ip mac)]) = (ip, mac, t) :: stored es := by
  simp [stored, List.filterMap_append]

theorem stored_lookup (es : List (Time × CacheCall)) (t : Time) (ip : Bytes) :
    stored (es ++ [(t, .lookup ip)]) = stored es := by
  simp [stored, List.filterMap_append]

theorem stored_expire (es : List (Time × CacheCall)) (t : Time) :
    stored (es ++ [(t, .expire)]) = stored es := by
  simp [stored, List.filterMap_append]

/-- No older store has the same expiry. -/
def Apart (c : ARPCache) (log : List (Bytes × Bytes × Time)) (stamp : Time) : Prop :=
  ∀ f ∈ log, f.2.2 < stamp → c.expiry f.2.2 ≠ c.expiry stamp

/-- What the cache `c` holds once the log is `log`, for times that satisfy `later`. -/
structure Tracks (c : ARPCache) (log : List (Bytes × Bytes × Time)) (later : Time → Prop) : Prop where
  size : c.entries.size ≤ c.maxEntries
  sorted : log.Pairwise fun e f => f.2.2 < e.2.2
  past : ∀ t, later t → ∀ e ∈ log, e.2.2 < t
  last : ∀ e ∈ c.entries.items, ∃ stamp, log.lookup e.1 = some (e.2.1, stamp) ∧ e.2.2 = c.expiry stamp
  kept : ∀ t, later t → ∀ e ∈ (recent log).take c.maxEntries, c.Apart log e.2.2 → t < c.expiry e.2.2 →
    (e.1, e.2.1, c.expiry e.2.2) ∈ c.entries.items

variable {log : List (Bytes × Bytes × Time)} {later later' : Time → Prop}

theorem Apart.lt {stamp : Time} (h : c.Apart log stamp) {f : Bytes × Bytes × Time} (hf : f ∈ log)
    (hlt : f.2.2 < stamp) : c.expiry f.2.2 < c.expiry stamp :=
  Rounding.lt_of_ne (add_lt_add_left hlt c.timeout) (h f hf hlt)

theorem Apart.of_cons {e : Bytes × Bytes × Time} {stamp : Time} (h : c.Apart (e :: log) stamp) : c.Apart log stamp :=
  fun f hf => h f (List.mem_cons_of_mem e hf)

/-! ### Deletions -/

theorem maxEntries_lookup : (c.lookup ip t).2.maxEntries = c.maxEntries := by
  rw [ARPCache.lookup]
  split
  · rfl
  · split_ifs <;> rfl

theorem Tracks.filter (h : Tracks c log later) (hlater : ∀ t', later' t' → later t' ∧ t < t')
    {p : Bytes × Bytes × Time → Bool} (hp : ∀ e ∈ c.entries.items, t < e.2.2 → p e = true) :
    Tracks { c with entries := c.entries.filter p } log later' where
  size := (List.length_filter_le _ _).trans h.size
  sorted := h.sorted
  past t' ht' := h.past t' (hlater t' ht').1
  last e he := h.last e (Dict.mem_filter.mp he).1
  kept t' ht' e he hapart hexpiry := by
    obtain ⟨hold, hlt⟩ := hlater t' ht'
    have hmem := h.kept t' hold e he hapart hexpiry
    exact Dict.mem_filter.mpr ⟨hmem, hp _ hmem (hlt.trans hexpiry)⟩

theorem Tracks.lookup (h : Tracks c log later) (hlater : ∀ t', later' t' → later t' ∧ t < t') (ip : Bytes) :
    Tracks (c.lookup ip t).2 log later' := by
  have hsame : Tracks c log later' :=
    ⟨h.size, h.sorted, fun t' ht' => h.past t' (hlater t' ht').1, h.last, fun t' ht' => h.kept t' (hlater t' ht').1⟩
  rw [ARPCache.lookup]
  split
  · exact hsame
  · rename_i mac expiresAt hget
    split_ifs with hexpired
    · refine h.filter hlater fun e he hlt => ?_
      rw [decide_eq_true_eq]
      rintro heq
      have hother := Dict.get?_eq_some_iff.mpr he
      rw [heq, hget] at hother
      rw [← Option.some.inj hother] at hlt
      exact absurd hlt (not_lt.mpr hexpired)
    · exact hsame

theorem Tracks.expire (h : Tracks c log later) (hlater : ∀ t', later' t' → later t' ∧ t < t') :
    Tracks (c.expire t).1 log later' :=
  h.filter hlater fun _ _ hlt => decide_eq_true hlt

/-! ### Stores -/

/-- The entries in which a store finds its place. -/
def room (c : ARPCache) (ip : Bytes) : Dict Bytes (Bytes × Time) :=
  if !c.entries.contains ip && c.entries.size ≥ c.maxEntries then
    match c.oldest with
    | some e => c.entries.erase e.1
    | none => c.entries
  else c.entries

theorem store_eq (c : ARPCache) (ip mac : Bytes) (t : Time) :
    c.store ip mac t = { c with entries := (c.room ip).set ip (mac, c.expiry t) } := rfl

/-- Either nothing makes room, or a full cache without `ip` loses the entry closest to expiry. -/
theorem room_cases (c : ARPCache) (ip : Bytes) :
    c.room ip = c.entries ∧ (ip ∈ c.entries.keys ∨ c.entries.size < c.maxEntries) ∨
      ∃ o ∈ c.entries.items, ip ∉ c.entries.keys ∧ c.maxEntries ≤ c.entries.size ∧
        c.room ip = c.entries.erase o.1 ∧ ∀ e ∈ c.entries.items, o.2.2 ≤ e.2.2 := by
  unfold room
  split_ifs with hfull
  · rw [Bool.and_eq_true, Bool.not_eq_true', ← Bool.not_eq_true, Dict.contains_iff, decide_eq_true_eq] at hfull
    cases holdest : c.oldest with
    | none =>
      have hpos := c.maxEntries_pos
      have hsize : c.entries.size = 0 := by
        rw [Dict.size, List.argmin_eq_none.mp holdest]
        rfl
      omega
    | some o =>
      exact .inr ⟨o, List.argmin_mem holdest, hfull.1, hfull.2, rfl,
        fun e he => List.le_of_mem_argmin (f := fun e => e.2.2) he holdest⟩
  · rw [Bool.and_eq_true, Bool.not_eq_true', ← Bool.not_eq_true, Dict.contains_iff, decide_eq_true_eq] at hfull
    exact .inl ⟨rfl, by by_contra hno; exact hfull ⟨fun h => hno (.inl h), by omega⟩⟩

theorem size_store_le (hsize : c.entries.size ≤ c.maxEntries) : (c.store ip mac t).entries.size ≤ c.maxEntries := by
  rw [store_eq]
  dsimp only
  rw [Dict.size_set]
  rcases c.room_cases ip with ⟨hroom, hfree⟩ | ⟨o, ho, -, -, hroom, -⟩
  · rw [hroom]
    split_ifs with hmem
    · exact hsize
    · exact hfree.resolve_left hmem
  · have hlt := Dict.size_erase_lt ho
    rw [hroom]
    split_ifs <;> omega

theorem mem_of_mem_room {e : Bytes × Bytes × Time} (h : e ∈ (c.room ip).items) : e ∈ c.entries.items := by
  rcases c.room_cases ip with ⟨hroom, -⟩ | ⟨o, -, -, -, hroom, -⟩
  · rwa [hroom] at h
  · rw [hroom] at h
    exact (Dict.mem_erase.mp h).1

/-- Making room takes none of the addresses stored last: a full cache with one of them as its oldest entry would
have only such entries, and there are too few of them. -/
theorem Tracks.mem_room (h : Tracks c log later) {n : Nat} (hn : c.maxEntries = n + 1) {e : Bytes × Bytes × Time}
    (he : e ∈ ((recent log).filter fun f => f.1 ≠ ip).take n) (hapart : c.Apart log e.2.2)
    (hentry : (e.1, e.2.1, c.expiry e.2.2) ∈ c.entries.items) :
    (e.1, e.2.1, c.expiry e.2.2) ∈ (c.room ip).items := by
  rcases c.room_cases ip with ⟨hroom, -⟩ | ⟨o, ho, hip, hfull, hroom, holdest⟩
  · rw [hroom]
    exact hentry
  rw [hroom, Dict.mem_erase]
  refine ⟨hentry, fun heq => ?_⟩
  have hother := Dict.get?_eq_some_iff.mpr ho
  rw [← heq, Dict.get?_eq_some_iff.mpr hentry] at hother
  have hexpiry : o.2.2 = c.expiry e.2.2 := congrArg Prod.snd (Option.some.inj hother).symm
  have hsorted : ((recent log).filter fun f => f.1 ≠ ip).Pairwise fun e f => f.2.2 < e.2.2 :=
    (h.sorted.sublist (recent_sublist log)).filter _
  have hsubset : c.entries.keys ⊆ (((recent log).filter fun f => f.1 ≠ ip).take n).map Prod.fst := by
    intro k hk
    obtain ⟨x, hx, rfl⟩ := List.mem_map.mp hk
    obtain ⟨stamp, hlast, hstamp⟩ := h.last x hx
    have hmem : (x.1, x.2.1, stamp) ∈ recent log := mem_recent_iff.mpr hlast
    refine List.mem_map_of_mem (a := (x.1, x.2.1, stamp))
      (mem_take_of_le hsorted he (List.mem_filter.mpr ⟨hmem, ?_⟩) ?_)
    · rw [decide_eq_true_eq]
      rintro rfl
      exact hip hk
    · -- an older store would be closer to expiry than the oldest entry
      by_contra holder
      have hlt := hapart.lt ((recent_sublist log).subset hmem) (not_le.mp holder)
      have hle := holdest x hx
      rw [hexpiry, hstamp] at hle
      exact absurd hlt (not_lt.mpr hle)
  have hlength := (List.subperm_of_subset c.entries.nodup hsubset).length_le
  simp only [List.length_map, List.length_take] at hlength
  have hsize : c.entries.items.length = c.entries.size := rfl
  omega

theorem Tracks.store (h : Tracks c log later) (hnow : later t) (hlater : ∀ t', later' t' → later t' ∧ t < t')
    (ip mac : Bytes) : Tracks (c.store ip mac t) ((ip, mac, t) :: log) later' where
  size := size_store_le h.size
  sorted := List.pairwise_cons.mpr ⟨h.past t hnow, h.sorted⟩
  past t' ht' e he := by
    obtain ⟨hold, hlt⟩ := hlater t' ht'
    rcases List.mem_cons.mp he with rfl | he
    · exact hlt
    · exact h.past t' hold e he
  last e he := by
    rcases Dict.mem_set.mp he with rfl | ⟨hne, he⟩
    · exact ⟨t, List.lookup_cons_self, rfl⟩
    · rw [List.lookup_cons, beq_eq_false_iff_ne.mpr hne]
      exact h.last e (mem_of_mem_room he)
  kept t' ht' e he hapart hexpiry := by
    obtain ⟨hold, -⟩ := hlater t' ht'
    obtain ⟨n, hn⟩ := Nat.exists_eq_add_one_of_ne_zero c.maxEntries_pos.ne'
    have hmax : (c.store ip mac t).maxEntries = n + 1 := hn
    rw [hmax, recent_cons, List.take_succ_cons, List.mem_cons] at he
    rcases he with rfl | he
    · exact Dict.mem_set.mpr (.inl rfl)
    · have hne := of_decide_eq_true (List.mem_filter.mp (List.mem_of_mem_take he)).2
      have htake := take_filter_subset (nodup_recent log) ip n he
      have hkept := h.kept t' hold e (hn ▸ htake) hapart.of_cons hexpiry
      exact Dict.mem_set.mpr (.inr ⟨hne, h.mem_room hn he hapart.of_cons hkept⟩)

/-! ### Sequences of calls -/

theorem tracks_calls (hempty : c.entries = ∅) (htimes : (es.map Prod.fst).Pairwise (· < ·)) :
    Tracks (c.calls es) (stored es) (Later es) ∧ (c.calls es).expiry = c.expiry ∧
      (c.calls es).maxEntries = c.maxEntries := by
  induction es using List.reverseRecOn with
  | nil =>
    refine ⟨⟨?_, .nil, fun _ _ _ h => absurd h List.not_mem_nil, ?_, fun _ _ _ h => ?_⟩, rfl, rfl⟩
    · rw [calls, List.foldl_nil, hempty]
      exact Nat.zero_le _
    · intro e he
      rw [calls, List.foldl_nil, hempty] at he
      exact absurd he List.not_mem_nil
    · rw [stored] at h
      simp at h
  | append_singleton es e ih =>
    rw [List.map_append, List.pairwise_append] at htimes
    obtain ⟨hbefore, -, hlast⟩ := htimes
    obtain ⟨h, hexpiry, hmax⟩ := ih hbefore
    have hnow : Later es e.1 := fun f hf => hlast _ (List.mem_map_of_mem hf) _ List.mem_cons_self
    have hlater : ∀ t', Later (es ++ [e]) t' → Later es t' ∧ e.1 < t' := fun t' => later_concat.mp
    rw [calls_concat]
    obtain ⟨t, call⟩ := e
    cases call with
    | store ip mac =>
      rw [stored_store]
      exact ⟨h.store hnow hlater ip mac, hexpiry, hmax⟩
    | lookup ip =>
      rw [stored_lookup]
      exact ⟨h.lookup hlater ip, expiry_lookup.trans hexpiry, maxEntries_lookup.trans hmax⟩
    | expire =>
      rw [stored_expire]
      exact ⟨h.expire hlater, hexpiry, hmax⟩

theorem lookup_eq_some_iff :
    (c.lookup ip t).1 = some mac ↔ ∃ expiresAt, (ip, mac, expiresAt) ∈ c.entries.items ∧ t < expiresAt := by
  rw [lookup_fst, known, Option.bind_eq_some_iff]
  constructor
  · rintro ⟨⟨m, expiresAt⟩, hget, hmac⟩
    dsimp only at hmac
    split_ifs at hmac with hexpired
    cases hmac
    exact ⟨expiresAt, Dict.get?_eq_some_iff.mp hget, not_le.mp hexpired⟩
  · rintro ⟨expiresAt, hmem, hlt⟩
    exact ⟨(mac, expiresAt), Dict.get?_eq_some_iff.mpr hmem, if_neg (not_le.mpr hlt)⟩

/-- After any calls at increasing times the cache holds no more than `maxEntries` entries. From then on a lookup
that finds a MAC finds the last one stored for the address, less than the timeout ago; and the addresses stored last,
as many as there is room for, are found until they expire, but for one with the same expiry as an older store. -/
theorem lookup_calls (c : ARPCache) (hempty : c.entries = ∅) (es : List (Time × CacheCall))
    (htimes : (es.map Prod.fst).Pairwise (· < ·)) :
    (c.calls es).entries.size ≤ c.maxEntries ∧
      ∀ t, Later es t →
        (∀ ip mac, ((c.calls es).lookup ip t).1 = some mac →
          ∃ stamp, (stored es).lookup ip = some (mac, stamp) ∧ t < c.expiry stamp ∧
            (c.rounding.Has t → t - stamp < c.timeout)) ∧
        ∀ ip mac stamp, (ip, mac, stamp) ∈ (recent (stored es)).take c.maxEntries → c.Apart (stored es) stamp →
          t < c.expiry stamp → ((c.calls es).lookup ip t).1 = some mac := by
  obtain ⟨h, hexpiry, hmax⟩ := tracks_calls hempty htimes
  refine ⟨hmax ▸ h.size, fun t ht => ⟨fun ip mac hfound => ?_, fun ip mac stamp hmem hapart hunexpired => ?_⟩⟩
  · obtain ⟨expiresAt, hentry, hlt⟩ := lookup_eq_some_iff.mp hfound
    obtain ⟨stamp, hlast, hstamp⟩ := h.last _ hentry
    dsimp only at hstamp
    rw [hstamp, hexpiry] at hlt
    refine ⟨stamp, hlast, hlt, fun ht => ?_⟩
    have hexact : t < stamp + c.timeout := ht.lt_of_lt_round hlt
    linarith
  · rw [← hmax] at hmem
    rw [Apart, ← hexpiry] at hapart
    rw [← hexpiry] at hunexpired
    rw [lookup_eq_some_iff]
    exact ⟨_, h.kept t ht _ hmem hapart hunexpired, hunexpired⟩

theorem apart_of_exact (h : c.rounding = .exact) (log : List (Bytes × Bytes × Time)) (stamp : Time) :
    c.Apart log stamp := by
  intro f _ hlt
  rw [expiry, expiry, h]
  exact (add_lt_add_left hlt c.timeout).ne

/-- Two entries, with the numbers of a double between 256 and 512. -/
def rounded : ARPCache := { maxEntries := 2, rounding := .nearest (2 ^ 44) }

/-- Three addresses in a cache of two entries, the second of which is refreshed. -/
theorem lookup_calls_sample :
    ((rounded.calls
      [(1, .store [1] [10]), (2, .store [2] [20]), (3, .store [1] [11]), (4, .store [3] [30])]).lookup [1] 5).1 =
        some [11] := by
  refine ((lookup_calls rounded rfl _ ?_).2 5 ?_).2 [1] [11] 3 ?_ ?_ ?_
  · decide +kernel
  · unfold Later
    decide +kernel
  · decide +kernel
  · unfold Apart
    decide +kernel
  · decide +kernel

/-- A store at 0.05, one of another address at 0.1, the first address again at 0.10000000000001, and a third one; all
four times are doubles. -/
def closeStores : List (Time × CacheCall) :=
  [(3602879701896397 / 2 ^ 56, .store [1] [10]), (3602879701896397 / 2 ^ 55, .store [2] [20]),
    (3602879701896757 / 2 ^ 55, .store [1] [11]), (1, .store [3] [30])]

/-- The second and the third store expire at the same time after rounding, and the newer one is evicted: the address
was stored before the last one and is not expired, and is not found. Nor is one that was stored a little less than the
timeout ago, when the time of expiry was rounded down to now. -/
theorem equal_expiry_evicts :
    ((closeStores.map Prod.fst).Pairwise (· < ·) ∧ Later closeStores 2 ∧
      ([1], [11], 3602879701896757 / 2 ^ 55) ∈ (recent (stored closeStores)).take rounded.maxEntries ∧
      (2 : Time) - 3602879701896757 / 2 ^ 55 < rounded.timeout ∧
      rounded.expiry (3602879701896397 / 2 ^ 55) = rounded.expiry (3602879701896757 / 2 ^ 55) ∧
      ((rounded.calls closeStores).lookup [1] 2).1 = none) ∧
    (300 : Time) - 1 / 2 ^ 46 < rounded.timeout ∧
      ((rounded.calls [(1 / 2 ^ 46, .store [1] [10])]).lookup [1] 300).1 = none := by
  unfold Later
  decide +kernel

end ARPCache

end MiniTcp
