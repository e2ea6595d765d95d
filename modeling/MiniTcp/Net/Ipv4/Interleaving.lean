import MiniTcp.Net.Ipv4.Memory

/-!
# Datagrams that arrive between each other

The sets of a reassembler share the expiry and the room for `max_pending` sets, and nothing else. What comes
back under one key is therefore what would come back if nothing else had ever arrived, as long as the clock
does not run backwards and no fragment under the key is turned away for want of room
(`returned_interleaved`).
-/

namespace MiniTcp

namespace Reassembler

variable {r q : Reassembler} {packet : IPv4Packet} {now t : Time} {key : FragmentKey}

theorem mem_stale :
    key ∈ r.stale now ↔ ∃ entry, r.sets.lookup key = some entry ∧ r.timeout < now - entry.firstSeen := by
  simp only [stale, List.mem_map, List.mem_filter, decide_eq_true_eq, gt_iff_lt]
  constructor
  · rintro ⟨⟨_, entry⟩, ⟨hmem, hlate⟩, rfl⟩
    exact ⟨entry, AList.mem_lookup_iff.mpr hmem, hlate⟩
  · rintro ⟨entry, hmem, hlate⟩
    exact ⟨⟨key, entry⟩, ⟨AList.mem_lookup_iff.mp hmem, hlate⟩, rfl⟩

theorem lookup_expire (r : Reassembler) (now : Time) (key : FragmentKey) :
    (r.expire now).sets.lookup key = (r.sets.lookup key).filter fun entry => now - entry.firstSeen ≤ r.timeout := by
  rw [expire, lookup_foldl_erase]
  cases hlookup : r.sets.lookup key with
  | none => simp
  | some entry =>
    simp only [mem_stale, hlookup, Option.some.injEq, exists_eq_left', Option.filter_some, decide_eq_true_eq,
      ← not_le, ite_not]

theorem add_timeout (r : Reassembler) (packet : IPv4Packet) (now : Time) :
    (r.add packet now).1.timeout = r.timeout := by
  unfold add
  split_ifs
  · rfl
  · dsimp only
    split_ifs
    · rfl
    · split <;> rfl

/-- From now on `q` treats the key as `r` does, and it has no other set. -/
structure Alike (key : FragmentKey) (now : Time) (r q : Reassembler) : Prop where
  timeout : q.timeout = r.timeout
  maxPending : q.maxPending = r.maxPending
  lookup : ∀ t, now ≤ t → (q.expire t).sets.lookup key = (r.expire t).sets.lookup key
  alone : ∀ other, other ≠ key → q.sets.lookup other = none

theorem Alike.mono (h : Alike key now r q) (hle : now ≤ t) : Alike key t r q :=
  ⟨h.timeout, h.maxPending, fun t' hle' => h.lookup t' (hle.trans hle'), h.alone⟩

theorem filter_expire (hle : now ≤ t) (r : Reassembler) :
    ((r.expire now).sets.lookup key).filter (fun entry => t - entry.firstSeen ≤ r.timeout) =
      (r.expire t).sets.lookup key := by
  rw [lookup_expire, lookup_expire, Option.filter_filter]
  congr 1
  funext entry
  have himp : t - entry.firstSeen ≤ r.timeout → now - entry.firstSeen ≤ r.timeout :=
    fun h => (sub_le_sub_right hle _).trans h
  simp only [Bool.and_eq_decide, decide_eq_true_eq, decide_eq_decide]
  exact ⟨And.right, fun h => ⟨himp h, h⟩⟩

/-- An arrival under another key expires what the next one under this key would find out of time. -/
theorem Alike.add_other (h : Alike key now r q) (hle : now ≤ t) (hne : packet.key ≠ key) :
    Alike key t (r.add packet t).1 q := by
  refine ⟨by rw [add_timeout, h.timeout], by rw [add_maxPending, h.maxPending], fun t' hle' => ?_, h.alone⟩
  have hkept : (r.add packet t).1.sets.lookup key = r.sets.lookup key ∨
      (r.add packet t).1.sets.lookup key = (r.expire t).sets.lookup key := by
    rcases r.add_cases packet t with ⟨-, hadd⟩ | ⟨-, -, -, hsets, -⟩ | ⟨-, -, hsets, -⟩ | ⟨_, -, -, hsets, -⟩
    · exact .inl (by rw [hadd])
    · exact .inr (by rw [hsets])
    · exact .inr (by rw [hsets, AList.lookup_insert_ne hne.symm])
    · exact .inr (by rw [hsets, AList.lookup_erase_ne hne.symm, AList.lookup_insert_ne hne.symm])
  rw [h.lookup t' (hle.trans hle')]
  symm
  rcases hkept with hkept | hkept
  · rw [lookup_expire, add_timeout, hkept, lookup_expire]
  · rw [lookup_expire, add_timeout, hkept, filter_expire hle']

theorem Alike.admits (h : Alike key now r q) (hle : now ≤ t) (hkey : packet.key = key) (hadmits : r.Admits packet t) :
    q.Admits packet t := by
  refine ⟨hadmits.1, fun hnone => ?_⟩
  have hroom : (r.expire t).sets.entries.length < r.maxPending := by
    apply hadmits.2
    rw [hkey, ← h.lookup t hle, ← hkey]
    exact hnone
  have hempty : (q.expire t).sets.entries = [] := by
    rw [List.eq_nil_iff_forall_not_mem]
    rintro ⟨other, entry⟩ hmem
    have hlookup : (q.expire t).sets.lookup other = some entry := AList.mem_lookup_iff.mpr hmem
    by_cases hother : other = key
    · rw [hother, ← hkey, hnone] at hlookup
      cases hlookup
    · have hsome := lookup_of_lookup_expire hlookup
      rw [h.alone other hother] at hsome
      cases hsome
  rw [hempty, h.maxPending, List.length_nil]
  omega

theorem add_admitted (hkey : packet.key = key) (hadmits : r.Admits packet t) :
    (r.add packet t).2 = (r.joined packet t).tryComplete ∧
      (r.add packet t).1.sets.lookup key =
        (if (r.joined packet t).tryComplete = none then some (r.joined packet t) else none) ∧
      ∀ other, other ≠ key → (r.add packet t).1.sets.lookup other = (r.expire t).sets.lookup other := by
  rcases r.add_cases packet t with ⟨hwhole, -⟩ | ⟨-, hnone, hfull, -⟩ | ⟨-, htry, hsets, hadd⟩ |
    ⟨rebuilt, -, htry, hsets, hadd⟩
  · rw [hadmits.1] at hwhole
    cases hwhole
  · have hlt := hadmits.2 hnone
    omega
  · refine ⟨by rw [hadd, htry], by rw [if_pos htry, hsets, hkey, AList.lookup_insert], fun other hne => ?_⟩
    rw [hsets, AList.lookup_insert_ne (hkey ▸ hne)]
  · refine ⟨by rw [hadd, htry], ?_, fun other hne => ?_⟩
    · rw [if_neg (by rw [htry]; exact Option.some_ne_none _), hsets, hkey, AList.lookup_erase]
    · rw [hsets, AList.lookup_erase_ne (hkey ▸ hne), AList.lookup_insert_ne (hkey ▸ hne)]

theorem Alike.add_own (h : Alike key now r q) (hle : now ≤ t) (hkey : packet.key = key)
    (hroom : packet.isFragmented = true → r.Admits packet t) :
    (q.add packet t).2 = (r.add packet t).2 ∧ Alike key t (r.add packet t).1 (q.add packet t).1 := by
  cases hfrag : packet.isFragmented with
  | false =>
    simp only [add, hfrag, Bool.not_false, if_true]
    exact ⟨trivial, h.mono hle⟩
  | true =>
    have hadmits := hroom hfrag
    have hadmits' := h.admits hle hkey hadmits
    have hjoined : q.joined packet t = r.joined packet t := by
      rw [joined, joined, hkey, h.lookup t hle]
    obtain ⟨hresult, hset, -⟩ := add_admitted hkey hadmits
    obtain ⟨hresult', hset', hothers'⟩ := add_admitted hkey hadmits'
    refine ⟨by rw [hresult, hresult', hjoined], by rw [add_timeout, add_timeout, h.timeout],
      by rw [add_maxPending, add_maxPending, h.maxPending], fun t' _ => ?_, fun other hne => ?_⟩
    · rw [lookup_expire, lookup_expire, add_timeout, add_timeout, h.timeout, hset, hset', hjoined]
    · rw [hothers' other hne, lookup_expire, h.alone other hne]
      rfl

end Reassembler

/-! ### Runs -/

namespace Feed

variable {key : FragmentKey} {now : Time} {s s' : Feed} {es : List (IPv4Packet × Time)}

/-- A fragment under the key finds its set, or room for it. -/
def Roomy (key : FragmentKey) (s : Feed) (e : IPv4Packet × Time) : Prop :=
  e.1.key = key → e.1.isFragmented = true → s.reassembler.Admits e.1 e.2

theorem returned_filter (hlabelled : s.reassembler.Labelled) (halike : s.reassembler.Alike key now s'.reassembler)
    (hreturned : s'.returned = s.returned.filter (·.key = key)) (hnow : ∀ e ∈ es, now ≤ e.2)
    (htimes : es.Pairwise (·.2 ≤ ·.2)) (hroom : feeding.Meets (Roomy key) s es) :
    (feeding.run s' (es.filter (·.1.key = key))).returned = (feeding.run s es).returned.filter (·.key = key) := by
  induction es generalizing s s' now with
  | nil => exact hreturned
  | cons e es ih =>
    obtain ⟨hlater, htimes⟩ := List.pairwise_cons.mp htimes
    have hle : now ≤ e.2 := hnow e List.mem_cons_self
    obtain ⟨hlabelled', hown⟩ := hlabelled.add e.1 e.2
    rw [feeding.run_cons]
    by_cases hkey : e.1.key = key
    · obtain ⟨hresult, halike'⟩ := halike.add_own hle hkey (hroom.1 hkey)
      rw [List.filter_cons_of_pos (by simpa using hkey), feeding.run_cons]
      refine ih hlabelled' halike' ?_ hlater htimes hroom.2
      have hall : ∀ p ∈ (s.reassembler.add e.1 e.2).2.toList, decide (p.key = key) = true := fun p hp =>
        decide_eq_true ((hown p (Option.mem_toList.mp hp)).trans hkey)
      change s'.returned ++ _ = (s.returned ++ _).filter _
      rw [List.filter_append, List.filter_eq_self.mpr hall, hreturned, hresult]
    · rw [List.filter_cons_of_neg (by simpa using hkey)]
      refine ih hlabelled' (halike.add_other hle hkey) ?_ hlater htimes hroom.2
      have hnone : ∀ p ∈ (s.reassembler.add e.1 e.2).2.toList, ¬ decide (p.key = key) = true := by
        intro p hp hpkey
        exact hkey ((hown p (Option.mem_toList.mp hp)).symm.trans (of_decide_eq_true hpkey))
      change _ = (s.returned ++ _).filter _
      rw [List.filter_append, List.filter_eq_nil_iff.mpr hnone, List.append_nil, hreturned]

/-- What comes back under a key is what comes back when only the datagrams under this key arrive. -/
theorem returned_interleaved (hinit : feeding.init s) (htimes : es.Pairwise (·.2 ≤ ·.2))
    (hroom : feeding.Meets (Roomy key) s es) :
    (feeding.run s es).returned.filter (·.key = key) = (feeding.run s (es.filter (·.1.key = key))).returned := by
  obtain ⟨hsets, -, hreturned⟩ := hinit
  have hlookup : ∀ other, s.reassembler.sets.lookup other = none := fun other => by
    rw [hsets, AList.lookup_empty]
  cases es with
  | nil =>
    change s.returned.filter _ = s.returned
    rw [hreturned]
    rfl
  | cons e es =>
    have halike : s.reassembler.Alike key e.2 s.reassembler := ⟨rfl, rfl, fun t _ => rfl, fun other _ => hlookup other⟩
    refine (returned_filter ?_ halike ?_ ?_ htimes hroom).symm
    · intro other entry hsome
      rw [hlookup other] at hsome
      cases hsome
    · rw [hreturned]
      rfl
    · intro e' he'
      rcases List.mem_cons.mp he' with rfl | he'
      · exact le_rfl
      · exact List.rel_of_pairwise_cons htimes he'

/-- Both pieces of another datagram come between those of the sample. -/
def betweenRun : List (IPv4Packet × Time) :=
  let other := { sample with identification := 8 }
  [(sample.piece 48 48, 0), (other.piece 48 0, 1), (other.piece 48 48, 2), (sample.piece 48 0, 3)]

theorem returned_interleaved_between :
    (feeding.run { reassembler := {} } betweenRun).returned.length = 2 ∧
      (feeding.run { reassembler := {} } betweenRun).returned.filter (·.key = sample.key) =
        (feeding.run { reassembler := {} } [(sample.piece 48 48, 0), (sample.piece 48 0, 3)]).returned := by
  have hroom : feeding.Meets (Roomy sample.key) { reassembler := {} } betweenRun := by
    refine ⟨fun _ hfrag => ⟨hfrag, ?_⟩, fun _ hfrag => ⟨hfrag, ?_⟩, fun _ hfrag => ⟨hfrag, ?_⟩,
      fun _ hfrag => ⟨hfrag, ?_⟩, trivial⟩ <;> decide +kernel
  have hown : betweenRun.filter (·.1.key = sample.key) = [(sample.piece 48 48, 0), (sample.piece 48 0, 3)] := by
    decide +kernel
  refine ⟨by decide +kernel, ?_⟩
  rw [← hown]
  exact returned_interleaved ⟨rfl, rfl, rfl⟩ (by decide +kernel) hroom

end Feed

end MiniTcp
