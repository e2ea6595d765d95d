import MiniTcp.Stack.Tables

/-!
# Ephemeral ports

The search of `_allocate_port` is the first free port of those it tries (`searchPort_fst`), going round from
`_next_port` on. It tries one port less than there are: all but the one behind which it begins (`mem_probes_iff`).
So it is exact unless that port alone is free (`allocatesExactly_iff`).
-/

namespace MiniTcp

/-- A port of the range. -/
def Ephemeral (port : Nat) : Prop := FIRST_EPHEMERAL_PORT ≤ port ∧ port ≤ LAST_EPHEMERAL_PORT

instance (port : Nat) : Decidable (Ephemeral port) := inferInstanceAs (Decidable (_ ∧ _))

/-- The port before `port`, going round. -/
def previousPort (port : Nat) : Nat := if port = FIRST_EPHEMERAL_PORT then LAST_EPHEMERAL_PORT else port - 1

/-- The `i`-th port from `start` on, going round. -/
def portAt (start i : Nat) : Nat :=
  FIRST_EPHEMERAL_PORT + (start - FIRST_EPHEMERAL_PORT + i) % (LAST_EPHEMERAL_PORT - FIRST_EPHEMERAL_PORT + 1)

/-- The ports that the loop tries. -/
def probes (start n : Nat) : List Nat := (List.range n).map (portAt start)

variable {start port : Nat}

/-! ### Going round -/

theorem ephemeral_iff : Ephemeral port ↔ 49152 ≤ port ∧ port ≤ 65535 := Iff.rfl

theorem previousPort_eq (port : Nat) : previousPort port = if port = 49152 then 65535 else port - 1 := rfl

theorem portAt_eq (start i : Nat) : portAt start i = 49152 + (start - 49152 + i) % 16384 := rfl

theorem portAt_zero (h : Ephemeral start) : portAt start 0 = start := by
  rw [ephemeral_iff] at h
  rw [portAt_eq]
  omega

theorem ephemeral_previousPort (h : Ephemeral start) : Ephemeral (previousPort start) := by
  rw [ephemeral_iff] at h
  rw [ephemeral_iff, previousPort_eq]
  split_ifs <;> omega

theorem mem_probes_iff (h : Ephemeral start) :
    port ∈ probes start (LAST_EPHEMERAL_PORT - FIRST_EPHEMERAL_PORT) ↔ Ephemeral port ∧ port ≠ previousPort start := by
  have hcount : LAST_EPHEMERAL_PORT - FIRST_EPHEMERAL_PORT = 16383 := rfl
  rw [ephemeral_iff] at h
  rw [probes, List.mem_map, ephemeral_iff, previousPort_eq]
  simp only [List.mem_range, hcount, portAt_eq]
  constructor
  · rintro ⟨i, hi, rfl⟩
    split_ifs <;> omega
  · rintro ⟨hport, hne⟩
    refine ⟨(port + 16384 - start) % 16384, ?_, ?_⟩
    · split_ifs at hne <;> omega
    · omega

namespace Tables

variable {t : Tables}

theorem nextPort_advancePort (t : Tables) :
    t.advancePort.nextPort = if t.nextPort + 1 > 65535 then 49152 else t.nextPort + 1 := rfl

theorem portInUse_advancePort (t : Tables) : t.advancePort.portInUse = t.portInUse := rfl

theorem ephemeral_advancePort (h : Ephemeral t.nextPort) : Ephemeral t.advancePort.nextPort := by
  rw [ephemeral_iff] at h
  rw [ephemeral_iff, nextPort_advancePort]
  split_ifs <;> omega

theorem portAt_advancePort (h : Ephemeral t.nextPort) (i : Nat) :
    portAt t.advancePort.nextPort i = portAt t.nextPort (i + 1) := by
  rw [ephemeral_iff] at h
  rw [portAt_eq, portAt_eq, nextPort_advancePort]
  split_ifs <;> omega

theorem searchPort_fst (n : Nat) (h : Ephemeral t.nextPort) :
    (searchPort n t).1 = (probes t.nextPort n).find? fun port => !t.portInUse port := by
  induction n generalizing t with
  | zero => rfl
  | succ n ih =>
    have hprobes : probes t.nextPort (n + 1) = t.nextPort :: probes t.advancePort.nextPort n := by
      rw [probes, List.range_succ_eq_map, List.map_cons, portAt_zero h, List.map_map, probes, List.cons_inj_right]
      refine List.map_congr_left fun i _ => ?_
      rw [Function.comp_apply, portAt_advancePort h]
    rw [searchPort, hprobes, portInUse_advancePort]
    cases huse : t.portInUse t.nextPort with
    | true =>
      rw [if_pos rfl, ih (ephemeral_advancePort h), List.find?_cons_of_neg (by simp [huse]), portInUse_advancePort]
    | false => rw [if_neg Bool.false_ne_true, List.find?_cons_of_pos (by simp [huse])]

theorem ephemeral_searchPort (n : Nat) (h : Ephemeral t.nextPort) : Ephemeral (searchPort n t).2.nextPort := by
  induction n generalizing t with
  | zero => exact h
  | succ n ih =>
    rw [searchPort]
    split_ifs
    · exact ih (ephemeral_advancePort h)
    · exact ephemeral_advancePort h

/-- What the call gives is a free port of the range, or an error when there is none; and the next search begins in
the range. -/
def AllocatesExactly (t : Tables) : Prop :=
  (match t.allocatePort.1 with
    | .ok port => Ephemeral port ∧ t.portInUse port = false
    | .error e =>
      e = .stackError "no ephemeral ports available" ∧ ∀ port, Ephemeral port → t.portInUse port = true) ∧
    Ephemeral t.allocatePort.2.nextPort

theorem AllocatesExactly.portInUse {e : Raised} (h : t.AllocatesExactly) (he : t.allocatePort.1 = .error e)
    (hport : Ephemeral port) : t.portInUse port = true := by
  have hexact := h.1
  rw [he] at hexact
  exact hexact.2 port hport

theorem allocatePort_fst (h : Ephemeral t.nextPort) :
    (∃ port, t.allocatePort.1 = .ok port ∧ Ephemeral port ∧ port ≠ previousPort t.nextPort ∧
      t.portInUse port = false) ∨
    t.allocatePort.1 = .error (.stackError "no ephemeral ports available") ∧
      ∀ port, Ephemeral port → port ≠ previousPort t.nextPort → t.portInUse port = true := by
  have hsearch := searchPort_fst (LAST_EPHEMERAL_PORT - FIRST_EPHEMERAL_PORT) h
  unfold allocatePort
  generalize searchPort (LAST_EPHEMERAL_PORT - FIRST_EPHEMERAL_PORT) t = r at hsearch
  obtain ⟨found, u⟩ := r
  dsimp only at hsearch
  cases found with
  | none =>
    refine .inr ⟨rfl, fun port hport hne => ?_⟩
    have huse := List.find?_eq_none.mp hsearch.symm port ((mem_probes_iff h).mpr ⟨hport, hne⟩)
    simpa using huse
  | some port =>
    obtain ⟨hport, hne⟩ := (mem_probes_iff h).mp (List.mem_of_find?_eq_some hsearch.symm)
    have hfree := List.find?_some hsearch.symm
    exact .inl ⟨port, rfl, hport, hne, by simpa using hfree⟩

theorem ephemeral_allocatePort (h : Ephemeral t.nextPort) : Ephemeral t.allocatePort.2.nextPort := by
  have hsearch := ephemeral_searchPort (LAST_EPHEMERAL_PORT - FIRST_EPHEMERAL_PORT) h
  unfold allocatePort
  generalize searchPort (LAST_EPHEMERAL_PORT - FIRST_EPHEMERAL_PORT) t = r at hsearch
  obtain ⟨found, u⟩ := r
  cases found <;> exact hsearch

/-- The allocation is exact unless the one free port is the one before the first that is tried. -/
theorem allocatesExactly_iff (h : Ephemeral t.nextPort) :
    t.AllocatesExactly ↔
      ¬ ∀ port, Ephemeral port → (t.portInUse port = false ↔ port = previousPort t.nextPort) := by
  rw [AllocatesExactly, and_iff_left (ephemeral_allocatePort h)]
  rcases allocatePort_fst h with ⟨port, hfst, hport, hne, hfree⟩ | ⟨hfst, hbusy⟩
  · rw [hfst]
    exact iff_of_true ⟨hport, hfree⟩ fun hsole => hne ((hsole port hport).mp hfree)
  · rw [hfst]
    constructor
    · rintro ⟨-, hall⟩ hsole
      have hprevious := ephemeral_previousPort h
      have hfree := (hsole _ hprevious).mpr rfl
      rw [hall _ hprevious] at hfree
      cases hfree
    · intro hsole
      refine ⟨rfl, fun port hport => ?_⟩
      by_cases hne : port = previousPort t.nextPort
      · -- every other port is in use, so a free one here would be the only one
        by_contra hfree
        rw [Bool.not_eq_true] at hfree
        refine hsole fun other hother => ⟨fun hfree' => ?_, fun heq => ?_⟩
        · by_contra hne'
          rw [hbusy other hother hne'] at hfree'
          cases hfree'
        · rw [heq, ← hne, hfree]
      · exact hbusy port hport hne

/-- The search begins at the last port but one; that port, the last and the first are in use. -/
def endInUse : Tables where
  nextPort := 65534
  listeners := { items := [(65534, 0), (65535, 1), (49152, 2)], nodup := by decide }

/-- It goes round and finds the second. -/
theorem allocatesExactly_endInUse : endInUse.allocatePort.1 = .ok 49153 ∧ endInUse.AllocatesExactly :=
  ⟨rfl, (allocatesExactly_iff (by decide)).mpr fun hsole => absurd ((hsole 49153 (by decide)).mp rfl) (by decide)⟩

/-- A new stack that listens on every port of the range but the last. -/
def lastPortFree : Tables where
  listeners :=
    { items := (List.range 16383).map fun i => (49152 + i, i)
      nodup := by
        rw [List.map_map]
        exact List.nodup_range.map fun i j h => Nat.add_left_cancel h }

theorem ephemeral_lastPortFree : Ephemeral lastPortFree.nextPort := by
  rw [ephemeral_iff]
  simp only [lastPortFree, FIRST_EPHEMERAL_PORT]
  omega

theorem portInUse_lastPortFree (h : Ephemeral port) : lastPortFree.portInUse port = true ↔ port ≠ 65535 := by
  rw [ephemeral_iff] at h
  have hconnections : lastPortFree.connections.keys = [] := rfl
  rw [portInUse, hconnections, List.any_nil, Bool.or_false, Dict.contains_iff, Dict.keys]
  simp only [lastPortFree, List.map_map, List.mem_map, List.mem_range, Function.comp_apply]
  constructor
  · rintro ⟨i, hi, rfl⟩
    omega
  · intro hne
    exact ⟨port - 49152, by omega, by omega⟩

/-- It finds none. -/
theorem allocates_none_of_lastPortFree : ¬ ∀ t : Tables, Ephemeral t.nextPort → t.AllocatesExactly := by
  intro hall
  have hnew := ephemeral_lastPortFree
  have hlast : Ephemeral 65535 := by decide
  rcases allocatePort_fst hnew with ⟨port, -, hport, hne, hfree⟩ | ⟨hfst, -⟩
  · have hbusy := (portInUse_lastPortFree hport).mpr hne
    rw [hfree] at hbusy
    cases hbusy
  · exact (portInUse_lastPortFree hlast).mp ((hall lastPortFree hnew).portInUse hfst hlast) rfl

end Tables

end MiniTcp
