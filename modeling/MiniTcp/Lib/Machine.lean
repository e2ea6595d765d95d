import Mathlib.Data.List.Basic

/-!
# Machines and their runs

A machine has starting states and says what each event does. A run is a list of events; a guard
`ok s e` says in which states an event may happen, so that an environment that is not free to do
everything (a network that only delivers what was sent, a caller that keeps to an order) is a guard
on the same machine.

* `ReachableBy.induction`: what holds at the start and is kept by every allowed event holds in every
  state an allowed run reaches.
* `always_iff_meets`: when a property is kept by exactly the events a guard allows, it holds in every
  state of a run exactly when every event of the run is allowed.
* `meets_iff_meets`: two guards that agree under an invariant are met by the same runs.
-/

/-- Starting states, and what an event does to a state. -/
structure Machine (σ ε : Type) where
  init : σ → Prop
  next : σ → ε → σ

namespace Machine

variable {σ ε : Type} (m : Machine σ ε) {ok ok' : σ → ε → Prop} {P Q : σ → Prop}

/-- The state after a list of events. -/
def run (s : σ) (es : List ε) : σ := es.foldl m.next s

/-- Every event of the run happens in a state that allows it. -/
def Meets (ok : σ → ε → Prop) : σ → List ε → Prop
  | _, [] => True
  | s, e :: es => ok s e ∧ Meets ok (m.next s e) es

instance decidableMeets [∀ s e, Decidable (ok s e)] :
    (s : σ) → (es : List ε) → Decidable (m.Meets ok s es)
  | _, [] => .isTrue trivial
  | s, e :: es =>
    have := decidableMeets (m.next s e) es
    inferInstanceAs (Decidable (ok s e ∧ m.Meets ok (m.next s e) es))

/-- Every state of the run, the first and the last included, has the property. -/
def Always (P : σ → Prop) : σ → List ε → Prop
  | s, [] => P s
  | s, e :: es => P s ∧ Always P (m.next s e) es

/-- Some run of allowed events leads from a starting state to `s`. -/
def ReachableBy (ok : σ → ε → Prop) (s : σ) : Prop :=
  ∃ s₀ es, m.init s₀ ∧ m.Meets ok s₀ es ∧ m.run s₀ es = s

/-- Some run leads from a starting state to `s`. -/
def Reachable (s : σ) : Prop := m.ReachableBy (fun _ _ => True) s

@[simp] theorem run_nil (s : σ) : m.run s [] = s := rfl

@[simp] theorem run_cons (s : σ) (e : ε) (es : List ε) :
    m.run s (e :: es) = m.run (m.next s e) es := rfl

theorem run_append (s : σ) (es es' : List ε) : m.run s (es ++ es') = m.run (m.run s es) es' :=
  List.foldl_append

theorem meets_append (s : σ) (es es' : List ε) :
    m.Meets ok s (es ++ es') ↔ m.Meets ok s es ∧ m.Meets ok (m.run s es) es' := by
  induction es generalizing s with
  | nil => simp [Meets]
  | cons e es ih => simp [Meets, ih, and_assoc]

theorem meets_true (s : σ) (es : List ε) : m.Meets (fun _ _ => True) s es := by
  induction es generalizing s with
  | nil => trivial
  | cons e es ih => exact ⟨trivial, ih _⟩

/-- A guard that looks at the event only is met when every event of the list satisfies it. -/
theorem meets_const {φ : ε → Prop} (s : σ) (es : List ε) :
    m.Meets (fun _ e => φ e) s es ↔ ∀ e ∈ es, φ e := by
  induction es generalizing s with
  | nil => simp [Meets]
  | cons e es ih => simp [Meets, ih]

theorem meets_and (s : σ) (es : List ε) :
    m.Meets (fun s e => ok s e ∧ ok' s e) s es ↔ m.Meets ok s es ∧ m.Meets ok' s es := by
  induction es generalizing s with
  | nil => simp [Meets]
  | cons e es ih => simp [Meets, ih, and_and_and_comm]

theorem Meets.mono (hok : ∀ s e, ok s e → ok' s e) {s : σ} {es : List ε}
    (h : m.Meets ok s es) : m.Meets ok' s es := by
  induction es generalizing s with
  | nil => trivial
  | cons e es ih => exact ⟨hok s e h.1, ih h.2⟩

theorem ReachableBy.init {s : σ} (h : m.init s) : m.ReachableBy ok s := ⟨s, [], h, trivial, rfl⟩

theorem ReachableBy.step {s : σ} (h : m.ReachableBy ok s) (e : ε) (he : ok s e) :
    m.ReachableBy ok (m.next s e) := by
  obtain ⟨s₀, es, hinit, hmeets, rfl⟩ := h
  refine ⟨s₀, es ++ [e], hinit, ?_, ?_⟩
  · rw [meets_append]
    exact ⟨hmeets, he, trivial⟩
  · rw [run_append]
    rfl

theorem ReachableBy.run {s : σ} (h : m.ReachableBy ok s) {es : List ε} (hes : m.Meets ok s es) :
    m.ReachableBy ok (m.run s es) := by
  induction es generalizing s with
  | nil => exact h
  | cons e es ih => exact ih (h.step m e hes.1) hes.2

theorem ReachableBy.mono (hok : ∀ s e, ok s e → ok' s e) {s : σ} (h : m.ReachableBy ok s) :
    m.ReachableBy ok' s := by
  obtain ⟨s₀, es, hinit, hmeets, hrun⟩ := h
  exact ⟨s₀, es, hinit, Meets.mono m hok hmeets, hrun⟩

theorem ReachableBy.reachable {s : σ} (h : m.ReachableBy ok s) : m.Reachable s :=
  h.mono m fun _ _ _ => trivial

/-- What allowed events keep holds along an allowed run. -/
theorem run_induction (hstep : ∀ s e, P s → ok s e → P (m.next s e)) {s : σ} {es : List ε}
    (hs : P s) (hes : m.Meets ok s es) : P (m.run s es) := by
  induction es generalizing s with
  | nil => exact hs
  | cons e es ih => exact ih (hstep s e hs hes.1) hes.2

/-- The invariant rule. -/
theorem ReachableBy.induction (hinit : ∀ s, m.init s → P s)
    (hstep : ∀ s e, m.ReachableBy ok s → P s → ok s e → P (m.next s e)) {s : σ}
    (h : m.ReachableBy ok s) : P s := by
  obtain ⟨s₀, es, h₀, hmeets, rfl⟩ := h
  have : m.ReachableBy ok (m.run s₀ es) ∧ P (m.run s₀ es) := by
    refine m.run_induction (P := fun s => m.ReachableBy ok s ∧ P s) ?_
      ⟨.init m h₀, hinit s₀ h₀⟩ hmeets
    rintro s e ⟨hr, hp⟩ he
    exact ⟨hr.step m e he, hstep s e hr hp he⟩
  exact this.2

theorem always_head {s : σ} {es : List ε} (h : m.Always P s es) : P s := by
  cases es with
  | nil => exact h
  | cons e es => exact h.1

/-- What allowed events keep gives a property of every state of an allowed run. -/
theorem always_of_meets (hPQ : ∀ s, P s → Q s) (hstep : ∀ s e, P s → ok s e → P (m.next s e)) {s : σ}
    {es : List ε} (hs : P s) (hes : m.Meets ok s es) : m.Always Q s es := by
  induction es generalizing s with
  | nil => exact hPQ s hs
  | cons e es ih => exact ⟨hPQ s hs, ih (hstep s e hs hes.1) hes.2⟩

/-- When, under an invariant `Q`, an event that can happen (`E`) keeps `P` exactly when `ok` allows
it, `P` holds all along a run exactly when every event of the run is allowed. -/
theorem always_iff_meets {E : σ → ε → Prop}
    (hQ : ∀ s e, Q s → P s → E s e → ok s e → Q (m.next s e))
    (hP : ∀ s e, Q s → P s → E s e → (P (m.next s e) ↔ ok s e)) {s : σ} {es : List ε}
    (hes : m.Meets E s es) (hq : Q s) (hp : P s) : m.Always P s es ↔ m.Meets ok s es := by
  induction es generalizing s with
  | nil => exact ⟨fun _ => trivial, fun _ => hp⟩
  | cons e es ih =>
    constructor
    · rintro ⟨-, h⟩
      have he := (hP s e hq hp hes.1).mp (m.always_head h)
      exact ⟨he, (ih hes.2 (hQ s e hq hp hes.1 he) (m.always_head h)).mp h⟩
    · rintro ⟨he, h⟩
      have hp' := (hP s e hq hp hes.1).mpr he
      exact ⟨hp, (ih hes.2 (hQ s e hq hp hes.1 he) hp').mpr h⟩

/-- What is allowed implies a second guard step by step, under an invariant that it keeps. -/
theorem Meets.of_invariant (hstep : ∀ s e, Q s → ok s e → ok' s e ∧ Q (m.next s e)) {s : σ} {es : List ε}
    (h : m.Meets ok s es) (hq : Q s) : m.Meets ok' s es := by
  induction es generalizing s with
  | nil => trivial
  | cons e es ih =>
    obtain ⟨he', hq'⟩ := hstep s e hq h.1
    exact ⟨he', ih h.2 hq'⟩

/-- Two guards that agree under an invariant, which the steps they allow keep, are met by the same runs. -/
theorem meets_iff_meets {E : σ → ε → Prop} (hQ : ∀ s e, Q s → E s e → ok' s e → Q (m.next s e))
    (h : ∀ s e, Q s → E s e → (ok s e ↔ ok' s e)) {s : σ} {es : List ε} (hes : m.Meets E s es)
    (hq : Q s) : m.Meets ok s es ↔ m.Meets ok' s es := by
  constructor
  · intro hok
    apply ((m.meets_and s es).mpr ⟨hes, hok⟩).of_invariant m _ hq
    rintro s e hq ⟨he, hok⟩
    have hok' := (h s e hq he).mp hok
    exact ⟨hok', hQ s e hq he hok'⟩
  · intro hok'
    apply ((m.meets_and s es).mpr ⟨hes, hok'⟩).of_invariant m _ hq
    rintro s e hq ⟨he, hok'⟩
    exact ⟨(h s e hq he).mpr hok', hQ s e hq he hok'⟩

end Machine
