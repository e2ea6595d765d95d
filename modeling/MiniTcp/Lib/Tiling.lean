import MiniTcp.Lib.Pieces

/-!
# Pieces that lie end to end

`item` says where the piece of an element lies and what it is. Elements are contiguous from `start` on when
each piece begins where the one before it ends. Every position of the range then lies in one of the pieces
(`exists_holds`) and in no other that is not empty (`eq_of_holds`), and a piece is a part of the whole content
(`partOf`). Contiguous elements take the place of one of them (`contiguous_append`).
-/

namespace Pieces

variable {α β : Type} (item : β → Nat × List α)

/-- Each piece begins where the one before it ends. -/
def Contiguous : Nat → List β → Prop
  | _, [] => True
  | start, e :: es => (item e).1 = start ∧ Contiguous (start + (item e).2.length) es

/-- What the pieces hold, one after another. -/
def content (es : List β) : List α := es.flatMap fun e => (item e).2

variable {item} {start x : Nat} {e e' : β} {es es' : List β}

@[simp] theorem content_nil : content item ([] : List β) = [] := rfl

@[simp] theorem content_cons : content item (e :: es) = (item e).2 ++ content item es := rfl

@[simp] theorem content_append : content item (es ++ es') = content item es ++ content item es' :=
  List.flatMap_append

@[simp] theorem contiguous_nil : Contiguous item start [] := trivial

theorem contiguous_cons :
    Contiguous item start (e :: es) ↔ (item e).1 = start ∧ Contiguous item (start + (item e).2.length) es :=
  Iff.rfl

theorem contiguous_append : Contiguous item start (es ++ es') ↔
    Contiguous item start es ∧ Contiguous item (start + (content item es).length) es' := by
  induction es generalizing start with
  | nil => simp
  | cons e es ih => simp [contiguous_cons, ih, and_assoc, Nat.add_assoc]

namespace Contiguous

theorem le_of_mem (h : Contiguous item start es) (he : e ∈ es) : start ≤ (item e).1 := by
  induction es generalizing start with
  | nil => cases he
  | cons e' es ih =>
    obtain ⟨hstart, hrest⟩ := h
    rcases List.mem_cons.mp he with rfl | he
    · omega
    · have := ih hrest he
      omega

theorem exists_holds (h : Contiguous item start es) (hle : start ≤ x)
    (hlt : x < start + (content item es).length) : ∃ e ∈ es, Holds (item e) x := by
  induction es generalizing start with
  | nil => simp at hlt; omega
  | cons e es ih =>
    obtain ⟨hstart, hrest⟩ := h
    by_cases hx : x < start + (item e).2.length
    · exact ⟨e, by simp, by omega, by omega⟩
    · obtain ⟨e', he', hholds⟩ := ih hrest (by omega) (by simp at hlt; omega)
      exact ⟨e', by simp [he'], hholds⟩

theorem eq_of_holds (h : Contiguous item start es) (he : e ∈ es) (he' : e' ∈ es) (hx : Holds (item e) x)
    (hx' : Holds (item e') x) : e = e' := by
  induction es generalizing start with
  | nil => cases he
  | cons head es ih =>
    obtain ⟨hstart, hrest⟩ := h
    have hbeyond : ∀ f ∈ es, Holds (item f) x → ¬ Holds (item head) x := by
      rintro f hf ⟨hle, -⟩ ⟨-, hlt⟩
      have := hrest.le_of_mem hf
      omega
    rcases List.mem_cons.mp he with rfl | hmem
    · rcases List.mem_cons.mp he' with rfl | hmem'
      · rfl
      · exact absurd hx (hbeyond e' hmem' hx')
    · rcases List.mem_cons.mp he' with rfl | hmem'
      · exact absurd hx' (hbeyond e hmem hx)
      · exact ih hrest hmem hmem'

theorem partOf (h : Contiguous item 0 es) (he : e ∈ es) : PartOf (content item es) (item e) := by
  obtain ⟨before, after, rfl⟩ := List.append_of_mem he
  obtain ⟨hstart, -⟩ := (contiguous_append.mp h).2
  simp only [Nat.zero_add] at hstart
  simp [PartOf, hstart]

end Contiguous

end Pieces
