/-!
# Notes along a fold

A state is stepped through a list, and something may be noted at every element. What the notes say
about the state is found one element at a time.

* `noted`: what is noted along a left fold;
* `noted_induction`: what every element keeps between notes and state;
* `view_foldl`: a view of the state that the notes tell;
* `map_noted`: what the notes show whatever the state;
* `noted_congr`: states that stay alike lead to the same notes;
* `exists_of_mem_noted`: where a note was taken.
-/

namespace Rung

variable {α β τ σ υ : Type} {step : β → α → β} {note : β → α → List τ}

/-- What is noted along a left fold, at every element and from the state it finds. -/
def noted (step : β → α → β) (note : β → α → List τ) : β → List α → List τ
  | _, [] => []
  | b, a :: as => note b a ++ noted step note (step b a) as

/-- What every element keeps between the notes so far and the state, the whole list keeps. -/
theorem noted_induction {R : List τ → β → Prop}
    (h : ∀ notes b a, R notes b → R (notes ++ note b a) (step b a)) {notes : List τ} {b : β}
    (hb : R notes b) (as : List α) : R (notes ++ noted step note b as) (as.foldl step b) := by
  induction as generalizing notes b with
  | nil =>
    rw [noted, List.append_nil]
    exact hb
  | cons a as ih =>
    rw [noted, ← List.append_assoc]
    exact ih (h notes b a hb)

/-- A view of the state that follows the notes of each element follows all notes. -/
theorem view_foldl (view : β → σ) {follow : σ → τ → σ} {as : List α}
    (h : ∀ a ∈ as, ∀ b, view (step b a) = (note b a).foldl follow (view b)) (b : β) :
    view (as.foldl step b) = (noted step note b as).foldl follow (view b) := by
  induction as generalizing b with
  | nil => rfl
  | cons a as ih =>
    rw [List.forall_mem_cons] at h
    rw [List.foldl_cons, ih h.2, h.1, noted, List.foldl_append]

theorem map_noted {f : τ → υ} (shown : α → List υ) (h : ∀ b a, (note b a).map f = shown a)
    (b : β) (as : List α) : (noted step note b as).map f = as.flatMap shown := by
  induction as generalizing b with
  | nil => rfl
  | cons a as ih => rw [noted, List.map_append, h, ih, List.flatMap_cons]

theorem noted_congr {R : β → β → Prop} {as : List α}
    (hnote : ∀ a ∈ as, ∀ b b', R b b' → note b a = note b' a)
    (hstep : ∀ a ∈ as, ∀ b b', R b b' → R (step b a) (step b' a)) {b b' : β} (h : R b b') :
    noted step note b as = noted step note b' as := by
  induction as generalizing b b' with
  | nil => rfl
  | cons a as ih =>
    rw [List.forall_mem_cons] at hnote hstep
    rw [noted, noted, hnote.1 b b' h, ih hnote.2 hstep.2 (hstep.1 b b' h)]

/-- Every note was taken at some element, from the state that the elements before it led to. -/
theorem exists_of_mem_noted {n : τ} {b : β} {as : List α} (h : n ∈ noted step note b as) :
    ∃ before a after, as = before ++ a :: after ∧ n ∈ note (before.foldl step b) a := by
  induction as generalizing b with
  | nil => exact absurd h List.not_mem_nil
  | cons a as ih =>
    rcases List.mem_append.mp h with h | h
    · exact ⟨[], a, as, rfl, h⟩
    · obtain ⟨before, a', after, rfl, hn⟩ := ih h
      exact ⟨a :: before, a', after, rfl, hn⟩

end Rung
