import Rung.Proofs.Entries

/-!
# A scan without feedback is idempotent

When nothing that a source reads is written by it, and no output counts, a second scan reads what the
first one read and makes the same entries again. Entries may overwrite each other within a scan, whole
words and single digits mixed. Still, an entry that is made again later need not have been made
before: what it replaces is replaced anyway, and no other entry takes it up.

* `Image.SameBut`: two images that differ at most in what an entry replaces;
* `Image.SameBut.enter`, `Image.SameBut.enter_eq`: other entries keep such a difference, and the entry
  itself removes it;
* `Image.foldl_enter_foldl_enter`: entries that are all made again need not have been made before;
* `Source.entries`, `Source.entries_scan`: a second scan makes the same entries;
* **`Source.execute_twice`**: a second scan changes nothing.
-/

namespace Rung

namespace Image

/-! ## Entries that are made again -/

theorem readPoint_enter_congr {img img' : Image} {tag : Tag} {j : Nat}
    (h : img.readPoint (.memoryBit tag j) = img'.readPoint (.memoryBit tag j)) (e : Entry) :
    (img.enter e).readPoint (.memoryBit tag j) = (img'.enter e).readPoint (.memoryBit tag j) := by
  simp only [readPoint_memoryBit_eq_getLsbD] at h ⊢
  cases e with
  | bit c state => exact h
  | word c value =>
    simp only [enter, word_setWord]
    split_ifs
    · rfl
    · exact h
  | digit tag' i state =>
    simp only [enter, word_setWord]
    split_ifs with htag
    · cases htag
      rw [getLsbD_putBit _ i.isLt, getLsbD_putBit _ i.isLt, h]
    · exact h

/-- Two images differ at most in what an entry replaces: they store the same in the other cells and,
where the entry is a digit, read the same in the other digits of its word. -/
structure SameBut (e : Entry) (img img' : Image) : Prop where
  cells : ∀ cell, cell ≠ e.cell → img.SameAt img' cell
  digits : ∀ tag i state, e = .digit tag i state → ∀ j, j ≠ i.val →
    img.readPoint (.memoryBit tag j) = img'.readPoint (.memoryBit tag j)

theorem sameBut_enter (img : Image) (e : Entry) : SameBut e (img.enter e) img where
  cells _ hcell := img.sameAt_enter hcell
  digits tag i state he j hj := by
    subst he
    rw [readPoint_memoryBit_eq_getLsbD, enter, word_setWord, if_pos rfl, getLsbD_putBit _ i.isLt,
      if_neg hj.symm, readPoint_memoryBit_eq_getLsbD]

namespace SameBut

variable {e : Entry} {img img' : Image}

theorem enter (h : SameBut e img img') (e' : Entry) :
    SameBut e (img.enter e') (img'.enter e') where
  cells cell hcell := (h.cells cell hcell).enter e'
  digits tag i state he j hj := readPoint_enter_congr (h.digits tag i state he j hj) e'

theorem foldl_enter (h : SameBut e img img') (es : List Entry) :
    SameBut e (es.foldl Image.enter img) (es.foldl Image.enter img') := by
  induction es generalizing img img' with
  | nil => exact h
  | cons e' es ih => exact ih (h.enter e')

/-- **An entry removes the difference that it replaces.** -/
theorem enter_eq (h : SameBut e img img') : img.enter e = img'.enter e := by
  refine ext_sameAt fun cell => ?_
  by_cases hcell : cell = e.cell
  · subst hcell
    cases e with
    | bit c state | word c value => simp [SameAt, Image.enter, Entry.cell]
    | digit tag i state =>
      -- the words agree in all digits but the one that is put into both
      have hword : putBit (img.word ⟨.memory, tag⟩) i state =
          putBit (img'.word ⟨.memory, tag⟩) i state := by
        refine Int64.toBitVec_inj.mp (BitVec.eq_of_getLsbD_eq fun j _ => ?_)
        rw [getLsbD_putBit _ i.isLt, getLsbD_putBit _ i.isLt]
        split_ifs with hj
        · rfl
        · rw [← readPoint_memoryBit_eq_getLsbD, ← readPoint_memoryBit_eq_getLsbD]
          exact h.digits tag i state rfl j (Ne.symm hj)
      simp [SameAt, Image.enter, Entry.cell, hword]
  · exact (h.cells cell hcell).enter e

end SameBut

/-- An entry that is made again later need not have been made before. -/
theorem foldl_enter_enter (img : Image) {e : Entry} {es : List Entry} (h : e ∈ es) :
    es.foldl enter (img.enter e) = es.foldl enter img := by
  obtain ⟨before, after, rfl⟩ := List.append_of_mem h
  have hagain := ((img.sameBut_enter e).foldl_enter before).enter_eq
  simp only [List.foldl_append, List.foldl_cons, hagain]

/-- **Entries that are all made again later need not have been made before.** -/
theorem foldl_enter_foldl_enter (img : Image) {es es' : List Entry} (h : es ⊆ es') :
    es'.foldl enter (es.foldl enter img) = es'.foldl enter img := by
  induction es generalizing img with
  | nil => rfl
  | cons e es ih =>
    obtain ⟨he, hes⟩ := List.cons_subset.mp h
    rw [List.foldl_cons, ih (img.enter e) hes, foldl_enter_enter img he]

end Image

/-! ## Scans without feedback -/

namespace Source

def entries (src : Source) (img : Image) : List Entry :=
  noted Circuit.scan Circuit.entries img src.circuits

theorem scan_eq_foldl_enter (src : Source) (img : Image) :
    src.scan img = (src.entries img).foldl Image.enter img :=
  foldl_eq_foldl_enter Circuit.scan_eq_foldl_enter img src.circuits

theorem sameAt_scan {src : Source} {cell : Cell} (h : cell ∉ src.writes) (img : Image) :
    (src.scan img).SameAt img cell := by
  refine List.foldlRecOn src.circuits Circuit.scan (motive := (·.SameAt img cell))
    (Image.SameAt.refl img cell) fun img' himg c hc => ?_
  have hcell : cell ∉ c.writes := fun hmem => h (List.mem_flatMap.mpr ⟨c, hc, hmem⟩)
  exact (Circuit.sameAt_scan img' hcell).trans himg

end Source

/-- Only an output on a timer or counter counts on from what is stored. -/
theorem Action.carries_eq_nil {a : Action}
    (h : a.how = .output → ∀ tag preset,
      a.target ≠ .timer tag preset ∧ a.target ≠ .counter tag preset) : a.carries = [] := by
  rw [carries]
  cases hhow : a.how with
  | set | reset | write value => rfl
  | output =>
    cases htarget : a.target with
    | relay _ _ | memoryBit _ _ | memory _ => rfl
    | timer tag preset => exact absurd htarget (h hhow tag preset).1
    | counter tag preset => exact absurd htarget (h hhow tag preset).2

namespace Source

theorem entries_scan {src : Source} (hcarries : ∀ a ∈ src.actions, a.carries = [])
    (hfeedback : ∀ cell ∈ src.reads, cell ∉ src.writes) (img : Image) :
    src.entries (src.scan img) = src.entries img := by
  refine noted_entries_congr Circuit.scan_eq_foldl_enter (fun c hc img img' himg => ?_)
    fun cell hcell => (sameAt_scan (hfeedback cell hcell) img).agreeAt
  have hreads : c.reads ⊆ src.reads := fun cell hcell => List.mem_flatMap.mpr ⟨c, hc, hcell⟩
  refine Circuit.entries_congr hreads (fun a ha => ?_) himg
  rw [hcarries a (List.mem_flatMap.mpr ⟨c, hc, ha⟩)]
  exact List.nil_subset _

/-- **A scan without feedback is idempotent**, if no output drives a timer or counter. -/
theorem execute_twice (src : Source)
    (houtput : ∀ a ∈ src.actions, a.how = .output → ∀ tag preset,
      a.target ≠ .timer tag preset ∧ a.target ≠ .counter tag preset)
    (hfeedback : ∀ cell ∈ src.reads, cell ∉ src.writes) :
    ∃ s, src.compile = .ok s ∧ ∀ img, ∃ img', execute s.commands img = (img', none) ∧
      execute s.commands img' = (img', none) := by
  obtain ⟨s, hs, hexecute⟩ := src.exists_compile_execute
  refine ⟨s, hs, fun img => ⟨src.scan img, hexecute img, ?_⟩⟩
  have hcarries : ∀ a ∈ src.actions, a.carries = [] := fun a ha => a.carries_eq_nil (houtput a ha)
  have hagain : src.scan (src.scan img) = src.scan img :=
    calc src.scan (src.scan img)
        = (src.entries img).foldl Image.enter ((src.entries img).foldl Image.enter img) := by
          rw [scan_eq_foldl_enter, entries_scan hcarries hfeedback, scan_eq_foldl_enter src img]
      _ = (src.entries img).foldl Image.enter img :=
          img.foldl_enter_foldl_enter (List.Subset.refl _)
      _ = src.scan img := (src.scan_eq_foldl_enter img).symm
  rw [hexecute, hagain]

end Source

/-- A word that is loaded as a whole after one of its digits is driven and before another is, a relay
that is driven in one circuit and reset in another, and a timer and a counter that are latched. -/
def recipeUnit : LogicUnit where
  name := "recipe"
  circuits :=
    [⟨.leaf (.contact (.input ⟨"X", 0⟩) false),
        [.output (.memoryBit ⟨⟨⟨"D", 0⟩, .int16⟩, 3, by decide⟩ false),
          .write (.constant "" 40) (.memory ⟨⟨"D", 0⟩, .int16⟩)]⟩,
      ⟨.leaf (.contact (.input ⟨"X", 1⟩) true),
        [.output (.memoryBit ⟨⟨⟨"D", 0⟩, .int16⟩, 0, by decide⟩ false),
          .set (.timer ⟨"T", 0⟩ (.memory ⟨⟨"D", 1⟩, .int16⟩)),
          .interlocked (.leaf (.contact (.input ⟨"X", 2⟩) false)) (.reset (.relay ⟨"Y", 0⟩ false))]⟩,
      ⟨.leaf (.compare (.memory ⟨⟨"D", 1⟩, .int16⟩) .ge (.constant "" 2)),
        [.output (.relay ⟨"Y", 0⟩ false), .set (.counter ⟨"C", 0⟩ (.constant "" 7))]⟩]

theorem execute_twice_recipeUnit :
    (∀ a ∈ (Source.unit recipeUnit).actions, a.how = .output → ∀ tag preset,
      a.target ≠ .timer tag preset ∧ a.target ≠ .counter tag preset) ∧
    (∀ cell ∈ (Source.unit recipeUnit).reads, cell ∉ (Source.unit recipeUnit).writes) ∧
    ∃ s, (Source.unit recipeUnit).compile = .ok s ∧ ∀ img, ∃ img',
      execute s.commands img = (img', none) ∧ execute s.commands img' = (img', none) := by
  have houtput : ∀ a ∈ (Source.unit recipeUnit).actions, a.how = .output → ∀ tag preset,
      a.target ≠ .timer tag preset ∧ a.target ≠ .counter tag preset := by
    simp [Source.actions, Source.circuits, Source.units, recipeUnit, Action.output, Action.write,
      Action.set, Action.reset, Action.how, Action.target]
  have hfeedback : ∀ cell ∈ (Source.unit recipeUnit).reads,
      cell ∉ (Source.unit recipeUnit).writes := by decide
  exact ⟨houtput, hfeedback, Source.execute_twice (.unit recipeUnit) houtput hfeedback⟩

end Rung
