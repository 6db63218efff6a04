import Rung.Proofs.Entries
import Rung.Proofs.Exchange

/-!
# Independent circuits commute

Two circuits are independent when neither writes a cell that the other reads or writes. Each then
makes the same entries whether it comes first or second, and entries in different cells can be made
in either order, so the image is the same down to which cells are stored.

* `Image.foldl_enter_comm`: entries in different cells commute;
* `Circuit.Independent`, `Circuit.entries_scan_of_disjoint`, `Circuit.scan_comm`;
* **`Circuit.interchangeable_of_independent`**: independent neighbours can be swapped anywhere.
-/

namespace Rung

/-! ## Entries in different cells -/

namespace Image

theorem sameAt_foldl_enter_foldl_enter (img : Image) {cell : Cell} (es : List Entry)
    {others : List Entry} (h : ∀ e ∈ others, cell ≠ e.cell) :
    (others.foldl enter (es.foldl enter img)).SameAt (es.foldl enter (others.foldl enter img))
      cell := by
  have hlast := sameAt_foldl_enter (es.foldl enter img) h
  have hfirst := (sameAt_foldl_enter img h).foldl_enter es
  exact hlast.trans hfirst.symm

/-- **Entries in different cells commute.** -/
theorem foldl_enter_comm (img : Image) {es es' : List Entry}
    (h : ∀ e ∈ es, ∀ e' ∈ es', e.cell ≠ e'.cell) :
    es'.foldl enter (es.foldl enter img) = es.foldl enter (es'.foldl enter img) := by
  refine ext_sameAt fun cell => ?_
  -- at least one of the two lists leaves the cell alone
  by_cases hcell : ∃ e ∈ es, cell = e.cell
  · obtain ⟨e, he, rfl⟩ := hcell
    exact img.sameAt_foldl_enter_foldl_enter es (h e he)
  · have hes : ∀ e ∈ es, cell ≠ e.cell := fun e he heq => hcell ⟨e, he, heq⟩
    exact (img.sameAt_foldl_enter_foldl_enter es' hes).symm

end Image

/-! ## Independent circuits -/

namespace Circuit

/-- Neither circuit writes a cell that the other reads or writes. -/
def Independent (a b : Circuit) : Prop :=
  (∀ cell ∈ a.writes, cell ∉ b.reads ∧ cell ∉ b.writes) ∧
    ∀ cell ∈ b.writes, cell ∉ a.reads ∧ cell ∉ a.writes

instance (a b : Circuit) : Decidable (a.Independent b) :=
  inferInstanceAs (Decidable (_ ∧ _))

/-- A circuit makes the same entries after one that writes nothing it reads or writes. -/
theorem entries_scan_of_disjoint {a b : Circuit}
    (h : ∀ cell ∈ a.writes, cell ∉ b.reads ∧ cell ∉ b.writes) (img : Image) :
    b.entries (a.scan img) = b.entries img := by
  refine entries_congr (List.subset_append_left b.reads b.writes) (fun x hx cell hcell => ?_)
    fun cell hcell => ?_
  · have hwritten : cell ∈ b.writes := List.mem_flatMap.mpr ⟨x, hx, x.carries_subset_writes hcell⟩
    exact List.mem_append_right b.reads hwritten
  · refine (sameAt_scan img fun hmem => ?_).agreeAt
    rcases List.mem_append.mp hcell with hread | hwritten
    · exact (h cell hmem).1 hread
    · exact (h cell hmem).2 hwritten

theorem scan_comm {a b : Circuit} (h : a.Independent b) (img : Image) :
    b.scan (a.scan img) = a.scan (b.scan img) := by
  have hcells : ∀ e ∈ a.entries img, ∀ e' ∈ b.entries img, e.cell ≠ e'.cell := by
    intro e he e' he' heq
    have hwritten := cell_mem_writes_of_mem_entries he'
    rw [← heq] at hwritten
    exact (h.1 e.cell (cell_mem_writes_of_mem_entries he)).2 hwritten
  calc b.scan (a.scan img)
      = (b.entries img).foldl Image.enter ((a.entries img).foldl Image.enter img) := by
        rw [scan_eq_foldl_enter, entries_scan_of_disjoint h.1, scan_eq_foldl_enter img a]
    _ = (a.entries img).foldl Image.enter ((b.entries img).foldl Image.enter img) :=
        img.foldl_enter_comm hcells
    _ = a.scan (b.scan img) := by
        rw [scan_eq_foldl_enter _ a, entries_scan_of_disjoint h.2, scan_eq_foldl_enter img b]

/-- **Independent circuits commute** where they are neighbours in a unit, alone or in a program. -/
theorem interchangeable_of_independent {a b : Circuit} (h : a.Independent b) :
    Interchangeable [a, b] [b, a] := by
  refine interchangeable_of_foldl_scan_eq fun img => ?_
  exact scan_comm h img

end Circuit

/-- Counts portions up to a number in memory, and marks a bit of a word unless a relay is ON. -/
def doserCircuit : Circuit where
  condition := .leaf (.contact (.input ⟨"X", 0⟩) false)
  actions :=
    [.output (.counter ⟨"C", 0⟩ (.memory ⟨⟨"D", 0⟩, .int16⟩)),
      .interlocked (.leaf (.contact (.relay ⟨"M", 0⟩) true))
        (.set (.memoryBit ⟨⟨⟨"D", 1⟩, .int16⟩, 3, by decide⟩ false))]

/-- Times while a level is reached, and moves the level to another word. -/
def mixerCircuit : Circuit where
  condition := .leaf (.compare (.memory ⟨⟨"D", 2⟩, .int16⟩) .ge (.constant "" 5))
  actions :=
    [.output (.timer ⟨"T", 0⟩ (.constant "" 10)),
      .write (.memory ⟨⟨"D", 2⟩, .int16⟩) (.memory ⟨⟨"D", 3⟩, .int16⟩)]

/-- Shows on a relay whether the counter has passed the timer, and clears the relay of the doser. -/
def reportCircuit : Circuit where
  condition := .leaf (.compare (.counter ⟨"C", 0⟩ (.constant "" 0)) .gt
    (.timer ⟨"T", 0⟩ (.constant "" 10)))
  actions := [.output (.relay ⟨"Y", 0⟩ false), .reset (.relay ⟨"M", 0⟩ false)]

theorem interchangeable_doser_mixer :
    doserCircuit.Independent mixerCircuit ∧ ¬ doserCircuit.Independent reportCircuit ∧
    (Source.unit ⟨"tank", [reportCircuit, doserCircuit, mixerCircuit, reportCircuit], []⟩).SameRuns
      (.unit ⟨"tank", [reportCircuit, mixerCircuit, doserCircuit, reportCircuit], []⟩) := by
  have h : doserCircuit.Independent mixerCircuit := by decide
  refine ⟨h, by decide, ?_⟩
  exact Circuit.interchangeable_of_independent h [reportCircuit] [reportCircuit] rfl rfl .unit

end Rung
