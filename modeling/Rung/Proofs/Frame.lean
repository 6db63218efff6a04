import Mathlib.Tactic.SplitIfs
import Rung.Proofs.Runs

/-!
# The frame of a scan

A scan changes only what the actions of its source drive. Every other cell keeps what it stores, or
stays absent: no input ever changes, reading never creates an entry, and the memory of a coil
changes only where its counter is driven by an output. Within a memory word that no action drives
as a whole, only the bits that are driven change.

* `Image.SameAt`: two images store the same in a cell, or both nothing;
* `Image.AgreeAt`: two images read the same in a cell;
* `Image.sameAt_apply`, `Image.sameAt_apply_of_ne_output`: what an effect leaves alone;
* `Image.readPoint_apply`: the bits of a word that an effect leaves alone;
* **`Source.follow_scans_frame`**: what any number of scans leaves alone.
-/

namespace Rung

/-! ## What an effect leaves alone -/

namespace Image

/-- Two images store the same in a cell, or both nothing. -/
def SameAt (img img' : Image) : Cell → Prop
  | .bit c => img.bit? c = img'.bit? c
  | .word c => img.word? c = img'.word? c

/-- Two images read the same in a cell; what was never written reads OFF or 0. -/
def AgreeAt (img img' : Image) : Cell → Prop
  | .bit c => img.bit c = img'.bit c
  | .word c => img.word c = img'.word c

theorem bit_setBit (img : Image) (c d : BitCell) (state : Bool) :
    (img.setBit c state).bit d = if c = d then state else img.bit d := by
  rw [bit, bit?_setBit]
  split_ifs <;> rfl

theorem word_setWord (img : Image) (c d : WordCell) (value : Int64) :
    (img.setWord c value).word d = if c = d then value else img.word d := by
  rw [word, word?_setWord]
  split_ifs <;> rfl

variable {img img' img'' : Image} {cell : Cell}

theorem SameAt.refl (img : Image) (cell : Cell) : img.SameAt img cell := by cases cell <;> rfl

theorem SameAt.symm (h : img.SameAt img' cell) : img'.SameAt img cell := by
  cases cell with
  | bit c | word c => exact Eq.symm h

theorem SameAt.trans (h : img.SameAt img' cell) (h' : img'.SameAt img'' cell) :
    img.SameAt img'' cell := by
  cases cell with
  | bit c | word c => exact Eq.trans h h'

theorem SameAt.agreeAt (h : img.SameAt img' cell) : img.AgreeAt img' cell := by
  cases cell with
  | bit c => exact congrArg (Option.getD · false) h
  | word c => exact congrArg (Option.getD · 0) h

theorem sameAt_setBit (img : Image) (state : Bool) {c : BitCell} (h : cell ≠ .bit c) :
    (img.setBit c state).SameAt img cell := by
  cases cell with
  | bit d =>
    have hne : c ≠ d := fun he => h (by rw [he])
    rw [SameAt, bit?_setBit, if_neg hne]
  | word d => rfl

theorem sameAt_setWord (img : Image) (value : Int64) {c : WordCell} (h : cell ≠ .word c) :
    (img.setWord c value).SameAt img cell := by
  cases cell with
  | bit d => rfl
  | word d =>
    have hne : c ≠ d := fun he => h (by rw [he])
    rw [SameAt, word?_setWord, if_neg hne]

theorem sameAt_writePoint (img : Image) (state : Bool) {point : Point} (h : cell ≠ point.cell) :
    (img.writePoint point state).SameAt img cell := by
  cases point with
  | input tag | contact tag => exact sameAt_setBit img state h
  | memoryBit tag index =>
    rw [writePoint]
    split_ifs
    · exact sameAt_setWord img _ h
    · exact SameAt.refl img cell

theorem sameAt_latch (img : Image) {t : Target} (h : cell ≠ t.cell) :
    (img.latch t).SameAt img cell := by
  cases t with
  | bit point => exact sameAt_writePoint img true h
  | memory tag | timer tag preset | counter tag preset => exact sameAt_setWord img _ h

theorem sameAt_store (img : Image) (value : Int64) {t : Target} (h : cell ≠ t.cell) :
    (img.store value t).SameAt img cell := by
  cases t with
  | bit point => exact sameAt_writePoint img _ h
  | memory tag | timer tag preset | counter tag preset => exact sameAt_setWord img _ h

theorem sameAt_drive (img : Image) (on : Bool) {t : Target} (h : cell ∉ t.storage) :
    (img.drive t on).SameAt img cell := by
  cases t with
  | bit point => exact sameAt_writePoint img on (List.ne_of_not_mem_cons h)
  | memory tag | timer tag preset => exact sameAt_setWord img _ (List.ne_of_not_mem_cons h)
  | counter tag preset =>
    have hvalue := List.ne_of_not_mem_cons h
    have hcoil := List.ne_of_not_mem_cons (List.not_mem_of_not_mem_cons h)
    exact (sameAt_setWord _ _ hvalue).trans (sameAt_setBit img on hcoil)

/-- An effect other than an output changes at most the target's own state. -/
theorem sameAt_apply_of_ne_output (img : Image) (on : Bool) {effect : Effect} {t : Target}
    (he : effect ≠ .output) (h : cell ≠ t.cell) : (img.apply effect t on).SameAt img cell := by
  cases on with
  | false => cases effect with
    | output => exact absurd rfl he
    | set | reset | write value => exact SameAt.refl img cell
  | true => cases effect with
    | output => exact absurd rfl he
    | set => exact sameAt_latch img h
    | reset => exact sameAt_store img 0 h
    | write value => exact sameAt_store img _ h

/-- **An effect changes at most the cells of its target.** -/
theorem sameAt_apply (img : Image) (effect : Effect) (on : Bool) {t : Target}
    (h : cell ∉ t.storage) : (img.apply effect t on).SameAt img cell := by
  by_cases he : effect = .output
  · subst he
    exact sameAt_drive img on h
  · exact sameAt_apply_of_ne_output img on he fun hc => h (hc ▸ t.cell_mem_storage)

/-! ## Bits of a memory word -/

theorem getLsbD_putBit (word : Int64) {i : Nat} (hi : i < 64) (state : Bool) (j : Nat) :
    (putBit word i state).toBitVec.getLsbD j =
      if i = j then state else word.toBitVec.getLsbD j := by
  by_cases hj : i = j
  · subst hj
    cases state <;> simp [putBit, hi]
  · cases state with
    | true => simp [putBit, hj]
    | false =>
      simp only [putBit, Bool.false_eq_true, if_false, Int64.toBitVec_ofBitVec, if_neg hj,
        BitVec.getLsbD_and, BitVec.getLsbD_not, BitVec.getLsbD_twoPow]
      cases hbit : word.toBitVec.getLsbD j with
      | false => rfl
      | true => simp [hj, BitVec.lt_of_getLsbD hbit]

theorem AgreeAt.readPoint {point : Point} (h : img.AgreeAt img' point.cell) :
    img.readPoint point = img'.readPoint point := by
  cases point with
  | input tag | contact tag => exact h
  | memoryBit tag index =>
    have hword : img.word ⟨.memory, tag⟩ = img'.word ⟨.memory, tag⟩ := h
    rw [Image.readPoint, hword, Image.readPoint]

theorem readPoint_writePoint_of_ne (img : Image) (state : Bool) {p q : Point} (h : p ≠ q) :
    (img.writePoint p state).readPoint q = img.readPoint q := by
  by_cases hcell : q.cell = p.cell
  · cases p with
    | input tag | contact tag => cases q <;> simp_all [Point.cell]
    | memoryBit tag i =>
      cases q with
      | input tag' | contact tag' => simp [Point.cell] at hcell
      | memoryBit tag' j =>
        obtain rfl : tag' = tag := by simpa [Point.cell] using hcell
        have hij : i ≠ j := fun he => h (by rw [he])
        rw [writePoint]
        split_ifs with hi
        · rw [readPoint_memoryBit_eq_getLsbD, word, word?_setWord, if_pos rfl, Option.getD_some,
            getLsbD_putBit _ hi, if_neg hij, readPoint_memoryBit_eq_getLsbD]
        · rfl
  · exact (sameAt_writePoint img state hcell).agreeAt.readPoint

/-- A point that is written reads as it was written, if it is one of the 64 bits of a word. -/
theorem readPoint_writePoint_self (img : Image) (state : Bool) {p : Point}
    (h : ∀ tag index, p = .memoryBit tag index → index < 64) :
    (img.writePoint p state).readPoint p = state := by
  cases p with
  | input tag | contact tag => rw [writePoint, readPoint, bit_setBit, if_pos rfl]
  | memoryBit tag index =>
    have hindex : index < 64 := h tag index rfl
    rw [writePoint, if_pos hindex, readPoint_memoryBit_eq_getLsbD, word_setWord, if_pos rfl,
      getLsbD_putBit _ hindex, if_pos rfl]

theorem apply_bit_cases (img : Image) (effect : Effect) (point : Point) (on : Bool) :
    img.apply effect (.bit point) on = img ∨
      ∃ state, img.apply effect (.bit point) on = img.writePoint point state := by
  cases effect with
  | output => exact .inr ⟨on, rfl⟩
  | set | reset | write value =>
    cases on with
    | false => exact .inl rfl
    | true => exact .inr ⟨_, rfl⟩

/-- **An effect changes at most the bits of a word that its output covers.** -/
theorem readPoint_apply (img : Image) (effect : Effect) (on : Bool) {o : Output} {tag : Tag}
    {index : Nat} (h : ¬ o.Covers tag index) :
    (img.apply effect o.target on).readPoint (.memoryBit tag index) =
      img.readPoint (.memoryBit tag index) := by
  cases o with
  | memoryBit b inverse =>
    have hne : Point.memoryBit b.memory.tag b.index ≠ .memoryBit tag index := by
      simpa [Output.Covers] using h
    obtain he | ⟨state, he⟩ := apply_bit_cases img effect (.memoryBit b.memory.tag b.index) on
    · rw [Output.target, he]
    · rw [Output.target, he, readPoint_writePoint_of_ne img state hne]
  | memory m =>
    refine (sameAt_apply img effect on ?_).agreeAt.readPoint
    simpa [Output.storage, Point.cell, Output.Covers, eq_comm] using h
  | relay tag' inverse | timer tag' preset | counter tag' preset =>
    refine (sameAt_apply img effect on ?_).agreeAt.readPoint
    simp [Output.storage, Point.cell]

end Image

/-! ## Scans -/

theorem Drive.effect_eq_output_iff {how : Drive} : how.effect = .output ↔ how = .output := by
  cases how <;> simp [effect]

theorem Output.input_notMem_storage (o : Output) (tag : Tag) :
    .bit ⟨.input, tag⟩ ∉ o.storage := by
  cases o <;> simp [storage]

/-- **The frame of a scan.** Scans leave alone all inputs, and whatever stores no target of an
action. -/
theorem Source.follow_scans_frame (src : Source) (c : Controller) (n : Nat) :
    ∃ s c', src.compile = .ok s ∧ c.follow s (List.replicate n .scan) = c' ∧
      c'.scanCount = c.scanCount + n ∧
      (∀ tag, c'.image.bit? ⟨.input, tag⟩ = c.image.bit? ⟨.input, tag⟩) ∧
      (∀ cell, (∀ a ∈ src.actions, cell ∉ a.target.storage) → c'.image.SameAt c.image cell) ∧
      (∀ tag index, (∀ a ∈ src.actions, ¬ a.target.Covers tag index) →
        c'.image.readPoint (.memoryBit tag index) = c.image.readPoint (.memoryBit tag index)) ∧
      ∀ tag, (∀ a ∈ src.actions, a.how = .output → .bit ⟨.coil, tag⟩ ∉ a.target.storage) →
        c'.image.bit? ⟨.coil, tag⟩ = c.image.bit? ⟨.coil, tag⟩ := by
  obtain ⟨s, hs, hrun⟩ := src.exists_compile_run
  refine ⟨s, _, hs, Controller.follow_scans hrun c n, rfl, ?_⟩
  -- what every effect keeps, any number of scans keeps
  have hkeep : ∀ P : Image → Prop, P c.image →
      (∀ a ∈ src.actions, ∀ img on, P img → P (img.apply a.how.effect a.target.target on)) →
      P (src.scan^[n] c.image) := fun P hP h =>
    Function.Iterate.rec P hP (fun _ => Source.scan_induction h) n
  have hcells : ∀ cell, (∀ a ∈ src.actions, cell ∉ a.target.storage) →
      (src.scan^[n] c.image).SameAt c.image cell := fun cell h =>
    hkeep (·.SameAt c.image cell) (Image.SameAt.refl c.image cell) fun a ha img on himg =>
      (img.sameAt_apply a.how.effect on (by simpa using h a ha)).trans himg
  refine ⟨fun tag => ?_, hcells, fun tag index h => ?_, fun tag h => ?_⟩
  · exact hcells (.bit ⟨.input, tag⟩) fun a _ => a.target.input_notMem_storage tag
  · refine hkeep (·.readPoint (.memoryBit tag index) = _) rfl fun a ha img on himg => ?_
    rw [img.readPoint_apply a.how.effect on (h a ha), himg]
  · refine hkeep (·.SameAt c.image (.bit ⟨.coil, tag⟩)) rfl fun a ha img on himg => ?_
    refine Image.SameAt.trans ?_ himg
    by_cases hhow : a.how = .output
    · exact img.sameAt_apply a.how.effect on (by simpa using h a ha hhow)
    · have hne : a.how.effect ≠ .output := fun he => hhow (Drive.effect_eq_output_iff.mp he)
      exact img.sameAt_apply_of_ne_output on hne (a.target.target.cell_ne_coil tag).symm

end Rung
