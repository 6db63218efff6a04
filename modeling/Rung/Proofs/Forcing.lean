import Rung.Proofs.Meaning
import Rung.Proofs.Noninterference

/-!
# Forcing devices

Between scans the devices of a controller can be forced. A bit is written where it is stored, with
its polarity taken back, and it is read as a condition reads it. The two ways meet: a forced device
reads as it was forced, and nothing that is stored elsewhere reads differently.

* `Image.writePoint_writePoint`, `Image.setWord_setWord`: the last of two writes stays;
* `Site.index_lt`: a bit that can be named lies within its word, so no force is dropped;
* `Controller.readBit_congr`, `Controller.readValue_congr`: devices that are stored elsewhere;
* `Controller.setBit_contact`, `Controller.setValue_of_cell`: what a request does;
* `Controller.readBit_writePoint`: a forced contact reads as forced;
* **`Controller.forcing_laws`**: all requests.
-/

namespace Rung

namespace Image

variable (img : Image)

/-! ## Two writes in one place -/

theorem setBit_setBit (c : BitCell) (s t : Bool) :
    (img.setBit c s).setBit c t = img.setBit c t := by
  refine ext_cells (fun d => ?_) fun d => rfl
  rw [bit?_setBit, bit?_setBit, bit?_setBit]
  split_ifs <;> rfl

theorem setWord_setWord (c : WordCell) (v w : Int64) :
    (img.setWord c v).setWord c w = img.setWord c w := by
  refine ext_cells (fun d => rfl) fun d => ?_
  rw [word?_setWord, word?_setWord, word?_setWord]
  split_ifs <;> rfl

theorem putBit_putBit (word : Int64) {i : Nat} (hi : i < 64) (s t : Bool) :
    putBit (putBit word i s) i t = putBit word i t := by
  rw [← Int64.toBitVec_inj]
  refine BitVec.eq_of_getLsbD_eq fun j _ => ?_
  rw [getLsbD_putBit _ hi, getLsbD_putBit _ hi, getLsbD_putBit _ hi]
  split_ifs <;> rfl

/-- **Of two writes to a point the last stays**, and the first leaves no trace. -/
theorem writePoint_writePoint (point : Point) (s t : Bool) :
    (img.writePoint point s).writePoint point t = img.writePoint point t := by
  cases point with
  | input tag | contact tag => exact img.setBit_setBit _ s t
  | memoryBit tag index =>
    by_cases hindex : index < 64
    · simp only [writePoint, if_pos hindex]
      rw [word_setWord, if_pos rfl, putBit_putBit _ hindex, setWord_setWord]
    · simp only [writePoint, if_neg hindex]

end Image

/-- A site within a memory word lies within its 64 bits. -/
theorem Site.index_lt (site : Site) {tag : Tag} {index : Nat}
    (h : site.point = .memoryBit tag index) : index < 64 := by
  cases site with
  | input tag | relay tag => cases h
  | memoryBit b =>
    cases h
    exact Nat.lt_of_lt_of_le b.index_lt b.memory.size.bits_le

theorem Word.word_mem_cells_iff {w : Word} {cell : WordCell} :
    .word cell ∈ w.cells ↔ w.value = .cell cell := by
  cases w <;> simp [cells, value, eq_comm]

theorem Word.exists_value_eq_cell {w : Word} (h : ∀ name constant, w ≠ .constant name constant) :
    ∃ cell, w.value = .cell cell := by
  cases w with
  | constant name constant => exact absurd rfl (h name constant)
  | memory m | timer tag preset | counter tag preset => exact ⟨_, rfl⟩

namespace Controller

variable {c c' : Controller}

/-! ## Devices that are stored elsewhere -/

theorem readBit_congr {b : Bit} (h : ∀ cell ∈ b.cells, c'.image.SameAt c.image cell) :
    c'.readBit b = c.readBit b := by
  have hagree : Image.AgreeOn b.cells c'.image c.image := fun cell hcell => (h cell hcell).agreeAt
  exact hagree.evaluate (List.Subset.refl _)

theorem readValue_congr {w : Word} (h : ∀ cell ∈ w.cells, c'.image.SameAt c.image cell) :
    c'.readValue w = c.readValue w := by
  have hagree : Image.AgreeOn w.cells c'.image c.image := fun cell hcell => (h cell hcell).agreeAt
  refine hagree.readValue ?_
  rw [Word.cells_value]
  exact List.Subset.refl _

/-! ## Requests -/

variable (c)

theorem setBit_contact (site : Site) (inverse state : Bool) :
    c.setBit (.contact site inverse) state =
      ({ c with image := c.image.writePoint site.point (state != inverse) }, none) := rfl

theorem setValue_of_cell {w : Word} {cell : WordCell} (h : w.value = .cell cell) (value : Int64) :
    c.setValue w value = ({ c with image := c.image.setWord cell value }, none) := by
  rw [setValue, h]
  rfl

/-- The state forced on a contact is what is then read through the same polarity. -/
theorem readBit_writePoint (site : Site) (inverse state : Bool) :
    { c with image := c.image.writePoint site.point (state != inverse) }.readBit
      (.contact site inverse) = state := by
  change ((c.image.writePoint site.point (state != inverse)).readPoint site.point != inverse) = _
  rw [c.image.readPoint_writePoint_self _ fun _ _ h => site.index_lt h]
  cases inverse <;> simp

theorem readBit_negate (b : Bit) : c.readBit b.negate = !c.readBit b := by
  rw [readBit, Bit.operand_negate, Image.evaluate_complement, readBit]

/-- **The laws of forcing.** What is forced reads as forced and nothing else changes; what has no
storage is refused, and the controller stays as it is. -/
theorem forcing_laws :
    (∀ (site : Site) (inverse state : Bool), ∃ c' : Controller,
      c.setBit (.contact site inverse) state = (c', none) ∧
      c'.readBit (.contact site inverse) = state ∧
      c'.readBit (Bit.contact site inverse).negate = !state ∧
      (∀ (other : Site) (polarity : Bool), other.point ≠ site.point →
        c'.readBit (.contact other polarity) = c.readBit (.contact other polarity)) ∧
      (∀ w : Word, site.cell ∉ w.cells → c'.readValue w = c.readValue w) ∧
      (∀ b : Bit, site.cell ∉ b.cells → c'.readBit b = c.readBit b) ∧
      c.setBit (Bit.contact site inverse).negate (!state) = (c', none) ∧
      (∀ polarity earlier : Bool, ∃ before : Controller,
        c.setBit (.contact site polarity) earlier = (before, none) ∧
        before.setBit (.contact site inverse) state = (c', none)) ∧
      c'.scanCount = c.scanCount ∧ c'.stopRequested = c.stopRequested) ∧
    (∀ (w : Word) (value : Int64), (∀ name constant, w ≠ .constant name constant) →
      ∃ c' : Controller, c.setValue w value = (c', none) ∧
        c'.readValue w = value ∧
        (∀ other : Word, other.value ≠ w.value → c'.readValue other = c.readValue other) ∧
        (∀ cell, cell ∉ w.cells → c'.image.SameAt c.image cell) ∧
        (∀ cell, c'.image.bit? cell = c.image.bit? cell) ∧
        c'.scanCount = c.scanCount ∧ c'.stopRequested = c.stopRequested) ∧
    (∀ (left right : Word) (relation : Relation) (state : Bool),
      c.setBit (.compare left relation right) state =
        (c, some (.notStorable (.bit (.compare left relation right))))) ∧
    (∀ (name : String) (constant value : Int64),
      c.setValue (.constant name constant) value =
        (c, some (.notStorable (.word (.constant name constant))))) ∧
    ∀ (input : Tag) (inverse state : Bool),
      (c.setInput input state).readBit (.contact (.input input) inverse) = (state != inverse) := by
  refine ⟨fun site inverse state => ?_, fun w value hw => ?_, fun _ _ _ _ => rfl,
    fun _ _ _ => rfl, fun input inverse state => ?_⟩
  · have hself := c.readBit_writePoint site inverse state
    have hcells : ∀ cell, cell ≠ site.cell →
        (c.image.writePoint site.point (state != inverse)).SameAt c.image cell := fun cell hcell =>
      c.image.sameAt_writePoint _ (by rwa [Site.cell_point])
    refine ⟨_, c.setBit_contact site inverse state, hself, ?_, fun other polarity hne => ?_,
      fun w hw => readValue_congr fun cell hcell => hcells cell fun he => hw (he ▸ hcell),
      fun b hb => readBit_congr fun cell hcell => hcells cell fun he => hb (he ▸ hcell), ?_,
      fun polarity earlier => ⟨_, c.setBit_contact site polarity earlier, ?_⟩, rfl, rfl⟩
    · rw [readBit_negate, hself]
    · exact congrArg (· != polarity) (c.image.readPoint_writePoint_of_ne _ hne.symm)
    · have hstate : ((!state) != !inverse) = (state != inverse) := by
        cases state <;> cases inverse <;> rfl
      rw [Bit.negate, setBit_contact, hstate]
    · rw [setBit_contact, Image.writePoint_writePoint]
  · obtain ⟨cell, hcell⟩ := Word.exists_value_eq_cell hw
    refine ⟨_, c.setValue_of_cell hcell value, ?_, fun other hother => ?_, fun d hd => ?_,
      fun d => rfl, rfl, rfl⟩
    · rw [readValue, hcell, Image.readValue, Image.word_setWord, if_pos rfl]
    · refine readValue_congr fun d hd => c.image.sameAt_setWord value fun he => hother ?_
      rw [he, Word.word_mem_cells_iff] at hd
      rw [hd, hcell]
    · refine c.image.sameAt_setWord value fun he => hd ?_
      rw [he, Word.word_mem_cells_iff, hcell]
  · have hself : (c.image.writePoint (.input input) state).readPoint (.input input) = state :=
      c.image.readPoint_writePoint_self state fun _ _ h => (Site.input input).index_lt h
    exact congrArg (· != inverse) hself

end Controller

end Rung
