import Rung.Proofs.Frame

/-!
# Images that read the same

What is read off an image depends on some of its cells only. Two images that read the same in these
cells cannot be told apart, whatever they store elsewhere; a device that was never written reads as
one that stores OFF or 0.

* `Image.AgreeOn`: two images read the same in some cells;
* `Condition.eval_congr`: a condition depends on its bit devices only;
* **`Image.AgreeOn.eval`**: a condition depends on the cells of its bit devices only.
-/

namespace Rung

namespace Image

/-! ## Agreement of two images -/

/-- Two images read the same in some cells. -/
def AgreeOn (cells : List Cell) (img img' : Image) : Prop := ∀ cell ∈ cells, img.AgreeAt img' cell

instance (img img' : Image) (cell : Cell) : Decidable (img.AgreeAt img' cell) :=
  match cell with
  | .bit c => inferInstanceAs (Decidable (img.bit c = img'.bit c))
  | .word c => inferInstanceAs (Decidable (img.word c = img'.word c))

instance (cells : List Cell) (img img' : Image) : Decidable (AgreeOn cells img img') :=
  inferInstanceAs (Decidable (∀ cell ∈ cells, img.AgreeAt img' cell))

variable {img img' img'' : Image} {cells : List Cell}

theorem AgreeAt.trans {cell : Cell} (h : img.AgreeAt img' cell) (h' : img'.AgreeAt img'' cell) :
    img.AgreeAt img'' cell := by
  cases cell with
  | bit c | word c => exact Eq.trans h h'

namespace AgreeOn

theorem refl (cells : List Cell) (img : Image) : AgreeOn cells img img :=
  fun cell _ => (SameAt.refl img cell).agreeAt

theorem symm (h : AgreeOn cells img img') : AgreeOn cells img' img := by
  intro cell hcell
  have hc := h cell hcell
  cases cell with
  | bit c | word c => exact Eq.symm hc

theorem trans (h : AgreeOn cells img img') (h' : AgreeOn cells img' img'') :
    AgreeOn cells img img'' :=
  fun cell hcell => (h cell hcell).trans (h' cell hcell)

/-! ## Reading -/

theorem readPoint (h : AgreeOn cells img img') {point : Point} (hp : point.cell ∈ cells) :
    img.readPoint point = img'.readPoint point :=
  (h _ hp).readPoint

theorem readValue (h : AgreeOn cells img img') {v : Value} (hv : v.cells ⊆ cells) :
    img.readValue v = img'.readValue v := by
  cases v with
  | constant value => rfl
  | cell c => exact h (.word c) (hv List.mem_cons_self)

theorem evaluate (h : AgreeOn cells img img') {b : Bit} (hb : b.cells ⊆ cells) :
    img.evaluate b.operand = img'.evaluate b.operand := by
  cases b with
  | contact site inverse =>
    have hsite : site.point.cell ∈ cells := by
      rw [Site.cell_point]
      exact hb List.mem_cons_self
    rw [Bit.operand, Image.evaluate, Image.evaluate, h.readPoint hsite]
  | compare left relation right =>
    obtain ⟨hl, hr⟩ := List.append_subset.mp hb
    rw [Bit.operand, Image.evaluate, Image.evaluate, h.readValue (by rwa [Word.cells_value]),
      h.readValue (by rwa [Word.cells_value])]

end AgreeOn

end Image

namespace Condition

variable {img img' : Image}

mutual

theorem eval_congr : ∀ c : Condition,
    (∀ b ∈ c.leaves, img.evaluate b.operand = img'.evaluate b.operand) → c.eval img = c.eval img'
  | leaf b, h => h b List.mem_cons_self
  | junction op first second rest, h => by
    simp only [leaves, List.forall_mem_append] at h
    rw [eval, eval, eval_congr first h.1, eval_congr second h.2.1, evalList_congr op rest h.2.2]

theorem evalList_congr (op : Operator) : ∀ cs : List Condition,
    (∀ b ∈ leavesList cs, img.evaluate b.operand = img'.evaluate b.operand) →
      evalList img op cs = evalList img' op cs
  | [], _ => rfl
  | c :: cs, h => by
    simp only [leavesList, List.forall_mem_append] at h
    rw [evalList, evalList, eval_congr c h.1, evalList_congr op cs h.2]

end

end Condition

namespace Image.AgreeOn

variable {img img' : Image} {cells : List Cell}

theorem eval (h : AgreeOn cells img img') {c : Condition} (hc : c.reads ⊆ cells) :
    c.eval img = c.eval img' :=
  c.eval_congr fun _ hb =>
    h.evaluate fun _ hcell => hc (List.mem_flatMap.mpr ⟨_, hb, hcell⟩)

end Image.AgreeOn

end Rung
