import Rung.Tag

/-!
# Storage cells

The controller keeps its state in areas: three that hold one bit per device and three that hold one
64-bit word per device. A cell is a device within an area.

* `BitArea`, `BitCell`: inputs, contacts, and the coil memory that counters use to see an edge;
* `WordArea`, `WordCell`: memory words and the current values of timers and counters;
* the orders on cells, area first, so that maps can be keyed by them.
-/

namespace Rung

inductive BitArea where
  | input
  | contact
  /-- What last drove each counter. -/
  | coil
  deriving DecidableEq, Repr

def BitArea.rank : BitArea → Nat
  | input => 0
  | contact => 1
  | coil => 2

theorem BitArea.rank_inj {a b : BitArea} (h : a.rank = b.rank) : a = b := by
  cases a <;> cases b <;> simp_all [rank]

/-- The stored bit of one device. -/
structure BitCell where
  area : BitArea
  tag : Tag
  deriving DecidableEq, Repr

namespace BitCell

instance : Ord BitCell := ⟨compareLex (compareOn (·.area.rank)) (compareOn BitCell.tag)⟩

theorem compare_eq (a b : BitCell) :
    compare a b = compareLex (compareOn (·.area.rank)) (compareOn BitCell.tag) a b := rfl

instance : Std.TransOrd BitCell :=
  inferInstanceAs (Std.TransCmp (compareLex (compareOn (·.area.rank)) (compareOn BitCell.tag)))

instance : Std.LawfulEqOrd BitCell where
  eq_of_compare {a b} h := by
    rw [compare_eq, compareLex_eq_eq] at h
    obtain ⟨area, tag⟩ := a
    obtain ⟨area', tag'⟩ := b
    simp only [compareOn, Std.compare_eq_iff_eq] at h
    rw [BitArea.rank_inj h.1, h.2]

end BitCell

inductive WordArea where
  | memory
  | timer
  | counter
  deriving DecidableEq, Repr

def WordArea.rank : WordArea → Nat
  | memory => 0
  | timer => 1
  | counter => 2

theorem WordArea.rank_inj {a b : WordArea} (h : a.rank = b.rank) : a = b := by
  cases a <;> cases b <;> simp_all [rank]

/-- The stored word of one device. -/
structure WordCell where
  area : WordArea
  tag : Tag
  deriving DecidableEq, Repr

namespace WordCell

instance : Ord WordCell := ⟨compareLex (compareOn (·.area.rank)) (compareOn WordCell.tag)⟩

theorem compare_eq (a b : WordCell) :
    compare a b = compareLex (compareOn (·.area.rank)) (compareOn WordCell.tag) a b := rfl

instance : Std.TransOrd WordCell :=
  inferInstanceAs (Std.TransCmp (compareLex (compareOn (·.area.rank)) (compareOn WordCell.tag)))

instance : Std.LawfulEqOrd WordCell where
  eq_of_compare {a b} h := by
    rw [compare_eq, compareLex_eq_eq] at h
    obtain ⟨area, tag⟩ := a
    obtain ⟨area', tag'⟩ := b
    simp only [compareOn, Std.compare_eq_iff_eq] at h
    rw [WordArea.rank_inj h.1, h.2]

end WordCell

end Rung
