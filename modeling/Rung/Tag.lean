import Std.Data.ExtTreeMap

/-!
# Tags of addressed devices

A tag is the name of an address family (`X`, `M`, `D`, ...) with a 32-bit address. Devices with
different tags never share storage. Tags are ordered by name, by code point, and then by address.

* `Tag`, `Tag.text`;
* the order on tags, lawful enough to key a finite map by them.
-/

namespace Rung

/-- The name and address of an addressed device. -/
structure Tag where
  name : String
  address : UInt32
  deriving DecidableEq, Repr

namespace Tag

/-- The tag as it is written: the name directly followed by the address. -/
def text (t : Tag) : String := s!"{t.name}{t.address.toNat}"

instance : Ord Tag := ⟨compareLex (compareOn Tag.name) (compareOn Tag.address)⟩

theorem compare_eq (a b : Tag) :
    compare a b = compareLex (compareOn Tag.name) (compareOn Tag.address) a b := rfl

instance : Std.TransOrd Tag :=
  inferInstanceAs (Std.TransCmp (compareLex (compareOn Tag.name) (compareOn Tag.address)))

instance : Std.LawfulEqOrd Tag where
  eq_of_compare {a b} h := by
    rw [compare_eq, compareLex_eq_eq] at h
    cases a
    cases b
    simp_all [compareOn]

end Tag

end Rung
