/-!
# Relations between two numeric values

A comparison contact is closed while a relation between two 64-bit values holds.

* `Relation`, `Relation.symbol`, `Relation.holds`, `Relation.inverse`;
* `Relation.holds_inverse`: the inverse holds exactly when the relation does not.
-/

namespace Rung

inductive Relation where
  | eq
  | ne
  | lt
  | le
  | gt
  | ge
  deriving DecidableEq, Repr

namespace Relation

/-- The relation that holds exactly when this one does not. -/
def inverse : Relation → Relation
  | eq => ne
  | ne => eq
  | lt => ge
  | ge => lt
  | le => gt
  | gt => le

/-- The relation as it is written between two operands and in a mnemonic. -/
def symbol : Relation → String
  | eq => "="
  | ne => "<>"
  | lt => "<"
  | le => "<="
  | gt => ">"
  | ge => ">="

def holds (r : Relation) (left right : Int64) : Bool :=
  match r with
  | eq => left == right
  | ne => left != right
  | lt => decide (left < right)
  | le => decide (left ≤ right)
  | gt => decide (right < left)
  | ge => decide (right ≤ left)

@[simp] theorem inverse_inverse (r : Relation) : r.inverse.inverse = r := by cases r <;> rfl

/-- The inverse relation holds exactly when the relation does not. -/
@[simp] theorem holds_inverse (r : Relation) (left right : Int64) :
    r.inverse.holds left right = !r.holds left right := by
  cases r <;> simp [inverse, holds, bne, ← decide_not, Int64.not_lt, Int64.not_le]

end Relation

end Rung
