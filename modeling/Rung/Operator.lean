/-!
# The two junction operators

Partial results are joined in series (`and`) or in parallel (`or`). Each operator is the other's
dual: negating both operands and the result turns one into the other.

* `Operator`, `Operator.apply`, `Operator.dual`;
* `Operator.not_apply`: the De Morgan laws, for both operators at once.
-/

namespace Rung

/-- How two partial results are joined. -/
inductive Operator where
  | and
  | or
  deriving DecidableEq, Repr

namespace Operator

def apply : Operator → Bool → Bool → Bool
  | and, a, b => a && b
  | or, a, b => a || b

/-- The operator that joins the negated operands. -/
def dual : Operator → Operator
  | and => or
  | or => and

@[simp] theorem dual_dual (op : Operator) : op.dual.dual = op := by cases op <;> rfl

theorem not_apply (op : Operator) (a b : Bool) : (!op.apply a b) = op.dual.apply (!a) (!b) := by
  cases op <;> cases a <;> cases b <;> rfl

end Operator

end Rung
