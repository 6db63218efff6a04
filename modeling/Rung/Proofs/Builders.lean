import Mathlib.Tactic.SplitIfs
import Rung.Condition

/-!
# The laws of the condition builders

A joined condition lists what its parts contribute, so joining is associative and the joins of a
list are the left fold of the binary one. Negation turns the contributions to one operator into
those to its dual, which is De Morgan's law for flat junctions.

* `Condition.assemble`: a condition put together from its contributions;
* `Condition.assemble_parts`, `Condition.parts_combine`, `Condition.combine_assoc`;
* `Condition.gather_cons`: joining a list is folding the binary join over it;
* `Condition.negate_negate`, `Condition.negate_combine`.
-/

namespace Rung

theorem Operator.dual_inj {op op' : Operator} : op.dual = op'.dual ↔ op = op' := by
  cases op <;> cases op' <;> decide

namespace Condition

/-! ## Contributions -/

/-- The condition with a first contribution and further ones; a single one stays itself. -/
def assemble (op : Operator) (first : Condition) : List Condition → Condition
  | [] => first
  | second :: rest => junction op first second rest

variable (op : Operator)

theorem assemble_parts (c : Condition) : assemble op (c.parts op).1 (c.parts op).2 = c := by
  cases c with
  | leaf b => rfl
  | junction op' first second rest =>
    rw [parts]
    split_ifs with h
    · rw [← h]
      rfl
    · rfl

theorem combine_eq_assemble (c d : Condition) :
    combine op c d = assemble op (c.parts op).1 ((c.parts op).2 ++ d.absorb op) := by
  unfold combine absorb
  obtain ⟨a, as⟩ := c.parts op
  obtain ⟨b, bs⟩ := d.parts op
  cases as <;> rfl

theorem parts_combine (c d : Condition) :
    (combine op c d).parts op = ((c.parts op).1, (c.parts op).2 ++ d.absorb op) := by
  rw [combine_eq_assemble, absorb]
  cases (c.parts op).2 <;> simp [assemble, parts]

theorem absorb_combine (c d : Condition) :
    (combine op c d).absorb op = c.absorb op ++ d.absorb op := by
  simp only [absorb, parts_combine, List.cons_append]

theorem combine_assoc (c d e : Condition) :
    combine op (combine op c d) e = combine op c (combine op d e) := by
  rw [combine_eq_assemble op (combine op c d), combine_eq_assemble op c (combine op d e),
    parts_combine, absorb_combine, List.append_assoc]

/-! ## Lists of conditions -/

theorem foldl_combine (cs : List Condition) (c : Condition) :
    cs.foldl (combine op) c =
      assemble op (c.parts op).1 ((c.parts op).2 ++ cs.flatMap (absorb op)) := by
  induction cs generalizing c with
  | nil => rw [List.flatMap_nil, List.append_nil, assemble_parts, List.foldl_nil]
  | cons d cs ih =>
    rw [List.foldl_cons, ih, parts_combine, List.flatMap_cons, List.append_assoc]

/-- **Joining a list is folding the binary join over it.** -/
theorem gather_cons (c : Condition) (cs : List Condition) :
    gather op (c :: cs) = some (cs.foldl (combine op) c) := by
  rw [foldl_combine, gather, List.flatMap_cons, absorb, List.cons_append]
  cases (c.parts op).2 ++ cs.flatMap (absorb op) <;> rfl

/-! ## Negation -/

variable {op}

mutual

theorem negate_negate : ∀ c : Condition, c.negate.negate = c
  | leaf b => by rw [negate, negate, Bit.negate_negate]
  | junction op first second rest => by
    rw [negate, negate, Operator.dual_dual, negate_negate first, negate_negate second,
      negateList_negateList rest]

theorem negateList_negateList : ∀ cs : List Condition, negateList (negateList cs) = cs
  | [] => rfl
  | c :: cs => by rw [negateList, negateList, negate_negate c, negateList_negateList cs]

end

theorem negate_assemble (c : Condition) (cs : List Condition) :
    (assemble op c cs).negate = assemble op.dual c.negate (cs.map negate) := by
  cases cs with
  | nil => rfl
  | cons d cs => rw [assemble, negate, negateList_eq_map, List.map_cons, assemble]

theorem parts_negate (c : Condition) :
    c.negate.parts op.dual = ((c.parts op).1.negate, (c.parts op).2.map negate) := by
  cases c with
  | leaf b => rfl
  | junction op' first second rest =>
    rw [negate, parts, parts, negateList_eq_map]
    simp only [Operator.dual_inj]
    split_ifs
    · rfl
    · rw [negate, negateList_eq_map, List.map_nil]

theorem absorb_negate (c : Condition) : c.negate.absorb op.dual = (c.absorb op).map negate := by
  rw [absorb, absorb, parts_negate, List.map_cons]

/-- **De Morgan's laws**: the negation of a join joins the negations with the dual operator. -/
theorem negate_combine (c d : Condition) :
    (combine op c d).negate = combine op.dual c.negate d.negate := by
  rw [combine_eq_assemble, combine_eq_assemble, negate_assemble, parts_negate, absorb_negate,
    List.map_append]

end Condition

end Rung
