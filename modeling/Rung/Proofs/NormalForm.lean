import Rung.Proofs.Builders

/-!
# Conditions are normal forms of builder expressions

An expression records how a condition was put together: which bits, joined and negated in which
order. The condition that it builds forgets exactly the bracketing of equal operators, the places
where De Morgan's laws were used and the polarity that went into a bit, and nothing else.

* `Expression`, `Expression.build`;
* `Expression.Same`: the smallest congruence with associativity, De Morgan's laws and negated bits;
* `Expression.build_eq_of_same`: builders respect the laws;
* `Condition.quote`, `Expression.same_quote_build`: every expression is the same as the one read
  off from its condition;
* **`Expression.build_eq_iff`**: equal conditions are built by the same expressions and by no
  others.
-/

namespace Rung

/-- How a condition is put together from bits. -/
inductive Expression where
  | leaf (bit : Bit)
  | join (op : Operator) (left right : Expression)
  | negate (operand : Expression)
  deriving DecidableEq, Repr

namespace Expression

def build : Expression → Condition
  | leaf b => .leaf b
  | join .and e f => e.build.and f.build
  | join .or e f => e.build.or f.build
  | negate e => e.build.negate

theorem build_join (op : Operator) (e f : Expression) :
    (join op e f).build = Condition.combine op e.build f.build := by
  cases op <;> rfl

/-- The same up to the laws of the builders: the smallest congruence that has them. -/
inductive Same : Expression → Expression → Prop
  | refl (e) : Same e e
  | symm {e f} : Same e f → Same f e
  | trans {e f g} : Same e f → Same f g → Same e g
  | join (op) {e e' f f'} : Same e e' → Same f f' → Same (.join op e f) (.join op e' f')
  | negate {e e'} : Same e e' → Same (.negate e) (.negate e')
  /-- Each operator is associative. -/
  | assoc (op e f g) : Same (.join op (.join op e f) g) (.join op e (.join op f g))
  /-- Negating a join joins the negations with the dual operator. -/
  | deMorgan (op e f) : Same (.negate (.join op e f)) (.join op.dual (.negate e) (.negate f))
  /-- A negated bit is the bit of opposite polarity. -/
  | negateLeaf (b) : Same (.negate (.leaf b)) (.leaf b.negate)

theorem build_eq_of_same {e f : Expression} (h : Same e f) : e.build = f.build := by
  induction h with
  | refl e => rfl
  | symm _ ih => exact ih.symm
  | trans _ _ ih₁ ih₂ => exact ih₁.trans ih₂
  | join op _ _ ih₁ ih₂ => rw [build_join, build_join, ih₁, ih₂]
  | negate _ ih => rw [build, build, ih]
  | assoc op e f g => simp only [build_join, Condition.combine_assoc]
  | deMorgan op e f => rw [build, build_join, build_join, Condition.negate_combine, build, build]
  | negateLeaf b => rfl

end Expression

/-! ## Reading an expression off a condition -/

namespace Condition

mutual

/-- The expression that joins the children of every junction from the left. -/
def quote : Condition → Expression
  | leaf b => .leaf b
  | junction op first second rest => quoteRest op (.join op first.quote second.quote) rest

def quoteRest (op : Operator) (e : Expression) : List Condition → Expression
  | [] => e
  | c :: cs => quoteRest op (.join op e c.quote) cs

end

theorem quote_assemble (op : Operator) (c : Condition) (cs : List Condition) :
    (assemble op c cs).quote = quoteRest op c.quote cs := by
  cases cs <;> rfl

theorem quoteRest_append (op : Operator) (e : Expression) (cs ds : List Condition) :
    quoteRest op e (cs ++ ds) = quoteRest op (quoteRest op e cs) ds := by
  induction cs generalizing e with
  | nil => rfl
  | cons c cs ih => exact ih _

end Condition

namespace Expression

open Condition (quoteRest)

theorem Same.quoteRest (op : Operator) (cs : List Condition) {e e' : Expression}
    (h : Same e e') : Same (quoteRest op e cs) (quoteRest op e' cs) := by
  induction cs generalizing e e' with
  | nil => exact h
  | cons c cs ih => exact ih (.join op h (.refl _))

theorem same_quoteRest_join (op : Operator) (e f : Expression) (cs : List Condition) :
    Same (quoteRest op (.join op e f) cs) (.join op e (quoteRest op f cs)) := by
  induction cs generalizing f with
  | nil => exact .refl _
  | cons c cs ih =>
    have hassoc := Same.quoteRest op cs (.assoc op e f c.quote)
    exact hassoc.trans (ih (.join op f c.quote))

theorem same_quote_combine (op : Operator) (c d : Condition) :
    Same (Condition.combine op c d).quote (.join op c.quote d.quote) := by
  -- the left condition's children are joined first, so they stand in the left operand already
  have hc : quoteRest op (c.parts op).1.quote (c.parts op).2 = c.quote := by
    rw [← Condition.quote_assemble, Condition.assemble_parts]
  have hd : quoteRest op (d.parts op).1.quote (d.parts op).2 = d.quote := by
    rw [← Condition.quote_assemble, Condition.assemble_parts]
  rw [Condition.combine_eq_assemble, Condition.quote_assemble, Condition.quoteRest_append, hc, ← hd]
  exact same_quoteRest_join op c.quote _ _

theorem same_join_negate (op : Operator) {e e' f f' : Expression} (he : Same e' (.negate e))
    (hf : Same f' (.negate f)) : Same (.join op.dual e' f') (.negate (.join op e f)) :=
  .trans (.join op.dual he hf) (.symm (.deMorgan op e f))

mutual

theorem same_quote_negate : ∀ c : Condition, Same c.negate.quote (.negate c.quote)
  | .leaf b => .symm (.negateLeaf b)
  | .junction op first second rest => by
    rw [Condition.negate, Condition.quote, Condition.quote]
    exact same_quoteRest_negateList op rest
      (same_join_negate op (same_quote_negate first) (same_quote_negate second))

theorem same_quoteRest_negateList (op : Operator) : ∀ (cs : List Condition) {e e' : Expression},
    Same e' (.negate e) →
      Same (quoteRest op.dual e' (Condition.negateList cs)) (.negate (quoteRest op e cs))
  | [], _, _, h => h
  | c :: cs, _, _, h => by
    rw [Condition.negateList, quoteRest, quoteRest]
    exact same_quoteRest_negateList op cs (same_join_negate op h (same_quote_negate c))

end

/-- Every expression is the same as the one read off from the condition it builds. -/
theorem same_quote_build (e : Expression) : Same e e.build.quote := by
  induction e with
  | leaf b => exact .refl _
  | join op e f ihe ihf =>
    rw [build_join]
    exact .trans (.join op ihe ihf) (.symm (same_quote_combine op e.build f.build))
  | negate e ih => exact .trans (.negate ih) (.symm (same_quote_negate e.build))

/-- **Conditions are normal forms**: expressions build equal conditions exactly when the laws make
them the same. -/
theorem build_eq_iff :
    (∀ e f : Expression, e.build = f.build ↔ Same e f) ∧
    (∀ (c : Condition) (cs : List Condition),
      Condition.all (c :: cs) = some (cs.foldl Condition.and c) ∧
      Condition.any (c :: cs) = some (cs.foldl Condition.or c)) ∧
    ∀ c : Condition, c.negate.negate = c := by
  refine ⟨fun e f => ⟨fun h => ?_, build_eq_of_same⟩, fun c cs => ⟨?_, ?_⟩,
    Condition.negate_negate⟩
  · have he := same_quote_build e
    rw [h] at he
    exact he.trans (same_quote_build f).symm
  · exact Condition.gather_cons .and c cs
  · exact Condition.gather_cons .or c cs

end Expression

end Rung
