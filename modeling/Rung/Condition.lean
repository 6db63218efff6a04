import Rung.Device.Bit
import Rung.Operator

/-!
# Conditions

A condition is a tree whose leaves are bit devices and whose inner nodes are junctions of two or
more children. The builders keep junctions flat, so a junction never has a junction of the same
operator as a child, and push negation down to the leaves, so there is no node for it.

* `Condition`, with decidable equality;
* `Condition.and`, `Condition.or`, `Condition.negate`, `Condition.all`, `Condition.any`;
* `Condition.text`: nested junctions in brackets.
-/

namespace Rung

/-- A boolean combination of bit devices. -/
inductive Condition where
  | leaf (bit : Bit)
  | junction (op : Operator) (first second : Condition) (rest : List Condition)
  deriving Repr

namespace Condition

mutual

def decEq : (c d : Condition) → Decidable (c = d)
  | leaf a, leaf b =>
    if h : a = b then isTrue (congrArg leaf h) else isFalse fun e => h (leaf.inj e)
  | junction op c₁ c₂ cs, junction op' d₁ d₂ ds =>
    if h : op = op' then
      match decEq c₁ d₁, decEq c₂ d₂, decEqList cs ds with
      | isTrue h₁, isTrue h₂, isTrue hs => isTrue (by rw [h, h₁, h₂, hs])
      | isFalse h₁, _, _ => isFalse fun e => h₁ (junction.inj e).2.1
      | _, isFalse h₂, _ => isFalse fun e => h₂ (junction.inj e).2.2.1
      | _, _, isFalse hs => isFalse fun e => hs (junction.inj e).2.2.2
    else isFalse fun e => h (junction.inj e).1
  | leaf _, junction _ _ _ _ => isFalse nofun
  | junction _ _ _ _, leaf _ => isFalse nofun

def decEqList : (cs ds : List Condition) → Decidable (cs = ds)
  | [], [] => isTrue rfl
  | [], _ :: _ => isFalse nofun
  | _ :: _, [] => isFalse nofun
  | c :: cs, d :: ds =>
    match decEq c d, decEqList cs ds with
    | isTrue h, isTrue hs => isTrue (by rw [h, hs])
    | isFalse h, _ => isFalse fun e => h (List.cons.inj e).1
    | _, isFalse hs => isFalse fun e => hs (List.cons.inj e).2

end

instance : DecidableEq Condition := decEq

def isJunction : Condition → Bool
  | leaf _ => false
  | junction _ _ _ _ => true

def children : Condition → List Condition
  | leaf _ => []
  | junction _ first second rest => first :: second :: rest

/-! ## Builders -/

/-- What a condition contributes to a junction, as the first contribution and the further ones: its
children when it is a junction of the same operator, else itself. -/
def parts (op : Operator) : Condition → Condition × List Condition
  | leaf b => (leaf b, [])
  | junction op' first second rest =>
    if op' = op then (first, second :: rest) else (junction op' first second rest, [])

def absorb (op : Operator) (c : Condition) : List Condition := (c.parts op).1 :: (c.parts op).2

/-- Joins any number of conditions; none when there are none, and a single one stays itself. -/
def gather (op : Operator) (cs : List Condition) : Option Condition :=
  match cs.flatMap (absorb op) with
  | [] => none
  | [c] => some c
  | first :: second :: rest => some (junction op first second rest)

def combine (op : Operator) (c d : Condition) : Condition :=
  match c.parts op, d.parts op with
  | (a, []), (b, bs) => junction op a b bs
  | (a, a' :: as), (b, bs) => junction op a a' (as ++ b :: bs)

def and (c d : Condition) : Condition := combine .and c d

def or (c d : Condition) : Condition := combine .or c d

def all (cs : List Condition) : Option Condition := gather .and cs

def any (cs : List Condition) : Option Condition := gather .or cs

theorem children_combine (op : Operator) (c d : Condition) :
    (combine op c d).children = c.absorb op ++ d.absorb op := by
  unfold combine absorb
  obtain ⟨a, as⟩ := c.parts op
  obtain ⟨b, bs⟩ := d.parts op
  cases as <;> rfl

mutual

/-- Holds exactly when the condition does not: every leaf is negated and every operator replaced
by its dual. -/
def negate : Condition → Condition
  | leaf b => leaf b.negate
  | junction op first second rest =>
    junction op.dual first.negate second.negate (negateList rest)

def negateList : List Condition → List Condition
  | [] => []
  | c :: cs => c.negate :: negateList cs

end

theorem negateList_eq_map (cs : List Condition) : negateList cs = cs.map negate := by
  induction cs with
  | nil => rfl
  | cons c cs ih => simp [negateList, ih]

/-! ## Text -/

def separator : Operator → String
  | .and => " & "
  | .or => " | "

/-- The text of a child: a junction stands in brackets. -/
def childText (nested : Bool) (text : String) : String :=
  if nested then "(" ++ text ++ ")" else text

mutual

def text : Condition → String
  | leaf b => b.text
  | junction op first second rest =>
    (separator op).intercalate
      (childText first.isJunction first.text :: childText second.isJunction second.text ::
        childTexts rest)

def childTexts : List Condition → List String
  | [] => []
  | c :: cs => childText c.isJunction c.text :: childTexts cs

end

end Condition

end Rung
