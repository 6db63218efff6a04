import Rung.Image
import Rung.Lowering
import Rung.Program

/-!
# The meaning of a program

What a scan does, said directly on circuits: the condition of a circuit is evaluated once, on the
image as the circuit finds it, and its actions are then performed in order. An interlock is
evaluated when its action is reached.

* `Condition.eval`, `Action.perform`, `Circuit.scan`;
* `LogicUnit.scan`, `Program.scan`.
-/

namespace Rung

/-- What an operator makes of nothing: the value that changes no other. -/
def Operator.neutral : Operator → Bool
  | and => true
  | or => false

namespace Condition

mutual

def eval (img : Image) : Condition → Bool
  | leaf b => img.evaluate b.operand
  | junction op first second rest =>
    op.apply (first.eval img) (op.apply (second.eval img) (evalList img op rest))

def evalList (img : Image) (op : Operator) : List Condition → Bool
  | [] => op.neutral
  | c :: cs => op.apply (c.eval img) (evalList img op cs)

end

end Condition

def Action.perform (img : Image) (gate : Bool) : Action → Image
  | drive how target => img.apply how.effect target.target gate
  | interlocked guard action => action.perform img (gate && guard.eval img)

def Circuit.scan (img : Image) (c : Circuit) : Image :=
  let gate := c.condition.eval img
  c.actions.foldl (fun img a => a.perform img gate) img

def LogicUnit.scan (img : Image) (u : LogicUnit) : Image := u.circuits.foldl Circuit.scan img

/-- What the units of a program do to an image, in ascending order of name. -/
def Program.scan (img : Image) (p : Program) : Image :=
  p.unitList.foldl (fun img (_, u) => u.scan img) img

end Rung
