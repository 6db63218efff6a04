import Rung.Gauge
import Rung.Lowering
import Rung.Program
import Rung.Sequence

/-!
# Compilation

Each circuit becomes a block of commands that starts and ends with both stacks empty. The condition
is evaluated depth first: a leaf loads its bit, and a junction evaluates its first child and then,
for every further child, either joins two primary values (a leaf) or stashes the partial result,
evaluates the child and joins the two stacks (a junction). The actions read the value of the
condition from the primary top, and a final pop drops it.

* `Condition.code`, `Action.code`, `Circuit.code`;
* `Circuit.compile`: the code of a circuit, once its balance is verified;
* `LogicUnit.compile`, `Program.compile`.
-/

namespace Rung

namespace Condition

/-- The commands that join a further child to a partial result: a junction is evaluated with the
partial result stashed away. -/
def joined (op : Operator) (nested : Bool) (code : List Command) : List Command :=
  if nested then .stash :: (code ++ [.joinStash op]) else code ++ [.joinTop op]

mutual

def code : Condition → List Command
  | leaf b => [.load b.operand]
  | junction op first second rest =>
    first.code ++ (joined op second.isJunction second.code ++ codeRest op rest)

def codeRest (op : Operator) : List Condition → List Command
  | [] => []
  | c :: cs => joined op c.isJunction c.code ++ codeRest op cs

end

end Condition

/-- The commands of an action. Under an interlock a copy of the gate is joined with the guard, so
that the gate itself stays intact for the actions that follow. -/
def Action.code : Action → List Command
  | drive how target => [.apply how.effect target.target]
  | interlocked guard action =>
    .duplicate :: (guard.code ++ .joinTop .and :: (action.code ++ [.pop]))

namespace Circuit

def code (c : Circuit) : List Command :=
  c.condition.code ++ (c.actions.flatMap Action.code ++ [.pop])

/-- Verifies that the commands so far never underflow and leave the stacks at a given depth. -/
def verify (place : Location) (commands : List Command) (expected : Depth) (message : String) :
    Except Diagnostic Unit :=
  let gauge := Gauge.ofCommands commands
  if !gauge.underflow && gauge.depth = expected then .ok ()
  else
    let unbalanced : Diagnostic :=
      { problem := .stackInvariantViolation, primary := ⟨place, message⟩ }
    .error (((unbalanced.describe "primary" (toString gauge.depth.primary)).describe
      "secondary" (toString gauge.depth.secondary)).describe
      "underflow" (toString gauge.underflow))

/-- The commands of a circuit, once they are verified to be balanced. -/
def compile (place : Location) (c : Circuit) : Except Diagnostic (List Command) := do
  verify place c.condition.code ⟨1, 0⟩ "Condition must leave exactly one value"
  verify place c.code ⟨0, 0⟩ "Circuit must leave both stacks empty"
  return c.code

end Circuit

namespace Sequence

def addCircuits (s : Sequence) (unit : String) (index : Nat) :
    List Circuit → Except Diagnostic Sequence
  | [] => .ok s
  | c :: cs => do
    let commands ← c.compile (.circuit unit index)
    ((s.recordDepth (Gauge.ofCommands commands).peak).addBlock unit index commands).addCircuits
      unit (index + 1) cs

def addUnits (s : Sequence) : List (String × LogicUnit) → Except Diagnostic Sequence
  | [] => .ok s
  | (name, u) :: units => do
    let s' ← s.addCircuits name 0 u.circuits
    s'.addUnits units

end Sequence

def LogicUnit.compile (u : LogicUnit) : Except Diagnostic Sequence :=
  Sequence.addUnits {} [(u.name, u)]

/-- Compiles every unit of a program, in ascending order of name. -/
def Program.compile (p : Program) : Except Diagnostic Sequence := Sequence.addUnits {} p.unitList

end Rung
