import Rung.Condition
import Rung.Device.Basic

/-!
# Circuits

A circuit drives outputs while its condition holds.

* `Drive`: what is done to the output;
* `Action`: an output driven, perhaps under an interlock;
* `Circuit`: a condition with its actions, in order.
-/

namespace Rung

/-- What an action does to its output. -/
inductive Drive where
  /-- The output follows the condition. -/
  | output
  /-- The output is latched ON. -/
  | set
  /-- The output is latched OFF. -/
  | reset
  /-- The output takes a value. -/
  | write (value : Word)
  deriving DecidableEq, Repr

/-- What a circuit does. -/
inductive Action where
  | drive (how : Drive) (target : Output)
  /-- The action, gated by a further condition. -/
  | interlocked (guard : Condition) (action : Action)
  deriving DecidableEq, Repr

namespace Action

def output (target : Output) : Action := drive .output target

def set (target : Output) : Action := drive .set target

def reset (target : Output) : Action := drive .reset target

def write (value : Word) (target : Output) : Action := drive (.write value) target

/-- The output an action drives, under whatever interlocks. -/
def target : Action → Output
  | drive _ target => target
  | interlocked _ action => action.target

/-- The action as it is written, interlocks in square brackets before it. -/
def text : Action → String
  | drive .output target => "OUT " ++ target.text
  | drive .set target => "SET " ++ target.text
  | drive .reset target => "RST " ++ target.text
  | drive (.write value) target => "MOV " ++ value.text ++ " " ++ target.text
  | interlocked guard action => "[" ++ guard.text ++ "] " ++ action.text

end Action

structure Circuit where
  condition : Condition
  actions : List Action
  deriving DecidableEq, Repr

/-- The circuit as it is written: every action ends in a semicolon. -/
def Circuit.text (c : Circuit) : String :=
  c.condition.text ++ " =>" ++ String.join (c.actions.map fun a => " " ++ a.text ++ ";")

end Rung
