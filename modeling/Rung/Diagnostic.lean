import Rung.Problem

/-!
# Diagnostics

A diagnostic is a problem at a place: a primary label that says where and why, facts that describe
the case, and secondary labels for the other places involved.

* `Location`, `Label`, `Diagnostic`;
* `Diagnostic.describe`, `Diagnostic.relate`: add a fact or a secondary label;
* `Diagnostic.description`, `Diagnostic.text`: how a diagnostic reads.
-/

namespace Rung

/-- A place a diagnostic can point at. -/
inductive Location where
  | allocator (name : String) (cursor : Nat)
  | unit (name : String)
  | circuit (owner : String) (index : Nat)
  | device (name : String) (address : UInt32)
  deriving DecidableEq, Repr

def Location.text : Location → String
  | allocator name cursor => s!"allocator '{name}' at {cursor}"
  | unit name => s!"unit '{name}'"
  | circuit owner index => s!"unit '{owner}' circuit #{index}"
  | device name address => s!"device {name}{address.toNat}"

structure Label where
  location : Location
  message : String
  deriving DecidableEq, Repr

/-- A problem found at a place. -/
structure Diagnostic where
  problem : Problem
  primary : Label
  /-- Facts about the case, as key and value, in the order they were added. -/
  facts : List (String × String) := []
  secondary : List Label := []
  deriving DecidableEq, Repr

namespace Diagnostic

def describe (d : Diagnostic) (key value : String) : Diagnostic :=
  { d with facts := d.facts ++ [(key, value)] }

def relate (d : Diagnostic) (label : Label) : Diagnostic :=
  { d with secondary := d.secondary ++ [label] }

def code (d : Diagnostic) : String := d.problem.code

/-- The facts, each written `key=value`. -/
def described (d : Diagnostic) : List String := d.facts.map fun (key, value) => s!"{key}={value}"

/-- The description of the problem, with the facts in brackets when there are any. -/
def description (d : Diagnostic) : String :=
  if d.facts.isEmpty then d.problem.description
  else d.problem.description ++ " (" ++ ", ".intercalate d.described ++ ")"

def text (d : Diagnostic) : String :=
  s!"{d.code}: {d.description} at {d.primary.location.text}: {d.primary.message}"

end Diagnostic

end Rung
