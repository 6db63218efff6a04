import Rung.Image
import Rung.Sequence

/-!
# Scans

A scan runs a list of commands once, in order, against an image, on a fresh pair of stacks. Both
stacks must be empty at the end. A scan that traps keeps what it has written up to then.

* `Machine`, `Machine.perform`, `Machine.step`, `Machine.run`: a scan in progress;
* `Trap`: what stops a scan;
* `execute`: one scan.
-/

namespace Rung

inductive StackName where
  | primary
  | secondary
  deriving DecidableEq, Repr

/-- What stops a scan. -/
inductive Trap where
  /-- A command took a value from an empty stack. -/
  | underflow (stack : StackName)
  /-- Values were left at the end. -/
  | unbalanced (left : Depth)
  deriving DecidableEq, Repr

def Trap.text : Trap → String
  | underflow .primary => "primary stack underflow"
  | underflow .secondary => "secondary stack underflow"
  | unbalanced left =>
    s!"stacks not empty at end of scan: primary {left.primary}, secondary {left.secondary}"

/-- A scan in progress: two stacks of bits, each with its top first, and the image. -/
structure Machine where
  primary : List Bool := []
  secondary : List Bool := []
  image : Image := {}
  deriving DecidableEq

namespace Machine

def depth (m : Machine) : Depth := ⟨m.primary.length, m.secondary.length⟩

def take : EStateM StackName Machine Bool := fun m =>
  match m.primary with
  | [] => .error .primary m
  | a :: p => .ok a { m with primary := p }

def unstash : EStateM StackName Machine Bool := fun m =>
  match m.secondary with
  | [] => .error .secondary m
  | a :: s => .ok a { m with secondary := s }

def peek : EStateM StackName Machine Bool := fun m =>
  match m.primary with
  | [] => .error .primary m
  | a :: _ => .ok a m

def push (a : Bool) : EStateM StackName Machine Unit :=
  modify fun m => { m with primary := a :: m.primary }

def stash (a : Bool) : EStateM StackName Machine Unit :=
  modify fun m => { m with secondary := a :: m.secondary }

/-- What a command does, one stack access after the other. -/
def perform : Command → EStateM StackName Machine Unit
  | .load operand => do
    let m ← get
    push (m.image.evaluate operand)
  | .stash => do
    let a ← take
    stash a
  | .joinStash op => do
    let current ← take
    let stashed ← unstash
    push (op.apply stashed current)
  | .joinTop op => do
    let right ← take
    let left ← take
    push (op.apply left right)
  | .duplicate => do
    let a ← peek
    push a
  | .apply effect target => do
    let on ← peek
    modify fun m => { m with image := m.image.apply effect target on }
  | .pop => discard take

/-- Runs one command: the machine it leaves, and the stack that it found empty, if any. A command
that is stopped leaves the machine without the values it had taken by then. -/
def step (m : Machine) (c : Command) : Machine × Option StackName :=
  match (perform c).run m with
  | .ok _ m' => (m', none)
  | .error stack m' => (m', some stack)

/-- Runs commands in order, up to the first that underflows. -/
def run (m : Machine) : List Command → Machine × Option StackName
  | [] => (m, none)
  | c :: cs =>
    match m.step c with
    | (m', none) => m'.run cs
    | (m', some stack) => (m', some stack)

end Machine

/-- Runs one scan: the image it leaves, and what stopped it, if anything did. -/
def execute (commands : List Command) (img : Image) : Image × Option Trap :=
  match ({ image := img } : Machine).run commands with
  | (m, some stack) => (m.image, some (.underflow stack))
  | (m, none) =>
    if m.depth = {} then (m.image, none) else (m.image, some (.unbalanced m.depth))

end Rung
