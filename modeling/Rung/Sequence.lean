import Rung.Command

/-!
# Command sequences

A sequence is a list of commands that one scan runs from start to end, with the blocks it was
assembled from and the stack depths it is recorded to need.

* `Block`, `Sequence`, `Sequence.addBlock`, `Sequence.recordDepth`;
* `Sequence.blockCommands`: the commands of a block;
* `Sequence.listing`: one line for each command, under a header for each block.
-/

namespace Rung

/-- The commands of one circuit, as the positions from `start` up to, but not including, `stop`. -/
structure Block where
  unit : String
  /-- The position of the circuit in its unit. -/
  circuit : Nat
  start : Nat
  stop : Nat
  deriving DecidableEq, Repr

structure Sequence where
  commands : List Command := []
  blocks : List Block := []
  depth : Depth := {}
  deriving DecidableEq, Repr

namespace Sequence

def ofCommands (commands : List Command) : Sequence := { commands }

def addBlock (s : Sequence) (unit : String) (circuit : Nat) (commands : List Command) : Sequence :=
  let all := s.commands ++ commands
  { s with
    commands := all
    blocks := s.blocks ++ [⟨unit, circuit, s.commands.length, all.length⟩] }

/-- Records that a depth is needed; the largest one counts. -/
def recordDepth (s : Sequence) (depth : Depth) : Sequence := { s with depth := s.depth.max depth }

/-- The commands of a block; none when the block does not fit into the sequence. -/
def blockCommands (s : Sequence) (b : Block) : List Command :=
  if b.start ≤ b.stop ∧ b.stop ≤ s.commands.length then
    (s.commands.drop b.start).take (b.stop - b.start)
  else []

/-! ## Listing -/

def header (b : Block) : String := s!"; {b.unit} #{b.circuit}\n"

/-- The line of a command: its position in at least five columns, then the command. -/
def line (index : Nat) (c : Command) : String :=
  let number := toString index
  String.ofList (List.replicate (5 - number.length) ' ') ++ number ++ "  " ++ c.text ++ "\n"

/-- The lines of the commands from a position on, given the blocks that have not been shown. The
next of these gets its header where it starts. -/
def linesFrom (index : Nat) : List Block → List Command → List String
  | _, [] => []
  | [], c :: cs => line index c :: linesFrom (index + 1) [] cs
  | b :: bs, c :: cs =>
    if b.start = index then header b :: line index c :: linesFrom (index + 1) bs cs
    else line index c :: linesFrom (index + 1) (b :: bs) cs

def listing (s : Sequence) : String := String.join (linesFrom 0 s.blocks s.commands)

end Sequence

end Rung
