import Rung.Cell
import Rung.Operator
import Rung.Relation

/-!
# Commands

The machine runs straight-line code over two stacks of bits. A reference in a command holds only
what the machine needs to find a stored value.

* `Point`, `Value`, `Target`: what is read and written;
* `Operand`, `Effect`, `Command`;
* `Depth`, `StackUse`, `Command.stackUse`: how many values a command takes and puts;
* `Command.text`: the mnemonic form.
-/

namespace Rung

/-- A bit that can be read or written. -/
inductive Point where
  | input (tag : Tag)
  | contact (tag : Tag)
  | memoryBit (memory : Tag) (index : Nat)
  deriving DecidableEq, Repr

def Point.text : Point → String
  | input t | contact t => t.text
  | memoryBit t index => s!"{t.text}.{index}"

/-- A value that can be read. Timers and counters read as their current value. -/
inductive Value where
  | constant (value : Int64)
  | cell (cell : WordCell)
  deriving DecidableEq, Repr

def Value.text : Value → String
  | constant value => s!"K{value.toInt}"
  | cell c => c.tag.text

/-- What an action writes. -/
inductive Target where
  | bit (point : Point)
  | memory (tag : Tag)
  | timer (tag : Tag) (preset : Value)
  | counter (tag : Tag) (preset : Value)
  deriving DecidableEq, Repr

def Target.text : Target → String
  | bit p => p.text
  | memory t => t.text
  | timer t preset | counter t preset => s!"{t.text} {preset.text}"

/-- What a load pushes. -/
inductive Operand where
  | bit (point : Point) (inverse : Bool)
  | compare (left : Value) (relation : Relation) (right : Value)
  deriving DecidableEq, Repr

def Operand.complement : Operand → Operand
  | bit point inverse => bit point !inverse
  | compare left relation right => compare left relation.inverse right

inductive Effect where
  | output
  | set
  | reset
  | write (value : Value)
  deriving DecidableEq, Repr

inductive Command where
  /-- Pushes the operand onto the primary stack. -/
  | load (operand : Operand)
  /-- Moves the primary top to the secondary stack. -/
  | stash
  /-- Joins the secondary top and the primary top. -/
  | joinStash (op : Operator)
  /-- Joins the two topmost primary values. -/
  | joinTop (op : Operator)
  /-- Pushes a copy of the primary top. -/
  | duplicate
  /-- Applies the effect to the target, gated by the primary top, which stays. -/
  | apply (effect : Effect) (target : Target)
  /-- Drops the primary top. -/
  | pop
  deriving DecidableEq, Repr

structure Depth where
  primary : Nat := 0
  secondary : Nat := 0
  deriving DecidableEq, Repr

def Depth.max (d e : Depth) : Depth :=
  ⟨Nat.max d.primary e.primary, Nat.max d.secondary e.secondary⟩

/-- How many values a command takes from each stack, and how many it then puts there. A command
that reads the top without removing it takes one and puts it back. -/
structure StackUse where
  takes : Depth
  puts : Depth
  deriving DecidableEq, Repr

namespace Command

def stackUse : Command → StackUse
  | load _ => ⟨⟨0, 0⟩, ⟨1, 0⟩⟩
  | stash => ⟨⟨1, 0⟩, ⟨0, 1⟩⟩
  | joinStash _ => ⟨⟨1, 1⟩, ⟨1, 0⟩⟩
  | joinTop _ => ⟨⟨2, 0⟩, ⟨1, 0⟩⟩
  | duplicate => ⟨⟨1, 0⟩, ⟨2, 0⟩⟩
  | apply _ _ => ⟨⟨1, 0⟩, ⟨1, 0⟩⟩
  | pop => ⟨⟨1, 0⟩, ⟨0, 0⟩⟩

def text : Command → String
  | load (.bit point false) => "LD " ++ point.text
  | load (.bit point true) => "LDI " ++ point.text
  | load (.compare left relation right) => s!"LD{relation.symbol} {left.text} {right.text}"
  | stash => "STASH"
  | joinStash .and => "ANB"
  | joinStash .or => "ORB"
  | joinTop .and => "AND"
  | joinTop .or => "OR"
  | duplicate => "DUP"
  | apply .output target => "OUT " ++ target.text
  | apply .set target => "SET " ++ target.text
  | apply .reset target => "RST " ++ target.text
  | apply (.write value) target => s!"MOV {value.text} {target.text}"
  | pop => "POP"

end Command

end Rung
