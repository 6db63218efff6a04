import Rung.Relation
import Rung.Tag

/-!
# Numeric devices

A word is a device with a 64-bit value: a memory word, a constant, or the current value of a timer
or counter. A timer or counter has a preset, which is itself a word.

* `WordSize`, `Memory`, `Word`;
* `Word.text`: a constant is written `K` and its value unless it has a name.
-/

namespace Rung

/-- The layout of a memory word on the controller. Values are always computed with 64 bits. -/
inductive WordSize where
  | int16
  | int32
  | int64
  | float16
  | float32
  | float64
  deriving DecidableEq, Repr

namespace WordSize

def bits : WordSize → Nat
  | int16 | float16 => 16
  | int32 | float32 => 32
  | int64 | float64 => 64

theorem bits_le (size : WordSize) : size.bits ≤ 64 := by cases size <;> decide

end WordSize

structure Memory where
  tag : Tag
  size : WordSize
  deriving DecidableEq, Repr

/-- A device with a numeric value. -/
inductive Word where
  | memory (word : Memory)
  /-- A constant value; the name is empty when the constant is unnamed. -/
  | constant (name : String) (value : Int64)
  | timer (tag : Tag) (preset : Word)
  | counter (tag : Tag) (preset : Word)
  deriving DecidableEq, Repr

namespace Word

def address : Word → UInt32
  | memory m => m.tag.address
  | constant _ _ => 0
  | timer t _ | counter t _ => t.address

def name : Word → String
  | memory m => m.tag.name
  | constant name _ => name
  | timer t _ | counter t _ => t.name

def text : Word → String
  | memory m => m.tag.text
  | constant name value => if name.isEmpty then s!"K{value.toInt}" else name
  | timer t _ | counter t _ => t.text

end Word

end Rung
