import Rung.Device.Word
import Rung.Diagnostic

/-!
# Bit devices

A bit device is a contact on a stored bit, read straight or inverted, or a comparison of two words.
A bit is stored by an input, by a relay or by one position of a memory word.

* `MemoryBit`, `Memory.bit`: a position of a word, below the size of that word;
* `Site`, `Bit`, `Bit.negate`, `Bit.negate_negate`;
* `Word.contact?`: the contact of a timer or counter, closed once the preset is reached.
-/

namespace Rung

structure MemoryBit where
  memory : Memory
  index : Nat
  index_lt : index < memory.size.bits
  deriving DecidableEq, Repr

/-- The bit of a word at an index, refused unless the index is below the size of the word. -/
def Memory.bit (m : Memory) (index : Nat) : Except Diagnostic MemoryBit :=
  if h : index < m.size.bits then .ok ⟨m, index, h⟩
  else
    let label : Label := ⟨.device m.tag.name m.tag.address, "Bit index exceeds word size"⟩
    let outside : Diagnostic := { problem := .bitIndexOutOfRange, primary := label }
    .error ((outside.describe "bit" (toString index)).describe "bit_size" (toString m.size.bits))

/-- The bit of a word as it is written: the word, a point and the index. -/
def MemoryBit.text (b : MemoryBit) : String := s!"{b.memory.tag.text}.{b.index}"

/-- What stores the state of a contact. -/
inductive Site where
  /-- Driven by the field, never by an action. -/
  | input (tag : Tag)
  /-- An internal relay or an output of the controller. -/
  | relay (tag : Tag)
  | memoryBit (bit : MemoryBit)
  deriving DecidableEq, Repr

namespace Site

def tag : Site → Tag
  | input t | relay t => t
  | memoryBit b => b.memory.tag

def text : Site → String
  | input t | relay t => t.text
  | memoryBit b => b.text

end Site

inductive Bit where
  /-- A contact on a stored bit; when inverted it reads closed while the bit is OFF. -/
  | contact (site : Site) (inverse : Bool)
  /-- Closed while the relation between the two words holds. -/
  | compare (left : Word) (relation : Relation) (right : Word)
  deriving DecidableEq, Repr

namespace Bit

/-- The bit device that is closed exactly when this one is open. -/
def negate : Bit → Bit
  | contact site inverse => contact site !inverse
  | compare left relation right => compare left relation.inverse right

@[simp] theorem negate_negate (b : Bit) : b.negate.negate = b := by cases b <;> simp [negate]

def inverse : Bit → Bool
  | contact _ inverse => inverse
  | compare _ _ _ => false

def name : Bit → String
  | contact site _ => site.tag.name
  | compare _ _ _ => ""

def address : Bit → UInt32
  | contact site _ => site.tag.address
  | compare _ _ _ => 0

def text : Bit → String
  | contact site inverse => (if inverse then "!" else "") ++ site.text
  | compare left relation right => left.text ++ relation.symbol ++ right.text

end Bit

/-- The contact of a timer or counter: its current value has reached its preset. -/
def Word.contact? (w : Word) : Option Bit :=
  match w with
  | .timer _ preset | .counter _ preset => some (.compare w .ge preset)
  | .memory _ | .constant _ _ => none

end Rung
