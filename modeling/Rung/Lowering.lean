import Rung.Circuit
import Rung.Command

/-!
# Lowering devices to references

A reference keeps of a device what the machine needs: the area and tag it is stored under, the
index of a memory bit, the preset of a timer or counter.

* `Site.point`, `Bit.operand`, `Bit.point?`;
* `Word.value`, `Output.target`, `Drive.effect`.
-/

namespace Rung

def Site.point : Site → Point
  | input tag => .input tag
  | relay tag => .contact tag
  | memoryBit b => .memoryBit b.memory.tag b.index

def Word.value : Word → Value
  | memory m => .cell ⟨.memory, m.tag⟩
  | constant _ value => .constant value
  | timer tag _ => .cell ⟨.timer, tag⟩
  | counter tag _ => .cell ⟨.counter, tag⟩

/-- The operand that loads the state of a bit device. -/
def Bit.operand : Bit → Operand
  | contact site inverse => .bit site.point inverse
  | compare left relation right => .compare left.value relation right.value

/-- Where a bit device is stored; a comparison has no storage of its own. -/
def Bit.point? : Bit → Option Point
  | contact site _ => some site.point
  | compare _ _ _ => none

/-- The reference an action writes to drive an output. Its polarity plays no role. -/
def Output.target : Output → Target
  | relay tag _ => .bit (.contact tag)
  | memoryBit b _ => .bit (.memoryBit b.memory.tag b.index)
  | memory m => .memory m.tag
  | timer tag preset => .timer tag preset.value
  | counter tag preset => .counter tag preset.value

def Drive.effect : Drive → Effect
  | output => .output
  | set => .set
  | reset => .reset
  | write value => .write value.value

theorem Bit.operand_negate (b : Bit) : b.negate.operand = b.operand.complement := by
  cases b <;> rfl

end Rung
