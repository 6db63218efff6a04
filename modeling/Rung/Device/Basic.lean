import Rung.Device.Bit

/-!
# Devices

The closed set of devices: bits, words and text buffers.

* `Kind`, `StringBuffer`, `Device`;
* `Output`, `Device.output?`: the devices an action can drive. Inputs, comparisons, constants and
  text buffers are not among them.
-/

namespace Rung

/-- The kind of a device, without its data. -/
inductive Kind where
  | input
  | contact
  | compare
  | bitOf
  | memory
  | constant
  | timer
  | counter
  | stringBuffer
  deriving DecidableEq, Repr

def Kind.name : Kind → String
  | input => "Input"
  | contact => "Contact"
  | compare => "Compare"
  | bitOf => "BitOf"
  | memory => "Memory"
  | constant => "Constant"
  | timer => "Timer"
  | counter => "Counter"
  | stringBuffer => "StringBuffer"

/-- A run of words that holds text. -/
structure StringBuffer where
  tag : Tag
  wordCount : UInt32
  initial : String := ""
  deriving DecidableEq, Repr

def StringBuffer.withInitial (b : StringBuffer) (initial : String) : StringBuffer :=
  { b with initial }

inductive Device where
  | bit (bit : Bit)
  | word (word : Word)
  | stringBuffer (buffer : StringBuffer)
  deriving DecidableEq, Repr

namespace Device

def kind : Device → Kind
  | bit (.contact (.input _) _) => .input
  | bit (.contact (.relay _) _) => .contact
  | bit (.contact (.memoryBit _) _) => .bitOf
  | bit (.compare _ _ _) => .compare
  | word (.memory _) => .memory
  | word (.constant _ _) => .constant
  | word (.timer _ _) => .timer
  | word (.counter _ _) => .counter
  | stringBuffer _ => .stringBuffer

/-- The name of the device's address family, or of a constant; empty for a comparison. -/
def name : Device → String
  | bit b => b.name
  | word w => w.name
  | stringBuffer s => s.tag.name

/-- The address of the device; 0 when it has none. -/
def address : Device → UInt32
  | bit b => b.address
  | word w => w.address
  | stringBuffer s => s.tag.address

def text : Device → String
  | bit b => b.text
  | word w => w.text
  | stringBuffer s => s.tag.text

def bit? : Device → Option Bit
  | bit b => some b
  | word _ | stringBuffer _ => none

def word? : Device → Option Word
  | word w => some w
  | bit _ | stringBuffer _ => none

end Device

/-- A device that an action can drive. The polarity of a contact plays no role when it is driven;
it only shows in the text. -/
inductive Output where
  | relay (tag : Tag) (inverse : Bool)
  | memoryBit (bit : MemoryBit) (inverse : Bool)
  | memory (word : Memory)
  | timer (tag : Tag) (preset : Word)
  | counter (tag : Tag) (preset : Word)
  deriving DecidableEq, Repr

def Output.device : Output → Device
  | relay tag inverse => .bit (.contact (.relay tag) inverse)
  | memoryBit bit inverse => .bit (.contact (.memoryBit bit) inverse)
  | memory word => .word (.memory word)
  | timer tag preset => .word (.timer tag preset)
  | counter tag preset => .word (.counter tag preset)

def Output.text (o : Output) : String := o.device.text

/-- The device as an output, if an action can drive it. -/
def Device.output? : Device → Option Output
  | bit (.contact (.relay tag) inverse) => some (.relay tag inverse)
  | bit (.contact (.memoryBit b) inverse) => some (.memoryBit b inverse)
  | word (.memory m) => some (.memory m)
  | word (.timer tag preset) => some (.timer tag preset)
  | word (.counter tag preset) => some (.counter tag preset)
  | bit (.contact (.input _) _) | bit (.compare _ _ _) => none
  | word (.constant _ _) | stringBuffer _ => none

end Rung
