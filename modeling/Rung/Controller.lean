import Rung.Compile
import Rung.Scan

/-!
# Controllers

A controller owns a process image and runs scans against it. Devices keep their state from one scan
to the next; stacks do not.

* `Controller`, `Controller.run`;
* `setInput`, `setBit`, `setValue`, `readBit`, `readValue`: access to devices between scans;
* `Fault`: why a controller refuses or stops.
-/

namespace Rung

/-- Why a controller refuses a request or stops. -/
inductive Fault where
  | trap (trap : Trap)
  | compile (diagnostic : Diagnostic)
  /-- The device has no storage in the image. -/
  | notStorable (device : Device)
  deriving DecidableEq, Repr

def Fault.text : Fault → String
  | trap t => "trap: " ++ t.text
  | compile d => "compile error: " ++ d.text
  | notStorable device => s!"device {device.text} has no storage"

/-- A process image with what a controller keeps beside it. -/
structure Controller where
  image : Image := {}
  /-- The number of scans completed. It has no bound; no run is long enough to fill 64 bits. -/
  scanCount : Nat := 0
  stopRequested : Bool := false
  deriving DecidableEq

namespace Controller

/-- Drives an input from the field. The state is stored as the field reports it, whatever the
polarity through which the input is read. -/
def setInput (c : Controller) (input : Tag) (state : Bool) : Controller :=
  { c with image := c.image.writePoint (.input input) state }

/-- Forces a bit device so that it reads as a given state through the same polarity. A comparison
has no storage and is refused. -/
def setBit (c : Controller) (b : Bit) (state : Bool) : Controller × Option Fault :=
  match b.point? with
  | some point => ({ c with image := c.image.writePoint point (state != b.inverse) }, none)
  | none => (c, some (.notStorable (.bit b)))

/-- Forces a numeric device. A constant has no storage and is refused. -/
def setValue (c : Controller) (w : Word) (value : Int64) : Controller × Option Fault :=
  match w.value with
  | .cell cell => ({ c with image := c.image.writeValue (.cell cell) value }, none)
  | .constant _ => (c, some (.notStorable (.word w)))

/-- Reads a bit device as a condition would. -/
def readBit (c : Controller) (b : Bit) : Bool := c.image.evaluate b.operand

def readValue (c : Controller) (w : Word) : Int64 := c.image.readValue w.value

def requestStop (c : Controller) : Controller := { c with stopRequested := true }

/-- Runs one scan. Only a scan that does not trap is counted. -/
def run (c : Controller) (s : Sequence) : Controller × Option Trap :=
  match execute s.commands c.image with
  | (img, none) => ({ c with image := img, scanCount := c.scanCount + 1 }, none)
  | (img, some trap) => ({ c with image := img }, some trap)

end Controller

end Rung
