import Rung.Plant

/-!
# The demonstration

The motor plant, compiled and loaded into a controller.

* `Demo`, `Demo.load`, `Demo.loadRecords`, `Demo.listing`;
* `Demo.hold`: holds inputs ON;
* `Demo.scan`, `Demo.finished`, `Demo.scanUpTo`, `Demo.summary`.
-/

namespace Rung.CommandLine

/-- The motor plant in a controller. -/
structure Demo where
  unit : LogicUnit
  plant : Plant
  sequence : Sequence
  controller : Controller := {}

namespace Demo

def load : Except String Demo := do
  let (unit, plant) ← Plant.build.mapError fun d => "Unable to build demo program: " ++ d.text
  let sequence ← unit.compile.mapError fun d => "Unable to compile demo program: " ++ d.text
  return { unit, plant, sequence }

def loadRecords (d : Demo) : List Record :=
  Plant.buildRecords d.unit d.plant ++ Record.unitCompiled d.unit d.sequence ++
    [⟨.debug, s!"Compiled demo program into {d.sequence.commands.length} commands"⟩]

/-- The comments on the devices, then the listing of the commands. -/
def listing (d : Demo) : String :=
  String.join (d.unit.comments.map fun c => s!"; {c.device.text}  {c.text}\n") ++ d.sequence.listing

/-- Holds the inputs at some addresses ON; the first that the plant does not use is reported. -/
def hold (d : Demo) : List UInt32 → Except String Demo
  | [] => .ok d
  | address :: addresses =>
    match d.plant.input? address with
    | some tag => { d with controller := d.controller.setInput tag true }.hold addresses
    | none =>
      .error s!"Unknown input X{address.toNat}; the demo uses X0 (start) and X1 (stop)"

def scan (d : Demo) : Demo × Option Trap :=
  match d.controller.run d.sequence with
  | (controller, trap) => ({ d with controller }, trap)

def requestStop (d : Demo) : Demo := { d with controller := d.controller.requestStop }

/-- Whether no further scan is due: a stop has been requested, or the scans that were asked for are
completed. -/
def finished (d : Demo) (scans : Option Nat) : Bool :=
  d.controller.stopRequested || scans.any fun max => max ≤ d.controller.scanCount

theorem scanCount_lt_of_not_finished {d : Demo} {max : Nat} (h : ¬ d.finished (some max) = true) :
    d.controller.scanCount < max := by
  simp only [finished, Option.any_some, Bool.or_eq_true, decide_eq_true_eq, not_or] at h
  omega

theorem scanCount_scan {d d' : Demo} (h : d.scan = (d', none)) :
    d'.controller.scanCount = d.controller.scanCount + 1 := by
  simp only [scan, Controller.run] at h
  split at h <;> cases h
  rfl

/-- Runs scans until no further one is due, up to the first that traps. -/
def scanUpTo (d : Demo) (max : Nat) : Demo × Option Trap :=
  if _hdue : d.finished (some max) = true then (d, none)
  else
    match _hscan : d.scan with
    | (d', none) => d'.scanUpTo max
    | (d', some trap) => (d', some trap)
termination_by max - d.controller.scanCount
decreasing_by
  have hlt := scanCount_lt_of_not_finished _hdue
  have hcount := scanCount_scan _hscan
  omega

def scanRecord (d : Demo) : Record := .scanned d.controller.scanCount d.sequence

def scanRecords (d : Demo) : List Record :=
  (List.range d.controller.scanCount).map fun n => .scanned (n + 1) d.sequence

/-- The number of scans completed, then the state of every device. -/
def summary (d : Demo) : String :=
  s!"scans: {d.controller.scanCount}\n" ++
    String.join ((d.plant.report d.controller).map fun line => line ++ "\n")

end Demo

end Rung.CommandLine
