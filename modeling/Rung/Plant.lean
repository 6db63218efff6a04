import Rung.Controller
import Rung.Log

/-!
# The motor plant

A motor with a start and a stop push button, and a lamp that lights once the motor has run for
three scans:

    (X0 | M0) & !X1 => OUT M0;
    M0 => OUT Y0; OUT T0;
    T0>=K3 => OUT Y1;

* `Plant`, `Plant.build`: the devices and the unit that drives them;
* `Plant.report`: the state of every device, one line each.
-/

namespace Rung

structure Plant where
  start : Tag
  stop : Tag
  run : Tag
  motor : Tag
  lamp : Tag
  delay : Tag
  deriving DecidableEq, Repr

namespace Plant

/-- How many scans the lamp waits after the motor starts. -/
def lampDelay : Word := .constant "" 3

def timer (p : Plant) : Word := .timer p.delay lampDelay

def contacts (p : Plant) : List Bit :=
  [.contact (.input p.start) false, .contact (.input p.stop) false,
    .contact (.relay p.run) false, .contact (.relay p.motor) false,
    .contact (.relay p.lamp) false]

/-- The motor runs while it is started or already running, unless it is stopped. -/
def holdCircuit (p : Plant) : Circuit where
  condition :=
    ((Condition.leaf (.contact (.input p.start) false)).or
      (.leaf (.contact (.relay p.run) false))).and
        (Condition.leaf (.contact (.input p.stop) false)).negate
  actions := [.output (.relay p.run false)]

/-- The motor and the delay follow the run latch. -/
def driveCircuit (p : Plant) : Circuit where
  condition := .leaf (.contact (.relay p.run) false)
  actions := [.output (.relay p.motor false), .output (.timer p.delay lampDelay)]

/-- The lamp lights once the delay has reached its preset. -/
def lampCircuit (p : Plant) : Circuit where
  condition := .leaf (.compare p.timer .ge lampDelay)
  actions := [.output (.relay p.lamp false)]

/-- Issues the devices of the plant and assembles its unit. -/
def build : Except Diagnostic (LogicUnit × Plant) := do
  let inputs : Allocator := { stock := .input, name := "X", size := 8, origin := 0 }
  let relays : Allocator := { stock := .contact, name := "M", size := 8, origin := 0 }
  let outputs : Allocator := { stock := .contact, name := "Y", size := 8, origin := 0 }
  let timers : Allocator := { stock := .timer lampDelay, name := "T", size := 4, origin := 0 }
  let (inputs, start) := inputs.allocate (some "Start push button")
  let (inputs, stop) := inputs.allocate (some "Stop push button")
  let (relays, run) := relays.allocate (some "Run latch")
  let (outputs, motor) := outputs.allocate (some "Motor contactor")
  let (outputs, lamp) := outputs.allocate (some "Running lamp")
  let (timers, delay) := timers.allocate (some "Lamp on-delay")
  let plant : Plant :=
    { start := ← start, stop := ← stop, run := ← run, motor := ← motor, lamp := ← lamp,
      delay := ← delay }
  let unit : LogicUnit := { name := "motor" }
  match unit.registerAll [inputs.range, relays.range, outputs.range, timers.range] with
  | (_, some d) => throw d
  | (unit, none) =>
    return (((unit.add plant.holdCircuit).add plant.driveCircuit).add plant.lampCircuit, plant)

def buildRecords (unit : LogicUnit) (p : Plant) : List Record :=
  [p.start, p.stop, p.run, p.motor, p.lamp, p.delay].map .allocated ++
    unit.ranges.map fun range => .registered range unit.name

def input? (p : Plant) (address : UInt32) : Option Tag :=
  [p.start, p.stop].find? fun tag => tag.address == address

/-- The state of every device of the plant, one line each. -/
def report (p : Plant) (c : Controller) : List String :=
  (p.contacts.map fun b => b.text ++ ": " ++ if c.readBit b then "ON" else "OFF") ++
    [s!"{p.timer.text}: {(c.readValue p.timer).toInt}"]

end Plant

end Rung
