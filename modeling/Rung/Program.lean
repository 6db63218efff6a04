import Rung.Allocator
import Rung.Circuit

/-!
# Logic units and programs

A logic unit is an ordered list of circuits with one device-address namespace: the ranges of the
allocators registered with it do not overlap. A program is a set of units under distinct names,
ordered by name.

* `LogicUnit`, `LogicUnit.register`, `LogicUnit.add`;
* `Program`, `Program.add`: the first unit under a name stays.
-/

namespace Rung

/-- A named list of circuits that share one device-address namespace. -/
structure LogicUnit where
  name : String
  circuits : List Circuit := []
  /-- The registered ranges, in order of registration. -/
  ranges : List AddressRange := []
  deriving DecidableEq, Repr

namespace LogicUnit

def overlap (u : LogicUnit) (range registered : AddressRange) : Diagnostic :=
  let taken : Diagnostic :=
    { problem := .addressRangeOverlap,
      primary := ⟨.unit u.name, "Allocator range is already in use"⟩ }
  ((taken.describe "range" range.text).describe "registered" registered.text).relate
    ⟨.allocator registered.name registered.origin.toNat, "Range registered here"⟩

/-- Takes over the range of an allocator, refused when it overlaps a registered one. The first
range it overlaps is reported. -/
def register (u : LogicUnit) (range : AddressRange) : LogicUnit × Option Diagnostic :=
  match u.ranges.find? fun registered => registered.overlaps range with
  | some registered => (u, some (u.overlap range registered))
  | none => ({ u with ranges := u.ranges ++ [range] }, none)

/-- Takes over ranges in order, up to the first that is refused. -/
def registerAll (u : LogicUnit) : List AddressRange → LogicUnit × Option Diagnostic
  | [] => (u, none)
  | range :: ranges =>
    match u.register range with
    | (u', none) => u'.registerAll ranges
    | (u', some d) => (u', some d)

def add (u : LogicUnit) (c : Circuit) : LogicUnit := { u with circuits := u.circuits ++ [c] }

def comments (u : LogicUnit) : List Comment := u.ranges.flatMap AddressRange.comments

end LogicUnit

/-- Logic units under distinct names. -/
structure Program where
  name : String
  units : Std.ExtTreeMap String LogicUnit compare := ∅
  deriving DecidableEq

namespace Program

def duplicate (p : Program) (name : String) : Diagnostic :=
  let taken : Diagnostic :=
    { problem := .unitNameDuplicated, primary := ⟨.unit name, "Unit name is already used"⟩ }
  taken.describe "program" p.name

/-- Adds a unit under a name, refused when the name is taken. -/
def add (p : Program) (name : String) (u : LogicUnit) : Program × Option Diagnostic :=
  if p.units.contains name then (p, some (p.duplicate name))
  else ({ p with units := p.units.insert name u }, none)

def unit? (p : Program) (name : String) : Option LogicUnit := p.units[name]?

/-- The units with the names they were added under, in ascending order of name. -/
def unitList (p : Program) : List (String × LogicUnit) := p.units.toList

def comments (p : Program) : List (String × Comment) :=
  p.unitList.flatMap fun (name, u) => u.comments.map fun c => (name, c)

end Program

end Rung
