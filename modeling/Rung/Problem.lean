/-!
# The catalogue of problems

Every problem a ladder program can have, with its stable code and its general description.
-/

namespace Rung

inductive Problem where
  /-- An allocator cannot issue the address asked for. -/
  | allocationOverflow
  /-- An action names a device it cannot drive. Circuits name outputs, so none of them has it. -/
  | capabilityViolation
  /-- The code of a circuit is not balanced. -/
  | stackInvariantViolation
  /-- Two units of a program have one name. -/
  | unitNameDuplicated
  /-- A bit lies outside its word. -/
  | bitIndexOutOfRange
  /-- Two ranges of a unit overlap. -/
  | addressRangeOverlap
  deriving DecidableEq, Repr

namespace Problem

def code : Problem → String
  | allocationOverflow => "P0001"
  | capabilityViolation => "P0002"
  | stackInvariantViolation => "P0003"
  | unitNameDuplicated => "P0004"
  | bitIndexOutOfRange => "P0005"
  | addressRangeOverlap => "P0006"

/-- What the problem is, whatever the place it arises at. -/
def description : Problem → String
  | allocationOverflow => "Device allocator has no address available for the request"
  | capabilityViolation => "Action target is not a device that can be driven as an output"
  | stackInvariantViolation => "Compiled circuit block does not leave the stacks balanced"
  | unitNameDuplicated => "Logic unit name is already defined in the program"
  | bitIndexOutOfRange => "Bit index is outside the width of the memory word"
  | addressRangeOverlap => "Allocator address range overlaps a range already registered in the unit"

end Problem

end Rung
