import Rung.Compile

/-!
# Log records

What happens while a program is built, compiled and run is told in records, each at a level. The
records of an event are a function of what the event handled.

* `Level`, `Record`;
* `Record.allocated`, `Record.registered`, `Record.unitCompiled`, `Record.programCompiled`,
  `Record.scanned`: the records of each event.
-/

namespace Rung

/-- The level of a record, from the gravest on. -/
inductive Level where
  | error
  | warn
  | info
  | debug
  | trace
  deriving DecidableEq, Repr

namespace Level

def name : Level → String
  | error => "ERROR"
  | warn => "WARN"
  | info => "INFO"
  | debug => "DEBUG"
  | trace => "TRACE"

/-- How many levels are graver. -/
def rank : Level → Nat
  | error => 0
  | warn => 1
  | info => 2
  | debug => 3
  | trace => 4

end Level

structure Record where
  level : Level
  message : String
  deriving DecidableEq, Repr

namespace Record

def text (r : Record) : String := r.level.name ++ " " ++ r.message

/-- Whether a record is at a level or graver. -/
def within (limit : Level) (r : Record) : Bool := r.level.rank ≤ limit.rank

def allocated (tag : Tag) : Record := ⟨.trace, "Allocated " ++ tag.text⟩

def registered (range : AddressRange) (unit : String) : Record :=
  ⟨.trace, s!"Registered {range.text} with unit '{unit}'"⟩

def compiling (name : String) (u : LogicUnit) : List Record :=
  ⟨.debug, s!"Compiling unit '{name}' ({u.circuits.length} circuits)"⟩ ::
    u.circuits.mapIdx fun index c => ⟨.trace, s!"Compiling {name}#{index}: {c.text}"⟩

def compiled (s : Sequence) : Record :=
  ⟨.debug, s!"Compiled {s.commands.length} commands (primary depth {s.depth.primary}, " ++
    s!"secondary depth {s.depth.secondary})"⟩

def unitCompiled (u : LogicUnit) (s : Sequence) : List Record :=
  compiling u.name u ++ [compiled s]

def programCompiled (p : Program) (s : Sequence) : List Record :=
  ⟨.debug, s!"Compiling program '{p.name}' with {p.unitList.length} units"⟩ ::
    (p.unitList.flatMap fun (name, u) => compiling name u) ++ [compiled s]

/-- A scan was completed; the count includes it. -/
def scanned (count : Nat) (s : Sequence) : Record :=
  ⟨.trace, s!"Scan {count} complete ({s.commands.length} commands)"⟩

end Record

end Rung
