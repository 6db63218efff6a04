import Rung.CommandLine.Demo
import Rung.CommandLine.Options

/-!
# What a command line does

The outcome of a command line is a transcript: what goes to standard output, what is logged, and
the failure it ends with, if any. The only question to the world is whether the log file can be
created.

* `level?`: the level that a verbosity turns on;
* `Transcript`, `Options.transcript`;
* `Options.endless?`: the demonstration that runs without end, ready for its first scan.
-/

namespace Rung.CommandLine

def version : String := "0.1.0"

/-- The level of records that a verbosity turns on. -/
def level? : Nat → Option Level
  | 0 => some .error
  | 1 => some .warn
  | 2 => some .info
  | 3 => some .debug
  | 4 => some .trace
  | _ => none

/-- What a command line does. -/
structure Transcript where
  /-- The text on standard output. -/
  output : String := ""
  /-- The records logged. -/
  records : List Record := []
  /-- The log file, once it is created; without one, records go to standard error. -/
  logFile : Option String := none
  failure : Option String := none
  deriving DecidableEq, Repr

namespace Transcript

def limit (t : Transcript) (level : Level) : Transcript :=
  { t with records := t.records.filter (Record.within level) }

def exitCode (t : Transcript) : UInt32 := if t.failure.isSome then 1 else 0

end Transcript

/-- Loads the demonstration and holds its inputs: the transcript so far, and the demonstration
unless that failed. -/
def Demo.prepare (inputs : List UInt32) (listing : Bool) : Transcript × Option Demo :=
  match Demo.load with
  | .error failure => ({ failure := some failure }, none)
  | .ok d =>
    let told : Transcript :=
      { output := if listing then d.listing else "", records := d.loadRecords }
    match d.hold inputs with
    | .error failure => ({ told with failure := some failure }, none)
    | .ok d' => (told, some d')

def Demo.complete (told : Transcript) (d : Demo) (scans : Nat) : Transcript :=
  match d.scanUpTo scans with
  | (d', none) =>
    { told with output := told.output ++ d'.summary, records := told.records ++ d'.scanRecords }
  | (d', some trap) =>
    { told with
      records := told.records ++ d'.scanRecords
      failure := some ("VM trap: " ++ trap.text) }

def Demo.endlessRecord : Record := ⟨.info, "Running until interrupted"⟩

/-- What a task does. A demonstration without end is told up to its first scan. -/
def Task.transcript : Task → Transcript
  | version => { output := "laddervm version " ++ CommandLine.version ++ "\n" }
  | demo scans inputs listing =>
    match Demo.prepare inputs listing, scans with
    | (told, none), _ => told
    | (told, some d), some n => Demo.complete told d n
    | (told, some _), none => { told with records := told.records ++ [Demo.endlessRecord] }

namespace Options

/-- What a command line does, given why a log file of some name cannot be created. -/
def transcript (o : Options) (refusal : String → Option String) : Transcript :=
  match level? o.verbosity with
  | none =>
    { failure := some s!"Verbosity {o.verbosity} is above the maximum of 4 (-vvvv)" }
  | some level =>
    match o.logFile.bind fun path => (refusal path).map fun reason => (path, reason) with
    | some (path, reason) => { failure := some s!"Unable to create log file {path}. {reason}" }
    | none =>
      let told := o.task.transcript
      let configured : Record := ⟨.trace, "Logger verbosity " ++ level.name⟩
      { told with records := configured :: told.records, logFile := o.logFile }.limit level

/-- The demonstration of a command line that asks for one without end. -/
def endless? (o : Options) : Option Demo :=
  match o.task with
  | .demo none inputs listing => (Demo.prepare inputs listing).2
  | .demo (some _) _ _ | .version => none

end Options

end Rung.CommandLine
