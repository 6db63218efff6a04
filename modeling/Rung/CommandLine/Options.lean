import Rung.Text.Decimal

/-!
# Reading the command line

    laddervm [-v]... [-l FILE] demo [--scans N] [--input ADDR]... [--listing]
    laddervm [-v]... [-l FILE] version

The arguments are read one by one. An option that takes a value takes it from its own argument
(`--scans=5`, `-lFILE`, `-l=FILE`) or else from the next one, which must not look like an option.
Each option belongs to the program or to its task, and all but `-v` and `--input` occur once. After
a lone `--` no argument may follow.

A value in its own option's argument is checked at once. A value in an argument of its own is held,
and checked when the next option of the program or of the same task is met, or at the end. Asking
for help on a task therefore comes before the check of a log file held when the task began.

* `Task`, `Options`, `Stop`;
* `Reader`, `Reader.settle`, `Reader.feed`, `Reader.finish`;
* `Options.parse`.
-/

namespace Rung.CommandLine

inductive Task where
  /-- Runs the motor plant for some scans, or without end, with some inputs held ON. -/
  | demo (scans : Option Nat) (inputs : List UInt32) (listing : Bool)
  /-- Prints the version. -/
  | version
  deriving DecidableEq, Repr

structure Options where
  verbosity : Nat
  logFile : Option String
  task : Task
  deriving DecidableEq, Repr

inductive Topic where
  | program
  | demo
  | version
  | help
  deriving DecidableEq, Repr

inductive ValueOption where
  | logFile
  | scans
  | input
  deriving DecidableEq, Repr

def ValueOption.text : ValueOption → String
  | logFile => "--log-file"
  | scans => "--scans"
  | input => "--input"

/-- Why no options come of the arguments. -/
inductive Stop where
  | help (topic : Topic)
  | unexpected (argument : String)
  | missingValue (option : ValueOption)
  | invalidValue (option : ValueOption) (value : String)
  | repeated (option : String)
  | missingTask
  deriving DecidableEq, Repr

def Stop.text : Stop → String
  | help _ => "help was asked for"
  | unexpected argument => s!"unexpected argument '{argument}' found"
  | missingValue option => s!"a value is required for '{option.text}' but none was supplied"
  | invalidValue option value => s!"invalid value '{value}' for '{option.text}'"
  | repeated option => s!"the argument '{option}' cannot be used multiple times"
  | missingTask => "a subcommand is required but one was not provided"

/-- What has been read so far. -/
structure Reader where
  verbosity : Nat := 0
  logFile : Option String := none
  task : Option Task := none
  /-- The option whose value is the next argument. -/
  pending : Option ValueOption := none
  /-- The values read but not yet checked, with their options. -/
  held : List (ValueOption × String) := []
  /-- Whether a lone `--` has been read. -/
  closed : Bool := false
  /-- What help has been asked about, by the word `help`. -/
  asking : Option Topic := none
  deriving DecidableEq, Repr

namespace Reader

/-- The topic that help is about at this point. -/
def topic (r : Reader) : Topic :=
  match r.task with
  | none => .program
  | some (.demo _ _ _) => .demo
  | some .version => .version

/-- Counts one more `-v`, up to 255. -/
def raise (r : Reader) : Reader := { r with verbosity := min (r.verbosity + 1) 255 }

/-- Takes the value of an option: a file name that is not empty, a number of scans of at most 64
bits, or a 32-bit address. -/
def take (r : Reader) (option : ValueOption) (value : String) : Except Stop Reader :=
  match option, r.task with
  | .logFile, _ =>
    if r.logFile.isSome then .error (.repeated option.text)
    else if value.isEmpty then .error (.invalidValue option value)
    else .ok { r with logFile := some value }
  | .scans, some (.demo scans inputs listing) =>
    if scans.isSome then .error (.repeated option.text)
    else
      match Text.unsigned? value.toList with
      | some n =>
        if n < UInt64.size then .ok { r with task := some (.demo (some n) inputs listing) }
        else .error (.invalidValue option value)
      | none => .error (.invalidValue option value)
  | .input, some (.demo scans inputs listing) =>
    match Text.signed? value.toList with
    | some n =>
      if 0 ≤ n ∧ n.toNat < UInt32.size then
        .ok { r with task := some (.demo scans (inputs ++ [UInt32.ofNat n.toNat]) listing) }
      else .error (.invalidValue option value)
    | none => .error (.invalidValue option value)
  | _, _ => .error (.unexpected option.text)

/-- Holds the value that an option waits for. -/
def hold (r : Reader) (option : ValueOption) (value : String) : Reader :=
  { r with pending := none, held := r.held ++ [(option, value)] }

def takeAll (r : Reader) (values : List (ValueOption × String)) : Except Stop Reader :=
  values.foldlM (fun r (option, value) => r.take option value) r

/-- Takes the values held for what is being read, the program or its task. -/
def settle (r : Reader) : Except Stop Reader :=
  let (now, later) := r.held.partition fun (option, _) => r.task.isNone || option ≠ .logFile
  { r with held := later }.takeAll now

/-- Takes the value of an option if it is there, or waits for it. -/
def await (r : Reader) (option : ValueOption) : Option String → Except Stop Reader
  | some value => r.take option value
  | none => .ok { r with pending := some option }

/-- Reads a long option: its name, and the value that follows an equals sign. -/
def long (r : Reader) (argument name : String) (value : Option String) : Except Stop Reader :=
  match r.task, name, value with
  | none, "verbose", none => .ok r.raise
  | none, "log-file", _ => r.await .logFile value
  | some (.demo _ _ _), "scans", _ => r.await .scans value
  | some (.demo _ _ _), "input", _ => r.await .input value
  | some (.demo scans inputs listing), "listing", none =>
    if listing then .error (.repeated argument)
    else .ok { r with task := some (.demo scans inputs true) }
  | _, "help", none => .error (.help r.topic)
  | _, _, _ => .error (.unexpected argument)

def short (r : Reader) (argument : String) : List Char → Except Stop Reader
  | [] => .ok r
  | 'h' :: _ => .error (.help r.topic)
  | 'v' :: cs => if r.task.isNone then r.raise.short argument cs else .error (.unexpected argument)
  | 'l' :: cs =>
    if r.task.isSome then .error (.unexpected argument)
    else
      match cs with
      | [] => r.await .logFile none
      | '=' :: value => r.await .logFile (some (String.ofList value))
      | value => r.await .logFile (some (String.ofList value))
  | _ :: _ => .error (.unexpected argument)

def plain (r : Reader) (argument : String) : Except Stop Reader :=
  match r.task, argument with
  | none, "demo" => .ok { r with task := some (.demo none [] false) }
  | none, "version" => .ok { r with task := some .version }
  | none, "help" => .ok { r with asking := some .program }
  | _, _ => .error (.unexpected argument)

def feed (r : Reader) (argument : String) : Except Stop Reader :=
  match r.asking, argument with
  | some .program, "demo" => .ok { r with asking := some .demo }
  | some .program, "version" => .ok { r with asking := some .version }
  | some .program, "help" => .ok { r with asking := some .help }
  | some _, _ => .error (.unexpected argument)
  | none, _ =>
    if r.closed then .error (.unexpected argument)
    else
      match argument.toList, r.pending with
      | ['-'], some option => .ok (r.hold option argument)
      | '-' :: _ :: _, some option => .error (.missingValue option)
      | ['-', '-'], none => .ok { r with closed := true }
      | '-' :: '-' :: cs, none => do
        let name := cs.takeWhile (· != '=')
        let value := match cs.dropWhile (· != '=') with
          | [] => none
          | _ :: value => some (String.ofList value)
        (← r.settle).long argument (String.ofList name) value
      | '-' :: c :: cs, none => do (← r.settle).short argument (c :: cs)
      | _, some option => .ok (r.hold option argument)
      | _, none => r.plain argument

def finish (r : Reader) : Except Stop Options := do
  if let some topic := r.asking then throw (.help topic)
  if let some option := r.pending then throw (.missingValue option)
  let r ← r.takeAll r.held
  match r.task with
  | some task => return { verbosity := r.verbosity, logFile := r.logFile, task }
  | none => throw .missingTask

end Reader

def Options.parse (arguments : List String) : Except Stop Options := do
  let r ← arguments.foldlM Reader.feed {}
  r.finish

def Topic.lines : Topic → List String
  | program =>
    ["Ladder logic stack machine", "", "Usage: laddervm [OPTIONS] <COMMAND>", "", "Commands:",
      "  demo     Compiles and runs the bundled motor start/stop program",
      "  version  Prints the version number of the virtual machine",
      "  help     Print this message or the help of the given subcommand(s)", "", "Options:",
      "  -v, --verbose...           Turn on verbose logging. Repeat to increase verbosity",
      "  -l, --log-file <LOG_FILE>  Sets the logging to write to a file",
      "  -h, --help                 Print help"]
  | demo =>
    ["Compiles and runs the bundled motor start/stop program", "",
      "Usage: laddervm demo [OPTIONS]", "", "Options:",
      "      --scans <SCANS>  Run N scans then stop (default: continuous until Ctrl+C)",
      "      --input <ADDR>   Address of an input (X) to hold ON. Repeat for several inputs",
      "      --listing        Print the compiled command listing before running",
      "  -h, --help           Print help"]
  | version =>
    ["Prints the version number of the virtual machine", "", "Usage: laddervm version", "",
      "Options:", "  -h, --help  Print help"]
  | help =>
    ["Print this message or the help of the given subcommand(s)", "",
      "Usage: laddervm help [COMMAND]...", "", "Arguments:",
      "  [COMMAND]...  Print help for the subcommand(s)"]

def Topic.text (t : Topic) : String := String.join (t.lines.map fun line => line ++ "\n")

end Rung.CommandLine
