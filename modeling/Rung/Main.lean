import Rung.CommandLine.Transcript
import Rung.Text.Quoted
import Std.Async.Signal

/-!
# The command line program

Reads the arguments, writes what the transcript says, and scans until interrupted when asked to.
-/

namespace Rung.CommandLine

def writeRecord (file : Option IO.FS.Handle) (r : Record) : IO Unit := do
  let line := s!"[{r.level.name}] {r.message}"
  match file with
  | some handle => handle.putStrLn line
  | none => IO.eprintln line

def writeFailure (failure : String) : IO Unit := IO.eprintln ("Error: " ++ Text.quoted failure)

/-- Scans every ten milliseconds until the process is interrupted, and sums up; a scan that traps
ends it with a failure. -/
partial def scanUntilStopped (limit : Level) (file : Option IO.FS.Handle)
    (interrupted : BaseIO Bool) (d : Demo) : IO UInt32 := do
  let d := if ← interrupted then d.requestStop else d
  if d.finished none then
    IO.print d.summary
    return 0
  match d.scan with
  | (d', none) =>
    if d'.scanRecord.within limit then writeRecord file d'.scanRecord
    IO.sleep 10
    scanUntilStopped limit file interrupted d'
  | (_, some trap) =>
    writeFailure ("VM trap: " ++ trap.text)
    return 1

/-- Watches for an interrupt: whether there has been one can be asked at any time. -/
def watchInterrupt : IO (BaseIO Bool) := do
  let waiter ← Std.Async.Signal.Waiter.mk .sigint false
  let signal ← waiter.wait
  return IO.hasFinished signal

/-- Why the system refuses a request, with its error number. -/
def refusalText : IO.Error → String
  | .otherError code details | .resourceBusy code details | .resourceVanished code details
  | .unsupportedOperation code details | .hardwareFault code details
  | .unsatisfiedConstraints code details | .illegalOperation code details
  | .protocolError code details | .timeExpired code details | .alreadyExists _ code details
  | .interrupted _ code details | .noFileOrDirectory _ code details
  | .invalidArgument _ code details | .permissionDenied _ code details
  | .resourceExhausted _ code details | .inappropriateType _ code details
  | .noSuchThing _ code details => s!"{details} (os error {code})"
  | .unexpectedEof => "end of file"
  | .userError message => message

def createLog (path : String) : IO (Except String IO.FS.Handle) := do
  try
    return .ok (← IO.FS.Handle.mk path .write)
  catch e =>
    return .error (refusalText e)

def run (o : Options) : IO UInt32 := do
  let log ← match level? o.verbosity, o.logFile with
    | some _, some path => some <$> createLog path
    | _, _ => pure none
  let told := o.transcript fun _ => match log with
    | some (.error reason) => some reason
    | some (.ok _) | none => none
  let file := match log with
    | some (.ok handle) => some handle
    | some (.error _) | none => none
  for r in told.records do
    writeRecord file r
  IO.print told.output
  if let some failure := told.failure then
    writeFailure failure
  match o.endless?, level? o.verbosity, told.failure with
  | some d, some limit, none =>
    match ← watchInterrupt.toBaseIO with
    | .ok interrupted => scanUntilStopped limit file interrupted d
    | .error e =>
      writeFailure ("Failed to set signal handler: " ++ refusalText e)
      return 1
  | _, _, _ => return told.exitCode

end Rung.CommandLine

open Rung.CommandLine in
def main (arguments : List String) : IO UInt32 := do
  match Options.parse arguments with
  | .ok o => run o
  | .error (.help topic) =>
    IO.print topic.text
    return 0
  | .error stop =>
    IO.eprintln ("error: " ++ stop.text)
    return 2
