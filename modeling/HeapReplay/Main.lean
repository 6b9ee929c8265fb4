import HeapReplay.Cli.Run

/-!
# The command

The outer layer: it reads the dump, lets `Options.run` decide, and prints and writes what the report
says.  An output that cannot be written is found out only when there is a script for it; the run is
then decided once more with that knowledge.
-/

namespace HeapReplay.Cli

/-- The path error with a number of the operating system, which some systems give as a negative
one. -/
def PathError.ofCode? (code : UInt32) : Option PathError :=
  PathError.all.find? (·.number = code.toInt32.toInt.natAbs)

/-- The path error behind an error of the operating system. -/
def PathError.ofIO? : IO.Error → Option PathError
  | .noFileOrDirectory _ code _ | .inappropriateType _ code _ | .invalidArgument _ code _
  | .permissionDenied _ code _ | .noSuchThing _ code _ | .resourceExhausted _ code _ =>
    PathError.ofCode? code
  | _ => none

/-- Runs an action on a file and keeps the errors that paths can have. -/
def openingPath {α : Type} (action : IO α) : IO (Except PathError α) := do
  try
    return .ok (← action)
  catch e =>
    match PathError.ofIO? e with
    | some pathError => return .error pathError
    | none => throw e

/-- Writes a text to a file.  Only when all of it has left the process is it known to be written. -/
def writeText (path text : String) : IO Unit :=
  IO.FS.withFile path .write fun file => do
    file.putStr text
    file.flush

/-- Prints what a report says and gives the status of the process. -/
def Report.print (r : Report) : IO UInt32 := do
  IO.print r.out
  IO.eprint r.err
  match r.ending with
  | .status code | .exit code => return code.toUInt32
  | .crash crash =>
    IO.eprintln crash.message
    return 1

/-- Runs the command on the files of the process. -/
def runProcess (arguments : List String) : IO UInt32 := do
  match Options.parse arguments with
  | .error stop => stop.report.print
  | .ok o =>
    let bytes ←
      if o.opensDump then openingPath do return (← IO.FS.readBinFile o.dump).toList
      else pure (.ok [])
    let report := o.run bytes (.ok ())
    match report.file with
    | none => report.print
    | some (path, text) =>
      match ← openingPath (writeText path text) with
      | .ok _ => report.print
      | .error e => (o.run bytes (.error e)).print

end HeapReplay.Cli

def main (arguments : List String) : IO UInt32 :=
  HeapReplay.Cli.runProcess arguments
