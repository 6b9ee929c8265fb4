import HeapReplay.Cli.Folder
import HeapReplay.Cli.Help
import HeapReplay.Cli.Notice
import HeapReplay.Text.Utf8

/-!
# Running the command

The command takes its arguments, reads the dump, and writes the script.  What it does with the files
is kept apart from what it computes: `Options.run` is told what reading the dump and writing the
output gave, and its `Report` says what is to be printed and written.

**All or nothing.**  Without a script nothing is printed or written but messages.  With one, it goes
to one place only, the file if there is one and the standard output otherwise.

**Two kinds of bad endings.**  A dump that cannot be read or makes no sense is reported and gives the
status 1.  An ending that nobody has provided for is a `Crash`: a level that does not exist, a name
that no file can have, an output that cannot be written, and a failure without a diagnostic.
-/

namespace HeapReplay.Cli

/-- What the command has not provided for. -/
inductive Crash where
  /-- The option for the log level was left without a value. -/
  | levelMissing
  | levelUnknown (text : String)
  /-- The name of a file holds the character that ends it. -/
  | nulInName
  | outputNotWritten (path : String) (error : PathError)
  | failure (failure : Failure)
deriving DecidableEq, Repr

/-- The message of a crash. -/
def Crash.message : Crash → String
  | levelMissing => "'list' object has no attribute 'upper'"
  | levelUnknown text => "Invalid log level: " ++ text
  | nulInName => "embedded null byte"
  | outputNotWritten path e => e.message path
  | failure f => f.message

/-- How a run ends. -/
inductive Ending where
  /-- The command has done its work, or has said why not. -/
  | status (code : Nat)
  /-- The arguments alone have decided. -/
  | exit (code : Nat)
  | crash (crash : Crash)
deriving DecidableEq, Repr

/-- What a run does. -/
structure Report where
  ending : Ending
  /-- What goes to the standard output. -/
  out : String := ""
  /-- What goes to the standard error, log lines and messages in order. -/
  err : String := ""
  /-- The path of the file to write and its content. -/
  file : Option (String × String) := none
deriving DecidableEq, Repr

/-- Why the text of a dump is not available. -/
inductive ReadError where
  | path (error : PathError)
  | encoding (fault : Text.Utf8.Fault)
deriving DecidableEq, Repr

/-- The message about a dump that cannot be read. -/
def ReadError.message (path : String) (e : ReadError) : String :=
  let cause :=
    match e with
    | .path error => error.message path
    | .encoding fault => fault.message
  s!"ERROR: can't read heap log '{path}': {cause}\n"

/-- The text of a dump: its bytes decoded, with all newlines alike. -/
def dumpText (bytes : Except PathError (List UInt8)) : Except ReadError String :=
  match bytes with
  | .error e => .error (.path e)
  | .ok bytes =>
    match Text.Utf8.decode bytes with
    | .error fault => .error (.encoding fault)
    | .ok cs => .ok (String.ofList (Text.unifyNewlines cs))

/-- Whether no file can have the name. -/
def holdsNul (path : String) : Bool :=
  path.toList.contains '\x00'

namespace Options

/-- The level at which notices are shown.  Statistics are notices, so asking for them lowers it. -/
def threshold (o : Options) : Except Crash Level :=
  match o.level with
  | none => .error .levelMissing
  | some text =>
    match Level.ofName? text with
    | none => .error (.levelUnknown text)
    | some level => .ok (if o.stats then level.lower .info else level)

/-- Whether a run comes as far as opening the dump. -/
def opensDump (o : Options) : Bool :=
  o.threshold.isOk && !holdsNul o.dump

/-- The style of the script. -/
def style (o : Options) : Script.Style :=
  { wrapped := o.wrapped }

/-- The file for the script; an empty path is none. -/
def file? (o : Options) : Option String :=
  o.output.filter (· ≠ "")

/-- Hands over a script.  `notices` is the account so far, and `written` what writing the output
gave. -/
def deliver (o : Options) (threshold : Level) (notices : List Notice) (script : String)
    (written : Except PathError Unit) : Report :=
  match o.file? with
  | none => { ending := .status 0, out := script, err := Notice.log threshold notices }
  | some path =>
    if holdsNul path then
      { ending := .crash .nulInName, err := Notice.log threshold notices }
    else
      match written with
      | .error e =>
        { ending := .crash (.outputNotWritten path e), err := Notice.log threshold notices }
      | .ok _ =>
        { ending := .status 0
          err := Notice.log threshold (notices ++ [Notice.ofFile path])
          file := some (path, script) }

/-- Makes the script of a dump and hands it over. -/
def runOn (o : Options) (threshold : Level) (text : String) (written : Except PathError Unit) :
    Report :=
  let notices := Notice.ofReconstruction o.style o.dump text
  let failed (failure : Failure) : Report :=
    match failure with
    | .fault fault =>
      { ending := .status 1, err := Notice.log threshold notices ++ fault.diagnostic.text }
    | other => { ending := .crash (.failure other), err := Notice.log threshold notices }
  match buildGraph o.dump text with
  | .error failure => failed failure
  | .ok g =>
    match Script.render o.style g with
    | .error failure => failed failure
    | .ok script =>
      let counts := if o.stats then Notice.ofStats g.stats else []
      o.deliver threshold (notices ++ counts) script written

/-- Runs the command.  `bytes` is what reading the dump gave, `written` what writing the output
gave. -/
def run (o : Options) (bytes : Except PathError (List UInt8)) (written : Except PathError Unit) :
    Report :=
  match o.threshold with
  | .error crash => { ending := .crash crash }
  | .ok threshold =>
    if holdsNul o.dump then { ending := .crash .nulInName }
    else
      match dumpText bytes with
      | .error e => { ending := .status 1, err := e.message o.dump }
      | .ok text => o.runOn threshold text written

end Options

/-- What is done about arguments that ask for no run. -/
def Stop.report : Stop → Report
  | help => { ending := .exit 0, out := helpText }
  | usage e => { ending := .exit 2, err := e.text }

/-- What writing the output gives in a folder. -/
def Options.writtenIn (o : Options) (d : Folder) : Except PathError Unit :=
  match o.file? with
  | none => .ok ()
  | some path => (d.target path).map fun _ => ()

/-- Runs the command in a folder. -/
def run (d : Folder) (arguments : List String) : Report :=
  match Options.parse arguments with
  | .error stop => stop.report
  | .ok o => o.run (d.read o.dump) (o.writtenIn d)

/-- The folder after a run. -/
def Report.folderAfter (r : Report) (d : Folder) : Folder :=
  match r.file with
  | none => d
  | some (path, text) => d.put path text.toUTF8.toList

/-- The files that a run has made or changed, by name. -/
def Report.changed (r : Report) (d : Folder) : List (String × List UInt8) :=
  ((r.folderAfter d).files.filter fun (name, content) => d.find? name ≠ some content).mergeSort
    fun a b => a.1 ≤ b.1

end HeapReplay.Cli
