import HeapReplay.Cli.Level
import HeapReplay.Graph.Stats
import HeapReplay.Reconstruct

/-!
# The account of a run

While a log is turned into a script, notices say what is being done: which sections are entered and
where the log ends, what was read, how much of it is in use, how long the script is.  The account of
a run that fails is the beginning of the one it would have given: every notice that precedes the
failure, and none after it.

The account only looks on.  It is computed beside the script from the same definitions, and nothing
of the script depends on it.
-/

namespace HeapReplay.Cli

/-- One entry of the account. -/
structure Notice where
  level : Level
  text : String
deriving DecidableEq, Repr

namespace Notice

/-- A notice for those who look for a fault. -/
def debug (text : String) : Notice :=
  { level := .debug, text }

/-- A notice for everyone. -/
def info (text : String) : Notice :=
  { level := .info, text }

/-- The log line of a notice. -/
def line (n : Notice) : String :=
  s!"[{n.level.name}] {n.text}\n"

/-- The notice at the header of a section. -/
def ofHeader? (file : String) (l : Dump.Line) : Option Notice :=
  match l.entry with
  | .header opened =>
    some (debug s!"{(l.location file).text}: entering {opened.name} section")
  | _ => none

/-- The notice at the line that ends a log. -/
def ofTrailer (file : String) (l : Dump.Line) : Notice :=
  debug s!"{(l.location file).text}: stopping at trailing metadata"

/-- The notices about a reader that has read a whole log without a fault. -/
def ofReader (r : Dump.Reader) : List Notice :=
  (if r.weakLines = 0 then [] else [debug s!"ignored {r.weakLines} weak map lines"])
    ++ [info <| s!"parsed {r.graph.nodes.length} nodes, {r.graph.blackRoots.length} black roots, " ++
          s!"{r.graph.grayRoots.length} gray roots"]

/-- The notices about reading a log. -/
def ofReading (file text : String) : List Notice :=
  let lines := Dump.body text
  let progress := Progress.run (Dump.Reader.step file) {} lines
  let taken := Progress.accepted (Dump.Reader.step file) {} lines
  taken.filterMap (ofHeader? file) ++
    match progress.failure with
    | some _ => []
    | none =>
      ((Dump.trailer? text).map (ofTrailer file)).toList ++
        match progress.state.graph.dangling? with
        | some _ => []
        | none => ofReader progress.state

/-- The notice about marking. -/
def ofMarking (m : Marking) : Notice :=
  info s!"marked {m.count} of {m.graph.nodes.length} nodes"

/-- The notices about writing a script. -/
def ofEmission (style : Script.Style) (g : HeapGraph) : List Notice :=
  match (Script.declarations style g).failure with
  | some _ => []
  | none =>
    let emission := Script.emission style g
    debug s!"declared {(Script.emittedNodes g).length} nodes" ::
      match emission.failure with
      | some _ => []
      | none => [info s!"emitted {emission.lines.length} lines"]

/-- The notices about turning a log into a script. -/
def ofReconstruction (style : Script.Style) (file text : String) : List Notice :=
  ofReading file text ++
    match Dump.parse file text with
    | .error _ => []
    | .ok g =>
      match g.mark.toExcept with
      | .error _ => []
      | .ok m => ofMarking m :: ofEmission style m.graph

/-- The notices with the statistics of a graph. -/
def ofStats (s : Stats) : List Notice :=
  s.lines.map info

/-- The notice about the file that a script went to. -/
def ofFile (path : String) : Notice :=
  info s!"script written to '{path}'"

/-- The log lines of those notices that a level lets through. -/
def log (threshold : Level) (notices : List Notice) : String :=
  String.join ((notices.filter (threshold.rank ≤ ·.level.rank)).map line)

end Notice

end HeapReplay.Cli
