/-!
# Diagnostics

Whatever is wrong with a heap log or with the graph read from it is reported as a `Diagnostic`: a
message, where it arose, a code that names the class of the problem, and advice.  The text of a
diagnostic has one line per part that is present, in a fixed order, and ends with a newline.

**Absent and empty are two things.**  An offending line is shown whenever there is one, even an
empty one; a code, an advice or a list of suggestions that is empty is left out as if it were
absent.
-/

namespace HeapReplay

/-- A position in a named log.  Lines and columns count from one. -/
structure Location where
  file : String
  line : Int
  column : Int := 1
deriving DecidableEq, Repr

/-- File, line and column with colons between them. -/
def Location.text (l : Location) : String :=
  s!"{l.file}:{l.line}:{l.column}"

/-- A report of one problem. -/
structure Diagnostic where
  message : String
  location : Option Location := none
  severity : String := "error"
  code : Option String := none
  help : Option String := none
  suggestions : Option (List String) := none
  sourceLine : Option String := none
deriving DecidableEq, Repr

namespace Diagnostic

/-- The class of problems that a code stands for. -/
def categoryOf : String → Option String
  | "P001" => some "Malformed address literal"
  | "P002" => some "Unrecognised GC log color"
  | "P003" => some "Missing required field"
  | "P004" => some "Edge line without a current node"
  | "P005" => some "Line outside of any section"
  | "R001" => some "Duplicate node address"
  | "R002" => some "Unknown edge or root target"
  | "K001" => some "Unknown GC thing kind"
  | _ => none

/-- The class of a diagnostic, if its code is one of the known ones. -/
def category (d : Diagnostic) : Option String :=
  d.code.bind categoryOf

/-- The severity in capitals, with the code in brackets behind it unless that is empty. -/
def heading (d : Diagnostic) : String :=
  d.severity.toUpper ++
    match d.code with
    | none | some "" => ""
    | some code => s!"[{code}]"

/-- The lines of a diagnostic, without their newlines. -/
def parts (d : Diagnostic) : List String :=
  [s!"{d.heading}: {d.message}"]
    ++ (d.location.toList.map fun l => "  --> " ++ l.text)
    ++ (d.sourceLine.toList.map fun s => "   | " ++ s)
    ++ (d.category.toList.map fun c => "  note: " ++ c)
    ++ ((d.help.toList.filter (· ≠ "")).map fun h => "  help: " ++ h)
    ++ match d.suggestions with
      | none | some [] => []
      | some advice => "  suggestions:" :: advice.map fun s => "    - " ++ s

/-- The full text of a diagnostic: each part on a line of its own. -/
def text (d : Diagnostic) : String :=
  String.join (d.parts.map (· ++ "\n"))

end Diagnostic

end HeapReplay
