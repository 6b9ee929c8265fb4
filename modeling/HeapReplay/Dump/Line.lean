import HeapReplay.Text.Lines

/-!
# Lines of a heap log

A heap log is a sequence of lines.  Empty ones count for line numbers and for nothing else.  Any
other line is exactly one of four things: the **header** of a section, the **trailer** at which the
log ends, a **comment**, or a **record** of the section it stands in.

Two of the three headers begin with the comment character, so headers are recognised first.
-/

namespace HeapReplay.Dump

/-- The parts of a heap log. -/
inductive Section where
  | roots
  | weakMaps
  | main
deriving DecidableEq, Repr

/-- The name of a section in messages. -/
def Section.name : Section → String
  | roots => "roots"
  | weakMaps => "weakmaps"
  | main => "main"

/-- The line that opens a section. -/
def Section.header : Section → String
  | roots => "# Roots."
  | weakMaps => "# Weak maps."
  | main => "=========="

/-- The section that a line opens. -/
def Section.ofHeader? : String → Option Section
  | "# Roots." => some roots
  | "# Weak maps." => some weakMaps
  | "==========" => some main
  | _ => none

theorem Section.ofHeader?_header (s : Section) : ofHeader? s.header = some s := by
  cases s <;> rfl

/-- What a line of a log is. -/
inductive Entry where
  | header (opened : Section)
  | comment
  | trailer
  | record
deriving DecidableEq, Repr

/-- What the text of a line says that it is. -/
def Entry.ofText (text : String) : Entry :=
  match Section.ofHeader? text with
  | some s => .header s
  | none =>
    if text.toList.head? = some '#' then .comment
    else if text = "\x7b" then .trailer
    else .record

/-- A line of a log with its number. -/
structure Line where
  number : Nat
  text : String
deriving DecidableEq, Repr

namespace Line

/-- What the line is. -/
def entry (l : Line) : Entry :=
  Entry.ofText l.text

end Line

/-- The lines of a log that are not empty, numbered from one. -/
def numberedLines (text : String) : List Line :=
  ((Text.lines text).zipIdx 1).filterMap fun (line, number) =>
    if line = "" then none else some { number, text := line }

/-- The lines of a log before its trailer. -/
def body (text : String) : List Line :=
  (numberedLines text).takeWhile (·.entry ≠ .trailer)

/-- The line at which a log ends, if data that is not part of the log follows. -/
def trailer? (text : String) : Option Line :=
  (numberedLines text).find? (·.entry = .trailer)

end HeapReplay.Dump
