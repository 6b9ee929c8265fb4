import HeapReplay.Dump.Line

/-!
# The outline of a heap log

The outline of a log is the sequence of its records, each with the section that it stands in: the
one whose header was met last.  It depends on the lines alone.  Nothing is read here, so a record of
the outline may be malformed; what is not in the outline (headers, comments, empty lines, and all
that follows the trailer) cannot matter to a reader but through the sections and the line numbers.
-/

namespace HeapReplay.Dump

/-- A record and the section that it stands in. -/
structure Placed where
  within : Option Section
  line : Line
deriving DecidableEq, Repr

/-- The records among some lines, where the first line stands in the given section. -/
def outlineFrom (within : Option Section) : List Line → List Placed
  | [] => []
  | l :: rest =>
    match l.entry with
    | .header opened => outlineFrom (some opened) rest
    | .comment => outlineFrom within rest
    | .trailer => []
    | .record => { within, line := l } :: outlineFrom within rest

/-- The records of a log in order. -/
def outline (text : String) : List Placed :=
  outlineFrom none (numberedLines text)

/-- The records of a log that stand in a section. -/
def recordsIn (s : Section) (text : String) : List Line :=
  ((outline text).filter (·.within = some s)).map (·.line)

end HeapReplay.Dump
