import HeapReplay.Address
import HeapReplay.Diagnostic

/-!
# What can go wrong

**Faults** are what a user is told about: a malformed line, a node of unknown kind, an address that
is declared twice or never.  A fault holds its cause, and `Fault.diagnostic` alone decides how the
cause is worded.

**Failures** are all the reasons why an operation does not finish.  Besides a fault there are three:
an element index with more digits than are converted, an id or a position that nothing is stored at,
and a position that no list has.  They have a plain message and no diagnostic.
-/

namespace HeapReplay

/-- What is wrong with the text of one line of a heap log. -/
inductive LineProblem where
  /-- A word that should be an address literal. -/
  | badAddress (text : String)
  /-- A word that should be the letter of a color. -/
  | badColor (text : String)
  /-- The line ends before the named field. -/
  | missingField (field : String)
  /-- An edge before any node. -/
  | unexpectedEdge
  /-- A record before any header. -/
  | outsideSection
deriving DecidableEq, Repr

/-- A problem of the log or of the graph, with where it was met. -/
inductive Fault where
  /-- A line that cannot be read; `line` is its text. -/
  | malformed (problem : LineProblem) (location : Option Location) (line : Option String)
  /-- A type tag and details that fit no kind. -/
  | unknownKind (tag details : String) (location : Option Location)
  /-- A second node with an address that is already taken. -/
  | duplicateAddress (address : Address) (location : Option Location)
  /-- An address that names no node; `context` says what refers to it. -/
  | unresolvedAddress (address : Address) (context : String) (location : Option Location)
deriving DecidableEq, Repr

/-- Why an operation stops. -/
inductive Failure where
  /-- A problem that has a diagnostic. -/
  | fault (fault : Fault)
  /-- An element index of so many digits. -/
  | indexTooLong (digits : Nat)
  /-- An id or a position that is not in the list it points into. -/
  | outOfRange
  /-- A position that is too far from zero to be one in any list. -/
  | notAnOffset
deriving DecidableEq, Repr

namespace LineProblem

/-- The message, the code and the advice for a line that cannot be read. -/
def diagnostic : LineProblem → Diagnostic
  | badAddress text =>
    { message :=
        if "0x".toList.isPrefixOf text.toList then "Can't parse address: " ++ text
        else "Expected address: " ++ text
      code := some "P001"
      help := some "Addresses are hexadecimal literals prefixed with '0x'." }
  | badColor text =>
    { message := "Unrecognised GC log color: " ++ text
      code := some "P002"
      suggestions := some ["Use 'B' for black", "Use 'G' for gray"] }
  | missingField field =>
    { message := "Missing " ++ field
      code := some "P003"
      help := some s!"The line ended before its {field} field." }
  | unexpectedEdge =>
    { message := "Unexpected >"
      code := some "P004"
      help := some
        "Edge lines attach to the most recent node line; none has been seen yet." }
  | outsideSection =>
    { message := "Bad section: line appears before any section header"
      code := some "P005"
      suggestions := some
        ["Start the log with '# Roots.'", "Separate roots and things with '=========='"] }

end LineProblem

namespace Fault

/-- How a fault is reported. -/
def diagnostic : Fault → Diagnostic
  | malformed problem location line =>
    { problem.diagnostic with location := location, sourceLine := line }
  | unknownKind tag details location =>
    { message := s!"Unknown kind: {tag} {details}"
      location := location
      code := some "K001"
      help := some <|
        "Only the fixed set of GC thing kinds can be reconstructed; objects must have the tag " ++
        "'Function' or details ending in '<unknown object>'." }
  | duplicateAddress address location =>
    { message := "Duplicate address: " ++ address.render
      location := location
      code := some "R001"
      help := some "Each GC thing must be declared exactly once in the main section." }
  | unresolvedAddress address context location =>
    { message := s!"Unknown {context} target: " ++ address.render
      location := location
      code := some "R002"
      help := some <|
        "The address is never declared as a node; the dump is truncated or corrupt." }

end Fault

namespace Failure

/-- The largest number of digits of an element index. -/
def maxIndexDigits : Nat := 4300

/-- The message of a failure, without the other parts of a diagnostic. -/
def message : Failure → String
  | fault f => f.diagnostic.message
  | indexTooLong digits =>
    s!"Exceeds the limit ({maxIndexDigits} digits) for integer string conversion: value has " ++
    s!"{digits} digits; use sys.set_int_max_str_digits() to increase the limit"
  | outOfRange => "list index out of range"
  | notAnOffset => "cannot fit 'int' into an index-sized integer"

end Failure

end HeapReplay
