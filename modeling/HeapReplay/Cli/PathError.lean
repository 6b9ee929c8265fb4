import HeapReplay.Text.Quoted

/-!
# Errors of paths

A path that cannot be opened is reported with the number of the error, its wording and the path
between quotes.

**One error names no path.**  That there is no space left turns out only when a file is written,
and by then it is open and no longer known by its path.
-/

namespace HeapReplay.Cli

/-- Why a file cannot be read or written. -/
inductive PathError where
  | notFound
  | noDevice
  | accessDenied
  | notADirectory
  | isADirectory
  | noSpace
  | nameTooLong
deriving DecidableEq, Repr

namespace PathError

/-- All errors of a path. -/
def all : List PathError :=
  [notFound, noDevice, accessDenied, notADirectory, isADirectory, noSpace, nameTooLong]

/-- The number of the error. -/
def number : PathError → Nat
  | notFound => 2
  | noDevice => 6
  | accessDenied => 13
  | notADirectory => 20
  | isADirectory => 21
  | noSpace => 28
  | nameTooLong => 36

/-- The wording of the error. -/
def text : PathError → String
  | notFound => "No such file or directory"
  | noDevice => "No such device or address"
  | accessDenied => "Permission denied"
  | notADirectory => "Not a directory"
  | isADirectory => "Is a directory"
  | noSpace => "No space left on device"
  | nameTooLong => "File name too long"

/-- Whether the message of the error names the path. -/
def namesPath (e : PathError) : Bool :=
  e ≠ noSpace

/-- The message about a path. -/
def message (e : PathError) (path : String) : String :=
  s!"[Errno {e.number}] {e.text}" ++ if e.namesPath then ": " ++ Text.quoted path else ""

end PathError

end HeapReplay.Cli
