/-!
# Identifiers

The names that a script is written with are identifiers of the script's language, of ASCII
characters only: letters, digits, underscores and dollar signs, with no digit in front.

**One newline is overlooked.**  A single newline at the end of a text does not keep it from being
accepted as an identifier, although it is not a part of one.  `isIdentifier` is the exact notion,
`endsAsIdentifier` the one that names are checked by.
-/

namespace HeapReplay.Text

/-- A character that an identifier can begin with. -/
def isIdentifierStart (c : Char) : Bool :=
  c.isAlpha || c == '_' || c == '$'

/-- A character that an identifier can go on with. -/
def isIdentifierPart (c : Char) : Bool :=
  isIdentifierStart c || c.isDigit

/-- Whether the characters are an identifier and nothing else. -/
def isIdentifier : List Char → Bool
  | [] => false
  | c :: cs => isIdentifierStart c && cs.all isIdentifierPart

/-- Whether the characters are an identifier, with at most one newline behind it. -/
def endsAsIdentifier (cs : List Char) : Bool :=
  isIdentifier cs || (cs.getLast? == some '\n' && isIdentifier cs.dropLast)

/-- What is added to an identifier keeps it one if it consists of identifier characters. -/
theorem isIdentifier_append {cs ds : List Char} (hc : isIdentifier cs = true)
    (hd : ds.all isIdentifierPart = true) : isIdentifier (cs ++ ds) = true := by
  cases cs with
  | nil => simp [isIdentifier] at hc
  | cons c cs =>
    simp only [isIdentifier, List.cons_append, List.all_append, Bool.and_eq_true] at hc ⊢
    exact ⟨hc.1, hc.2, hd⟩

end HeapReplay.Text
