import HeapReplay.Numeral
import HeapReplay.Script.Statement
import HeapReplay.Text.Identifier

/-!
# Reading a script

Each line of a script is one statement, and the statement can be told from the line.  The forms are
kept apart by their fixed characters: two of them open with a word and a space, which no other line
has, and the others open with a name that a point, a bracket or a pair of parentheses ends.

Names are read as far as identifiers reach and numbers as far as digits reach, so it does not matter
what a name ends in or how long a number is.

**Not every identifier is a variable.**  The words that the language keeps for itself can be names
of properties, but nothing can be declared, read or called by them.
-/

namespace HeapReplay.Script

/-- What follows some fixed characters. -/
def expect? (fixed cs : List Char) : Option (List Char) :=
  if fixed.isPrefixOf cs then some (cs.drop fixed.length) else none

/-- An identifier and what follows it. -/
def identifier? (cs : List Char) : Option (String × List Char) :=
  let word := cs.takeWhile Text.isIdentifierPart
  if Text.isIdentifier word then
    some (String.ofList word, cs.dropWhile Text.isIdentifierPart)
  else none

/-- The identifiers that name no variable and no function, in every script that is no module. -/
def reservedWords : List String :=
  ["break", "case", "catch", "class", "const", "continue", "debugger", "default", "delete", "do",
    "else", "enum", "export", "extends", "false", "finally", "for", "function", "if", "import",
    "in", "instanceof", "new", "null", "return", "super", "switch", "this", "throw", "true", "try",
    "typeof", "var", "void", "while", "with"]

/-- The name of a variable or a function and what follows it. -/
def reference? (cs : List Char) : Option (String × List Char) :=
  (identifier? cs).filter fun p => !reservedWords.contains p.1

/-- A decimal number and what follows it. -/
def number? (cs : List Char) : Option (Nat × List Char) :=
  (Numeral.read? 10 (cs.takeWhile Char.isDigit)).map (·, cs.dropWhile Char.isDigit)

/-- A variable that a semicolon and nothing else follows. -/
def lastReference? (cs : List Char) : Option String := do
  let (name, rest) ← reference? cs
  if rest = [';'] then some name else none

/-- One property of an object with its placeholder. -/
def property? (cs : List Char) : Option String := do
  let (name, rest) ← identifier? cs
  if rest = [':', '0'] then some name else none

/-- The properties between the braces of an object. -/
def properties? (cs : List Char) : Option (List String) :=
  if cs.isEmpty then some [] else (cs.splitOn ',').mapM property?

/-- A declaration, from what follows its opening word. -/
def declaration? (cs : List Char) : Option Statement := do
  let (name, rest) ← reference? cs
  match rest with
  | '=' :: '\x22' :: rest => do
    let (content, rest) ← number? rest
    if rest = ['\x22', ';'] then some (.declareString name content) else none
  | '=' :: '\x7b' :: rest => do
    let properties ← properties? (rest.takeWhile (· ≠ '\x7d'))
    if rest.dropWhile (· ≠ '\x7d') = ['\x7d', ';'] then some (.declareObject name properties)
    else none
  | _ => none

/-- The declaration of a symbol, from what follows its opening word. -/
def symbolDeclaration? (cs : List Char) : Option Statement := do
  let (name, rest) ← reference? cs
  if rest = "=Symbol();".toList then some (.declareSymbol name) else none

/-- A number in brackets and the variable that an equals sign assigns to it. -/
def place? (cs : List Char) : Option (Nat × String) := do
  let (n, rest) ← number? (← expect? ['['] cs)
  let target ← lastReference? (← expect? [']', '='] rest)
  some (n, target)

/-- An assignment. -/
def assignment? (cs : List Char) : Option Statement := do
  let (name, rest) ← reference? cs
  match rest with
  | '.' :: rest => do
    let (property, rest) ← identifier? rest
    let target ← lastReference? (← expect? ['='] rest)
    some (.setProperty name property target)
  | '(' :: ')' :: rest => do
    let (position, target) ← place? rest
    some (.setRoot name position target)
  | _ => do
    let (index, target) ← place? rest
    some (.setElement name index target)

/-- The statement that a line is, if it is one. -/
def Statement.read? (line : String) : Option Statement :=
  if line = openFunction.text then some openFunction
  else if line = closeFunction.text then some closeFunction
  else if line = blank.text then some blank
  else
    match expect? "let ".toList line.toList with
    | some rest => declaration? rest
    | none =>
      match expect? "const ".toList line.toList with
      | some rest => symbolDeclaration? rest
      | none => assignment? line.toList

end HeapReplay.Script
