import HeapReplay.Dump.Line
import HeapReplay.Graph

/-!
# Records of a heap log

A record is a line cut into words.  What the words mean depends on the section alone:

* a **root** is an address, a color and a name;
* a **node** is an address, a color, a type tag and details;
* an **edge** is the marker `>`, a target address, a word that is ignored, and a name.

Names and details are all the remaining words, joined again, so inner and trailing spaces survive.
The words are checked from left to right, and the first one that is missing or malformed is
reported.
-/

namespace HeapReplay

/-- The letter that stands for a color. -/
def Color.letter : Color → String
  | black => "B"
  | gray => "G"

/-- The color that a word stands for. -/
def Color.ofLetter? : String → Option Color
  | "B" => some black
  | "G" => some gray
  | _ => none

theorem Color.ofLetter?_letter (c : Color) : ofLetter? c.letter = some c := by
  cases c <;> rfl

namespace Dump

/-- The first word of an edge. -/
def edgeMarker : String := ">"

/-- An address literal. -/
def readAddress (word : String) : Except LineProblem Address :=
  match Address.parse? word with
  | some a => .ok a
  | none => .error (.badAddress word)

/-- The letter of a color. -/
def readColor (word : String) : Except LineProblem Color :=
  match Color.ofLetter? word with
  | some c => .ok c
  | none => .error (.badColor word)

/-- An address and a color, and the words behind them. -/
def readHead (words : List String) : Except LineProblem (Address × Color × List String) := do
  let address ← readAddress (words.headD "")
  match words.tail with
  | [] => .error (.missingField "color")
  | word :: rest => return (address, ← readColor word, rest)

/-- A root. -/
def readRoot (words : List String) : Except LineProblem Root := do
  let (address, color, rest) ← readHead words
  return { address, color, name := Text.unwords rest }

/-- A node as it is written, before its kind is known. -/
structure NodeRecord where
  address : Address
  color : Color
  tag : String
  details : String
deriving DecidableEq, Repr

/-- A node. -/
def readNode (words : List String) : Except LineProblem NodeRecord := do
  let (address, color, rest) ← readHead words
  match rest with
  | [] => .error (.missingField "type tag")
  | tag :: details => return { address, color, tag, details := Text.unwords details }

/-- An edge as it is written, before its name has a label. -/
structure EdgeRecord where
  target : Address
  name : String
deriving DecidableEq, Repr

/-- An edge, from the words behind its marker. -/
def readEdge (words : List String) : Except LineProblem EdgeRecord :=
  match words with
  | [] => .error (.missingField "edge target")
  | word :: rest => do
    let target ← readAddress word
    return { target, name := Text.unwords (rest.drop 1) }

end Dump

end HeapReplay
