/-!
# Statements of a script

A script is a list of statements, one on each line.  There are only a few forms: a node is declared
as a string, a symbol or an object; a property or an element of a node is set to another node; a
place of a collector is set to a node; and the layout adds empty lines and a function around it all.

Statements hold the names that they are written with, so that a script can be read and run without
knowing which graph or which style it was made from.
-/

namespace HeapReplay.Script

/-- One line of a script. -/
inductive Statement where
  /-- The start of a function around the script. -/
  | openFunction
  /-- The end of the function, which is called at once. -/
  | closeFunction
  /-- An empty line. -/
  | blank
  /-- A variable for a string of its own, made from a number. -/
  | declareString (name : String) (content : Nat)
  /-- A variable for a symbol of its own. -/
  | declareSymbol (name : String)
  /-- A variable for an object whose properties hold a placeholder. -/
  | declareObject (name : String) (properties : List String)
  /-- Sets a property of a variable's object to the value of another variable. -/
  | setProperty (source property target : String)
  /-- Sets an element of a variable's object to the value of another variable. -/
  | setElement (source : String) (index : Nat) (target : String)
  /-- Sets a place of what a collector returns to the value of a variable. -/
  | setRoot (collector : String) (position : Nat) (target : String)
deriving DecidableEq, Repr

namespace Statement

/-- The line that a statement is written as, without a newline. -/
def text : Statement → String
  | openFunction => "(() => \x7b"
  | closeFunction => "\x7d)();"
  | blank => ""
  | declareString x content => "let " ++ x ++ "=\"" ++ toString content ++ "\";"
  | declareSymbol x => "const " ++ x ++ "=Symbol();"
  | declareObject x properties =>
    "let " ++ x ++ "=\x7b" ++ ",".intercalate (properties.map (· ++ ":0")) ++ "\x7d;"
  | setProperty x property y => x ++ "." ++ property ++ "=" ++ y ++ ";"
  | setElement x index y => x ++ "[" ++ toString index ++ "]=" ++ y ++ ";"
  | setRoot collector position y => collector ++ "()[" ++ toString position ++ "]=" ++ y ++ ";"

end Statement

end HeapReplay.Script
