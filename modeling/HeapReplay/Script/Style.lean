import HeapReplay.Text.Identifier
import HeapReplay.Text.Quoted

/-!
# How a script is written

The **style** of a script is the choice of its names and of its layout.  Nodes and properties are
named by a stem and a number; the two collectors, one for each color of roots, are functions that
the host of the script supplies.

**Names are checked one by one.**  Each of the four must be an identifier; `Style.invalid?` reports
the first that is not, in the order of `NameRole.all`.  That the four fit together, so that no node
is named like a collector, is not checked.
-/

namespace HeapReplay.Script

/-- What a configurable name is used for. -/
inductive NameRole where
  | node
  | property
  | blackCollector
  | grayCollector
deriving DecidableEq, Repr

/-- All uses, in the order in which they are checked. -/
def NameRole.all : List NameRole :=
  [node, property, blackCollector, grayCollector]

/-- The name of the setting that a message refers to. -/
def NameRole.setting : NameRole → String
  | node => "node_prefix"
  | property => "property_prefix"
  | blackCollector => "black_root_accessor"
  | grayCollector => "gray_root_accessor"

/-- Names and layout of a script. -/
structure Style where
  /-- What the name of a node begins with. -/
  nodeStem : String := "n"
  /-- What the name of a property begins with. -/
  propertyStem : String := "e"
  /-- The function that collects the black roots. -/
  blackCollector : String := "blackRoot"
  /-- The function that collects the gray roots. -/
  grayCollector : String := "grayRoot"
  /-- Whether the script is put into a function that is called at once. -/
  wrapped : Bool := true
  /-- Whether an empty line stands before the assignments and before the roots. -/
  spaced : Bool := true
deriving DecidableEq, Repr

/-- A text that was given as a name and is none. -/
structure InvalidName where
  role : NameRole
  text : String
deriving DecidableEq, Repr

/-- The message about a text that is no name. -/
def InvalidName.message (e : InvalidName) : String :=
  e.role.setting ++ " must be a JavaScript identifier, got " ++ Text.quoted e.text

namespace Style

/-- The name that a style has for a use. -/
def name (s : Style) : NameRole → String
  | .node => s.nodeStem
  | .property => s.propertyStem
  | .blackCollector => s.blackCollector
  | .grayCollector => s.grayCollector

/-- The first name that is not accepted. -/
def invalid? (s : Style) : Option InvalidName :=
  (NameRole.all.find? fun role => !Text.endsAsIdentifier (s.name role).toList).map
    fun role => { role, text := s.name role }

/-- The style itself, if all of its names are accepted. -/
def check (s : Style) : Except InvalidName Style :=
  match s.invalid? with
  | some e => .error e
  | none => .ok s

/-- The variable that holds a node. -/
def nodeName (s : Style) (id : Nat) : String :=
  s.nodeStem ++ toString id

/-- The property that a key stands for. -/
def propertyName (s : Style) (key : Nat) : String :=
  s.propertyStem ++ toString key

/-- **A style is accepted exactly if each of its names is.** -/
theorem invalid?_eq_none_iff {s : Style} :
    s.invalid? = none ↔ ∀ role, Text.endsAsIdentifier (s.name role).toList = true := by
  simp only [invalid?, Option.map_eq_none_iff, List.find?_eq_none, Bool.not_eq_true,
    Bool.not_eq_false']
  refine ⟨fun h role => ?_, fun h role _ => ?_⟩
  · simpa using h role (by cases role <;> simp [NameRole.all])
  · simpa using h role

end Style

end HeapReplay.Script
