import HeapReplay.Fault

/-!
# Kinds of nodes

Every node of the heap is of one of eleven kinds.  The log does not name the kind itself: a node
line has a **type tag** and free **details**, and `Kind.classify` folds the two into a kind or
refuses.

**Object internals are not reconstructed.**  Shapes, base shapes and property maps describe how an
object is laid out; they are part of the graph, but they are never declared in a script, nor is the
heap searched through them.  All other kinds are `includable`.
-/

namespace HeapReplay

/-- The structural category of a node. -/
inductive Kind where
  | string
  | object
  | symbol
  | jitcode
  | script
  | shape
  | baseShape
  | getterSetter
  | propMap
  | scope
  | regExpShared
deriving DecidableEq, Repr

namespace Kind

/-- All kinds, in the order in which statistics list them. -/
def all : List Kind :=
  [string, object, symbol, jitcode, script, shape, baseShape, getterSetter, propMap, scope,
    regExpShared]

/-- The name of a kind. -/
def name : Kind → String
  | string => "string"
  | object => "object"
  | symbol => "symbol"
  | jitcode => "jitcode"
  | script => "script"
  | shape => "shape"
  | baseShape => "base_shape"
  | getterSetter => "getter_setter"
  | propMap => "prop_map"
  | scope => "scope"
  | regExpShared => "reg_exp_shared"

/-- Whether nodes of the kind are declared in a script and searched through. -/
def includable : Kind → Bool
  | shape | baseShape | propMap => false
  | _ => true

/-- The kind that a type tag stands for on its own.  A substring is a string; only objects have no
tag of their own. -/
def ofTag? : String → Option Kind
  | "string" | "substring" => some string
  | "symbol" => some symbol
  | "jitcode" => some jitcode
  | "script" => some script
  | "shape" => some shape
  | "base_shape" => some baseShape
  | "getter_setter" => some getterSetter
  | "prop_map" => some propMap
  | "scope" => some scope
  | "reg_exp_shared" => some regExpShared
  | _ => none

/-- Whether a tag without a kind of its own belongs to an object. -/
def isObject (tag details : String) : Bool :=
  tag == "Function" || "<unknown object>".toList.isSuffixOf details.toList

/-- The kind of a node from its type tag and details: the tag decides if it can, and what is left
is an object or unknown. -/
def classify (tag details : String) (location : Option Location) : Except Fault Kind :=
  match ofTag? tag with
  | some kind => .ok kind
  | none =>
    if isObject tag details then .ok object else .error (.unknownKind tag details location)

end Kind

end HeapReplay
