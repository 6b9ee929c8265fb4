import HeapReplay.Graph
import HeapReplay.Script.Statement
import HeapReplay.Script.Style

/-!
# From a marked graph to a script

The script of a graph declares its **emitted** nodes, those that are marked and not internal to an
object; then it sets their properties and elements, then the places of the two collectors.  All
declarations come first, so every assignment finds both of its nodes.

**Only targets that can be declared are written.**  Edges and roots that lead to the internals of
objects are left out; a place of a collector is used up only by a root that is written.

**An emission may break off** at an address that resolves to no node.  The statements up to there are
kept: emissions are joined by `++`, and nothing is added to one that has broken off.  Joining is
associative and has the empty emission as its unit, so the order in which parts are grouped does
not matter.
-/

namespace HeapReplay.Script

/-- Statements in order, and what broke them off. -/
structure Emission where
  statements : List Statement := []
  failure : Option Failure := none
deriving DecidableEq, Repr

namespace Emission

/-- One emission after another, unless the first has broken off. -/
def append (a b : Emission) : Emission :=
  match a.failure with
  | none => { statements := a.statements ++ b.statements, failure := b.failure }
  | some _ => a

instance : Append Emission := ⟨append⟩

/-- Statements that nothing breaks off. -/
def ofList (statements : List Statement) : Emission :=
  { statements }

/-- The statements of a computation that may fail. -/
def ofExcept : Except Failure (List Statement) → Emission
  | .ok statements => { statements }
  | .error failure => { failure := some failure }

/-- Emissions one after another, up to the first that has broken off. -/
def concat (es : List Emission) : Emission :=
  es.foldr (· ++ ·) {}

/-- The lines of an emission. -/
def lines (e : Emission) : List String :=
  e.statements.map Statement.text

theorem append_def (a b : Emission) : a ++ b = append a b :=
  rfl

@[simp] theorem empty_append (e : Emission) : ({} : Emission) ++ e = e := by
  simp [append_def, append]

@[simp] theorem append_empty (e : Emission) : e ++ ({} : Emission) = e := by
  obtain ⟨statements, failure⟩ := e
  cases failure <;> simp [append_def, append]

theorem append_assoc (a b c : Emission) : a ++ b ++ c = a ++ (b ++ c) := by
  obtain ⟨as, _ | fa⟩ := a <;> obtain ⟨bs, _ | fb⟩ := b <;> simp [append_def, append]

end Emission

/-! ## The parts of a script -/

/-- The edges of a node that lead to nodes that can be declared, with these nodes. -/
def includedEdges (g : HeapGraph) (n : Node) : Except Failure (List (Edge × Node)) := do
  let resolved ← n.edges.mapM fun e => return (e, ← g.resolve e.target "edge")
  return resolved.filter (·.2.includable)

/-- The keys among some labels, each once, in the order in which they first occur. -/
def distinctKeys (labels : List Label) : List Nat :=
  labels.foldl (fun keys label =>
    match label with
    | .index _ => keys
    | .key id => if keys.contains id then keys else keys ++ [id]) []

/-- The declaration of a node.  Only that of an object looks at the edges. -/
def declaration (style : Style) (g : HeapGraph) (n : Node) : Except Failure (List Statement) :=
  let name := style.nodeName n.id
  match n.kind with
  | .string => .ok [.declareString name n.id]
  | .symbol => .ok [.declareSymbol name]
  | _ => do
    let edges ← includedEdges g n
    let keys := distinctKeys (edges.map (·.1.label))
    return [.declareObject name (keys.map style.propertyName)]

/-- The assignment for an edge. -/
def setEdge (style : Style) (source : Nat) (label : Label) (target : Nat) : Statement :=
  match label with
  | .index i => .setElement (style.nodeName source) i (style.nodeName target)
  | .key id => .setProperty (style.nodeName source) (style.propertyName id) (style.nodeName target)

/-- The assignment for an edge of a node, or none if its target cannot be declared. -/
def assignment (style : Style) (g : HeapGraph) (n : Node) (e : Edge) :
    Except Failure (List Statement) := do
  let target ← g.resolve e.target "edge"
  return if target.includable then [setEdge style n.id e.label target.id] else []

/-- The assignments for the roots of one color, from the given place of their collector on. -/
def collected (style : Style) (g : HeapGraph) (collector : String) : Nat → List Root → Emission
  | _, [] => {}
  | position, r :: rest =>
    match g.resolve r.address "root" with
    | .error failure => { failure := some failure }
    | .ok target =>
      if target.includable then
        Emission.ofList [.setRoot collector position (style.nodeName target.id)]
          ++ collected style g collector (position + 1) rest
      else collected style g collector position rest

/-- The nodes that a script declares, in the order of the graph. -/
def emittedNodes (g : HeapGraph) : List Node :=
  g.nodes.filter fun n => g.isMarked n && n.includable

/-- The declarations of a script. -/
def declarations (style : Style) (g : HeapGraph) : Emission :=
  .concat ((emittedNodes g).map fun n => .ofExcept (declaration style g n))

/-- The assignments of properties and elements. -/
def assignments (style : Style) (g : HeapGraph) : Emission :=
  .concat ((emittedNodes g).map fun n =>
    .concat (n.edges.map fun e => .ofExcept (assignment style g n e)))

/-- The assignments to the collectors, black before gray. -/
def rootAssignments (style : Style) (g : HeapGraph) : Emission :=
  collected style g style.blackCollector 0 g.blackRoots
    ++ collected style g style.grayCollector 0 g.grayRoots

/-- Statements of the layout, which are left out if the style does not ask for them. -/
def layout (wanted : Bool) (s : Statement) : Emission :=
  .ofList (if wanted then [s] else [])

/-- The script of a marked graph without the function around it. -/
def body (style : Style) (g : HeapGraph) : Emission :=
  declarations style g
    ++ layout style.spaced .blank
    ++ assignments style g
    ++ layout style.spaced .blank
    ++ rootAssignments style g

/-- The script of a marked graph, or the part of it up to the first address that fails. -/
def emission (style : Style) (g : HeapGraph) : Emission :=
  layout style.wrapped .openFunction ++ body style g ++ layout style.wrapped .closeFunction

/-- Lines as one text in which each ends with a newline; no line at all is one empty line. -/
def joinLines (lines : List String) : String :=
  "\n".intercalate lines ++ "\n"

/-- The text of the script of a marked graph. -/
def render (style : Style) (g : HeapGraph) : Except Failure String :=
  let e := emission style g
  match e.failure with
  | none => .ok (joinLines e.lines)
  | some failure => .error failure

end HeapReplay.Script
