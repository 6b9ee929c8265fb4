import HeapReplay.Dump.Record

/-!
# Writing a heap log

Every graph has a canonical log: its roots, black before gray, then its nodes, each with its edges
behind it.  The tag of a node is the name of its kind, for objects the one of functions; the word of
an edge that readers ignore is the letter of black.

**Reading gives the graph back** if the log can say all that the graph holds: ids are places,
addresses are not negative and all declared, names and details stay on their line, and keys are
numbered as a reader would number them.
-/

namespace HeapReplay

/-- A type tag of a kind. -/
def Kind.tag : Kind → String
  | object => "Function"
  | k => k.name

theorem Kind.classify_tag (k : Kind) (details : String) (location : Option Location) :
    classify k.tag details location = .ok k := by
  cases k <;> rfl

/-- A name for a label: the element form of an index, the interned name of a key. -/
def Interner.nameOf (t : Interner) : Label → String
  | .index n => "objectElements[" ++ toString n ++ "]"
  | .key id => t.names[id]?.getD ""

namespace Dump

/-- The line of a root. -/
def rootLine (r : Root) : String :=
  Text.unwords [r.address.render, r.color.letter, r.name]

/-- The line of a node. -/
def nodeLine (n : Node) : String :=
  Text.unwords [n.address.render, n.color.letter, n.kind.tag, n.details]

/-- The line of an edge. -/
def edgeLine (t : Interner) (e : Edge) : String :=
  Text.unwords [edgeMarker, e.target.render, Color.black.letter, t.nameOf e.label]

/-- The lines of a node and its edges. -/
def nodeLines (t : Interner) (n : Node) : List String :=
  nodeLine n :: n.edges.map (edgeLine t)

/-- The lines of the canonical log of a graph. -/
def canonicalLines (g : HeapGraph) : List String :=
  Section.roots.header :: g.roots.map rootLine
    ++ Section.main.header :: g.nodes.flatMap (nodeLines g.interner)

/-- The canonical log of a graph. -/
def print (g : HeapGraph) : String :=
  "\n".intercalate (canonicalLines g)

end Dump

end HeapReplay
