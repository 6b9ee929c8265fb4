import HeapReplay.Graph

/-!
# Summary counts

The statistics of a graph count its nodes, marks, roots, edges and names, and its nodes of each
kind that occurs.  They are a value of their own, which prints whatever counts it is given.
-/

namespace HeapReplay

/-- Summary counts of a heap graph. -/
structure Stats where
  totalNodes : Int := 0
  markedNodes : Int := 0
  blackRoots : Int := 0
  grayRoots : Int := 0
  edges : Int := 0
  propertyNames : Int := 0
  /-- Names of kinds with the number of their nodes. -/
  nodesByKind : List (String × Int) := []
deriving DecidableEq, Repr

namespace Stats

/-- Sets the count of a kind, which keeps its place in the list if it has one. -/
def setKind (s : Stats) (kind : String) (count : Int) : Stats :=
  if s.nodesByKind.any (·.1 = kind) then
    { s with nodesByKind := s.nodesByKind.map fun p => if p.1 = kind then (kind, count) else p }
  else
    { s with nodesByKind := s.nodesByKind ++ [(kind, count)] }

/-- The lines of the summary: nodes, roots, edges, then one line per kind. -/
def lines (s : Stats) : List String :=
  [s!"nodes: {s.totalNodes} ({s.markedNodes} marked)",
    s!"roots: {s.blackRoots} black, {s.grayRoots} gray",
    s!"edges: {s.edges} ({s.propertyNames} distinct property names)"]
    ++ s.nodesByKind.map fun (kind, count) => s!"  {kind}: {count}"

/-- The summary as one text, without a newline at its end. -/
def text (s : Stats) : String :=
  "\n".intercalate s.lines

end Stats

namespace HeapGraph

/-- The number of nodes of a kind. -/
def countKind (g : HeapGraph) (k : Kind) : Nat :=
  g.nodes.countP (·.kind = k)

/-- The counts of a graph.  Kinds are listed in their fixed order, without those that do not
occur. -/
def stats (g : HeapGraph) : Stats where
  totalNodes := g.nodes.length
  markedNodes := g.nodes.countP g.isMarked
  blackRoots := g.blackRoots.length
  grayRoots := g.grayRoots.length
  edges := (g.nodes.flatMap (·.edges)).length
  propertyNames := g.interner.size
  nodesByKind :=
    (Kind.all.filter (0 < g.countKind ·)).map fun k => (k.name, (g.countKind k : Int))

end HeapGraph

end HeapReplay
