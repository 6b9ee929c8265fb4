import HeapReplay.Marking

/-!
# Histories of a graph

A graph comes about by **edits**: nodes, edges and roots are added one at a time, and an edit that is
refused leaves the graph as it was.  Between the edits the graph may be searched, by any number of
markers, each of which keeps what an earlier search of its own has left on its worklist.

**`HeapGraph.Built`** holds of the graphs that edits alone lead to.  Nothing in them is marked, and
the node at place `i` has id `i`.

**`Session`** is a graph with its markers; `Session.run` replays a whole history of edits and
searches, failed ones included.
-/

namespace HeapReplay

/-- One change of a graph. -/
inductive Edit where
  | addNode (address : Address) (color : Color) (kind : Kind) (details : String)
      (location : Option Location)
  /-- Adds an edge to the node with the id `source`. -/
  | addEdge (source : Nat) (name : String) (target : Address)
  | addRoot (root : Root)
deriving DecidableEq, Repr

namespace HeapGraph

/-- The graph after an edit, which is the same graph if the edit is refused. -/
def edit (g : HeapGraph) : Edit → HeapGraph
  | .addNode address color kind details location =>
    match g.addNode address color kind details location with
    | .ok (_, g') => g'
    | .error _ => g
  | .addEdge source name target =>
    if (g.node? source).isNone then g
    else
      match g.addEdge source name target with
      | .ok (_, g') => g'
      | .error _ => g
  | .addRoot root => g.addRoot root

/-- A graph that edits of the empty graph lead to. -/
def Built (g : HeapGraph) : Prop :=
  ∃ edits : List Edit, g = edits.foldl edit {}

theorem built_empty : Built {} :=
  ⟨[], rfl⟩

theorem Built.edit {g : HeapGraph} (h : Built g) (e : Edit) : Built (g.edit e) := by
  obtain ⟨edits, rfl⟩ := h
  exact ⟨edits ++ [e], by simp⟩

/-- What holds of the empty graph and is kept by every edit holds of every built graph. -/
theorem Built.induction {motive : HeapGraph → Prop} (empty : motive {})
    (step : ∀ g e, Built g → motive g → motive (g.edit e)) {g : HeapGraph} (h : Built g) :
    motive g := by
  obtain ⟨edits, rfl⟩ := h
  suffices ∀ g, Built g → motive g → motive (edits.foldl HeapGraph.edit g) from
    this {} built_empty empty
  induction edits with
  | nil => exact fun _ _ hm => hm
  | cons e edits ih => exact fun g hb hm => ih _ (hb.edit e) (step g e hb hm)

end HeapGraph

/-- A graph with the worklists of its markers. -/
structure Session where
  graph : HeapGraph := {}
  worklists : List (List Nat) := []
deriving DecidableEq, Repr

/-- What can happen to a graph and its markers. -/
inductive Event where
  | edit (edit : Edit)
  /-- A further marker is set up. -/
  | newMarker
  /-- A marker searches the graph. -/
  | mark (marker : Nat)
deriving DecidableEq, Repr

namespace Session

/-- A search by one of the markers, unless there is no such marker. -/
def search (s : Session) (marker : Nat) : Option (Progress Marking Failure) :=
  s.worklists[marker]?.map fun worklist => Marking.mark { graph := s.graph, worklist }

/-- The session after an event. -/
def step (s : Session) : Event → Session
  | .edit e => { s with graph := s.graph.edit e }
  | .newMarker => { s with worklists := s.worklists ++ [[]] }
  | .mark marker =>
    match s.search marker with
    | none => s
    | some p =>
      { graph := p.state.graph, worklists := s.worklists.set marker p.state.worklist }

/-- The session after a history that begins with nothing. -/
def run (events : List Event) : Session :=
  events.foldl step {}

end Session

end HeapReplay
