import HeapReplay.Interner
import HeapReplay.Kind
import HeapReplay.Registry

/-!
# The heap graph

A graph holds the nodes in the order in which they were declared, the black and the gray roots, the
registry of addresses and the names of the edges.  Edges and roots refer to **addresses**; an
address is turned into a node only when it is followed, so a graph may hold references to nodes that
are declared later or never.

**Marks are ids.**  Which nodes are marked is a list of ids beside the nodes, the latest mark first,
so that marking visibly changes nothing else.

**Ids and places.**  In a graph that is only built by `addNode`, `addEdge` and `addRoot` the node at
place `i` has id `i`.  Registering an address without a node shifts the two apart; then an address
can resolve to another node, or to none.
-/

namespace HeapReplay

/-- The color of a root or a node in the log. -/
inductive Color where
  | black
  | gray
deriving DecidableEq, Repr

/-- A reference from one node to another, by address. -/
structure Edge where
  target : Address
  label : Label
deriving DecidableEq, Repr

/-- One node of the heap, with its outgoing edges in the order of the log. -/
structure Node where
  id : Nat
  address : Address
  color : Color
  kind : Kind
  details : String := ""
  edges : List Edge := []
deriving DecidableEq, Repr

/-- A reference into the heap from outside. -/
structure Root where
  address : Address
  color : Color
  name : String := ""
deriving DecidableEq, Repr

/-- A heap as it was logged. -/
structure HeapGraph where
  nodes : List Node := []
  blackRoots : List Root := []
  grayRoots : List Root := []
  registry : Registry := {}
  interner : Interner := {}
  /-- The ids of the marked nodes, the latest mark first. -/
  marked : List Nat := []
deriving DecidableEq, Repr

namespace Node

/-- Whether the node is declared in a script and searched through. -/
def includable (n : Node) : Bool :=
  n.kind.includable

end Node

namespace HeapGraph

/-! ## Building -/

/-- Declares a node at a fresh address.  The graph is unchanged if the address is taken. -/
def addNode (g : HeapGraph) (address : Address) (color : Color) (kind : Kind)
    (details : String) (location : Option Location) : Except Fault (Node × HeapGraph) :=
  match g.registry.register address location with
  | .error fault => .error fault
  | .ok (id, registry) =>
    let node : Node := { id, address, color, kind, details }
    .ok (node, { g with nodes := g.nodes ++ [node], registry })

/-- Adds an edge at the end of the edges of the node with the given id.  The graph is unchanged if
the name of the edge has no label. -/
def addEdge (g : HeapGraph) (source : Nat) (name : String) (target : Address) :
    Except Failure (Label × HeapGraph) :=
  match g.interner.intern name with
  | .error failure => .error failure
  | .ok (label, interner) =>
    let extend (n : Node) : Node :=
      if n.id = source then { n with edges := n.edges ++ [{ target, label }] } else n
    .ok (label, { g with nodes := g.nodes.map extend, interner })

/-- Adds a root at the end of the roots of its color. -/
def addRoot (g : HeapGraph) (root : Root) : HeapGraph :=
  match root.color with
  | .black => { g with blackRoots := g.blackRoots ++ [root] }
  | .gray => { g with grayRoots := g.grayRoots ++ [root] }

/-- Registers an address without declaring a node for it. -/
def register (g : HeapGraph) (address : Address) (location : Option Location) :
    Except Fault (Nat × HeapGraph) :=
  match g.registry.register address location with
  | .error fault => .error fault
  | .ok (id, registry) => .ok (id, { g with registry })

/-! ## Following references -/

/-- The roots of a color. -/
def rootsOf (g : HeapGraph) : Color → List Root
  | .black => g.blackRoots
  | .gray => g.grayRoots

/-- All roots, black before gray. -/
def roots (g : HeapGraph) : List Root :=
  g.blackRoots ++ g.grayRoots

/-- The node at a place of the graph.  A negative place counts from the end. -/
def nodeAt (g : HeapGraph) (place : Int) : Except Failure Node :=
  atOffset g.nodes place

/-- The node with an id. -/
def node? (g : HeapGraph) (id : Nat) : Option Node :=
  g.nodes.find? (·.id = id)

/-- The node that an address leads to: the one whose place is the id of the address. -/
def resolve (g : HeapGraph) (address : Address) (context : String) : Except Failure Node :=
  match g.registry.lookup address context none with
  | .error fault => .error (.fault fault)
  | .ok id =>
    match g.nodes[id]? with
    | some node => .ok node
    | none => .error .outOfRange

/-- Every address that the graph refers to, with what refers to it: the roots, then the edges of
the nodes in order. -/
def references (g : HeapGraph) : List (Address × String) :=
  (g.roots.map fun r => (r.address, "root"))
    ++ g.nodes.flatMap fun n => n.edges.map fun e => (e.target, "edge")

/-- The first reference to an address that is not registered. -/
def dangling? (g : HeapGraph) : Option Fault :=
  (g.references.find? fun (address, _) => !g.registry.contains address).map
    fun (address, context) => .unresolvedAddress address context none

/-- Succeeds if every address that is referred to is registered. -/
def checkReferences (g : HeapGraph) : Except Fault Unit :=
  match g.dangling? with
  | some fault => .error fault
  | none => .ok ()

/-! ## Marks -/

/-- Whether a node is marked. -/
def isMarked (g : HeapGraph) (n : Node) : Bool :=
  g.marked.contains n.id

/-- Marks the node with an id. -/
def addMark (g : HeapGraph) (id : Nat) : HeapGraph :=
  { g with marked := id :: g.marked }

/-- Unmarks the node with an id. -/
def removeMark (g : HeapGraph) (id : Nat) : HeapGraph :=
  { g with marked := g.marked.filter (· ≠ id) }

/-- Marks or unmarks the node with an id. -/
def setMarked (g : HeapGraph) (id : Nat) (value : Bool) : HeapGraph :=
  if value then (g.removeMark id).addMark id else g.removeMark id

/-- The nodes that are not marked. -/
def unmarked (g : HeapGraph) : List Node :=
  g.nodes.filter fun n => !g.isMarked n

@[simp] theorem isMarked_addMark (g : HeapGraph) (id : Nat) (n : Node) :
    (g.addMark id).isMarked n = (decide (n.id = id) || g.isMarked n) := by
  by_cases h : n.id = id <;> simp [isMarked, addMark, h]

theorem unmarked_addMark (g : HeapGraph) (id : Nat) :
    (g.addMark id).unmarked = g.unmarked.filter fun n => !decide (n.id = id) := by
  rw [unmarked, unmarked, List.filter_filter]
  exact List.filter_congr fun n _ => by simp

/-- A node that an address resolves to is one of the graph. -/
theorem mem_nodes_of_resolve {g : HeapGraph} {address : Address} {context : String} {n : Node}
    (h : g.resolve address context = .ok n) : n ∈ g.nodes := by
  unfold resolve at h
  split at h
  · simp at h
  · split at h
    · rename_i found
      simp only [Except.ok.injEq] at h
      exact h ▸ List.mem_of_getElem? found
    · simp at h

end HeapGraph

end HeapReplay
