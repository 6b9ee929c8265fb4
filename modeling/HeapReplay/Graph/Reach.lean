import HeapReplay.Graph

/-!
# Reachability

`HeapGraph.Reached g avoid n` says that node `n` is found by searching the heap from its roots,
where the search follows the edges of **includable** nodes only and never enters a node whose id is
in `avoid`.  It is stated through the addresses of the nodes alone: no registry, no worklist and no
order of the search takes part in it.

With nothing to avoid this is the part of the heap that a script rebuilds, together with the object
internals on its border.
-/

namespace HeapReplay.HeapGraph

/-- A node of the graph with a given address. -/
def HasNode (g : HeapGraph) (address : Address) (n : Node) : Prop :=
  n ∈ g.nodes ∧ n.address = address

/-- The nodes on paths from a root that stay outside `avoid` and whose nodes before the last are
all includable. -/
inductive Reached (g : HeapGraph) (avoid : List Nat) : Node → Prop where
  | root {r : Root} {n : Node} :
      r ∈ g.roots → g.HasNode r.address n → n.id ∉ avoid → Reached g avoid n
  | edge {n : Node} {e : Edge} {m : Node} :
      Reached g avoid n → n.includable = true → e ∈ n.edges → g.HasNode e.target m →
      m.id ∉ avoid → Reached g avoid m

/-- A search enters only nodes of the graph. -/
theorem Reached.mem_nodes {g : HeapGraph} {avoid : List Nat} {n : Node}
    (h : g.Reached avoid n) : n ∈ g.nodes := by
  cases h with
  | root _ found _ => exact found.1
  | edge _ _ _ found _ => exact found.1

end HeapReplay.HeapGraph
