import HeapReplay.Graph
import HeapReplay.Progress

/-!
# Marking the nodes that are in use

A heap log lists every node that was allocated, used or not.  Marking searches the graph from its
roots with a worklist: a node is marked when it is first met and its edges are followed when it is
taken off the worklist, the latest first.  Object internals are marked like any other node, but
their edges are not followed.

**Marking ends** because each step takes one id off the worklist and each id that is put on it
belongs to a node that was not marked before: unmarked nodes and open ids together get fewer, which
is the measure of `Marking.drain`.

**A search can fail** at an address that resolves to no node.  What it has marked so far stays
marked, and what it has not expanded stays on the worklist, from which a later run goes on.
-/

namespace HeapReplay

/-- A search under way. -/
structure Marking where
  graph : HeapGraph
  /-- The ids of marked nodes that are not expanded yet, the latest first. -/
  worklist : List Nat := []
  /-- How many nodes this run has marked. -/
  count : Nat := 0
deriving DecidableEq, Repr

namespace Marking

/-- Meets a node: it is marked and put on the worklist, unless it was marked before. -/
def visit (s : Marking) (n : Node) : Marking :=
  if s.graph.isMarked n then s
  else
    { graph := s.graph.addMark n.id
      worklist := n.id :: s.worklist
      count := s.count + 1 }

/-- Meets the node that an address leads to. -/
def follow (context : String) (s : Marking) (address : Address) : Except Failure Marking :=
  match s.graph.resolve address context with
  | .ok n => .ok (s.visit n)
  | .error failure => .error failure

/-- Meets the targets of the roots, black before gray. -/
def seed (s : Marking) : Progress Marking Failure :=
  Progress.run (follow "root") s (s.graph.roots.map (·.address))

/-- Meets the targets of the edges of a node, unless the node is internal to an object. -/
def expand (s : Marking) (n : Node) : Progress Marking Failure :=
  if n.includable then Progress.run (follow "edge") s (n.edges.map (·.target))
  else { state := s }

/-! ## Why the search ends -/

/-- What is left to do at most: the nodes not yet met and the ids not yet expanded. -/
def remaining (s : Marking) : Nat :=
  s.graph.unmarked.length + s.worklist.length

/-- Marking a node of the graph leaves fewer unmarked ones. -/
theorem length_unmarked_visit_lt {s : Marking} {n : Node} (mem : n ∈ s.graph.nodes)
    (fresh : s.graph.isMarked n = false) :
    (s.visit n).graph.unmarked.length < s.graph.unmarked.length := by
  have hvisit : (s.visit n).graph = s.graph.addMark n.id := by simp [visit, fresh]
  rw [hvisit, HeapGraph.unmarked_addMark]
  refine List.length_filter_lt_length_iff_exists.2 ⟨n, ?_, by simp⟩
  simp [HeapGraph.unmarked, mem, fresh]

theorem remaining_visit_le {s : Marking} {n : Node} (mem : n ∈ s.graph.nodes) :
    (s.visit n).remaining ≤ s.remaining := by
  cases fresh : s.graph.isMarked n with
  | true => simp [visit, fresh]
  | false =>
    have hlt := length_unmarked_visit_lt mem fresh
    have hlen : (s.visit n).worklist.length = s.worklist.length + 1 := by simp [visit, fresh]
    unfold remaining
    omega

theorem remaining_follow_le {context : String} {s s' : Marking} {address : Address}
    (h : follow context s address = .ok s') : s'.remaining ≤ s.remaining := by
  unfold follow at h
  split at h
  · rename_i n hn
    cases h
    exact remaining_visit_le (HeapGraph.mem_nodes_of_resolve hn)
  · cases h

theorem remaining_expand_le (s : Marking) (n : Node) :
    (s.expand n).state.remaining ≤ s.remaining := by
  unfold expand
  split
  · exact Progress.run_induction (motive := fun s' => s'.remaining ≤ s.remaining)
      (Nat.le_refl _) fun _ _ _ _ ih h => Nat.le_trans (remaining_follow_le h) ih
  · exact Nat.le_refl _

/-- Expands the nodes on the worklist, and those that come onto it, until it is empty. -/
def drain (s : Marking) : Progress Marking Failure :=
  match _hw : s.worklist with
  | [] => { state := s }
  | id :: rest =>
    let popped : Marking := { s with worklist := rest }
    match s.graph.node? id with
    | none => drain popped
    | some n =>
      match (popped.expand n).failure with
      | none => drain (popped.expand n).state
      | some _ => popped.expand n
termination_by s.remaining
decreasing_by
  · simp [remaining, _hw]
  · refine Nat.lt_of_le_of_lt (remaining_expand_le _ n) ?_
    simp [remaining, _hw]

/-- A whole search: from the roots and from whatever an earlier run has left on the worklist. -/
def mark (s : Marking) : Progress Marking Failure :=
  (seed { s with count := 0 }).andThen drain

end Marking

/-- A search of a graph with a fresh worklist. -/
def HeapGraph.mark (g : HeapGraph) : Progress Marking Failure :=
  Marking.mark { graph := g }

end HeapReplay
