import HeapReplay.Proofs.Searching

/-!
# Searches that fail

A search of a graph in which some addresses are not declared may fail, and it may also return: it
does not see a missing node behind a shape, behind a node that was marked before it began, or where
nothing leads.  Both are settled here for a fresh worklist and any starting marks.

**When it fails.**  Exactly if a root is not declared, or an edge of an includable node that the
search reaches.  One half is that a search that returns has looked at all of these
(`mark_returns_declared`), whatever the order of its worklist.

**Where it stops.**  The roots come first and in their order, so the first one without a node is what
is reported; only if there is none it is an edge of the node that is being expanded
(`HeapGraph.StopsAt`, `Marking.mark_stops`).

**What it leaves.**  `Interrupted` is the invariant of the search at the moment of the failure, read
by somebody who knows the graph and the starting marks only.
-/

namespace HeapReplay

namespace Marking

/-- What a search leaves that began with the ids in `before` marked and has failed: nothing but marks
has changed, the new marks are on reached nodes and are counted, and a newly marked node waits on
the worklist, or is not to be expanded, or has marked targets only.  The node that was being expanded
is excepted. -/
structure Interrupted (g : HeapGraph) (before : List Nat) (expanding : Option Node) (s : Marking) :
    Prop where
  graph : s.graph = g.withMarks s.graph.marked
  kept : before ⊆ s.graph.marked
  reached : ∀ id ∈ s.graph.marked, id ∈ before ∨ ∃ n, g.Reached before n ∧ n.id = id
  counted : g.nodes.countP (g.withMarks before).isMarked + s.count
    = g.nodes.countP s.graph.isMarked
  waiting : ∀ n ∈ g.nodes, n.id ∈ s.graph.marked → n.id ∉ before → expanding ≠ some n →
    n.id ∈ s.worklist ∨ n.includable = false ∨
      ∀ e ∈ n.edges, ∃ m, g.HasNode e.target m ∧ m.id ∈ s.graph.marked

variable {g : HeapGraph} {before : List Nat}

lemma Searching.interrupted {expanding : Option Node} {s : Marking}
    (h : Searching g before (expanding.toList.map Node.id) s) (hg : g.Indexed)
    (inside : ∀ n ∈ expanding, n ∈ g.nodes) : Interrupted g before expanding s where
  graph := h.graph
  kept := h.avoid_subset
  reached _ hid := h.mem_marked hid
  counted := h.count_marked hg
  waiting n hn hmark hnew hexp := by
    obtain ⟨m, hm, hid⟩ := (h.mem_marked hmark).resolve_left hnew
    obtain rfl : m = n := hg.eq_of_id_eq hm.mem_nodes hn hid
    by_cases hopen : m.id ∈ s.worklist
    · exact Or.inl hopen
    · cases hincl : m.includable with
      | false => exact Or.inr (Or.inl rfl)
      | true =>
          refine Or.inr (Or.inr (h.closed m hm hmark hopen (fun hin => hexp ?_) hincl))
          obtain ⟨x, hx, hxid⟩ := List.mem_map.mp hin
          rw [Option.mem_toList] at hx
          rw [Option.mem_def.mp hx, hg.eq_of_id_eq (inside x hx) hn hxid]

/-- **A search that returns has met a node wherever it looked**: behind every root, and behind every
edge of the includable nodes that it has reached. -/
lemma mark_returns_declared (hg : g.Indexed) (hret : (g.withMarks before).mark.failure = none) :
    (∀ r ∈ g.roots, ∃ n, g.HasNode r.address n) ∧
      ∀ n, g.Reached before n → n.includable = true → ∀ e ∈ n.edges, ∃ m, g.HasNode e.target m := by
  have hs : (g.withMarks before).mark = { state := (g.withMarks before).mark.state } := by
    rw [← hret]
  obtain ⟨hsearch, hw, hroots⟩ := mark_returns hg hs
  refine ⟨fun r hr => ?_, fun n hn hincl e he => ?_⟩
  · obtain ⟨n, hn, -⟩ := hroots r hr
    exact ⟨n, hn⟩
  · have hmark := hsearch.reached_marked hg hw hroots hn
    obtain ⟨m, hm, -⟩ := hsearch.closed n hn hmark (by simp [hw]) (by simp) hincl e he
    exact ⟨m, hm⟩

end Marking

/-- **When a search fails, and what it leaves.**  On a built graph, whatever was marked `before`, a
search with a fresh worklist fails exactly if a root is not declared or an includable node that is
reached has an edge to an address that is not declared.  It stops at the first such root, or else at
such an edge, and names it; the state that it leaves is that of an interrupted search. -/
theorem search_fails_iff {g : HeapGraph} (built : g.Built) (before : List Nat) :
    ((∃ f, (g.withMarks before).mark.failure = some f) ↔
      (∃ r ∈ g.roots, ∀ n, ¬ g.HasNode r.address n) ∨
        ∃ n, g.Reached before n ∧ n.includable = true ∧
          ∃ e ∈ n.edges, ∀ m, ¬ g.HasNode e.target m) ∧
    ∀ f, (g.withMarks before).mark.failure = some f →
      ∃ expanding, g.StopsAt before expanding f ∧
        Marking.Interrupted g before expanding (g.withMarks before).mark.state := by
  have hg := built.indexed
  refine ⟨⟨?_, fun hmissing => ?_⟩, fun f hf => ?_⟩
  · rintro ⟨f, hf⟩
    obtain ⟨expanding, hstop, -⟩ := Marking.mark_stops hg hf
    cases hstop with
    | @root earlier later r hroots _ hno => exact Or.inl ⟨r, by simp [hroots], hno⟩
    | edge _ hn hincl he hno => exact Or.inr ⟨_, hn, hincl, _, he, hno⟩
  · rw [← Option.ne_none_iff_exists']
    intro hret
    obtain ⟨hroots, hedges⟩ := Marking.mark_returns_declared hg hret
    rcases hmissing with ⟨r, hr, hno⟩ | ⟨n, hn, hincl, e, he, hno⟩
    · obtain ⟨n, hn⟩ := hroots r hr
      exact hno n hn
    · obtain ⟨m, hm⟩ := hedges n hn hincl e he
      exact hno m hm
  · obtain ⟨expanding, hstop, hsearch⟩ := Marking.mark_stops hg hf
    refine ⟨expanding, hstop, hsearch.interrupted hg fun n hn => ?_⟩
    cases hstop with
    | root _ _ _ => cases hn
    | edge _ hreach _ _ _ => exact Option.some.inj hn ▸ hreach.mem_nodes

/-- A heap in which three addresses are not declared: one behind a shape, one behind a scope, and one
on an object that is expanded while the other object waits. -/
def brokenHeap : HeapGraph :=
  [Edit.addNode 0x10 .black .object "" none, .addEdge 0 "shape" 0x11, .addEdge 0 "scope" 0x12,
    .addNode 0x11 .black .shape "" none, .addEdge 1 "base" 0x91,
    .addNode 0x12 .black .scope "" none, .addEdge 2 "outer" 0x92,
    .addNode 0x13 .black .object "" none, .addEdge 3 "next" 0x12, .addEdge 3 "lost" 0x93,
    .addRoot { address := 0x10, color := .black },
    .addRoot { address := 0x13, color := .gray }].foldl HeapGraph.edit {}

/-- With the scope marked before, the search stops at the last edge of the second object.  With that
object marked as well it returns, and so there is nothing left to stop at. -/
theorem brokenHeap_interrupted :
    brokenHeap.Built ∧
      (brokenHeap.withMarks [2]).mark.failure
        = some (.fault (.unresolvedAddress 0x93 "edge" none)) ∧
      (brokenHeap.withMarks [2]).mark.state.graph.marked = [3, 0, 2] ∧
      (brokenHeap.withMarks [2]).mark.state.worklist = [0] ∧
      (∃ n, brokenHeap.Reached [2] n ∧ n.includable = true ∧
        ∃ e ∈ n.edges, ∀ m, ¬ brokenHeap.HasNode e.target m) ∧
      (∃ expanding, brokenHeap.StopsAt [2] expanding
          (.fault (.unresolvedAddress 0x93 "edge" none)) ∧
        Marking.Interrupted brokenHeap [2] expanding (brokenHeap.withMarks [2]).mark.state) ∧
      (brokenHeap.withMarks [3, 2]).mark.failure = none ∧
      ¬ ∃ n, brokenHeap.Reached [3, 2] n ∧ n.includable = true ∧
        ∃ e ∈ n.edges, ∀ m, ¬ brokenHeap.HasNode e.target m := by
  have built : brokenHeap.Built := ⟨_, rfl⟩
  have declared : ∀ r ∈ brokenHeap.roots, ∃ n ∈ brokenHeap.nodes, n.address = r.address := by
    decide +kernel
  have failed : (brokenHeap.withMarks [2]).mark.failure
      = some (.fault (.unresolvedAddress 0x93 "edge" none)) := by
    decide +kernel
  have returned : (brokenHeap.withMarks [3, 2]).mark.failure = none := by decide +kernel
  obtain ⟨missing, stops⟩ := search_fails_iff built [2]
  refine ⟨built, failed, by decide +kernel, by decide +kernel,
    (missing.mp ⟨_, failed⟩).resolve_left ?_, stops _ failed, returned, fun hmissing => ?_⟩
  · rintro ⟨r, hr, hno⟩
    obtain ⟨n, hn, ha⟩ := declared r hr
    exact hno n ⟨hn, ha⟩
  · obtain ⟨f, hf⟩ := (search_fails_iff built [3, 2]).1.mpr (Or.inr hmissing)
    rw [returned] at hf
    cases hf

end HeapReplay
