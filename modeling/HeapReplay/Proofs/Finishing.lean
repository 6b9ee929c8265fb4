import HeapReplay.Proofs.Rebuilding

/-!
# What follows a log that was read

Marking and writing look addresses up as well, yet neither can fail on a graph whose references have
been checked.  The check looks at **every** root and edge, marked or not; a search follows some of
them, and a script is made from some of them, so whatever is marked there is a node behind every
address (`Complete.of_closed`, `mark_of_closed`).

So the outcome of a log is decided once it is read.  Either it is refused, and then the whole way
ends with the same failure; or it is a graph, and its script is the plain list of statements of the
nodes that are in use (`reconstruct_of_parse`).  The second form is what statements about two logs
start from: marks are gone from it, and only reachability is left.
-/

namespace HeapReplay

namespace HeapGraph

/-- The check of the references passes on closed graphs. -/
lemma Indexed.checkReferences_eq_ok_iff {g : HeapGraph} (h : g.Indexed) :
    g.checkReferences = .ok () ↔ g.Closed := by
  rw [h.closed_iff, checkReferences]
  cases g.dangling? <;> simp

/-- **A search of a closed graph returns**, whatever was marked before. -/
lemma Indexed.mark_of_closed {g : HeapGraph} (h : g.Indexed) (closed : g.Closed)
    (before : List Nat) : ∃ s : Marking, (g.withMarks before).mark = { state := s } := by
  cases hf : (g.withMarks before).mark.failure with
  | none => exact ⟨(g.withMarks before).mark.state, by rw [← hf]⟩
  | some f => exact absurd closed (Marking.mark_fails h hf)

end HeapGraph

namespace Script

variable {style : Style} {g : HeapGraph}

/-- **A script of a closed graph looks up nothing that is missing**, whatever is marked. -/
lemma Complete.of_closed (closed : g.Closed) (marks : List Nat) :
    Complete (g.withMarks marks) where
  edges n hn := closed.edges n (List.mem_filter.mp hn).1
  roots := closed.roots

/-- The text of the plain script. -/
def scriptText (style : Style) (g : HeapGraph) : String :=
  joinLines ((script style g).map Statement.text)

lemma render_eq_ok (hg : g.Indexed) (complete : Complete g) :
    render style g = .ok (scriptText style g) := by
  rw [render, emission_eq_ofList hg complete]
  rfl

end Script

lemma buildGraph_of_parse_eq_error {file text : String} {f : Failure}
    (h : Dump.parse file text = .error f) : buildGraph file text = .error f := by
  rw [buildGraph, h]
  rfl

/-- A log that is refused is refused all the way. -/
lemma reconstruct_of_parse_eq_error (style : Script.Style) {file text : String} {f : Failure}
    (h : Dump.parse file text = .error f) : reconstruct style file text = .error f := by
  rw [reconstruct, buildGraph_of_parse_eq_error h]
  rfl

/-- The graph of an accepted log refers to nothing that is missing. -/
lemma Dump.closed_of_parse {file text : String} {g : HeapGraph}
    (h : Dump.parse file text = .ok g) : g.Closed := by
  obtain ⟨r, -, hdangling, rfl⟩ := Dump.parse_eq_ok_iff.mp h
  exact (Dump.built_of_parse h).indexed.closed_iff.mpr hdangling

/-- **An accepted log has a script**: that of its graph with the reached nodes marked. -/
lemma reconstruct_of_parse (style : Script.Style) {file text : String} {g : HeapGraph}
    (h : Dump.parse file text = .ok g) :
    ∃ marks, (∀ n ∈ g.nodes, n.id ∈ marks ↔ g.Reached [] n) ∧
      reconstruct style file text = .ok (Script.scriptText style (g.withMarks marks)) := by
  have built := Dump.built_of_parse h
  have hg := built.indexed
  have closed := Dump.closed_of_parse h
  obtain ⟨s, hs⟩ := hg.mark_of_closed closed []
  have hmarks : ∀ n ∈ g.nodes, n.id ∈ s.graph.marked ↔ g.Reached [] n := by
    intro n hn
    rw [Marking.mem_marked_iff hg hs hn]
    simp
  have hgraph : s.graph = g.withMarks s.graph.marked := (Marking.mark_returns hg hs).1.graph
  have hstart : g.withMarks [] = g := by rw [← built.marked_eq_nil, HeapGraph.withMarks_marked]
  have hbuild : buildGraph file text = .ok s.graph :=
    buildGraph_eq_ok_iff.mpr ⟨g, s, h, hstart ▸ hs, rfl⟩
  refine ⟨s.graph.marked, hmarks, ?_⟩
  rw [reconstruct, hbuild, ← hgraph]
  have hrender : Script.render style s.graph = .ok (Script.scriptText style s.graph) := by
    rw [hgraph]
    exact Script.render_eq_ok (hg.withMarks _) (.of_closed closed _)
  exact hrender

/-- Whatever goes wrong goes wrong when the log is read. -/
lemma reconstruct_eq_error_iff (style : Script.Style) {file text : String} {failure : Failure} :
    reconstruct style file text = .error failure ↔ Dump.parse file text = .error failure := by
  constructor
  · intro h
    cases hparse : Dump.parse file text with
    | error f =>
        rw [reconstruct_of_parse_eq_error style hparse] at h
        rw [Except.error.inj h]
    | ok g =>
        obtain ⟨marks, -, hscript⟩ := reconstruct_of_parse style hparse
        rw [hscript] at h
        cases h
  · exact reconstruct_of_parse_eq_error style

/-- **Reading is the only stage that can fail.**  On a built graph that passes the check of its
references a search returns and a script is written to its end, whatever was marked before and in
whatever style.  So a log fails to become a script exactly if it is refused when it is read, and
then with the same failure. -/
theorem only_reading_fails (style : Script.Style) :
    (∀ g : HeapGraph, g.Built → g.checkReferences = .ok () → ∀ marks : List Nat,
      (g.withMarks marks).mark.failure = none ∧
      (Script.emission style (g.withMarks marks)).failure = none ∧
      ∃ script, Script.render style (g.withMarks marks) = .ok script) ∧
    ∀ (file text : String) (failure : Failure),
      reconstruct style file text = .error failure ↔ Dump.parse file text = .error failure := by
  refine ⟨fun g built checked marks => ?_, fun _ _ _ => reconstruct_eq_error_iff style⟩
  have hg := built.indexed
  have closed := hg.checkReferences_eq_ok_iff.mp checked
  have complete := Script.Complete.of_closed closed marks
  obtain ⟨s, hs⟩ := hg.mark_of_closed closed marks
  refine ⟨by rw [hs], ?_, _, Script.render_eq_ok (hg.withMarks marks) complete⟩
  rw [Script.emission_eq_ofList (hg.withMarks marks) complete]
  rfl

/-- The heap with a loop passes the check, so it is marked and written even with its scope marked
before. -/
theorem loopedHeap_never_fails :
    loopedHeap.Built ∧ loopedHeap.checkReferences = .ok () ∧
      (loopedHeap.withMarks [3]).mark.failure = none ∧
      (Script.emission {} (loopedHeap.withMarks [3])).failure = none ∧
      ∃ script, Script.render {} (loopedHeap.withMarks [3]) = .ok script := by
  have built : loopedHeap.Built := ⟨_, rfl⟩
  have checked : loopedHeap.checkReferences = .ok () := by decide
  exact ⟨built, checked, (only_reading_fails {}).1 loopedHeap built checked [3]⟩

end HeapReplay
