import HeapReplay.Proofs.Interleaving

/-!
# What a search that returns has found

A node is expanded once, when it comes off a worklist.  Nobody comes back to it: not when it gets a
further edge, and not when its expansion has failed half way.  So a search that returns need not have
marked all that is reached (`lateEdge_unmarked`).

It has marked everything that a path leads to without a step that it **overlooks**: one from a node
that it has found marked and not on its own worklist to a node that it has found unmarked.  This is
`returning_search_marks`, for every session.

There are no such steps in an **orderly** session, in which no search has failed and no edge was
added to a marked node; there a search that returns has marked all that is reached.
-/

namespace HeapReplay

namespace HeapGraph

/-- Marks that are passed on along some steps come to the end of every chain of them. -/
lemma marked_along {g : HeapGraph} {marked : List Nat} {steps : Node → Node → Prop}
    (pass : ∀ v w, v ∈ g.nodes → v.id ∈ marked → v.includable = true → g.PointsTo v w →
      steps v w → w.id ∈ marked)
    {path : List Node} {v n : Node} (hv : v ∈ g.nodes) (hmark : v.id ∈ marked)
    (points : (v :: path).IsChain g.PointsTo) (chain : (v :: path).IsChain steps)
    (inner : ∀ u ∈ (v :: path).dropLast, u.includable = true)
    (finish : (v :: path).getLast? = some n) : n.id ∈ marked := by
  induction path generalizing v with
  | nil =>
      obtain rfl : v = n := by simpa using finish
      exact hmark
  | cons w path ih =>
      obtain ⟨hvw, hpoints⟩ := List.isChain_cons_cons.mp points
      obtain ⟨hstep, hsteps⟩ := List.isChain_cons_cons.mp chain
      have hw : w ∈ g.nodes := by
        obtain ⟨e, -, hnode⟩ := hvw
        exact hnode.1
      refine ih hw (pass v w hv hmark (inner v (by simp)) hvw hstep) hpoints hsteps ?_ ?_
      · intro u hu
        exact inner u (by rw [List.dropLast_cons_cons]; exact List.mem_cons_of_mem _ hu)
      · rwa [List.getLast?_cons_cons] at finish

/-- Marks that contain the targets of the roots as well contain the ends of all paths of such
steps. -/
lemma IsPath.marked {g : HeapGraph} (hg : g.Indexed) {marked : List Nat}
    {steps : Node → Node → Prop}
    (roots : ∀ r ∈ g.roots, ∃ n, g.HasNode r.address n ∧ n.id ∈ marked)
    (pass : ∀ v w, v ∈ g.nodes → v.id ∈ marked → v.includable = true → g.PointsTo v w →
      steps v w → w.id ∈ marked)
    {path : List Node} {n : Node} (h : g.IsPath path n)
    (inner : ∀ v ∈ path.dropLast, v.includable = true) (chain : path.IsChain steps) :
    n.id ∈ marked := by
  obtain ⟨r, hr, v, hv, hnode⟩ := h.start
  obtain ⟨m, hm, hmark⟩ := roots r hr
  obtain rfl := hg.hasNode_unique hm hnode
  cases path with
  | nil => simp at hv
  | cons u path =>
      obtain rfl : u = m := Option.some.inj hv
      exact marked_along pass hnode.1 hmark h.steps chain inner h.finish

end HeapGraph

namespace Session

/-- A marker has found the first node marked and does not have it on its worklist, and it has found
the second one unmarked. -/
def Overlooks (s : Session) (marker : Nat) (n m : Node) : Prop :=
  n.id ∈ s.graph.marked ∧ (∀ worklist ∈ s.worklists[marker]?, n.id ∉ worklist) ∧
    m.id ∉ s.graph.marked

/-- What a search that returns has done: no mark is gone, the targets of the roots are marked, the
worklist is empty, and so are the marks closed but for settled nodes. -/
structure Finished (s : Session) (marker : Nat) (m : Marking) : Prop where
  graph : m.graph = s.graph.withMarks m.graph.marked
  kept : s.graph.marked ⊆ m.graph.marked
  roots : ∀ r ∈ s.graph.roots, ∃ n, s.graph.HasNode r.address n ∧ n.id ∈ m.graph.marked
  worklist : m.worklist = []
  closed : ∀ n ∈ s.graph.nodes, n.id ∈ m.graph.marked →
    ¬ (n.id ∈ s.graph.marked ∧ ∀ worklist ∈ s.worklists[marker]?, n.id ∉ worklist) →
    n.includable = true → ∀ e ∈ n.edges, ∃ t, s.graph.HasNode e.target t ∧ t.id ∈ m.graph.marked

lemma Sound.finished {s : Session} (h : s.Sound) {marker : Nat} {p : Progress Marking Failure}
    (searched : s.search marker = some p) (returned : p.failure = none) :
    s.Finished marker p.state := by
  obtain ⟨worklist, hw, rfl⟩ := Option.map_eq_some_iff.mp searched
  obtain ⟨expanding, hsearch, hend⟩ := (h.continuing hw).mark h.indexed
  obtain ⟨rfl, hempty, hroots⟩ := hend returned
  have hkept := Marking.marked_subset_mark { graph := s.graph, worklist }
  refine ⟨hsearch.graph, hkept, hroots, hempty, fun n hn hmark hsettled => ?_⟩
  simp only [hw, Option.mem_def, Option.some.injEq, forall_eq'] at hsettled
  exact hsearch.closed n ⟨hn, hsettled⟩ hmark (by simp [hempty]) (by simp)

/-- A search that returns passes marks on along all steps but overlooked ones. -/
lemma Finished.pass {s : Session} {marker : Nat} {m : Marking} (h : s.Finished marker m)
    (hg : s.graph.Indexed) {v w : Node} (hv : v ∈ s.graph.nodes) (hmark : v.id ∈ m.graph.marked)
    (hincl : v.includable = true) (hvw : s.graph.PointsTo v w)
    (hstep : ¬ s.Overlooks marker v w) : w.id ∈ m.graph.marked := by
  by_cases hsettled : v.id ∈ s.graph.marked ∧ ∀ worklist ∈ s.worklists[marker]?, v.id ∉ worklist
  · have hw : w.id ∈ s.graph.marked := by
      by_contra hno
      exact hstep ⟨hsettled.1, hsettled.2, hno⟩
    exact h.kept hw
  · obtain ⟨e, he, hw⟩ := hvw
    obtain ⟨t, ht, htm⟩ := h.closed v hv hmark hsettled hincl e he
    exact hg.hasNode_unique ht hw ▸ htm

/-! ## Orderly sessions -/

/-- An event that leaves nothing behind: a search that does not fail, and no edge for a node that is
marked. -/
def Orderly (s : Session) : Event → Prop
  | .edit (.addEdge source _ _) => source ∉ s.graph.marked
  | .mark marker => ∀ p ∈ s.search marker, p.failure = none
  | .edit (.addNode ..) | .edit (.addRoot _) | .newMarker => True

instance (s : Session) (e : Event) : Decidable (s.Orderly e) :=
  match e with
  | .edit (.addEdge source _ _) => inferInstanceAs (Decidable (source ∉ s.graph.marked))
  | .mark marker => inferInstanceAs (Decidable (∀ p ∈ s.search marker, p.failure = none))
  | .edit (.addNode ..) | .edit (.addRoot _) | .newMarker => .isTrue trivial

/-- Every event of a history is orderly in the session that it meets. -/
def OrderlyFrom (s : Session) : List Event → Prop
  | [] => True
  | e :: rest => s.Orderly e ∧ OrderlyFrom (s.step e) rest

instance decidableOrderlyFrom (s : Session) : (events : List Event) → Decidable (s.OrderlyFrom events)
  | [] => .isTrue trivial
  | e :: rest =>
    have := decidableOrderlyFrom (s.step e) rest
    inferInstanceAs (Decidable (s.Orderly e ∧ (s.step e).OrderlyFrom rest))

/-- Nothing is left behind: no marker has anything on its worklist, and what is marked has marked
targets only. -/
structure Neat (s : Session) : Prop where
  empty : ∀ worklist ∈ s.worklists, worklist = []
  closed : ∀ n ∈ s.graph.nodes, n.id ∈ s.graph.marked → n.includable = true →
    ∀ e ∈ n.edges, ∃ t, s.graph.HasNode e.target t ∧ t.id ∈ s.graph.marked

end Session

/-- Where the nodes of an edited graph come from: they were there as they are, or they are new, or
they have got the edge that was added. -/
lemma HeapGraph.mem_nodes_edit {g : HeapGraph} {e : Edit} {n : Node} (h : n ∈ (g.edit e).nodes) :
    n ∈ g.nodes ∨ n.edges = [] ∨ ∃ name target, e = .addEdge n.id name target := by
  cases e with
  | addNode a color kind details location =>
      simp only [edit] at h
      split at h
      · rename_i m g' hg
        obtain ⟨-, rfl, rfl⟩ := addNode_eq_ok_iff.mp hg
        rcases List.mem_append.mp h with h | h
        · exact Or.inl h
        · rw [List.mem_singleton.mp h]
          exact Or.inr (Or.inl rfl)
      · exact Or.inl h
  | addEdge source name target =>
      simp only [edit] at h
      split_ifs at h
      · exact Or.inl h
      · split at h
        · rename_i label g' hg
          obtain ⟨interner, -, rfl⟩ := addEdge_eq_ok_iff.mp hg
          obtain ⟨m, hm, rfl⟩ := List.mem_map.mp h
          by_cases hid : m.id = source
          · exact Or.inr (Or.inr ⟨name, target, by rw [id_extendEdges, hid]⟩)
          · rw [extendEdges, if_neg hid]
            exact Or.inl hm
        · exact Or.inl h
  | addRoot r =>
      rw [edit, nodes_addRoot] at h
      exact Or.inl h

namespace Session

lemma Neat.edit {s : Session} (h : s.Neat) {e : Edit} (orderly : s.Orderly (.edit e)) :
    (s.step (.edit e)).Neat := by
  have hmarked : (s.graph.edit e).marked = s.graph.marked := HeapGraph.marked_edit s.graph e
  refine ⟨h.empty, fun n hn hmark hincl e' he' => ?_⟩
  replace hmark : n.id ∈ s.graph.marked := hmarked ▸ hmark
  rcases HeapGraph.mem_nodes_edit hn with hn | hnone | ⟨name, target, rfl⟩
  · obtain ⟨t, ht, htm⟩ := h.closed n hn hmark hincl e' he'
    obtain ⟨t', ht', hgrown⟩ := (HeapGraph.grows_edit s.graph e).nodes t ht.1
    refine ⟨t', ⟨ht', hgrown.address.trans ht.2⟩, ?_⟩
    rw [hgrown.id]
    exact hmarked.symm ▸ htm
  · rw [hnone] at he'
    cases he'
  · exact absurd hmark orderly

lemma Neat.mark {s : Session} (h : s.Neat) (hs : s.Sound) {marker : Nat}
    (orderly : s.Orderly (.mark marker)) : (s.step (.mark marker)).Neat := by
  cases hsearch : s.search marker with
  | none =>
      rw [step, hsearch]
      exact h
  | some p =>
      have hfinished := hs.finished hsearch (orderly p hsearch)
      have hstep : s.step (.mark marker) =
          { graph := p.state.graph, worklists := s.worklists.set marker p.state.worklist } := by
        rw [step, hsearch]
      rw [hstep]
      refine ⟨fun worklist hw => ?_, fun n hn hmark hincl e he => ?_⟩
      · rcases List.mem_or_eq_of_mem_set hw with hw | rfl
        · exact h.empty worklist hw
        · exact hfinished.worklist
      · change n ∈ p.state.graph.nodes at hn
        rw [hfinished.graph] at hn
        have hclosed : ∃ t, s.graph.HasNode e.target t ∧ t.id ∈ p.state.graph.marked := by
          by_cases hold : n.id ∈ s.graph.marked
          · obtain ⟨t, ht, htm⟩ := h.closed n hn hold hincl e he
            exact ⟨t, ht, hfinished.kept htm⟩
          · exact hfinished.closed n hn hmark (fun hsettled => hold hsettled.1) hincl e he
        obtain ⟨t, ht, htm⟩ := hclosed
        exact ⟨t, by dsimp only; rw [hfinished.graph]; exact ht, htm⟩

/-- **Every orderly event leaves nothing behind.** -/
lemma Neat.step {s : Session} (h : s.Neat) (hs : s.Sound) {e : Event} (orderly : s.Orderly e) :
    (s.step e).Neat := by
  cases e with
  | edit e => exact h.edit orderly
  | newMarker =>
      refine ⟨fun worklist hw => ?_, h.closed⟩
      rcases List.mem_append.mp hw with hw | hw
      · exact h.empty worklist hw
      · exact List.mem_singleton.mp hw
  | mark marker => exact h.mark hs orderly

lemma Neat.foldl {s : Session} (h : s.Neat) (hs : s.Sound) {events : List Event}
    (orderly : s.OrderlyFrom events) : (events.foldl Session.step s).Neat := by
  induction events generalizing s with
  | nil => exact h
  | cons e events ih => exact ih (h.step hs orderly.1) (hs.step e) orderly.2

lemma neat_run {events : List Event} (orderly : OrderlyFrom {} events) : (run events).Neat :=
  Neat.foldl ⟨by simp, by simp⟩ sound_initial orderly

end Session

/-- **What a returning search has marked.**  In every session, however its edits and searches have
ended: a search that returns has marked the end of every path from a root whose nodes before the last
are all includable and of which it overlooks no step.  In an orderly session it has marked the ends
of all paths whose nodes before the last are includable. -/
theorem returning_search_marks (events : List Event) (marker : Nat) {p : Progress Marking Failure}
    (searched : (Session.run events).search marker = some p) (returned : p.failure = none) :
    let s := Session.run events
    (∀ path n, s.graph.IsPath path n → (∀ v ∈ path.dropLast, v.includable = true) →
      (path.IsChain fun v w => ¬ s.Overlooks marker v w) → p.state.graph.isMarked n = true) ∧
    (Session.OrderlyFrom {} events → ∀ path n, s.graph.IsPath path n →
      (∀ v ∈ path.dropLast, v.includable = true) → p.state.graph.isMarked n = true) := by
  intro s
  have hs : s.Sound := Session.sound_run events
  have hfinished : s.Finished marker p.state := hs.finished searched returned
  have hmarked : ∀ n : Node, n.id ∈ p.state.graph.marked → p.state.graph.isMarked n = true := by
    intro n hn
    simpa [HeapGraph.isMarked] using hn
  refine ⟨fun path n hpath hinner hchain => hmarked n ?_,
    fun orderly path n hpath hinner => hmarked n ?_⟩
  · exact hpath.marked hs.indexed hfinished.roots
      (fun v w hv hmark hincl hvw hstep => hfinished.pass hs.indexed hv hmark hincl hvw hstep)
      hinner hchain
  · have hneat : s.Neat := Session.neat_run orderly
    have hall : path.IsChain fun _ _ : Node => True := hpath.steps.imp fun _ _ _ => trivial
    refine hpath.marked hs.indexed hfinished.roots (fun v w hv hmark hincl hvw _ => ?_) hinner hall
    refine hfinished.pass hs.indexed hv hmark hincl hvw fun hover => hover.2.2 ?_
    obtain ⟨e, he, hw⟩ := hvw
    obtain ⟨t, ht, htm⟩ := hneat.closed v hv hover.1 hincl e he
    exact hs.indexed.hasNode_unique ht hw ▸ htm

/-- An object waits on the worklist when its search fails at the second root, whose node comes
later. -/
def lateRoot : List Event :=
  [.edit (.addNode 0x1 .black .object "" none), .edit (.addEdge 0 "next" 0x2),
    .edit (.addRoot { address := 0x1, color := .black }),
    .edit (.addRoot { address := 0x3, color := .gray }), .newMarker, .mark 0,
    .edit (.addNode 0x2 .black .string "" none), .edit (.addNode 0x3 .black .symbol "" none)]

/-- After a search an edge is added from a new object to one that is marked. -/
def lateObject : List Event :=
  [.edit (.addNode 0x1 .black .object "" none), .edit (.addRoot { address := 0x1, color := .black }),
    .newMarker, .mark 0, .edit (.addNode 0x2 .black .object "" none),
    .edit (.addEdge 1 "back" 0x1), .edit (.addRoot { address := 0x2, color := .gray })]

/-- The object that waits is expanded by the next search, and so are the objects that come late. -/
theorem late_nodes_marked :
    (∃ p, (Session.run lateRoot).search 0 = some p ∧ p.failure = none ∧
      p.state.graph.marked = [1, 2, 0] ∧
      ∀ path n, (Session.run lateRoot).graph.IsPath path n →
        (∀ v ∈ path.dropLast, v.includable = true) →
        (path.IsChain fun v w => ¬ (Session.run lateRoot).Overlooks 0 v w) →
        p.state.graph.isMarked n = true) ∧
    ∃ p, (Session.run lateObject).search 0 = some p ∧ p.failure = none ∧
      p.state.graph.marked = [1, 0] ∧ Session.OrderlyFrom {} lateObject ∧
      ∀ path n, (Session.run lateObject).graph.IsPath path n →
        (∀ v ∈ path.dropLast, v.includable = true) → p.state.graph.isMarked n = true := by
  constructor
  · have returned : (Marking.mark
        { graph := (Session.run lateRoot).graph, worklist := [0] }).failure = none := by
      decide +kernel
    have searched : (Session.run lateRoot).search 0 = some (Marking.mark
        { graph := (Session.run lateRoot).graph, worklist := [0] }) := by
      decide +kernel
    exact ⟨_, searched, returned, by decide +kernel,
      (returning_search_marks lateRoot 0 searched returned).1⟩
  · have returned : (Marking.mark
        { graph := (Session.run lateObject).graph, worklist := [] }).failure = none := by
      decide +kernel
    have searched : (Session.run lateObject).search 0 = some (Marking.mark
        { graph := (Session.run lateObject).graph, worklist := [] }) := by
      decide +kernel
    have orderly : Session.OrderlyFrom {} lateObject := by decide +kernel
    exact ⟨_, searched, returned, by decide +kernel, orderly,
      (returning_search_marks lateObject 0 searched returned).2 orderly⟩

/-- After a search an edge is added to the object that is marked. -/
def lateEdge : List Event :=
  [.edit (.addNode 0x1 .black .object "" none), .edit (.addRoot { address := 0x1, color := .black }),
    .newMarker, .mark 0, .edit (.addNode 0x2 .black .string "" none),
    .edit (.addEdge 0 "next" 0x2)]

/-- **A search that returns need not be complete.**  The next one does not follow the late edge, and
the string at its end stays unmarked, although it is reached. -/
theorem lateEdge_unmarked :
    ∃ p, (Session.run lateEdge).search 0 = some p ∧ p.failure = none ∧
      ∃ path n, (Session.run lateEdge).graph.IsPath path n ∧
        (∀ v ∈ path.dropLast, v.includable = true) ∧ p.state.graph.isMarked n = false := by
  let object : Node :=
    { id := 0, address := 0x1, color := .black, kind := .object
      edges := [{ target := 0x2, label := .key 0 }] }
  let string : Node := { id := 1, address := 0x2, color := .black, kind := .string }
  have hroot : { address := 0x1, color := .black } ∈ (Session.run lateEdge).graph.roots := by
    decide +kernel
  have hobject : (Session.run lateEdge).graph.HasNode 0x1 object := ⟨by decide +kernel, rfl⟩
  have hstring : (Session.run lateEdge).graph.HasNode 0x2 string := ⟨by decide +kernel, rfl⟩
  have hpath : (Session.run lateEdge).graph.IsPath [object, string] string :=
    ⟨⟨_, hroot, object, rfl, hobject⟩,
      List.isChain_pair.mpr ⟨_, List.mem_singleton_self _, hstring⟩, rfl⟩
  refine ⟨_, rfl, by decide +kernel, [object, string], string, hpath, ?_, by decide +kernel⟩
  intro v hv
  rw [List.mem_singleton.mp hv]
  rfl

end HeapReplay
