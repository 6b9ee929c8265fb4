import HeapReplay.Marking
import HeapReplay.Proofs.Indexing
import Mathlib.Data.List.Chain

/-!
# What a search marks

A search starts with some nodes marked already, follows roots and edges, and stops when its worklist
is empty.  What it marks is exactly what is `Reached` outside the nodes it began with.

* **Sound**: every mark it sets is on a reached node.
* **Complete**: when it returns, the marks are closed under the edges of includable nodes, except
  for the nodes it began with, which it never expands.
* **Total**: if every address is declared, it returns.

The first two are carried by one invariant, `Searching`, which is the usual one of three colors:
nodes without a mark are white, those on the worklist gray, the other new ones black, and a black
node has no white successor.  While a node is expanded it is neither gray nor black yet, so the
invariant has a list `expanding` of the ids that are excused.
-/

namespace HeapReplay

namespace HeapGraph

/-! ## Paths -/

/-- A search never enters what it avoids. -/
lemma Reached.id_not_mem {g : HeapGraph} {avoid : List Nat} {n : Node} (h : g.Reached avoid n) :
    n.id ∉ avoid := by
  cases h with
  | root _ _ hout => exact hout
  | edge _ _ _ _ hout => exact hout

/-- One step along an edge. -/
def PointsTo (g : HeapGraph) (n m : Node) : Prop :=
  ∃ e ∈ n.edges, g.HasNode e.target m

/-- A sequence of nodes that begins at the target of a root, follows edges and ends at `n`. -/
structure IsPath (g : HeapGraph) (path : List Node) (n : Node) : Prop where
  start : ∃ r ∈ g.roots, ∃ v, path.head? = some v ∧ g.HasNode r.address v
  steps : path.IsChain g.PointsTo
  finish : path.getLast? = some n

/-- A path can be prolonged by a step. -/
lemma IsPath.snoc {g : HeapGraph} {path : List Node} {n m : Node} (h : g.IsPath path n)
    (hm : g.PointsTo n m) : g.IsPath (path ++ [m]) m := by
  obtain ⟨r, hr, v, hv, hnode⟩ := h.start
  have hne : path ≠ [] := by
    rintro rfl
    simp at hv
  refine ⟨⟨r, hr, v, ?_, hnode⟩, ?_, by simp⟩
  · rw [List.head?_append, hv]; rfl
  · refine List.isChain_append.mpr ⟨h.steps, List.isChain_singleton m, ?_⟩
    intro x hx y hy
    rw [h.finish] at hx
    simp only [Option.mem_def, Option.some.injEq, List.head?_cons] at hx hy
    exact hx ▸ hy ▸ hm

/-- A path that is left to run on from a reached node reaches its last node. -/
lemma Reached.along {g : HeapGraph} {avoid : List Nat} {n : Node} (h : g.Reached avoid n)
    (path : List Node) (steps : (n :: path).IsChain g.PointsTo)
    (outside : ∀ v ∈ path, v.id ∉ avoid)
    (inner : ∀ v ∈ (n :: path).dropLast, v.includable = true) :
    ∀ m, (n :: path).getLast? = some m → g.Reached avoid m := by
  induction path generalizing n with
  | nil =>
      intro m hm
      simp only [List.getLast?_singleton, Option.some.injEq] at hm
      exact hm ▸ h
  | cons v path ih =>
      intro m hm
      obtain ⟨⟨e, he, hv⟩, hchain⟩ := List.isChain_cons_cons.mp steps
      have hincl : n.includable = true := inner n (by simp)
      have hreach : g.Reached avoid v := .edge h hincl he hv (outside v (by simp))
      refine ih hreach hchain (fun w hw => outside w (by simp [hw])) (fun w hw => ?_) m ?_
      · exact inner w (by simp only [List.dropLast_cons_cons, List.mem_cons]; exact Or.inr hw)
      · rwa [List.getLast?_cons_cons] at hm

/-- **Reached nodes are the ends of paths** that stay outside `avoid` and whose nodes before the
last are all includable. -/
theorem reached_iff_exists_path {g : HeapGraph} {avoid : List Nat} {n : Node} :
    g.Reached avoid n ↔ ∃ path, g.IsPath path n ∧ (∀ v ∈ path, v.id ∉ avoid) ∧
      ∀ v ∈ path.dropLast, v.includable = true := by
  constructor
  · intro h
    induction h with
    | @root r n hr hn hout =>
        refine ⟨[n], ⟨⟨r, hr, n, rfl, hn⟩, List.isChain_singleton n, rfl⟩, ?_, by simp⟩
        intro v hv
        rw [List.mem_singleton.mp hv]
        exact hout
    | @edge n e m hn hincl he hm hout ih =>
        obtain ⟨path, hpath, houts, hinner⟩ := ih
        refine ⟨path ++ [m], hpath.snoc ⟨e, he, hm⟩, ?_, ?_⟩
        · intro v hv
          rcases List.mem_append.mp hv with hv | hv
          · exact houts v hv
          · rw [List.mem_singleton.mp hv]; exact hout
        · intro v hv
          rw [List.dropLast_concat] at hv
          rw [← List.dropLast_append_getLast? n hpath.finish] at hv
          rcases List.mem_append.mp hv with hv | hv
          · exact hinner v hv
          · rw [List.mem_singleton.mp hv]; exact hincl
  · rintro ⟨path, hpath, houts, hinner⟩
    obtain ⟨r, hr, v, hv, hnode⟩ := hpath.start
    cases path with
    | nil => simp at hv
    | cons w path =>
        obtain rfl : w = v := Option.some.inj hv
        have hroot : g.Reached avoid w := .root hr hnode (houts w (by simp))
        exact hroot.along path hpath.steps (fun u hu => houts u (by simp [hu])) hinner n
          hpath.finish

/-- Every address that a root or an edge refers to has a node. -/
structure Closed (g : HeapGraph) : Prop where
  roots : ∀ r ∈ g.roots, ∃ n, g.HasNode r.address n
  edges : ∀ n ∈ g.nodes, ∀ e ∈ n.edges, ∃ m, g.HasNode e.target m

/-- The check of the references looks for exactly what is missing from a closed graph. -/
lemma Indexed.closed_iff {g : HeapGraph} (h : g.Indexed) : g.Closed ↔ g.dangling? = none := by
  simp only [dangling?, Option.map_eq_none_iff, List.find?_eq_none, Bool.not_eq_true',
    Bool.not_eq_false, h.contains_iff]
  constructor
  · rintro hc ⟨a, context⟩ ha
    rcases List.mem_append.mp ha with ha | ha
    · obtain ⟨r, hr, heq⟩ := List.mem_map.mp ha
      obtain ⟨rfl, -⟩ := Prod.mk.inj heq
      exact hc.roots r hr
    · obtain ⟨n, hn, ha⟩ := List.mem_flatMap.mp ha
      obtain ⟨e, he, heq⟩ := List.mem_map.mp ha
      obtain ⟨rfl, -⟩ := Prod.mk.inj heq
      exact hc.edges n hn e he
  · intro hall
    refine ⟨fun r hr => ?_, fun n hn e he => ?_⟩
    · exact hall (r.address, "root") (List.mem_append_left _ (List.mem_map.mpr ⟨r, hr, rfl⟩))
    · exact hall (e.target, "edge") (List.mem_append_right _
        (List.mem_flatMap.mpr ⟨n, hn, List.mem_map.mpr ⟨e, he, rfl⟩⟩))

/-- Where a search that begins with the ids in `before` marked comes to a stop, and the failure that
it stops with: at the first root without a node, when nothing has been expanded yet, or else at an
edge without a node, of the node that is being expanded. -/
inductive StopsAt (g : HeapGraph) (before : List Nat) : Option Node → Failure → Prop where
  | root {earlier later : List Root} {r : Root} (roots : g.roots = earlier ++ r :: later)
      (declared : ∀ r' ∈ earlier, ∃ n, g.HasNode r'.address n)
      (undeclared : ∀ n, ¬ g.HasNode r.address n) :
      StopsAt g before none (.fault (.unresolvedAddress r.address "root" none))
  | edge {n : Node} {e : Edge} (roots : ∀ r ∈ g.roots, ∃ m, g.HasNode r.address m)
      (reached : g.Reached before n) (includable : n.includable = true) (mem : e ∈ n.edges)
      (undeclared : ∀ m, ¬ g.HasNode e.target m) :
      StopsAt g before (some n) (.fault (.unresolvedAddress e.target "edge" none))

end HeapGraph

/-- Only three kinds are internal to objects. -/
lemma Kind.includable_iff (k : Kind) :
    k.includable = true ↔ k ≠ .shape ∧ k ≠ .baseShape ∧ k ≠ .propMap := by
  cases k <;> decide

namespace Marking

variable {g : HeapGraph} {avoid expanding : List Nat} {context : String}

/-! ## One step -/

lemma visit_of_marked {s : Marking} {n : Node} (h : n.id ∈ s.graph.marked) : s.visit n = s := by
  simp [visit, HeapGraph.isMarked, h]

lemma visit_of_unmarked {s : Marking} {n : Node} (h : n.id ∉ s.graph.marked) :
    s.visit n =
      { graph := s.graph.addMark n.id, worklist := n.id :: s.worklist, count := s.count + 1 } := by
  simp [visit, HeapGraph.isMarked, h]

lemma mem_marked_visit (s : Marking) (n : Node) : n.id ∈ (s.visit n).graph.marked := by
  by_cases h : n.id ∈ s.graph.marked
  · rw [visit_of_marked h]; exact h
  · rw [visit_of_unmarked h]; exact List.mem_cons_self

lemma marked_subset_visit (s : Marking) (n : Node) :
    s.graph.marked ⊆ (s.visit n).graph.marked := by
  by_cases h : n.id ∈ s.graph.marked
  · rw [visit_of_marked h]; exact List.Subset.refl _
  · rw [visit_of_unmarked h]; exact List.subset_cons_self _ _

/-- A search of `g` changes nothing of it but the marks. -/
def Of (g : HeapGraph) (s : Marking) : Prop :=
  s.graph = g.withMarks s.graph.marked

lemma Of.visit {s : Marking} (h : Of g s) (n : Node) : Of g (s.visit n) := by
  by_cases hn : n.id ∈ s.graph.marked
  · rw [visit_of_marked hn]; exact h
  · rw [visit_of_unmarked hn, Of, h]; rfl

lemma Of.resolve {s : Marking} (h : Of g s) (a : Address) (context : String) :
    s.graph.resolve a context = g.resolve a context := by
  rw [h, HeapGraph.resolve_withMarks]

lemma Of.follow_eq_ok_iff {s s' : Marking} (h : Of g s) (hg : g.Indexed) {a : Address} :
    follow context s a = .ok s' ↔ ∃ n, g.HasNode a n ∧ s' = s.visit n := by
  rw [follow]
  rw [h.resolve]
  cases hres : g.resolve a context with
  | ok n =>
      have hn := hg.resolve_eq_ok_iff.mp hres
      simp only [Except.ok.injEq]
      constructor
      · rintro rfl; exact ⟨n, hn, rfl⟩
      · rintro ⟨m, hm, rfl⟩; rw [hg.hasNode_unique hn hm]
  | error f =>
      have hno := (hg.resolve_eq_error_iff.mp hres).1
      simp only [reduceCtorEq, false_iff, not_exists, not_and]
      exact fun n hn => absurd hn (hno n)

lemma Of.follow_eq_error_iff {s : Marking} (h : Of g s) (hg : g.Indexed) {a : Address}
    {f : Failure} :
    follow context s a = .error f ↔
      (∀ n, ¬ g.HasNode a n) ∧ f = .fault (.unresolvedAddress a context none) := by
  have hres : g.resolve a context = .error f ↔ _ := hg.resolve_eq_error_iff
  rw [← hres, ← h.resolve, Marking.follow]
  cases s.graph.resolve a context <;> simp

lemma Of.follow {s s' : Marking} (h : Of g s) (hg : g.Indexed) {a : Address}
    (hs : follow context s a = .ok s') : Of g s' := by
  obtain ⟨n, -, rfl⟩ := (h.follow_eq_ok_iff hg).mp hs
  exact h.visit n

lemma marked_subset_follow {s s' : Marking} {a : Address} (h : follow context s a = .ok s') :
    s.graph.marked ⊆ s'.graph.marked := by
  rw [follow] at h
  split at h
  · rename_i n hn
    cases h
    exact marked_subset_visit s n
  · cases h

lemma marked_subset_run (s : Marking) (as : List Address) :
    s.graph.marked ⊆ (Progress.run (follow context) s as).state.graph.marked :=
  Progress.run_induction (motive := fun s' : Marking => s.graph.marked ⊆ s'.graph.marked)
    (List.Subset.refl _) fun _ _ _ _ ih h => List.Subset.trans ih (marked_subset_follow h)

/-- Following a list of addresses to its end marks a node for each of them. -/
lemma Of.run_complete {s : Marking} (h : Of g s) (hg : g.Indexed) {as : List Address}
    (hret : (Progress.run (Marking.follow context) s as).failure = none) :
    ∀ a ∈ as, ∃ n, g.HasNode a n ∧
      n.id ∈ (Progress.run (Marking.follow context) s as).state.graph.marked := by
  induction as generalizing s with
  | nil => simp
  | cons a as ih =>
      rw [Progress.run] at hret ⊢
      cases hs : Marking.follow context s a with
      | error f => simp [hs] at hret
      | ok s' =>
          simp only [hs] at hret ⊢
          intro b hb
          rcases List.mem_cons.mp hb with rfl | hb
          · obtain ⟨n, hn, rfl⟩ := (h.follow_eq_ok_iff hg).mp hs
            exact ⟨n, hn, marked_subset_run _ as (mem_marked_visit s n)⟩
          · exact ih (h.follow hg hs) hret b hb

/-- Following a list of addresses stops at the first one that has no node. -/
lemma Of.run_fails {s : Marking} (h : Of g s) (hg : g.Indexed) {as : List Address} {f : Failure}
    (hf : (Progress.run (Marking.follow context) s as).failure = some f) :
    ∃ before a after, as = before ++ a :: after ∧ (∀ b ∈ before, ∃ n, g.HasNode b n) ∧
      (∀ n, ¬ g.HasNode a n) ∧ f = .fault (.unresolvedAddress a context none) := by
  induction as generalizing s with
  | nil => simp [Progress.run] at hf
  | cons a as ih =>
      rw [Progress.run] at hf
      cases hs : Marking.follow context s a with
      | error f' =>
          simp only [hs, Option.some.injEq] at hf
          obtain ⟨hno, hf'⟩ := (h.follow_eq_error_iff hg).mp hs
          exact ⟨[], a, as, rfl, by simp, hno, hf ▸ hf'⟩
      | ok s' =>
          simp only [hs] at hf
          obtain ⟨n, hn, -⟩ := (h.follow_eq_ok_iff hg).mp hs
          obtain ⟨before, b, after, rfl, hbefore, hb⟩ := ih (h.follow hg hs) hf
          refine ⟨a :: before, b, after, rfl, fun c hc => ?_, hb⟩
          rcases List.mem_cons.mp hc with rfl | hc
          · exact ⟨n, hn⟩
          · exact hbefore c hc

/-! ## Emptying the worklist -/

lemma drain_of_nil {s : Marking} (h : s.worklist = []) : s.drain = { state := s } := by
  rw [drain]
  split
  · rfl
  · rename_i hw; rw [h] at hw; cases hw

lemma drain_of_cons {s : Marking} {id : Nat} {rest : List Nat} {n : Node}
    (hw : s.worklist = id :: rest) (hn : s.graph.node? id = some n) :
    s.drain = (expand { s with worklist := rest } n).andThen drain := by
  rw [drain]
  split
  · rename_i hw'; rw [hw] at hw'; cases hw'
  · rename_i id' rest' hw'
    obtain ⟨rfl, rfl⟩ := List.cons.inj (hw.symm.trans hw')
    simp only [hn, Progress.andThen]
    split <;> rename_i hfail <;> simp [hfail]

/-- What is kept by all expansions that return holds when the worklist is empty, or else it held
before the expansion that fails, and that is where the search ends. -/
lemma drain_cases {motive : Marking → Prop}
    (step : ∀ s id rest, motive s → s.worklist = id :: rest →
      ∃ n, s.graph.node? id = some n ∧
        ((expand { s with worklist := rest } n).failure = none →
          motive (expand { s with worklist := rest } n).state))
    {s : Marking} (h : motive s) :
    (s.drain.failure = none ∧ motive s.drain.state ∧ s.drain.state.worklist = []) ∨
      ∃ s' id rest n, motive s' ∧ s'.worklist = id :: rest ∧ s'.graph.node? id = some n ∧
        s.drain = expand { s' with worklist := rest } n ∧ s.drain.failure ≠ none := by
  induction s using drain.induct with
  | case1 s hw =>
      rw [drain_of_nil hw]
      exact Or.inl ⟨rfl, h, hw⟩
  | case2 s id rest hw popped hnone ih =>
      obtain ⟨n, hn, -⟩ := step s id rest h hw
      rw [hnone] at hn
      cases hn
  | case3 s id rest hw popped n hn hexp ih =>
      obtain ⟨m, hm, hkept⟩ := step s id rest h hw
      obtain rfl : n = m := Option.some.inj (hn.symm.trans hm)
      rw [drain_of_cons hw hn, Progress.andThen, hexp]
      exact ih (hkept hexp)
  | case4 s id rest hw popped n hn f hfail =>
      have heq : s.drain = popped.expand n := by
        rw [drain_of_cons hw hn, Progress.andThen, hfail]
      exact Or.inr ⟨s, id, rest, n, h, hw, hn, heq, by simp [heq, hfail]⟩

/-! ## Three colors -/

/-- The invariant of three colors, for the nodes that a search looks after: if one of them is marked,
and neither on the worklist nor being expanded, then its targets are marked. -/
def ThreeColored (g : HeapGraph) (lookedAfter : Node → Prop) (expanding : List Nat) (s : Marking) :
    Prop :=
  ∀ n, lookedAfter n → n.id ∈ s.graph.marked → n.id ∉ s.worklist → n.id ∉ expanding →
    n.includable = true → ∀ e ∈ n.edges, ∃ m, g.HasNode e.target m ∧ m.id ∈ s.graph.marked

namespace ThreeColored

variable {lookedAfter : Node → Prop} {s : Marking}

lemma visit (h : ThreeColored g lookedAfter expanding s) {n : Node}
    (hm : n.id ∉ s.graph.marked) : ThreeColored g lookedAfter expanding (s.visit n) := by
  rw [visit_of_unmarked hm]
  intro m hlooked hmark hopen hexp hincl e he
  simp only [HeapGraph.addMark, List.mem_cons] at hmark hopen
  rw [not_or] at hopen
  have hmark' : m.id ∈ s.graph.marked := hmark.resolve_left hopen.1
  obtain ⟨t, ht, htm⟩ := h m hlooked hmark' hopen.2 hexp hincl e he
  exact ⟨t, ht, List.mem_cons_of_mem _ htm⟩

/-- An id that is taken off the worklist is being expanded. -/
lemma pop (h : ThreeColored g lookedAfter [] s) {id : Nat} {rest : List Nat}
    (hw : s.worklist = id :: rest) :
    ThreeColored g lookedAfter [id] { s with worklist := rest } := by
  intro m hlooked hmark hopen hexp
  refine h m hlooked hmark ?_ (by simp)
  rw [hw, List.mem_cons, not_or]
  exact ⟨fun heq => hexp (by simp [heq]), hopen⟩

/-- After all of its edges have been followed, a node needs no excuse any more. -/
lemma expanded {n : Node} (h : ThreeColored g lookedAfter [n.id] (s.expand n).state)
    (inside : ∀ m, lookedAfter m → m ∈ g.nodes) (hs : Of g s) (hg : g.Indexed) (hn : n ∈ g.nodes)
    (hret : (s.expand n).failure = none) :
    ThreeColored g lookedAfter [] (s.expand n).state := by
  intro m hlooked hmark hopen _ hincl e he
  by_cases heq : m.id = n.id
  · obtain rfl : m = n := hg.eq_of_id_eq (inside m hlooked) hn heq
    rw [Marking.expand] at hret ⊢
    rw [if_pos hincl] at hret ⊢
    exact hs.run_complete hg hret e.target (List.mem_map.mpr ⟨e, he, rfl⟩)
  · exact h m hlooked hmark hopen (by simpa using heq) hincl e he

end ThreeColored

/-! ## The invariant -/

/-- A search of `g` that began with the ids in `avoid` marked.  The `fresh` marks are its own, and it
looks after all that is reached. -/
structure Searching (g : HeapGraph) (avoid expanding : List Nat) (s : Marking) : Prop where
  graph : Of g s
  marks : ∃ fresh, s.graph.marked = fresh ++ avoid ∧ fresh.length = s.count ∧ fresh.Nodup ∧
    ∀ id ∈ fresh, ∃ n, g.Reached avoid n ∧ n.id = id
  worklist : ∀ id ∈ s.worklist, ∃ n, g.Reached avoid n ∧ n.id = id
  closed : ThreeColored g (g.Reached avoid) expanding s

lemma searching_start (g : HeapGraph) (avoid : List Nat) :
    Searching g avoid [] { graph := g.withMarks avoid } where
  graph := rfl
  marks := ⟨[], rfl, rfl, List.nodup_nil, by simp⟩
  worklist := by simp
  closed n hn hm := absurd hm hn.id_not_mem

namespace Searching

variable {s : Marking}

lemma avoid_subset (h : Searching g avoid expanding s) : avoid ⊆ s.graph.marked := by
  obtain ⟨fresh, heq, -⟩ := h.marks
  rw [heq]
  exact List.subset_append_right _ _

/-- A mark was there before or is on a reached node. -/
lemma mem_marked (h : Searching g avoid expanding s) {id : Nat} (hid : id ∈ s.graph.marked) :
    id ∈ avoid ∨ ∃ n, g.Reached avoid n ∧ n.id = id := by
  obtain ⟨fresh, heq, -, -, hfresh⟩ := h.marks
  rw [heq] at hid
  rcases List.mem_append.mp hid with hid | hid
  · exact Or.inr (hfresh id hid)
  · exact Or.inl hid

/-- Meeting a node keeps the invariant. -/
lemma visit (h : Searching g avoid expanding s) {n : Node}
    (hn : n.id ∉ avoid → g.Reached avoid n) : Searching g avoid expanding (s.visit n) := by
  by_cases hm : n.id ∈ s.graph.marked
  · rw [visit_of_marked hm]; exact h
  · have hreach : g.Reached avoid n := hn fun ha => hm (h.avoid_subset ha)
    refine ⟨h.graph.visit n, ?_, ?_, ?_⟩ <;> rw [visit_of_unmarked hm]
    · obtain ⟨fresh, heq, hlen, hnodup, hfresh⟩ := h.marks
      refine ⟨n.id :: fresh, by simp [HeapGraph.addMark, heq], by simp [hlen], ?_, ?_⟩
      · refine List.nodup_cons.mpr ⟨fun hin => hm ?_, hnodup⟩
        rw [heq]
        exact List.mem_append_left _ hin
      · intro id hid
        rcases List.mem_cons.mp hid with rfl | hid
        · exact ⟨n, hreach, rfl⟩
        · exact hfresh id hid
    · intro id hid
      rcases List.mem_cons.mp hid with rfl | hid
      · exact ⟨n, hreach, rfl⟩
      · exact h.worklist id hid
    · exact visit_of_unmarked hm ▸ h.closed.visit hm

/-- Following addresses keeps the invariant if they lead to reached nodes. -/
lemma run (h : Searching g avoid expanding s) (hg : g.Indexed) {as : List Address}
    (reach : ∀ a ∈ as, ∀ n, g.HasNode a n → n.id ∉ avoid → g.Reached avoid n) :
    Searching g avoid expanding (Progress.run (follow context) s as).state := by
  refine Progress.run_induction (motive := Searching g avoid expanding) h ?_
  intro s a s' ha hs hstep
  obtain ⟨n, hn, rfl⟩ := (hs.graph.follow_eq_ok_iff hg).mp hstep
  exact hs.visit (reach a ha n hn)

/-- The targets of the roots. -/
lemma seed (h : Searching g avoid expanding s) (hg : g.Indexed) :
    Searching g avoid expanding s.seed.state := by
  refine h.run hg fun a ha n hn hout => ?_
  rw [h.graph, HeapGraph.roots_withMarks] at ha
  obtain ⟨r, hr, rfl⟩ := List.mem_map.mp ha
  exact .root hr hn hout

/-- What is taken off the worklist is a reached node, and its expansion begins. -/
lemma pop (h : Searching g avoid [] s) (hg : g.Indexed) {id : Nat} {rest : List Nat}
    (hw : s.worklist = id :: rest) :
    ∃ n, s.graph.node? id = some n ∧ g.Reached avoid n ∧
      Searching g avoid [n.id] { s with worklist := rest } := by
  obtain ⟨n, hn, rfl⟩ := h.worklist id (by rw [hw]; exact List.mem_cons_self)
  refine ⟨n, ?_, hn, h.graph, h.marks, fun i hi => ?_, h.closed.pop hw⟩
  · rw [h.graph, HeapGraph.node?_withMarks]
    exact hg.node?_eq_some_iff.mpr ⟨hn.mem_nodes, rfl⟩
  · exact h.worklist i (by rw [hw]; exact List.mem_cons_of_mem _ hi)

/-- The targets of the edges of a reached node. -/
lemma expand (h : Searching g avoid expanding s) (hg : g.Indexed) {n : Node}
    (hn : g.Reached avoid n) : Searching g avoid expanding (s.expand n).state := by
  rw [Marking.expand]
  split_ifs with hincl
  · refine h.run hg fun a ha m hm hout => ?_
    obtain ⟨e, he, rfl⟩ := List.mem_map.mp ha
    exact .edge hn hincl he hm hout
  · exact h

/-- **An expansion that returns** keeps the invariant, and nobody is excused. -/
lemma expanded {n : Node} (h : Searching g avoid [n.id] s) (hg : g.Indexed)
    (hn : g.Reached avoid n) (hret : (s.expand n).failure = none) :
    Searching g avoid [] (s.expand n).state := by
  have h' := h.expand hg hn
  exact ⟨h'.graph, h'.marks, h'.worklist,
    h'.closed.expanded (fun _ hm => HeapGraph.Reached.mem_nodes hm) h.graph hg hn.mem_nodes hret⟩

end Searching

lemma marked_subset_expand (s : Marking) (n : Node) :
    s.graph.marked ⊆ (s.expand n).state.graph.marked := by
  rw [expand]
  split_ifs
  · exact marked_subset_run s _
  · exact List.Subset.refl _

lemma marked_subset_drain (s : Marking) : s.graph.marked ⊆ s.drain.state.graph.marked := by
  fun_induction drain s with
  | case1 s hw => exact List.Subset.refl _
  | case2 s id rest hw popped hnone => rename_i ih; exact ih
  | case3 s id rest hw popped n hn hret =>
      rename_i ih
      exact List.Subset.trans (marked_subset_expand popped n) ih
  | case4 s id rest hw popped n hn f => exact marked_subset_expand popped n

namespace Searching

variable {s : Marking}

/-- **Emptying the worklist keeps the invariant.**  Either the search returns with an empty worklist,
or it ends where it has failed to expand a reached node. -/
lemma drain (h : Searching g avoid [] s) (hg : g.Indexed) :
    (s.drain.failure = none ∧ Searching g avoid [] s.drain.state ∧ s.drain.state.worklist = []) ∨
      ∃ n s', g.Reached avoid n ∧ Searching g avoid [n.id] s' ∧ s.drain = s'.expand n ∧
        s.drain.failure ≠ none := by
  have hstep : ∀ s id rest, Searching g avoid [] s → s.worklist = id :: rest →
      ∃ n, s.graph.node? id = some n ∧
        ((Marking.expand { s with worklist := rest } n).failure = none →
          Searching g avoid [] (Marking.expand { s with worklist := rest } n).state) := by
    intro s id rest h hw
    obtain ⟨n, hn, hreach, hpop⟩ := h.pop hg hw
    exact ⟨n, hn, hpop.expanded hg hreach⟩
  rcases drain_cases hstep h with hdone | ⟨s', id, rest, n, h', hw, hn, heq, hfail⟩
  · exact Or.inl hdone
  · obtain ⟨m, hm, hreach, hpop⟩ := h'.pop hg hw
    obtain rfl : n = m := Option.some.inj (hn.symm.trans hm)
    exact Or.inr ⟨n, _, hreach, hpop, heq, hfail⟩

/-- A search that returns has an empty worklist, and nobody is excused. -/
lemma drain_returns (h : Searching g avoid [] s) (hg : g.Indexed)
    (hret : s.drain.failure = none) :
    Searching g avoid [] s.drain.state ∧ s.drain.state.worklist = [] := by
  rcases h.drain hg with ⟨-, hdone⟩ | ⟨n, s', -, -, -, hfail⟩
  · exact hdone
  · exact absurd hret hfail

/-- A search that fails does so at an edge of the reached node that it is expanding. -/
lemma drain_fails (h : Searching g avoid [] s) (hg : g.Indexed) {f : Failure}
    (hf : s.drain.failure = some f) :
    ∃ n, Searching g avoid [n.id] s.drain.state ∧ g.Reached avoid n ∧ n.includable = true ∧
      ∃ e ∈ n.edges, (∀ m, ¬ g.HasNode e.target m) ∧
        f = .fault (.unresolvedAddress e.target "edge" none) := by
  rcases h.drain hg with ⟨hret, -⟩ | ⟨n, s', hreach, hpop, heq, -⟩
  · rw [hret] at hf
    cases hf
  · rw [heq] at hf ⊢
    refine ⟨n, hpop.expand hg hreach, hreach, ?_⟩
    rw [Marking.expand] at hf
    split_ifs at hf with hincl
    obtain ⟨before, a, after, hsplit, -, hno, hf'⟩ := hpop.graph.run_fails hg hf
    obtain ⟨e, he, rfl⟩ := List.mem_map.mp
      (show a ∈ n.edges.map (·.target) by rw [hsplit]; simp)
    exact ⟨hincl, e, he, hno, hf'⟩

/-- **Completeness**: once the worklist is empty, marks that include the targets of the roots
include all that is reached. -/
lemma reached_marked (h : Searching g avoid [] s) (hg : g.Indexed) (hw : s.worklist = [])
    (hroots : ∀ r ∈ g.roots, ∃ n, g.HasNode r.address n ∧ n.id ∈ s.graph.marked) {n : Node}
    (hn : g.Reached avoid n) : n.id ∈ s.graph.marked := by
  induction hn with
  | @root r n hr hn _ =>
      obtain ⟨m, hm, hmark⟩ := hroots r hr
      exact hg.hasNode_unique hm hn ▸ hmark
  | @edge n e m hn hincl he hm _ ih =>
      obtain ⟨t, ht, hmark⟩ := h.closed n hn ih (by simp [hw]) (by simp) hincl e he
      exact hg.hasNode_unique ht hm ▸ hmark

/-- The marks that are new are counted, one for each node. -/
lemma count_marked (h : Searching g avoid expanding s) (hg : g.Indexed) :
    g.nodes.countP (g.withMarks avoid).isMarked + s.count
      = g.nodes.countP s.graph.isMarked := by
  obtain ⟨fresh, heq, hlen, hnodup, hfresh⟩ := h.marks
  have hsub (p : Node → Bool) : ((g.nodes.filter p).map Node.id).Nodup :=
    hg.nodup_ids.sublist (List.filter_sublist.map _)
  have hperm : ((g.nodes.filter s.graph.isMarked).map Node.id).Perm
      (fresh ++ (g.nodes.filter (g.withMarks avoid).isMarked).map Node.id) := by
    refine (List.perm_ext_iff_of_nodup (hsub _) ?_).mpr fun id => ?_
    · refine List.nodup_append.mpr ⟨hnodup, hsub _, ?_⟩
      intro id hid id' hid' heq'
      obtain ⟨m, hm, rfl⟩ := hfresh id hid
      obtain ⟨n, hn, rfl⟩ := List.mem_map.mp hid'
      have hn' := (List.mem_filter.mp hn).2
      rw [HeapGraph.isMarked_withMarks, ← heq'] at hn'
      exact hm.id_not_mem hn'
    · simp only [List.mem_map, List.mem_filter, List.mem_append, HeapGraph.isMarked_withMarks]
      rw [h.graph]
      simp only [HeapGraph.isMarked_withMarks, heq, List.mem_append]
      constructor
      · rintro ⟨n, ⟨hn, hid | hid⟩, rfl⟩
        · exact Or.inl hid
        · exact Or.inr ⟨n, ⟨hn, hid⟩, rfl⟩
      · rintro (hid | ⟨n, ⟨hn, hid⟩, rfl⟩)
        · obtain ⟨n, hn, rfl⟩ := hfresh id hid
          exact ⟨n, ⟨hn.mem_nodes, Or.inl hid⟩, rfl⟩
        · exact ⟨n, ⟨hn, Or.inr hid⟩, rfl⟩
  have hlength := hperm.length_eq
  rw [List.length_append, List.length_map, List.length_map, hlen] at hlength
  rw [List.countP_eq_length_filter, List.countP_eq_length_filter]
  omega

end Searching

/-! ## Whole searches -/

/-- A search with a fresh worklist that returns has met the targets of all roots, has nothing left
to do and has kept the invariant. -/
lemma mark_returns (hg : g.Indexed) {s : Marking}
    (hs : (g.withMarks avoid).mark = { state := s }) :
    Searching g avoid [] s ∧ s.worklist = [] ∧
      ∀ r ∈ g.roots, ∃ n, g.HasNode r.address n ∧ n.id ∈ s.graph.marked := by
  have hstart := searching_start g avoid
  have hseed := hstart.seed hg
  rw [HeapGraph.mark, mark, Progress.andThen] at hs
  split at hs
  · rename_i hret
    have hdrain := hseed.drain_returns hg (by rw [hs])
    have hroots := hstart.graph.run_complete hg hret
    have hgrow := marked_subset_drain (Marking.seed { graph := g.withMarks avoid }).state
    rw [hs] at hdrain hgrow
    refine ⟨hdrain.1, hdrain.2, fun r hr => ?_⟩
    obtain ⟨n, hn, hmark⟩ := hroots r.address (List.mem_map.mpr ⟨r, hr, rfl⟩)
    exact ⟨n, hn, hgrow hmark⟩
  · rename_i f hfail
    rw [hs] at hfail
    cases hfail

/-- **A search that fails** stops at a root or an edge without a node, and its invariant holds there
but for the node that it was expanding. -/
lemma mark_stops (hg : g.Indexed) {f : Failure} (hf : (g.withMarks avoid).mark.failure = some f) :
    ∃ expanding, g.StopsAt avoid expanding f ∧
      Searching g avoid (expanding.toList.map Node.id) (g.withMarks avoid).mark.state := by
  have hstart := searching_start g avoid
  have hseed := hstart.seed hg
  rw [HeapGraph.mark, mark, Progress.andThen] at hf ⊢
  cases hret : (seed { graph := g.withMarks avoid }).failure with
  | none =>
      simp only [hret] at hf ⊢
      obtain ⟨n, hsearch, hn, hincl, e, he, hno, rfl⟩ := hseed.drain_fails hg hf
      have hroots : ∀ r ∈ g.roots, ∃ m, g.HasNode r.address m := by
        intro r hr
        obtain ⟨m, hm, -⟩ := hstart.graph.run_complete hg hret r.address (List.mem_map_of_mem hr)
        exact ⟨m, hm⟩
      exact ⟨some n, .edge hroots hn hincl he hno, hsearch⟩
  | some f' =>
      simp only [hret, Option.some.injEq] at hf ⊢
      obtain ⟨front, a, back, hsplit, hdeclared, hno, rfl⟩ := hstart.graph.run_fails hg hret
      obtain ⟨earlier, rest, hroots, rfl, hrest⟩ := List.map_eq_append_iff.mp hsplit
      obtain ⟨r, later, rfl, rfl, -⟩ := List.map_eq_cons_iff.mp hrest
      refine ⟨none, hf ▸ .root hroots (fun r' hr' => ?_) hno, hseed⟩
      exact hdeclared r'.address (List.mem_map_of_mem hr')

/-- A search with a fresh worklist fails only at an address without a node. -/
lemma mark_fails (hg : g.Indexed) {f : Failure}
    (hf : (g.withMarks avoid).mark.failure = some f) : ¬ g.Closed := by
  intro hclosed
  obtain ⟨expanding, hstop, -⟩ := mark_stops hg hf
  cases hstop with
  | @root earlier later r hroots _ hno =>
      obtain ⟨n, hn⟩ := hclosed.roots r (by simp [hroots])
      exact hno n hn
  | @edge n e _ hn _ he hno =>
      obtain ⟨m, hm⟩ := hclosed.edges n hn.mem_nodes e he
      exact hno m hm

/-- **What a returning search has marked**: what it began with and what is reached around it. -/
lemma mem_marked_iff (hg : g.Indexed) {s : Marking}
    (hs : (g.withMarks avoid).mark = { state := s }) {n : Node} (hn : n ∈ g.nodes) :
    n.id ∈ s.graph.marked ↔ n.id ∈ avoid ∨ g.Reached avoid n := by
  obtain ⟨hsearch, hw, hroots⟩ := mark_returns hg hs
  constructor
  · intro hm
    rcases hsearch.mem_marked hm with hm | ⟨m, hm, hid⟩
    · exact Or.inl hm
    · exact Or.inr (hg.eq_of_id_eq hm.mem_nodes hn hid ▸ hm)
  · rintro (hm | hm)
    · exact hsearch.avoid_subset hm
    · exact hsearch.reached_marked hg hw hroots hm

end Marking

/-- **Marking is correct from any starting marks.**  On a built graph whose references are all
declared the search returns; it has marked what was marked `before` and the ends of all paths that
avoid it and pass through includable nodes only; its result is the number of new marks; its worklist
is empty, and nothing but marks has changed.  With nothing marked before, the paths are those that
do not pass through shapes, base shapes and property maps. -/
theorem mark_marks_reached {g : HeapGraph} (built : g.Built) (closed : g.Closed)
    (before : List Nat) :
    ∃ s : Marking, (g.withMarks before).mark = { state := s } ∧
      (∀ n ∈ g.nodes, s.graph.isMarked n = true ↔ n.id ∈ before ∨
        ∃ path, g.IsPath path n ∧ (∀ v ∈ path, v.id ∉ before) ∧
          ∀ v ∈ path.dropLast, v.includable = true) ∧
      g.nodes.countP (g.withMarks before).isMarked + s.count
        = g.nodes.countP s.graph.isMarked ∧
      s.worklist = [] ∧
      s.graph = g.withMarks s.graph.marked ∧
      (before = [] → ∀ n ∈ g.nodes, s.graph.isMarked n = true ↔
        ∃ path, g.IsPath path n ∧
          ∀ v ∈ path.dropLast, v.kind ≠ .shape ∧ v.kind ≠ .baseShape ∧ v.kind ≠ .propMap) := by
  have hg := built.indexed
  obtain ⟨s, hs⟩ : ∃ s : Marking, (g.withMarks before).mark = { state := s } := by
    cases hf : (g.withMarks before).mark.failure with
    | none => exact ⟨(g.withMarks before).mark.state, by rw [← hf]⟩
    | some f => exact absurd closed (Marking.mark_fails hg hf)
  obtain ⟨hsearch, hw, -⟩ := Marking.mark_returns hg hs
  have hmarked : ∀ n ∈ g.nodes, s.graph.isMarked n = true ↔
      n.id ∈ before ∨ g.Reached before n := by
    intro n hn
    rw [hsearch.graph, HeapGraph.isMarked_withMarks]
    exact Marking.mem_marked_iff hg hs hn
  refine ⟨s, hs, fun n hn => ?_, hsearch.count_marked hg, hw, hsearch.graph, ?_⟩
  · rw [hmarked n hn, HeapGraph.reached_iff_exists_path]
  · rintro rfl n hn
    rw [hmarked n hn, HeapGraph.reached_iff_exists_path]
    simp only [List.not_mem_nil, not_false_eq_true, implies_true, true_and, false_or,
      Node.includable, Kind.includable_iff]

/-- A heap with a loop, two edges of one name, a shape on the way to a string, and a scope on the
way to a symbol. -/
def loopedHeap : HeapGraph :=
  [Edit.addNode 0x10 .black .object "" none, .addEdge 0 "next" 0x10, .addEdge 0 "next" 0x11,
    .addNode 0x11 .gray .shape "" none, .addEdge 1 "base" 0x12,
    .addNode 0x12 .black .string "" none, .addNode 0x13 .black .scope "" none,
    .addEdge 0 "objectElements[007]" 0x13, .addEdge 3 "outer" 0x14,
    .addNode 0x14 .black .symbol "" none,
    .addRoot { address := 0x10, color := .black }, .addRoot { address := 0x11, color := .gray },
    .addRoot { address := 0x10, color := .black }].foldl HeapGraph.edit {}

/-- With the scope marked before, neither it nor the shape is passed. -/
theorem loopedHeap_marks :
    loopedHeap.Built ∧ loopedHeap.Closed ∧
      ∃ s : Marking, (loopedHeap.withMarks [3]).mark = { state := s } ∧
        s.graph.marked = [1, 0, 3] ∧ s.count = 2 ∧ s.worklist = [] ∧
        ∀ n ∈ loopedHeap.nodes, s.graph.isMarked n = true ↔ n.id ∈ [3] ∨
          ∃ path, loopedHeap.IsPath path n ∧ (∀ v ∈ path, v.id ∉ [3]) ∧
            ∀ v ∈ path.dropLast, v.includable = true := by
  have built : loopedHeap.Built := ⟨_, rfl⟩
  have closed : loopedHeap.Closed := built.indexed.closed_iff.mpr (by decide)
  obtain ⟨s, hs, hmarked, -, hw, -, -⟩ := mark_marks_reached built closed [3]
  have hstate : s = (loopedHeap.withMarks [3]).mark.state := by rw [hs]
  refine ⟨built, closed, s, hs, ?_, ?_, hw, hmarked⟩
  · rw [hstate]; decide +kernel
  · rw [hstate]; decide +kernel

end HeapReplay
