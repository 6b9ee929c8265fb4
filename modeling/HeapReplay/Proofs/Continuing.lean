import HeapReplay.Proofs.Searching

/-!
# Searches that go on

A search need not begin from nothing.  Marks may be there that earlier searches have set, and its
worklist may hold what an earlier one has left when it failed; other markers of the same graph may
have left worklists of their own, which it does not touch.

`Continuing` is what such a search keeps at every step, and so also at the moment when it fails:

* **marks are sound**: each of them is on a node that is reached from the roots;
* **worklists are apart**: what is on them is marked, and nothing is on them twice, neither on one
  nor on two;
* **marks are closed**, as far as this search is concerned: a marked node that is neither on its
  worklist nor `settled` nor being expanded has marked targets only.  Settled are the nodes that it
  has found marked and not on its worklist; nobody expands them again.

The last point is the invariant of three colors, for the nodes that are not settled.
-/

namespace HeapReplay.Marking

/-- A search of `g` beside worklists that hold the ids in `others`. -/
structure Continuing (g : HeapGraph) (others : List Nat) (settled : Nat → Prop)
    (expanding : List Nat) (s : Marking) : Prop where
  graph : Of g s
  reached : ∀ id ∈ s.graph.marked, ∃ n, g.Reached [] n ∧ n.id = id
  opened : s.worklist ++ others ⊆ s.graph.marked
  once : (s.worklist ++ others).Nodup
  closed : ThreeColored g (fun n => n ∈ g.nodes ∧ ¬ settled n.id) expanding s

namespace Continuing

variable {g : HeapGraph} {others expanding : List Nat} {settled : Nat → Prop} {s : Marking}
  {context : String}

/-- What was marked and is off the worklist when the search begins is settled. -/
lemma start {worklist : List Nat} (reached : ∀ id ∈ g.marked, ∃ n, g.Reached [] n ∧ n.id = id)
    (opened : worklist ++ others ⊆ g.marked) (once : (worklist ++ others).Nodup) (count : Nat) :
    Continuing g others (fun id => id ∈ g.marked ∧ id ∉ worklist) []
      { graph := g, worklist, count } where
  graph := rfl
  reached := reached
  opened := opened
  once := once
  closed _ hlooked hmark hopen := absurd ⟨hmark, hopen⟩ hlooked.2

/-- Meeting a reached node keeps the invariant. -/
lemma visit (h : Continuing g others settled expanding s) {n : Node} (hn : g.Reached [] n) :
    Continuing g others settled expanding (s.visit n) := by
  by_cases hm : n.id ∈ s.graph.marked
  · rw [visit_of_marked hm]; exact h
  · refine ⟨h.graph.visit n, ?_, ?_, ?_, ?_⟩ <;> rw [visit_of_unmarked hm]
    · intro id hid
      rcases List.mem_cons.mp hid with rfl | hid
      · exact ⟨n, hn, rfl⟩
      · exact h.reached id hid
    · exact List.cons_subset_cons n.id h.opened
    · exact List.nodup_cons.mpr ⟨fun hopen => hm (h.opened hopen), h.once⟩
    · exact visit_of_unmarked hm ▸ h.closed.visit hm

/-- Following addresses keeps the invariant if they lead to reached nodes. -/
lemma run (h : Continuing g others settled expanding s) (hg : g.Indexed) {as : List Address}
    (reach : ∀ a ∈ as, ∀ n, g.HasNode a n → g.Reached [] n) :
    Continuing g others settled expanding (Progress.run (follow context) s as).state := by
  refine Progress.run_induction (motive := Continuing g others settled expanding) h ?_
  intro s a s' ha hs hstep
  obtain ⟨n, hn, rfl⟩ := (hs.graph.follow_eq_ok_iff hg).mp hstep
  exact hs.visit (reach a ha n hn)

lemma seed (h : Continuing g others settled expanding s) (hg : g.Indexed) :
    Continuing g others settled expanding s.seed.state := by
  refine h.run hg fun a ha n hn => ?_
  rw [h.graph, HeapGraph.roots_withMarks] at ha
  obtain ⟨r, hr, rfl⟩ := List.mem_map.mp ha
  exact .root hr hn (by simp)

/-- What is taken off the worklist is the id of a reached node, and its expansion begins. -/
lemma pop (h : Continuing g others settled [] s) (hg : g.Indexed) {id : Nat} {rest : List Nat}
    (hw : s.worklist = id :: rest) :
    ∃ n, s.graph.node? id = some n ∧ g.Reached [] n ∧
      Continuing g others settled [n.id] { s with worklist := rest } := by
  obtain ⟨n, hn, rfl⟩ := h.reached id (h.opened (by rw [hw]; exact List.mem_cons_self))
  refine ⟨n, ?_, hn, h.graph, h.reached, fun i hi => ?_, ?_, h.closed.pop hw⟩
  · rw [h.graph, HeapGraph.node?_withMarks]
    exact hg.node?_eq_some_iff.mpr ⟨hn.mem_nodes, rfl⟩
  · exact h.opened (by rw [hw]; exact List.mem_cons_of_mem _ hi)
  · have honce := h.once
    rw [hw, List.cons_append, List.nodup_cons] at honce
    exact honce.2

/-- The targets of the edges of a reached node are reached. -/
lemma expand (h : Continuing g others settled expanding s) (hg : g.Indexed) {n : Node}
    (hn : g.Reached [] n) : Continuing g others settled expanding (s.expand n).state := by
  rw [Marking.expand]
  split_ifs with hincl
  · refine h.run hg fun a ha m hm => ?_
    obtain ⟨e, he, rfl⟩ := List.mem_map.mp ha
    exact .edge hn hincl he hm (by simp)
  · exact h

/-- **An expansion that returns** keeps the invariant, and nobody is excused. -/
lemma expanded {n : Node} (h : Continuing g others settled [n.id] s) (hg : g.Indexed)
    (hn : g.Reached [] n) (hret : (s.expand n).failure = none) :
    Continuing g others settled [] (s.expand n).state := by
  have h' := h.expand hg hn
  exact ⟨h'.graph, h'.reached, h'.opened, h'.once,
    h'.closed.expanded (fun _ hlooked => hlooked.1) h.graph hg hn.mem_nodes hret⟩

/-- **Emptying the worklist keeps the invariant**, and if it returns, nobody is excused. -/
lemma drain (h : Continuing g others settled [] s) (hg : g.Indexed) :
    ∃ expanding, Continuing g others settled expanding s.drain.state ∧
      (s.drain.failure = none → expanding = [] ∧ s.drain.state.worklist = []) := by
  have hstep : ∀ s id rest, Continuing g others settled [] s → s.worklist = id :: rest →
      ∃ n, s.graph.node? id = some n ∧
        ((Marking.expand { s with worklist := rest } n).failure = none →
          Continuing g others settled [] (Marking.expand { s with worklist := rest } n).state) := by
    intro s id rest h hw
    obtain ⟨n, hn, hreach, hpop⟩ := h.pop hg hw
    exact ⟨n, hn, hpop.expanded hg hreach⟩
  rcases drain_cases hstep h with ⟨-, hdone, hempty⟩ | ⟨s', id, rest, n, h', hw, hn, heq, hfail⟩
  · exact ⟨[], hdone, fun _ => ⟨rfl, hempty⟩⟩
  · obtain ⟨m, hm, hreach, hpop⟩ := h'.pop hg hw
    obtain rfl : n = m := Option.some.inj (hn.symm.trans hm)
    exact ⟨[n.id], heq ▸ hpop.expand hg hreach, fun hret => absurd hret hfail⟩

/-- **A whole search keeps the invariant.**  If it returns, nobody is excused, the worklist is
empty, and the targets of all roots are marked. -/
lemma mark (h : Continuing g others settled [] s) (hg : g.Indexed) :
    ∃ expanding, Continuing g others settled expanding s.mark.state ∧
      (s.mark.failure = none → expanding = [] ∧ s.mark.state.worklist = [] ∧
        ∀ r ∈ g.roots, ∃ n, g.HasNode r.address n ∧ n.id ∈ s.mark.state.graph.marked) := by
  have hstart : Continuing g others settled [] { s with count := 0 } :=
    ⟨h.graph, h.reached, h.opened, h.once, h.closed⟩
  have hseed := hstart.seed hg
  rw [Marking.mark, Progress.andThen]
  split
  · rename_i hret
    obtain ⟨expanding, hdrain, hend⟩ := hseed.drain hg
    refine ⟨expanding, hdrain, fun hret' => ⟨(hend hret').1, (hend hret').2, fun r hr => ?_⟩⟩
    have haddress : r.address ∈ s.graph.roots.map (·.address) := by
      rw [h.graph, HeapGraph.roots_withMarks]
      exact List.mem_map_of_mem hr
    obtain ⟨n, hn, hmark⟩ := hstart.graph.run_complete hg hret r.address haddress
    exact ⟨n, hn, marked_subset_drain _ hmark⟩
  · rename_i f hfail
    refine ⟨[], hseed, fun hret => ?_⟩
    rw [hfail] at hret
    cases hret

end Continuing

lemma marked_subset_seed (s : Marking) : s.graph.marked ⊆ s.seed.state.graph.marked :=
  marked_subset_run s _

/-- A search takes no mark away. -/
lemma marked_subset_mark (s : Marking) : s.graph.marked ⊆ s.mark.state.graph.marked := by
  have hseed := marked_subset_seed { s with count := 0 }
  rw [mark, Progress.andThen]
  split
  · exact List.Subset.trans hseed (marked_subset_drain _)
  · exact hseed

end HeapReplay.Marking
