import HeapReplay.Proofs.Outlining
import Mathlib.Data.List.Forall2

/-!
# What each section contributes

The records of a log may stand in sections that repeat and interleave, yet the sections do not
touch each other: roots come from the records of the roots sections alone, nodes and names from the
records of the main sections alone, each in their order.  `parts_of_parse` takes an accepted log
apart in this way.  Its main half is a reader that has seen nothing but the main records.
-/

namespace HeapReplay.Dump

/-- The lines of a section among some records. -/
def sectionLines (s : Section) (records : List Placed) : List Line :=
  (records.filter (·.within = some s)).map (·.line)

lemma sectionLines_snoc (s : Section) (records : List Placed) (p : Placed) :
    sectionLines s (records ++ [p])
      = sectionLines s records ++ if p.within = some s then [p.line] else [] := by
  rw [sectionLines, List.filter_append, List.map_append, ← sectionLines]
  by_cases h : p.within = some s <;> simp [h]

namespace Reader

variable {file : String}

/-- Two readers that have the same nodes, names and owner. -/
structure SameMain (r m : Reader) : Prop where
  nodes : r.graph.nodes = m.graph.nodes
  registry : r.graph.registry = m.graph.registry
  interner : r.graph.interner = m.graph.interner
  owner : r.owner = m.owner

/-- A reader has the roots of the roots records and the nodes of the main records, each as if there
were no others. -/
structure HasParts (file : String) (records : List Placed) (r : Reader) : Prop where
  roots : ∃ roots, List.Forall₂ (fun l root => readRoot (Text.words l.text) = .ok root)
      (sectionLines .roots records) roots ∧
    r.graph.blackRoots = roots.filter (·.color = .black) ∧
    r.graph.grayRoots = roots.filter (·.color = .gray)
  main : ∃ m, Progress.run (Reader.enter file) { within := some .main } (sectionLines .main records)
      = { state := m } ∧ m.within = some .main ∧ r.SameMain m

lemma hasParts_initial (file : String) : HasParts file [] {} where
  roots := ⟨[], List.Forall₂.nil, rfl, rfl⟩
  main := ⟨_, rfl, rfl, rfl, rfl, rfl, rfl⟩

/-- **A record adds to one part at most.** -/
lemma HasParts.enterAt {records : List Placed} {r r' : Reader} {p : Placed}
    (h : HasParts file records r) (hentered : r.enterAt file p = .ok r') :
    HasParts file (records ++ [p]) r' := by
  obtain ⟨roots, hroots, hblack, hgray⟩ := h.roots
  obtain ⟨m, hrun, hmain, hsame⟩ := h.main
  have hsnoc {m' : Reader} (hm : m.enter file p.line = .ok m') :
      Progress.run (Reader.enter file) { within := some .main }
        (sectionLines .main records ++ [p.line]) = { state := m' } :=
    Progress.run_append_eq_ok.mpr ⟨m, hrun, Progress.run_cons_eq_ok.mpr ⟨m', hm, rfl⟩⟩
  cases enter_eq_ok_iff.mp hentered with
  | @root root within read =>
      have hp : p.within = some .roots := within
      refine ⟨⟨roots ++ [root], ?_, ?_, ?_⟩, m, ?_, hmain, ?_⟩
      · rw [sectionLines_snoc, if_pos hp]
        exact List.rel_append hroots (.cons read .nil)
      · rw [addRoot, HeapGraph.blackRoots_addRoot, hblack]
        cases hcolor : root.color <;> simp [hcolor]
      · rw [addRoot, HeapGraph.grayRoots_addRoot, hgray]
        cases hcolor : root.color <;> simp [hcolor]
      · rw [sectionLines_snoc, if_neg (by simp [hp]), List.append_nil, hrun]
      · exact ⟨by simp [addRoot, hsame.nodes], by simp [addRoot, hsame.registry],
          by simp [addRoot, hsame.interner], hsame.owner⟩
  | weakMap within =>
      have hp : p.within = some .weakMaps := within
      refine ⟨⟨roots, ?_, hblack, hgray⟩, m, ?_, hmain,
        hsame.nodes, hsame.registry, hsame.interner, hsame.owner⟩
      · rwa [sectionLines_snoc, if_neg (by simp [hp]), List.append_nil]
      · rwa [sectionLines_snoc, if_neg (by simp [hp]), List.append_nil]
  | @node n kind within unmarked read classified fresh =>
      have hp : p.within = some .main := within
      have hm : m.enter file p.line = .ok _ :=
        enter_eq_ok_iff.mpr (.node hmain unmarked read classified (hsame.registry ▸ fresh))
      refine ⟨⟨roots, ?_, hblack, hgray⟩, { m with
        graph := m.graph.withNode n kind, owner := some m.graph.registry.size }, ?_, hmain, ?_⟩
      · rwa [sectionLines_snoc, if_neg (by simp [hp]), List.append_nil]
      · rw [sectionLines_snoc, if_pos hp]
        exact hsnoc hm
      · exact ⟨by simp [HeapGraph.withNode, hsame.nodes, hsame.registry],
          by simp [HeapGraph.withNode, hsame.registry], hsame.interner,
          by simp [hsame.registry]⟩
  | @edge rest owner e label interner within marked owned read interned =>
      have hp : p.within = some .main := within
      have hm : m.enter file p.line = .ok _ :=
        enter_eq_ok_iff.mpr (.edge hmain marked (hsame.owner ▸ owned) read
          (hsame.interner ▸ interned))
      refine ⟨⟨roots, ?_, hblack, hgray⟩, { m with
        graph := m.graph.withEdge owner { target := e.target, label } interner }, ?_, hmain, ?_⟩
      · rwa [sectionLines_snoc, if_neg (by simp [hp]), List.append_nil]
      · rw [sectionLines_snoc, if_pos hp]
        exact hsnoc hm
      · exact ⟨by simp [HeapGraph.withEdge, hsame.nodes], hsame.registry, rfl, hsame.owner⟩

/-- Records fall into two parts, however their sections interleave. -/
lemma hasParts_of_run {records : List Placed} {r : Reader}
    (h : Progress.run (Reader.enterAt file) {} records = { state := r }) :
    HasParts file records r :=
  run_enterAt_induction (hasParts_initial file) (fun hr _ hentered => hr.enterAt hentered) h

end Reader

/-- **An accepted log falls into two parts**: its roots are those of the roots sections, its nodes
and names those of a reader that has seen the main sections only. -/
theorem parts_of_parse {file text : String} {g : HeapGraph} (h : parse file text = .ok g) :
    (∃ roots, List.Forall₂ (fun l root => readRoot (Text.words l.text) = .ok root)
        (recordsIn .roots text) roots ∧
      g.blackRoots = roots.filter (·.color = .black) ∧
      g.grayRoots = roots.filter (·.color = .gray)) ∧
    ∃ m, Progress.run (Reader.enter file) { within := some .main } (recordsIn .main text)
      = { state := m } ∧ g.nodes = m.graph.nodes := by
  obtain ⟨r, hrun, -, rfl⟩ := parse_eq_ok_iff_outline.mp h
  have hparts := Reader.hasParts_of_run hrun
  obtain ⟨m, hmain, -, hsame⟩ := hparts.main
  exact ⟨hparts.roots, m, hmain, hsame.nodes⟩

end HeapReplay.Dump
