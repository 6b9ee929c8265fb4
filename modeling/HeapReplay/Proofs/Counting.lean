import HeapReplay.Graph.Stats
import HeapReplay.Proofs.Finishing
import HeapReplay.Proofs.Interleaving
import HeapReplay.Proofs.Interning
import HeapReplay.Proofs.Outlining
import HeapReplay.Proofs.RoundTrip
import Mathlib.Algebra.Ring.Int.Defs

/-!
# Statistics

The statistics of a graph are taken from different places: from its nodes, its roots, its marks, the
edges of its nodes, and its table of names.  They have to agree with each other, and with what a
reader of a log can count there.

**With each other.**  After any history the kinds that are listed make up all nodes, and the names
that are counted are those that some edge has for a label (`Reconciled`).  Only the second is not
seen at once: the table of names is filled by edges and by nothing else, and what is put down in it
is used by the edge that it was put down for (`Keyed`).

**With the log.**  Each record that is accepted adds one to the count that it belongs to, and a weak
map adds nothing (`Reader.Tallied`).  The table of names is what the names of the edges make of an
empty one, so it lists those that do not name elements, once each.  Marks are counted by the search
that sets them.  What the statistics of a log come to is `Tallies`, which speaks of the outline of
the log alone.
-/

namespace HeapReplay

/-! ## Kinds -/

/-- Kinds without nodes add nothing. -/
lemma sum_filter_pos {α : Type} (f : α → Nat) (as : List α) :
    ((as.filter (0 < f ·)).map fun a => (f a : Int)).sum = (as.map fun a => (f a : Int)).sum := by
  induction as with
  | nil => rfl
  | cons a as ih =>
      rw [List.filter_cons, List.map_cons, List.sum_cons, ← ih]
      split_ifs with ha
      · rw [List.map_cons, List.sum_cons]
      · have hzero : f a = 0 := by simpa using ha
        simp [hzero]

/-- Every node is of one kind. -/
lemma sum_countP_kind (ns : List Node) :
    (Kind.all.map fun k => (ns.countP (·.kind = k) : Int)).sum = ns.length := by
  induction ns with
  | nil => rfl
  | cons n ns ih =>
      simp only [Kind.all, List.map_cons, List.map_nil, List.sum_cons, List.sum_nil] at ih
      simp only [Kind.all, List.map_cons, List.map_nil, List.sum_cons, List.sum_nil,
        List.countP_cons, List.length_cons]
      cases n.kind <;> simp <;> omega

/-! ## Keys -/

/-- An edge that is added to a node adds its label to the labels. -/
lemma mem_labelsOf_extendEdges {ns : List Node} {source : Nat} {e : Edge} {l : Label}
    (owned : ∃ n ∈ ns, n.id = source) :
    l ∈ labelsOf (ns.map (HeapGraph.extendEdges source e)) ↔ l ∈ labelsOf ns ∨ l = e.label := by
  have hone : ∀ n : Node, l ∈ (HeapGraph.extendEdges source e n).edges.map (·.label) ↔
      l ∈ n.edges.map (·.label) ∨ n.id = source ∧ l = e.label := by
    intro n
    rw [HeapGraph.extendEdges]
    split_ifs with hid
    · simp [hid, or_comm]
    · simp [hid]
  simp only [labelsOf, List.flatMap_map, List.mem_flatMap, hone]
  constructor
  · rintro ⟨n, hn, hl | ⟨-, hl⟩⟩
    · exact Or.inl ⟨n, hn, hl⟩
    · exact Or.inr hl
  · rintro (⟨n, hn, hl⟩ | hl)
    · exact ⟨n, hn, Or.inl hl⟩
    · obtain ⟨n, hn, hid⟩ := owned
      exact ⟨n, hn, Or.inr ⟨hid, hl⟩⟩

namespace HeapGraph

variable {g : HeapGraph}

/-- Keys are given in order, and those that have been given are those that edges have. -/
structure Keyed (g : HeapGraph) : Prop where
  numbered : g.interner.Numbered
  dense : ∀ k, .key k ∈ labelsOf g.nodes ↔ k < g.interner.size

lemma Keyed.addEdge (h : g.Keyed) {source : Nat} (owned : ∃ n ∈ g.nodes, n.id = source)
    {name : String} {l : Label} {interner : Interner} (target : Address)
    (hintern : g.interner.intern name = .ok (l, interner)) :
    Keyed { g with
      nodes := g.nodes.map (extendEdges source { target, label := l })
      interner } where
  numbered := h.numbered.intern hintern
  dense := by
    intro k
    rw [mem_labelsOf_extendEdges owned, h.dense k]
    cases Interner.interned_of_intern hintern with
    | index _ _ => simp
    | @known i _ found =>
        have hsize := h.numbered.lt_size_of_key? found
        simp only [Label.key.injEq]
        omega
    | fresh _ _ =>
        simp only [Label.key.injEq, Interner.size_insert]
        omega

/-- **Every edit keeps names and edges together**, refused ones included. -/
lemma Keyed.edit (h : g.Keyed) (e : Edit) : (g.edit e).Keyed := by
  cases e with
  | addNode a color kind details location =>
      simp only [HeapGraph.edit]
      cases hadd : g.addNode a color kind details location with
      | error f => exact h
      | ok p =>
          obtain ⟨n, g'⟩ := p
          obtain ⟨-, rfl, rfl⟩ := addNode_eq_ok_iff.mp hadd
          refine ⟨h.numbered, fun k => ?_⟩
          rw [← h.dense k]
          simp [labelsOf]
  | addRoot r =>
      constructor
      · rw [HeapGraph.edit, interner_addRoot]
        exact h.numbered
      · rw [HeapGraph.edit, nodes_addRoot, interner_addRoot]
        exact h.dense
  | addEdge source name target =>
      simp only [HeapGraph.edit]
      split_ifs with hnone
      · exact h
      · cases hadd : g.addEdge source name target with
        | error f => exact h
        | ok p =>
            obtain ⟨l, g'⟩ := p
            obtain ⟨interner, hintern, rfl⟩ := addEdge_eq_ok_iff.mp hadd
            obtain ⟨n, hn⟩ := Option.ne_none_iff_exists'.mp (by simpa using hnone)
            refine h.addEdge ⟨n, List.mem_of_find?_eq_some hn, ?_⟩ target hintern
            simpa using List.find?_some hn

/-- What the statistics of a graph have to do with each other and with the graph. -/
structure Reconciled (g : HeapGraph) : Prop where
  /-- Each kind that is listed has nodes, and they are counted. -/
  counts : ∀ p ∈ g.stats.nodesByKind, 0 < p.2 ∧
    ∃ k : Kind, p.1 = k.name ∧ p.2 = g.nodes.countP (·.kind = k)
  order : (g.stats.nodesByKind.map Prod.fst).Sublist (Kind.all.map Kind.name)
  total : (g.stats.nodesByKind.map Prod.snd).sum = g.stats.totalNodes
  /-- The names that are counted are the keys of the edges, each once. -/
  names : g.stats.propertyNames
    = ((labelsOf g.nodes).filterMap Label.key?).eraseDups.length
  dense : ∀ k : Nat, .key k ∈ labelsOf g.nodes ↔ (k : Int) < g.stats.propertyNames
  marked : g.stats.markedNodes ≤ g.stats.totalNodes

/-- **Statistics agree with each other** where names and edges are kept together. -/
lemma Keyed.reconciled (h : g.Keyed) : g.Reconciled where
  counts p hp := by
    obtain ⟨k, hk, rfl⟩ := List.mem_map.mp hp
    have hpos : 0 < g.countKind k := by simpa using (List.mem_filter.mp hk).2
    exact ⟨by simpa using hpos, k, rfl, rfl⟩
  order := by
    rw [stats, List.map_map]
    exact List.filter_sublist.map Kind.name
  total := by
    rw [stats, List.map_map]
    exact (sum_filter_pos g.countKind Kind.all).trans (sum_countP_kind g.nodes)
  names := by
    have hmem : ∀ k, k ∈ ((labelsOf g.nodes).filterMap Label.key?).eraseDups ↔
        k ∈ List.range g.interner.size := by
      intro k
      rw [← Script.distinctKeys_eq_eraseDups, Script.mem_distinctKeys, h.dense k, List.mem_range]
    have hperm := (List.perm_ext_iff_of_nodup (nodup_eraseDups _) List.nodup_range).mpr hmem
    rw [hperm.length_eq, List.length_range]
    rfl
  dense k := (h.dense k).trans Int.ofNat_lt.symm
  marked := Int.ofNat_le.mpr List.countP_le_length

end HeapGraph

namespace Session

/-- **Names and edges are kept together by every event**: a search changes marks alone, even one
that fails. -/
lemma keyed_run (events : List Event) : (run events).graph.Keyed := by
  induction events using List.reverseRecOn with
  | nil => exact ⟨rfl, fun k => by simp [run, labelsOf, Interner.size]⟩
  | append_singleton events e ih =>
      have hsound := sound_run events
      rw [run, List.foldl_concat, ← run]
      cases e with
      | edit e => exact ih.edit e
      | newMarker => exact ih
      | mark marker =>
          rw [step, search]
          cases hw : (run events).worklists[marker]? with
          | none => exact ih
          | some worklist =>
              obtain ⟨expanding, hsearch, -⟩ := (hsound.continuing hw).mark hsound.indexed
              dsimp only [Option.map_some]
              rw [hsearch.graph]
              exact ⟨ih.numbered, ih.dense⟩

end Session

/-! ## Records -/

lemma Color.letter_injective : Function.Injective letter := fun c c' h => by
  rw [← Option.some_inj, ← ofLetter?_letter c, h, ofLetter?_letter]

lemma Color.ofLetter?_eq_some_iff {word : String} {c : Color} :
    ofLetter? word = some c ↔ word = c.letter := by
  constructor
  · intro h
    rw [ofLetter?.eq_def] at h
    split at h <;> cases h <;> rfl
  · rintro rfl
    exact ofLetter?_letter c

namespace Dump

/-- A record of a root of the given color. -/
def Placed.IsRoot (c : Color) (p : Placed) : Prop :=
  p.within = some .roots ∧ p.words[1]? = some c.letter

instance (c : Color) (p : Placed) : Decidable (p.IsRoot c) :=
  inferInstanceAs (Decidable (_ ∧ _))

/-- The names of the edges among some records. -/
def edgeNames (records : List Placed) : List String :=
  (records.filter (·.IsEdge)).map Placed.edgeName

lemma edgeNames_snoc (records : List Placed) (p : Placed) :
    edgeNames (records ++ [p]) = edgeNames records ++ if p.IsEdge then [p.edgeName] else [] := by
  rw [edgeNames, List.filter_append, List.map_append, ← edgeNames]
  by_cases h : p.IsEdge <;> simp [h]

/-- **What the statistics of a log have to do with its records.**  The number of newly marked nodes
is what a search of the graph answers. -/
structure Tallies (text : String) (newlyMarked : Nat) (s : Stats) : Prop where
  nodes : s.totalNodes = (outline text).countP (·.IsNode)
  edges : s.edges = (outline text).countP (·.IsEdge)
  blackRoots : s.blackRoots = (outline text).countP (·.IsRoot .black)
  grayRoots : s.grayRoots = (outline text).countP (·.IsRoot .gray)
  /-- Names of elements are left out, and every other name counts once. -/
  names : s.propertyNames
    = ((edgeNames (outline text)).filter fun name => ¬ IsElementName name).eraseDups.length
  marked : s.markedNodes = newlyMarked

/-- The second word of a root is the letter of its color. -/
lemma color_of_readRoot {words : List String} {root : Root} (h : readRoot words = .ok root) :
    words[1]? = some root.color.letter := by
  by_cases hne : words = []
  · rw [hne] at h
    cases h
  · rcases head_or_fault hne with ⟨address, color, rest, rfl, ha, hcolor⟩ | ⟨problem, hhead⟩
    · obtain ⟨a, c, -, hc, hread⟩ := readHead_of_isAddress rest ha hcolor
      rw [readRoot, hread] at h
      cases h
      rw [List.getElem?_cons_succ, List.getElem?_cons_zero, Color.ofLetter?_eq_some_iff.mp hc]
    · rw [readRoot, hhead.readHead] at h
      cases h

/-- Names of edges stay on one line. -/
lemma newline_not_mem_of_mem_edgeNames {text name : String} (h : name ∈ edgeNames (outline text)) :
    '\n' ∉ name.toList := by
  obtain ⟨p, hp, rfl⟩ := List.mem_map.mp h
  have hline : p.line ∈ body text := line_mem_of_mem_outlineFrom (List.mem_filter.mp hp).1
  exact newline_not_mem_drop (newline_not_mem_words hline) 3

/-! ## Readers -/

namespace Reader

/-- A reader has taken in some records, each of which has added to one count. -/
structure Tallied (records : List Placed) (r : Reader) : Prop where
  nodes : r.graph.nodes.length = records.countP (·.IsNode)
  edges : (r.graph.nodes.flatMap (·.edges)).length = records.countP (·.IsEdge)
  blackRoots : r.graph.blackRoots.length = records.countP (·.IsRoot .black)
  grayRoots : r.graph.grayRoots.length = records.countP (·.IsRoot .gray)
  /-- The table of names is what the names of the edges make of an empty one. -/
  interner : r.graph.interner = Interner.after {} (edgeNames records)

variable {file : String} {records : List Placed} {r r' : Reader} {p : Placed}

/-- What a record adds to a reader is what it adds to the counts. -/
lemma Tallied.snoc (h : Tallied records r)
    (nodes : r'.graph.nodes.length = r.graph.nodes.length + if p.IsNode then 1 else 0)
    (edges : (r'.graph.nodes.flatMap (·.edges)).length
      = (r.graph.nodes.flatMap (·.edges)).length + if p.IsEdge then 1 else 0)
    (blackRoots : r'.graph.blackRoots.length
      = r.graph.blackRoots.length + if p.IsRoot .black then 1 else 0)
    (grayRoots : r'.graph.grayRoots.length
      = r.graph.grayRoots.length + if p.IsRoot .gray then 1 else 0)
    (interner : r'.graph.interner
      = r.graph.interner.after (if p.IsEdge then [p.edgeName] else [])) :
    Tallied (records ++ [p]) r' := by
  have hcount (q : Placed → Prop) [DecidablePred q] :
      (records ++ [p]).countP (q ·) = records.countP (q ·) + if q p then 1 else 0 := by
    rw [List.countP_append, List.countP_singleton]
    simp only [decide_eq_true_eq]
  refine ⟨?_, ?_, ?_, ?_, ?_⟩
  · rw [nodes, h.nodes, hcount]
  · rw [edges, h.edges, hcount]
  · rw [blackRoots, h.blackRoots, hcount]
  · rw [grayRoots, h.grayRoots, hcount]
  · rw [interner, h.interner, edgeNames_snoc, Interner.after_append]

/-- **A record adds one to the count that it belongs to**, and nothing to the others. -/
lemma Tallied.enterAt (h : Tallied records r) (sound : r.Sound)
    (hentered : r.enterAt file p = .ok r') : Tallied (records ++ [p]) r' := by
  have hnode (hp : p.within ≠ some .main) : ¬ p.IsNode := fun hn => hp hn.1
  have hedge (hp : p.within ≠ some .main) : ¬ p.IsEdge := fun he => hp he.1
  have hroot (hp : p.within ≠ some .roots) (c : Color) : ¬ p.IsRoot c := fun hr => hp hr.1
  cases enter_eq_ok_iff.mp hentered with
  | @root root within read =>
      have hp : p.within = some .roots := within
      have hletter : p.words[1]? = some root.color.letter := color_of_readRoot read
      have hcolor (c : Color) : p.IsRoot c ↔ root.color = c := by
        simp only [Placed.IsRoot, hp, hletter, true_and, Option.some.injEq,
          Color.letter_injective.eq_iff]
      have hnode' := hnode (by simp [hp])
      have hedge' := hedge (by simp [hp])
      refine h.snoc ?_ ?_ ?_ ?_ ?_
      · simp [addRoot, hnode']
      · simp [addRoot, hedge']
      · simp only [addRoot, HeapGraph.blackRoots_addRoot, hcolor]
        split_ifs <;> simp
      · simp only [addRoot, HeapGraph.grayRoots_addRoot, hcolor]
        split_ifs <;> simp
      · simp [addRoot, hedge', Interner.after]
  | weakMap within =>
      have hp : p.within = some .weakMaps := within
      have hnode' := hnode (by simp [hp])
      have hedge' := hedge (by simp [hp])
      have hroot' := hroot (by simp [hp])
      exact h.snoc (by simp [hnode']) (by simp [hedge']) (by simp [hroot']) (by simp [hroot'])
        (by simp [hedge', Interner.after])
  | @node n kind within unmarked read classified fresh =>
      have hp : p.within = some .main := within
      have hroot' := hroot (by simp [hp])
      obtain ⟨rest, hwords⟩ := p.exists_words
      have hfirst : p.first ≠ edgeMarker := fun heq => unmarked (by
        rw [← Placed.words, hwords, heq]
        rfl)
      have hnode' : p.IsNode := ⟨hp, hfirst⟩
      have hedge' : ¬ p.IsEdge := fun he => hfirst he.2
      refine h.snoc ?_ ?_ ?_ ?_ ?_
      · simp [HeapGraph.withNode, hnode']
      · simp [HeapGraph.withNode, NodeRecord.node, hedge']
      · simp [HeapGraph.withNode, hroot']
      · simp [HeapGraph.withNode, hroot']
      · simp [HeapGraph.withNode, hedge', Interner.after]
  | @edge rest owner e label interner within marked owned read interned =>
      have hp : p.within = some .main := within
      have hroot' := hroot (by simp [hp])
      have hwords : p.words = edgeMarker :: rest := marked
      have hfirst := Placed.first_of_words hwords
      have hnode' : ¬ p.IsNode := fun hn => hn.2 hfirst
      have hedge' : p.IsEdge := ⟨hp, hfirst⟩
      have hname : e.name = p.edgeName := by
        rw [readEdge_eq_ok read, Placed.edgeName, hwords]
        rfl
      obtain ⟨ns, n, hnodes, rfl⟩ := sound.exists_last owned
      refine h.snoc ?_ ?_ ?_ ?_ ?_
      · simp [HeapGraph.withEdge, hnode']
      · -- the nodes are mapped, but only the last one has a further edge
        rw [HeapGraph.withEdge, sound.built.indexed.map_extendEdges hnodes, hnodes]
        simp [hedge', Nat.add_assoc]
      · simp [HeapGraph.withEdge, hroot']
      · simp [HeapGraph.withEdge, hroot']
      · rw [if_pos hedge', ← hname, Interner.after, List.foldl_cons, List.foldl_nil,
          Interner.answer_of_ok interned]
        rfl

/-- **A reader that has taken in records has counted them**, wherever their sections stand. -/
lemma tallied_of_run (h : Progress.run (Reader.enterAt file) {} records = { state := r }) :
    Tallied records r :=
  run_enterAt_induction ⟨rfl, rfl, rfl, rfl, rfl⟩
    (fun hr sound hentered => hr.enterAt sound hentered) h

end Reader

/-- The names that are counted are those of edges that do not name elements. -/
lemma size_after_edgeNames (text : String) :
    (Interner.after {} (edgeNames (outline text))).size
      = ((edgeNames (outline text)).filter fun name => ¬ IsElementName name).eraseDups.length := by
  rw [← Interner.length_names, Interner.names_after]
  congr 2
  refine List.filter_congr fun name hname => ?_
  rw [decide_eq_decide]
  exact elementDigits?_eq_none_iff (newline_not_mem_of_mem_edgeNames hname)

/-- **An accepted log is counted by its statistics**, the nodes marked included. -/
lemma tallies_of_parse {file text : String} {g : HeapGraph} (h : parse file text = .ok g) :
    ∃ s, g.mark = { state := s } ∧ buildGraph file text = .ok s.graph ∧
      Tallies text s.count s.graph.stats := by
  have built := built_of_parse h
  have hg := built.indexed
  obtain ⟨s, hs⟩ := hg.mark_of_closed (closed_of_parse h) []
  have hstart : g.withMarks [] = g := by rw [← built.marked_eq_nil, HeapGraph.withMarks_marked]
  have hsearch := (Marking.mark_returns hg hs).1
  have hgraph : s.graph = g.withMarks s.graph.marked := hsearch.graph
  have hunmarked : g.nodes.countP (g.withMarks []).isMarked = 0 :=
    List.countP_eq_zero.mpr fun n _ => by simp [HeapGraph.isMarked_withMarks]
  have hcounted := hsearch.count_marked hg
  rw [hunmarked, Nat.zero_add] at hcounted
  rw [hstart] at hs
  refine ⟨s, hs, buildGraph_eq_ok_iff.mpr ⟨g, s, h, hs, rfl⟩, ?_⟩
  obtain ⟨r, hrun, -, rfl⟩ := parse_eq_ok_iff_outline.mp h
  have tallied := Reader.tallied_of_run hrun
  have hnodes : s.graph.nodes = r.graph.nodes := by rw [hgraph]; rfl
  have hinterner : s.graph.interner = r.graph.interner := by rw [hgraph]; rfl
  exact
    { nodes := by rw [HeapGraph.stats, hnodes, tallied.nodes]
      edges := by rw [HeapGraph.stats, hnodes, tallied.edges]
      blackRoots := by rw [hgraph]; exact congrArg Int.ofNat tallied.blackRoots
      grayRoots := by rw [hgraph]; exact congrArg Int.ofNat tallied.grayRoots
      names := by rw [HeapGraph.stats, hinterner, tallied.interner, size_after_edgeNames]
      marked := by rw [HeapGraph.stats, hnodes, hcounted] }

end Dump

/-- **Statistics reconcile**, with each other and with the log.  Whatever edits and searches have
come before, in whatever order and however they have ended, the counts of a graph agree with each
other.  The graph of an accepted log, with the nodes marked that are in use, counts the records of
the log, and it has as many marks as the search says it has set. -/
theorem statistics_reconcile :
    (∀ events : List Event, (Session.run events).graph.Reconciled) ∧
    ∀ (file text : String) (g : HeapGraph), Dump.parse file text = .ok g →
      ∃ s, g.mark = { state := s } ∧ buildGraph file text = .ok s.graph ∧
        Dump.Tallies text s.count s.graph.stats :=
  ⟨fun events => (Session.keyed_run events).reconciled, fun _ _ _ => Dump.tallies_of_parse⟩

/-- A log whose sections come twice, with a comment and a weak map in between, with one name on two
edges, an element, and a node that is not in use. -/
def countedLog : String :=
  "# Roots.\n0x1 B a\n==========\n0x1 B scope\n> 0x2 B s\n> 0x2 B objectElements[7]\n" ++
    "# Weak maps.\nx\n# Roots.\n0x2 G b\n==========\n#\n> 0x1 B s\n0x2 B string\n" ++
    "0x3 B scope\n\x7b\nx"

/-- What follows the trailer is not counted, and neither are the weak map and the element; two of
the three nodes are marked. -/
theorem countedLog_counted :
    ∃ g s, Dump.parse "heap.log" countedLog = .ok g ∧ g.mark = { state := s } ∧
      buildGraph "heap.log" countedLog = .ok s.graph ∧
      s.graph.stats.totalNodes = 3 ∧ s.graph.stats.edges = 3 ∧ s.graph.stats.blackRoots = 1 ∧
      s.graph.stats.grayRoots = 1 ∧ s.graph.stats.propertyNames = 1 ∧
      s.graph.stats.markedNodes = s.count ∧ s.count = 2 := by
  have accepted : (Dump.parse "heap.log" countedLog).map (·.mark.state.count) = .ok 2 := by
    decide +kernel
  have outlined : Dump.outline countedLog = [
      ⟨some .roots, ⟨2, "0x1 B a"⟩⟩, ⟨some .main, ⟨4, "0x1 B scope"⟩⟩,
      ⟨some .main, ⟨5, "> 0x2 B s"⟩⟩, ⟨some .main, ⟨6, "> 0x2 B objectElements[7]"⟩⟩,
      ⟨some .weakMaps, ⟨8, "x"⟩⟩, ⟨some .roots, ⟨10, "0x2 G b"⟩⟩,
      ⟨some .main, ⟨13, "> 0x1 B s"⟩⟩, ⟨some .main, ⟨14, "0x2 B string"⟩⟩,
      ⟨some .main, ⟨15, "0x3 B scope"⟩⟩] := by
    decide +kernel
  cases hg : Dump.parse "heap.log" countedLog with
  | error f =>
      rw [hg] at accepted
      cases accepted
  | ok g =>
      rw [hg] at accepted
      have hcount : g.mark.state.count = 2 := Except.ok.inj accepted
      obtain ⟨s, hs, hbuilt, tallies⟩ := statistics_reconcile.2 "heap.log" countedLog g hg
      rw [hs] at hcount
      refine ⟨g, s, rfl, hs, hbuilt, ?_, ?_, ?_, ?_, ?_, tallies.marked, hcount⟩
      · rw [tallies.nodes, outlined]; decide +kernel
      · rw [tallies.edges, outlined]; decide +kernel
      · rw [tallies.blackRoots, outlined]; decide +kernel
      · rw [tallies.grayRoots, outlined]; decide +kernel
      · rw [tallies.names, outlined]; decide +kernel

end HeapReplay
