import HeapReplay.Proofs.Printing

/-!
# Writing and reading heap logs

Two statements make one theorem, `parse_print_round_trip`: a well-formed graph is read back from its
canonical log, and the graph of any log is well-formed.  So the well-formed graphs are exactly the
ones that logs can say.

The first statement is `parse_print`.  For the second, each record that is accepted keeps the graph
`Expressible`.  That keys are numbered as they first occur needs the invariant of `Sound` readers:
an edge goes to the last node, so its label comes last of all labels.
-/

namespace HeapReplay

namespace Dump

/-! ## What is read from words -/

lemma parse?_nonneg {word : String} {a : Address} (h : Address.parse? word = some a) : 0 ≤ a := by
  rw [Address.parse?] at h
  split at h
  · obtain ⟨n, -, rfl⟩ := Option.map_eq_some_iff.mp h
    exact Int.natCast_nonneg n
  · cases h

/-- What stands behind an address and a color. -/
lemma readHead_eq_ok {words rest : List String} {a : Address} {c : Color}
    (h : readHead words = .ok (a, c, rest)) : 0 ≤ a ∧ rest = words.drop 2 := by
  by_cases hne : words = []
  · rw [hne] at h
    cases h
  · rcases head_or_fault hne with ⟨address, color, rest', rfl, ha, hc⟩ | ⟨problem, hhead⟩
    · obtain ⟨a', c', ha', -, hread⟩ := readHead_of_isAddress rest' ha hc
      rw [hread] at h
      cases h
      exact ⟨parse?_nonneg ha', rfl⟩
    · rw [hhead.readHead] at h
      cases h

lemma readRoot_eq_ok {words : List String} {root : Root} (h : readRoot words = .ok root) :
    root.name = Text.unwords (words.drop 2) := by
  cases hhead : readHead words with
  | error problem => rw [readRoot, hhead] at h; cases h
  | ok p =>
      obtain ⟨a, c, rest⟩ := p
      rw [readRoot, hhead] at h
      cases h
      rw [(readHead_eq_ok hhead).2]

lemma readNode_eq_ok {words : List String} {n : NodeRecord} (h : readNode words = .ok n) :
    0 ≤ n.address ∧ n.details = Text.unwords (words.drop 3) := by
  cases hhead : readHead words with
  | error problem => rw [readNode, hhead] at h; cases h
  | ok p =>
      obtain ⟨a, c, rest⟩ := p
      obtain ⟨ha, hrest⟩ := readHead_eq_ok hhead
      rw [readNode, hhead] at h
      cases rest with
      | nil => cases h
      | cons tag details =>
          cases h
          refine ⟨ha, ?_⟩
          have hdrop : words.drop 3 = (words.drop 2).drop 1 := by rw [List.drop_drop]
          rw [hdrop, ← hrest]
          rfl

lemma readEdge_eq_ok {words : List String} {e : EdgeRecord} (h : readEdge words = .ok e) :
    e.name = Text.unwords (words.drop 2) := by
  cases words with
  | nil => cases h
  | cons word rest =>
      rw [readEdge] at h
      cases ha : readAddress word with
      | error problem => rw [ha] at h; cases h
      | ok a =>
          rw [ha] at h
          cases h
          rfl

/-- The words of a line of a log hold no newline. -/
lemma newline_not_mem_words {text : String} {l : Line} (h : l ∈ body text) :
    ∀ w ∈ Text.words l.text, '\n' ∉ w.toList := by
  intro w hw hin
  have hnumbered : l ∈ numberedLines text := (List.takeWhile_sublist _).subset h
  have hline : l.text ∈ (numberedLines text).map Line.text := List.mem_map_of_mem hnumbered
  rw [map_text_numberedLines] at hline
  obtain ⟨cs, hcs, htext⟩ := List.mem_map.mp (List.mem_filter.mp hline).1
  obtain ⟨ws, hws, rfl⟩ := List.mem_map.mp hw
  rw [String.toList_ofList] at hin
  have hmem := (mem_of_mem_splitOn hws hin).1
  rw [← htext, String.toList_ofList] at hmem
  exact (mem_of_mem_splitOn hcs hmem).2 rfl

lemma newline_not_mem_drop {words : List String} (h : ∀ w ∈ words, '\n' ∉ w.toList) (k : Nat) :
    '\n' ∉ (Text.unwords (words.drop k)).toList :=
  newline_not_mem_unwords fun w hw => h w (List.mem_of_mem_drop hw)

end Dump

/-! ## The graphs that are read -/

namespace HeapGraph

lemma expressible_empty : Expressible {} where
  indexed := indexed_empty
  addresses := by simp
  unmarked := rfl
  details := by simp
  rootNames := by simp [roots]
  names := nofun
  distinct := List.nodup_nil
  numbered := rfl
  keys := rfl
  indices := by simp [labelsOf]
  blackRoots := by simp
  grayRoots := by simp

lemma Expressible.addRoot {g : HeapGraph} (h : g.Expressible) {root : Root}
    (hname : '\n' ∉ root.name.toList) : (g.addRoot root).Expressible where
  indexed := h.indexed.addRoot root
  addresses := by simpa using h.addresses
  unmarked := by simpa using h.unmarked
  details := by simpa using h.details
  rootNames := by
    intro r hr
    rcases mem_roots_addRoot.mp hr with rfl | hr
    · exact hname
    · exact h.rootNames r hr
  names := by simpa using h.names
  distinct := by simpa using h.distinct
  numbered := by simpa using h.numbered
  keys := by simpa using h.keys
  indices := by simpa using h.indices
  blackRoots := by
    intro r hr
    rw [blackRoots_addRoot] at hr
    split_ifs at hr with hcolor
    · rcases List.mem_append.mp hr with hr | hr
      · exact h.blackRoots r hr
      · rw [List.mem_singleton.mp hr]
        exact hcolor
    · exact h.blackRoots r hr
  grayRoots := by
    intro r hr
    rw [grayRoots_addRoot] at hr
    split_ifs at hr with hcolor
    · rcases List.mem_append.mp hr with hr | hr
      · exact h.grayRoots r hr
      · rw [List.mem_singleton.mp hr]
        exact hcolor
    · exact h.grayRoots r hr

lemma Expressible.withNode {g : HeapGraph} (h : g.Expressible) {n : Dump.NodeRecord} {kind : Kind}
    (indexed : (g.withNode n kind).Indexed) (haddress : 0 ≤ n.address)
    (hdetails : '\n' ∉ n.details.toList) : (g.withNode n kind).Expressible := by
  have hlabels : labelsOf (g.withNode n kind).nodes = labelsOf g.nodes := by
    simp [HeapGraph.withNode, Dump.NodeRecord.node, labelsOf]
  have hnodes {p : Node → Prop} (hp : ∀ m ∈ g.nodes, p m)
      (hn : p (n.node g.registry.size kind)) : ∀ m ∈ (g.withNode n kind).nodes, p m := by
    intro m hm
    rcases List.mem_append.mp hm with hm | hm
    · exact hp m hm
    · rw [List.mem_singleton.mp hm]
      exact hn
  exact
    { indexed
      addresses := hnodes h.addresses haddress
      unmarked := h.unmarked
      details := hnodes h.details hdetails
      rootNames := h.rootNames
      names := h.names
      distinct := h.distinct
      numbered := h.numbered
      keys := by rw [hlabels]; exact h.keys
      indices := by rw [hlabels]; exact h.indices
      blackRoots := h.blackRoots
      grayRoots := h.grayRoots }

/-- An edge of the last node has the last of all labels. -/
lemma labelsOf_withEdge {g : HeapGraph} (h : g.Indexed) {ns : List Node} {n : Node}
    (hnodes : g.nodes = ns ++ [n]) (e : Edge) (interner : Interner) :
    labelsOf (g.withEdge n.id e interner).nodes = labelsOf g.nodes ++ [e.label] := by
  rw [HeapGraph.withEdge, h.map_extendEdges hnodes, hnodes]
  simp [labelsOf]

lemma Expressible.withEdge {g : HeapGraph} (h : g.Expressible) {ns : List Node} {n : Node}
    (hnodes : g.nodes = ns ++ [n]) {name : String} {e : Edge} {interner : Interner}
    (hintern : g.interner.intern name = .ok (e.label, interner))
    (hname : '\n' ∉ name.toList) (indexed : (g.withEdge n.id e interner).Indexed) :
    (g.withEdge n.id e interner).Expressible := by
  have interned := Interner.interned_of_intern hintern
  have hlabels := labelsOf_withEdge h.indexed hnodes e interner
  have hmap {p : Node → Prop} (hp : ∀ m ∈ g.nodes, p m)
      (hextend : ∀ m, p m → p (extendEdges n.id e m)) :
      ∀ m ∈ (g.withEdge n.id e interner).nodes, p m := by
    intro m hm
    obtain ⟨m', hm', rfl⟩ := List.mem_map.mp hm
    exact hextend m' (hp m' hm')
  exact
    { indexed
      addresses := hmap h.addresses fun m hm => by simpa using hm
      unmarked := h.unmarked
      details := hmap h.details fun m hm => by simpa using hm
      rootNames := h.rootNames
      names := interned.forall_names h.names fun hplain =>
        ⟨hname, (elementDigits?_eq_none_iff hname).mp hplain⟩
      distinct := interned.nodup h.distinct
      numbered := h.numbered.intern hintern
      keys := by rw [hlabels]; exact interned.distinctKeys h.numbered h.keys
      indices := by
        intro i hi
        rw [hlabels] at hi
        rcases List.mem_append.mp hi with hi | hi
        · exact h.indices i hi
        · rw [← List.mem_singleton.mp hi] at interned
          exact interned.short
      blackRoots := h.blackRoots
      grayRoots := h.grayRoots }

end HeapGraph

namespace Dump

open HeapGraph

/-- **A record that is accepted keeps the graph expressible.** -/
lemma Reader.Entered.expressible {r r' : Reader} {words : List String} (h : Entered r words r')
    (sound : r.Sound) (hr : r.graph.Expressible) (hwords : ∀ w ∈ words, '\n' ∉ w.toList) :
    r'.graph.Expressible := by
  have indexed := (h.sound sound).built.indexed
  cases h with
  | root within read =>
      exact hr.addRoot (readRoot_eq_ok read ▸ newline_not_mem_drop hwords 2)
  | weakMap within => exact hr
  | node within unmarked read classified fresh =>
      obtain ⟨haddress, hdetails⟩ := readNode_eq_ok read
      exact hr.withNode indexed haddress (hdetails ▸ newline_not_mem_drop hwords 3)
  | @edge rest owner e label interner within marked owned read interned =>
      obtain ⟨ns, n, hnodes, rfl⟩ := sound.exists_last owned
      have hrest : ∀ w ∈ rest, '\n' ∉ w.toList := fun w hw =>
        hwords w (by rw [marked]; exact List.mem_cons_of_mem _ hw)
      have hname : '\n' ∉ e.name.toList := readEdge_eq_ok read ▸ newline_not_mem_drop hrest 2
      exact hr.withEdge hnodes interned hname indexed

/-- The graph of a log is well-formed. -/
lemma wellFormed_of_parse {file text : String} {g : HeapGraph} (h : parse file text = .ok g) :
    g.WellFormed := by
  obtain ⟨r, hrun, hd, rfl⟩ := parse_eq_ok_iff.mp h
  have hinv : (Progress.run (Reader.step file) {} (body text)).state.Sound ∧
      (Progress.run (Reader.step file) {} (body text)).state.graph.Expressible := by
    refine Progress.run_induction (motive := fun r : Reader => r.Sound ∧ r.graph.Expressible)
      ⟨Reader.sound_initial, expressible_empty⟩ ?_
    rintro r l r' hl ⟨sound, hr⟩ hstep
    refine ⟨sound.step hstep, ?_⟩
    rw [Reader.step] at hstep
    cases hentry : l.entry with
    | header opened =>
        rw [hentry] at hstep
        obtain rfl := Except.ok.inj hstep
        exact hr
    | comment => rw [hentry] at hstep; exact Except.ok.inj hstep ▸ hr
    | trailer => rw [hentry] at hstep; exact Except.ok.inj hstep ▸ hr
    | record =>
        rw [hentry] at hstep
        exact (Reader.enter_eq_ok_iff.mp hstep).expressible sound hr (newline_not_mem_words hl)
  rw [hrun] at hinv
  exact ⟨hinv.2, hinv.1.built.indexed.closed_iff.mpr hd⟩

/-- **The round trip, and what it covers.**  A well-formed graph is read back from its canonical
log, and the well-formed graphs are exactly the graphs of logs.  So the graph of any log is read
back from the log that is printed for it. -/
theorem parse_print_round_trip (file : String) :
    (∀ g : HeapGraph, g.WellFormed → parse file (print g) = .ok g) ∧
    (∀ g : HeapGraph, g.WellFormed ↔ ∃ text, parse file text = .ok g) ∧
    ∀ text g, parse file text = .ok g → parse file (print g) = .ok g :=
  ⟨fun _ h => parse_print h file,
    fun g => ⟨fun h => ⟨print g, parse_print h file⟩, fun ⟨_, h⟩ => wellFormed_of_parse h⟩,
    fun _ _ h => parse_print (wellFormed_of_parse h) file⟩

/-- The heap with a loop survives being written and read. -/
theorem loopedHeap_read_back :
    loopedHeap.WellFormed ∧ parse "heap.log" (print loopedHeap) = .ok loopedHeap ∧
      ∃ text, parse "heap.log" text = .ok loopedHeap := by
  have built : loopedHeap.Built := ⟨_, rfl⟩
  have hplain : ∀ name ∈ loopedHeap.interner.names,
      '\n' ∉ name.toList ∧ elementDigits? name = none := by decide +kernel
  have hlabels : labelsOf loopedHeap.nodes = [.key 0, .key 0, .index 7, .key 1, .key 2] := by
    decide +kernel
  have wellFormed : loopedHeap.WellFormed :=
    { indexed := built.indexed
      addresses := by decide +kernel
      unmarked := built.marked_eq_nil
      details := by decide +kernel
      rootNames := by decide +kernel
      names := fun name hname => ⟨(hplain name hname).1,
        (elementDigits?_eq_none_iff (hplain name hname).1).mp (hplain name hname).2⟩
      distinct := by decide +kernel
      numbered := by decide +kernel
      keys := by rw [hlabels]; decide +kernel
      indices := by
        intro i hi
        obtain rfl : i = 7 := by simpa [hlabels] using hi
        decide
      blackRoots := by decide +kernel
      grayRoots := by decide +kernel
      closed := built.indexed.closed_iff.mpr (by decide +kernel) }
  obtain ⟨hread, hiff, -⟩ := parse_print_round_trip "heap.log"
  exact ⟨wellFormed, hread loopedHeap wellFormed, (hiff loopedHeap).mp wellFormed⟩

end Dump

end HeapReplay
