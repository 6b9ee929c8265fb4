import HeapReplay.Proofs.Rebuilding

/-!
# When a script rebuilds the heap

`script_rebuilds` says for which styles the lines of a script rebuild the live part of a graph.  The
names of a style can be accepted, tell all nodes and both collectors apart and still not do: the
language knows some of them.  A script **calls** three functions at most, that which makes symbols
and the two collectors, and each call can miss what it is meant for.

* A collector with the name `Symbol` takes the place of the function that makes symbols, and nodes
  that should hold symbols hold its array.
* A collector that is named by a reserved word cannot be called, and its lines cannot be read.

`Available` rules out both, each only where it does harm, and there is no third way to miss: **the
heap is rebuilt exactly if the names are available**.

Nor does the language keep all labels apart.  Indices are written in full, but beyond `2 ^ 53`
different ones can be one number and so one slot.  `Rebuilds` speaks of places for this reason;
`lookalikes_not_rebuilt` has two labels that share one.
-/

namespace HeapReplay

open Script

namespace Script

variable {style : Style} {g : HeapGraph}

/-- The script of a marked graph is written to its end, and running its lines rebuilds `g`. -/
def Reproduces (style : Style) (g marked : HeapGraph) : Prop :=
  (emission style marked).failure = none ∧
    ∃ value m, runLines style.host (emission style marked).lines = .ok m ∧
      Rebuilds style g value m

/-- Whether the names that the script of a graph calls mean what they are meant to. -/
structure Available (style : Style) (g : HeapGraph) : Prop where
  /-- If symbols are made, no collector has the name of the function that makes them. -/
  maker : ∀ n, g.Live n → n.kind = .symbol → ∀ color, style.collector color ≠ "Symbol"
  /-- If roots of a color are written, no reserved word names their collector. -/
  callable : ∀ color, g.includedRoots (g.rootsOf color) ≠ [] →
    style.collector color ∉ reservedWords

/-! ## What is bound stays bound -/

section Bindings

variable {host : Host} {m m' : Memory}

lemma bindings_of_bind {x : String} {v : Value} (h : m.bind x v = .ok m') :
    m.bindings.lookup x = none ∧ m'.bindings = m.bindings ++ [(x, v)] := by
  rw [Memory.bind] at h
  cases hx : m.bindings.lookup x with
  | some w => rw [hx] at h; cases h
  | none =>
      rw [hx] at h
      exact ⟨rfl, by rw [← Except.ok.inj h]⟩

lemma bindings_of_call {name : String} {v : Value} (h : m.call host name = .ok (v, m')) :
    m'.bindings = m.bindings := by
  rw [Memory.call] at h
  split at h
  · cases h
  · rw [← (Prod.mk.inj (Except.ok.inj h)).2]
  · split_ifs at h
    rw [← (Prod.mk.inj (Except.ok.inj h)).2]

/-- **No statement unbinds or rebinds a variable.** -/
lemma bindings_prefix_of_step {s : Statement} (h : Memory.step host m s = .ok m') :
    m.bindings <+: m'.bindings := by
  cases s with
  | openFunction | closeFunction => cases h
  | blank => exact Except.ok.inj h ▸ List.prefix_refl _
  | declareString x content =>
      rw [(bindings_of_bind h).2]
      exact List.prefix_append _ _
  | declareSymbol x =>
      obtain ⟨⟨v, m₁⟩, hcall, hbind⟩ := bind_eq_ok_iff.mp h
      rw [(bindings_of_bind hbind).2, bindings_of_call hcall]
      exact List.prefix_append _ _
  | declareObject x properties =>
      rw [(bindings_of_bind h).2]
      exact List.prefix_append _ _
  | setProperty x property y | setElement x index y =>
      obtain ⟨v, -, h⟩ := bind_eq_ok_iff.mp h
      obtain ⟨w, -, h⟩ := bind_eq_ok_iff.mp h
      have hsame : m'.bindings = m.bindings := by rw [← Except.ok.inj h, bindings_setSlot]
      exact hsame ▸ List.prefix_refl _
  | setRoot collector position y =>
      obtain ⟨⟨v, m₁⟩, hcall, h⟩ := bind_eq_ok_iff.mp h
      obtain ⟨w, -, h⟩ := bind_eq_ok_iff.mp h
      have hsame : m'.bindings = m.bindings := by
        rw [← Except.ok.inj h, bindings_setSlot, bindings_of_call hcall]
      exact hsame ▸ List.prefix_refl _

lemma bindings_prefix_of_execute {ss : List Statement} (h : execute host ss m = .ok m') :
    m.bindings <+: m'.bindings := by
  induction ss generalizing m with
  | nil => exact Except.ok.inj h ▸ List.prefix_refl _
  | cons s ss ih =>
      rw [execute, List.foldlM_cons] at h
      obtain ⟨m₁, hstep, hrest⟩ := bind_eq_ok_iff.mp h
      exact (bindings_prefix_of_step hstep).trans (ih hrest)

lemma lookup_of_prefix {x : String} {v : Value} (h : m.bindings <+: m'.bindings)
    (hv : m.bindings.lookup x = some v) : m'.bindings.lookup x = some v := by
  obtain ⟨extra, hextra⟩ := h
  rw [← hextra, List.lookup_append, hv, Option.some_or]

end Bindings

/-- **A collector that stands where symbols are made** is what the variables for symbols get. -/
lemma lookup_of_declareSymbol {host : Host} {color : Color}
    (hcolor : host.color? "Symbol" = some color) {ss : List Statement} {m m' : Memory}
    (h : execute host ss m = .ok m') {x : String} (hx : .declareSymbol x ∈ ss) :
    m'.bindings.lookup x = some (.roots color) := by
  induction ss generalizing m with
  | nil => cases hx
  | cons s ss ih =>
      rw [execute, List.foldlM_cons] at h
      obtain ⟨m₁, hstep, hrest⟩ := bind_eq_ok_iff.mp h
      rcases List.mem_cons.mp hx with rfl | hx
      · obtain ⟨⟨v, m₂⟩, hcall, hbind⟩ := bind_eq_ok_iff.mp hstep
        have hv : v = .roots color := by
          rw [Memory.call, hcolor] at hcall
          cases hname : m.bindings.lookup "Symbol" with
          | some w => rw [hname] at hcall; cases hcall
          | none =>
              rw [hname] at hcall
              exact (Prod.mk.inj (Except.ok.inj hcall)).1.symm
        obtain ⟨hfresh, hbindings⟩ := bindings_of_bind hbind
        have hlookup : m₁.bindings.lookup x = some (.roots color) := by
          rw [hbindings, List.lookup_append, hfresh, Option.none_or, lookup_cons_eq_ite,
            if_pos rfl, hv]
        exact lookup_of_prefix (bindings_prefix_of_execute hrest) hlookup
      · exact ih hrest hx

/-! ## Marked graphs -/

/-- A search that returns has marked the live nodes, and all that their edges and the roots lead
to is there. -/
lemma emitted_of_mark (built : g.Built) {s : Marking} (hs : g.mark = { state := s }) :
    s.graph = g.withMarks s.graph.marked ∧ (∀ n, n ∈ emittedNodes s.graph ↔ g.Live n) ∧
      Complete s.graph := by
  have hg := built.indexed
  have hstart : g.withMarks [] = g := by rw [← built.marked_eq_nil, HeapGraph.withMarks_marked]
  rw [← hstart] at hs
  obtain ⟨hsearch, hw, hroots⟩ := Marking.mark_returns hg hs
  have hmarked : ∀ n ∈ g.nodes, n.id ∈ s.graph.marked ↔ g.Reached [] n := by
    intro n hn
    rw [Marking.mem_marked_iff hg hs hn]
    simp
  have hgraph : s.graph = g.withMarks s.graph.marked := hsearch.graph
  have hlive : ∀ n, n ∈ emittedNodes (g.withMarks s.graph.marked) ↔ g.Live n := by
    intro n
    simp only [emittedNodes, List.mem_filter, Bool.and_eq_true, HeapGraph.isMarked_withMarks,
      HeapGraph.nodes_withMarks, HeapGraph.Live]
    constructor
    · rintro ⟨hn, hmark, hincl⟩
      exact ⟨(hmarked n hn).mp hmark, hincl⟩
    · rintro ⟨hreach, hincl⟩
      exact ⟨hreach.mem_nodes, (hmarked n hreach.mem_nodes).mpr hreach, hincl⟩
  have complete : Complete (g.withMarks s.graph.marked) := by
    refine ⟨fun n hn e he => ?_, fun r hr => ?_⟩
    · obtain ⟨hreach, hincl⟩ := (hlive n).mp hn
      have hmark := (hmarked n hreach.mem_nodes).mpr hreach
      obtain ⟨t, ht, -⟩ := hsearch.closed n hreach hmark (by simp [hw]) (by simp) hincl e he
      exact ⟨t, ht⟩
    · obtain ⟨t, ht, -⟩ := hroots r hr
      exact ⟨t, ht⟩
  rw [← hgraph] at hlive complete
  exact ⟨hgraph, hlive, complete⟩

/-- The variable of an emitted node that is a symbol is declared as one. -/
lemma declareSymbol_mem_scriptBody {n : Node} (hn : n ∈ emittedNodes g)
    (hsymbol : n.kind = .symbol) :
    .declareSymbol (style.nodeName n.id) ∈ scriptBody style g := by
  have hmem := List.mem_map_of_mem (f := declare style g) hn
  rw [declare, hsymbol] at hmem
  simp only [scriptBody, List.mem_append]
  exact Or.inl (Or.inl (Or.inl (Or.inl hmem)))

/-- If roots of a color are included, their collector is called. -/
lemma exists_setRoot_mem_script {color : Color}
    (hroots : g.includedRoots (g.rootsOf color) ≠ []) :
    ∃ x, .setRoot (style.collector color) 0 x ∈ script style g := by
  obtain ⟨n, rest, hnodes⟩ := List.exists_cons_of_ne_nil hroots
  have hcollect : .setRoot (style.collector color) 0 (style.nodeName n.id) ∈
      collect style (style.collector color) 0 (g.includedRoots (g.rootsOf color)) := by
    rw [hnodes, collect, List.zipIdx_cons]
    exact List.mem_cons_self
  refine ⟨style.nodeName n.id, ?_⟩
  simp only [script, scriptBody, List.mem_append]
  cases color
  · exact Or.inl (Or.inr (Or.inr (Or.inl hcollect)))
  · exact Or.inl (Or.inr (Or.inr (Or.inr hcollect)))

section Names

variable (accepted : style.check = .ok style)
  (oneLine : ∀ role, '\n' ∉ (style.name role).toList)

include accepted oneLine

/-- The statements of a script can be read if no reserved word is called. -/
lemma wellNamed_of_callable (callable : ∀ color, g.includedRoots (g.rootsOf color) ≠ [] →
    style.collector color ∉ reservedWords) : ∀ s ∈ script style g, s.WellNamed := by
  intro s hs
  refine (written_of_mem_script hs).wellNamed (isIdentifier_of_check accepted oneLine)
    fun x hx => ?_
  rcases calls_of_mem_script hs hx with rfl | ⟨color, rfl, hroots⟩
  · decide
  · exact callable color hroots

/-- If the lines of a script are read, no reserved word is called. -/
lemma callable_of_runLines {host : Host} {m : Memory}
    (h : runLines host ((script style g).map Statement.text) = .ok m) (color : Color)
    (hroots : g.includedRoots (g.rootsOf color) ≠ []) :
    style.collector color ∉ reservedWords := by
  intro hreserved
  obtain ⟨x, hmem⟩ := exists_setRoot_mem_script hroots
  obtain ⟨statements, hread, -⟩ := bind_eq_ok_iff.mp h
  obtain ⟨s, hs⟩ := exists_of_mapM_eq_ok hread _ (List.mem_map_of_mem hmem)
  have hident : Text.isIdentifier (style.collector color).toList = true := by
    cases color
    · exact isIdentifier_of_check accepted oneLine .blackCollector
    · exact isIdentifier_of_check accepted oneLine .grayCollector
  rw [readLine, read?_setRoot_of_reserved hident hreserved] at hs
  cases hs

/-- **A search that returns leaves a graph whose script rebuilds what was searched**, exactly if the
names that it calls are available. -/
lemma reproduces_iff_of_mark (apart : style.blackCollector ≠ style.grayCollector)
    (free : ∀ id, style.blackCollector ≠ style.nodeName id ∧
      style.grayCollector ≠ style.nodeName id)
    (built : g.Built) {s : Marking} (hs : g.mark = { state := s }) :
    Reproduces style g s.graph ↔ Available style g := by
  have hg := built.indexed
  obtain ⟨hgraph, hlive, complete⟩ := emitted_of_mark built hs
  rw [hgraph] at hlive complete ⊢
  generalize s.graph.marked = marks at hlive complete ⊢
  have hemit : emission style (g.withMarks marks) = .ofList (script style (g.withMarks marks)) :=
    emission_eq_ofList (hg.withMarks marks) complete
  have hroots : ∀ color, (g.withMarks marks).includedRoots ((g.withMarks marks).rootsOf color)
      = g.includedRoots (g.rootsOf color) := by
    intro color
    cases color <;> rfl
  rw [Reproduces, hemit]
  constructor
  · rintro ⟨-, value, m, hrun, hrebuilds⟩
    have callable := callable_of_runLines accepted oneLine hrun
    refine ⟨fun n hn hsymbol color hname => ?_, fun color h => callable color (by rwa [hroots])⟩
    have hbody := hrun
    rw [Emission.lines, Emission.ofList,
      runLines_script (wellNamed_of_callable accepted oneLine callable)] at hbody
    have hdeclared : .declareSymbol (style.nodeName n.id) ∈
        scriptBody style (g.withMarks marks) :=
      declareSymbol_mem_scriptBody ((hlive n).mpr hn) hsymbol
    have hcolor : style.host.color? "Symbol" = some color := hname ▸ color?_collector apart color
    obtain ⟨n', hn', -, hvalue⟩ :=
      (hrebuilds.bound _ _).mp (lookup_of_declareSymbol hcolor hbody hdeclared)
    have hfits := hrebuilds.fits n' hn'
    rw [← hvalue] at hfits
    exact hfits
  · rintro ⟨maker, callable⟩
    obtain ⟨value, m, hrun, hrebuilds⟩ := execute_scriptBody hg hlive apart free maker
    refine ⟨rfl, value, m, ?_, hrebuilds⟩
    refine (runLines_script (wellNamed_of_callable accepted oneLine fun color h => ?_)).trans hrun
    exact callable color (by rwa [← hroots])

end Names

end Script

/-- **Scripts rebuild heaps.**  Let the names of a style be accepted and hold no newline, and let
its collectors be told apart and not be named like nodes.  Whatever graph is built, if a search of
it returns then its script is written to the end; and its lines run to the end and leave the live
part of the graph exactly if the names that they call are available.  This holds of every log that
is read and marked.  Labels are told apart by their places as long as their indices are exact. -/
theorem script_rebuilds {style : Script.Style} (accepted : style.check = .ok style)
    (oneLine : ∀ role, '\n' ∉ (style.name role).toList)
    (apart : style.blackCollector ≠ style.grayCollector)
    (free : ∀ id, style.blackCollector ≠ style.nodeName id ∧
      style.grayCollector ≠ style.nodeName id) :
    (∀ (g : HeapGraph) (s : Marking), g.Built → g.mark = { state := s } →
      (emission style s.graph).failure = none ∧
        (Reproduces style g s.graph ↔ Available style g)) ∧
    (∀ file text marked, buildGraph file text = .ok marked →
      ∃ g, Dump.parse file text = .ok g ∧ (emission style marked).failure = none ∧
        (Reproduces style g marked ↔ Available style g)) ∧
    ∀ l l' : Label, (∀ i, l = .index i ∨ l' = .index i → i ≤ Number.exactBound) →
      (Place.ofLabel l = .ofLabel l' ↔ l = l') := by
  have hbuilt : ∀ (g : HeapGraph) (s : Marking), g.Built → g.mark = { state := s } →
      (emission style s.graph).failure = none ∧
        (Reproduces style g s.graph ↔ Available style g) := by
    intro g s built hs
    obtain ⟨hgraph, -, complete⟩ := emitted_of_mark built hs
    have hindexed : s.graph.Indexed := hgraph ▸ built.indexed.withMarks s.graph.marked
    exact ⟨(emission_complete_iff hindexed).mpr complete,
      reproduces_iff_of_mark accepted oneLine apart free built hs⟩
  refine ⟨hbuilt, fun file text marked h => ?_, fun l l' h => Place.ofLabel_eq_iff h⟩
  obtain ⟨g, s, hparse, hmark, rfl⟩ := buildGraph_eq_ok_iff.mp h
  exact ⟨g, hparse, hbuilt g s (Dump.built_of_parse hparse) hmark⟩

/-- The usual names fit together and are available, and the script that is written with them
rebuilds the heap with a loop. -/
theorem loopedHeap_rebuilt :
    ({} : Script.Style).check = .ok {} ∧ loopedHeap.Built ∧ loopedHeap.mark.failure = none ∧
      Available {} loopedHeap ∧ Reproduces {} loopedHeap loopedHeap.mark.state.graph := by
  have accepted : ({} : Script.Style).check = .ok {} := by decide
  have oneLine : ∀ role, '\n' ∉ (({} : Script.Style).name role).toList := by
    intro role
    cases role <;> decide
  have free : ∀ id, "blackRoot" ≠ ({} : Script.Style).nodeName id ∧
      "grayRoot" ≠ ({} : Script.Style).nodeName id := fun id =>
    ⟨(append_toString_ne (by decide) "n" id).symm, (append_toString_ne (by decide) "n" id).symm⟩
  have available : Available {} loopedHeap :=
    ⟨fun _ _ _ color => by cases color <;> decide, fun color _ => by cases color <;> decide⟩
  have built : loopedHeap.Built := ⟨_, rfl⟩
  have returns : loopedHeap.mark.failure = none := by decide +kernel
  have hmark : loopedHeap.mark = { state := loopedHeap.mark.state } := by rw [← returns]
  refine ⟨accepted, built, returns, available, ?_⟩
  exact ((script_rebuilds accepted oneLine (by decide) free).1 loopedHeap _ built hmark).2.mpr
    available

/-- An object with two elements whose indices are one number, the first a symbol and the second a
string, and roots of both colors. -/
def lookalikeHeap : HeapGraph :=
  [Edit.addNode 0x1 .black .object "" none, .addNode 0x2 .black .symbol "" none,
    .addNode 0x3 .gray .string "" none, .addEdge 0 "objectElements[9007199254740992]" 0x2,
    .addEdge 0 "objectElements[9007199254740993]" 0x3,
    .addRoot { address := 0x1, color := .black },
    .addRoot { address := 0x3, color := .gray }].foldl HeapGraph.edit {}

/-- **Names that fit together can be taken.**  The script of a heap need not rebuild it: a collector
can have the name of the function that makes symbols, and then a symbol is its array; it can have
the name of a reserved word, and then its line is none; and whatever the names are, two labels can
be one slot. -/
theorem lookalikes_not_rebuilt :
    let g := lookalikeHeap
    let marked := g.mark.state.graph
    let maker : Script.Style := { blackCollector := "Symbol" }
    let word : Script.Style := { grayCollector := "class" }
    g.Built ∧ g.mark.failure = none ∧
    (∀ style ∈ [{}, maker, word], style.check = .ok style ∧
      (∀ role, '\n' ∉ (style.name role).toList) ∧
      style.blackCollector ≠ style.grayCollector ∧
      ∀ id, style.blackCollector ≠ style.nodeName id ∧
        style.grayCollector ≠ style.nodeName id) ∧
    (.declareSymbol "n1" ∈ (emission maker marked).statements ∧
      (runLines maker.host (emission maker marked).lines).toOption.map
        (fun m => (m.bindings.lookup "n1", m.symbols)) = some (some (.roots .black), 0)) ∧
    runLines word.host (emission word marked).lines = .error (.unreadable "class()[0]=n2;") ∧
    (g.nodes.head?.map (fun n => n.edges.map Edge.label)
        = some [.index 9007199254740992, .index 9007199254740993] ∧
      (runLines ({} : Script.Style).host (emission {} marked).lines).toOption.map Memory.objects
        = some [[(.element (.finite 9007199254740992), .value (.string 2))]]) := by
  have hnames : ∀ style ∈ [({} : Script.Style), { blackCollector := "Symbol" },
      { grayCollector := "class" }], style.check = .ok style ∧
        (∀ role ∈ NameRole.all, '\n' ∉ (style.name role).toList) ∧
        style.blackCollector ≠ style.grayCollector ∧
        style.blackCollector.toList.any Char.isDigit = false ∧
        style.grayCollector.toList.any Char.isDigit = false := by decide
  refine ⟨⟨_, rfl⟩, by decide +kernel, fun style hstyle => ?_,
    ⟨by decide +kernel, by decide +kernel⟩, by decide +kernel,
    ⟨by decide +kernel, by decide +kernel⟩⟩
  obtain ⟨accepted, oneLine, apart, hblack, hgray⟩ := hnames style hstyle
  refine ⟨accepted, fun role => oneLine role (by cases role <;> simp [NameRole.all]), apart,
    fun id => ⟨?_, ?_⟩⟩
  · exact (append_toString_ne hblack style.nodeStem id).symm
  · exact (append_toString_ne hgray style.nodeStem id).symm

end HeapReplay
