import HeapReplay.Proofs.Copying
import HeapReplay.Proofs.Decoding

/-!
# What a script says about a heap

A script does not show the whole graph that it was made from.  It shows its **imprint**: which nodes
are emitted, whether each is a string, a symbol or something else, the links between them in their
order, and where the roots lead.

All of that can be told from the lines: graphs whose scripts have the same lines have the same
imprint (`lines_determine_imprint`).  Lines tell their statements (`map_text_injective`), and a list
of statements is taken apart by looking at it in three ways: for what it declares, for what it
assigns to one variable, and for what it gives to one collector.  Each way of looking passes over
the statements that are there for something else (`filterMap_script`).
-/

namespace HeapReplay

/-- What becomes of the nodes of a kind. -/
inductive Nature where
  | string
  | symbol
  | object
deriving DecidableEq, Repr

/-- Strings and symbols stay what they are, and for everything else an object stands in. -/
def Kind.nature : Kind → Nature
  | .string => .string
  | .symbol => .symbol
  | _ => .object

/-- What a script shows of a graph. -/
structure Imprint where
  /-- The id and the nature of each emitted node, with the labels of its edges to nodes that can be
  declared and the ids of these nodes. -/
  nodes : List (Nat × Nature × List (Label × Nat))
  /-- The ids of the nodes that black roots lead to, those that can be declared. -/
  blackRoots : List Nat
  grayRoots : List Nat
deriving DecidableEq, Repr

/-- The imprint of a marked graph. -/
def HeapGraph.imprint (g : HeapGraph) : Imprint where
  nodes := (Script.emittedNodes g).map fun n => (n.id, n.kind.nature, g.links n)
  blackRoots := (g.includedRoots g.blackRoots).map Node.id
  grayRoots := (g.includedRoots g.grayRoots).map Node.id

namespace Script

open HeapGraph

/-! ## Ways of looking at a statement -/

/-- A place of an object as a statement writes it, an index with all of its digits. -/
inductive Access where
  | property (name : String)
  | element (index : Nat)
deriving DecidableEq, Repr

/-- How a style writes a label. -/
def Style.access (style : Style) : Label → Access
  | .index i => .element i
  | .key id => .property (style.propertyName id)

namespace Statement

/-- The variable that a statement declares, and for what. -/
def declared? : Statement → Option (String × Nature)
  | declareString x _ => some (x, .string)
  | declareSymbol x => some (x, .symbol)
  | declareObject x _ => some (x, .object)
  | openFunction | closeFunction | blank | setProperty .. | setElement .. | setRoot .. => none

/-- The place of a variable that a statement sets, and the variable that it is set to. -/
def assigned? (source : String) : Statement → Option (Access × String)
  | setProperty x property y => if x = source then some (.property property, y) else none
  | setElement x index y => if x = source then some (.element index, y) else none
  | openFunction | closeFunction | blank | declareString .. | declareSymbol _
  | declareObject .. | setRoot .. => none

/-- The variable that a statement gives to a collector. -/
def collected? (collector : String) : Statement → Option String
  | setRoot c _ y => if c = collector then some y else none
  | openFunction | closeFunction | blank | declareString .. | declareSymbol _
  | declareObject .. | setProperty .. | setElement .. => none

end Statement

open Statement

variable (style : Style) (g : HeapGraph)

lemma declared?_declare (n : Node) :
    (declare style g n).declared? = some (style.nodeName n.id, n.kind.nature) := by
  rw [declare]
  cases n.kind <;> rfl

lemma assigned?_declare (n : Node) (source : String) :
    (declare style g n).assigned? source = none := by
  rw [declare]
  cases n.kind <;> rfl

lemma collected?_declare (n : Node) (collector : String) :
    (declare style g n).collected? collector = none := by
  rw [declare]
  cases n.kind <;> rfl

lemma declared?_setEdge (source : Nat) (l : Label) (target : Nat) :
    (setEdge style source l target).declared? = none := by
  cases l <;> rfl

lemma assigned?_setEdge (source i : Nat) (l : Label) (target : Nat) :
    (setEdge style source l target).assigned? (style.nodeName i)
      = if source = i then some (style.access l, style.nodeName target) else none := by
  have hname : style.nodeName source = style.nodeName i ↔ source = i :=
    ⟨append_toString_injective, fun h => h ▸ rfl⟩
  cases l <;> simp [setEdge, assigned?, hname, Style.access]

lemma collected?_setEdge (source : Nat) (l : Label) (target : Nat) (collector : String) :
    (setEdge style source l target).collected? collector = none := by
  cases l <;> rfl

/-! ## Ways of looking at a script -/

/-- Looking at a script is looking at its declarations, assignments and roots, if the layout is
passed over. -/
lemma filterMap_script {α : Type} (look : Statement → Option α) (opening : look .openFunction = none)
    (closing : look .closeFunction = none) (spacing : look .blank = none) :
    (script style g).filterMap look
      = (emittedNodes g).filterMap (fun n => look (declare style g n))
        ++ (emittedNodes g).flatMap (fun n => (assign style g n).filterMap look)
        ++ ((collect style style.blackCollector 0 (g.includedRoots g.blackRoots)).filterMap look
          ++ (collect style style.grayCollector 0 (g.includedRoots g.grayRoots)).filterMap look) := by
  have hlayout : ∀ wanted s, look s = none → (optional wanted s).filterMap look = [] := by
    intro wanted s hs
    cases wanted
    · rfl
    · rw [optional, if_pos rfl, List.filterMap_cons_none hs, List.filterMap_nil]
  simp only [script, scriptBody, List.filterMap_append, hlayout _ _ opening, hlayout _ _ closing,
    hlayout _ _ spacing, List.nil_append, List.append_nil, List.filterMap_map,
    List.filterMap_flatMap]
  rfl

/-- Looking for what no root is for. -/
lemma filterMap_collect_eq_nil {α : Type} {look : Statement → Option α}
    (rooting : ∀ c i y, look (.setRoot c i y) = none) (collector : String) (position : Nat)
    (targets : List Node) : (collect style collector position targets).filterMap look = [] := by
  simp [collect, rooting]

/-- A script declares its emitted nodes. -/
lemma filterMap_declared? : (script style g).filterMap declared?
    = (emittedNodes g).map fun n => (style.nodeName n.id, n.kind.nature) := by
  rw [filterMap_script style g declared? rfl rfl rfl,
    filterMap_collect_eq_nil style fun _ _ _ => rfl,
    filterMap_collect_eq_nil style fun _ _ _ => rfl]
  simp [declared?_declare, assign, declared?_setEdge]

/-- A node is the only one with its id. -/
lemma flatMap_id {α : Type} {ns : List Node} (hnodup : (ns.map Node.id).Nodup) {n : Node}
    (hn : n ∈ ns) (f : Node → List α) :
    (ns.flatMap fun m => if m.id = n.id then f m else []) = f n := by
  obtain ⟨before, after, rfl⟩ := List.append_of_mem hn
  have hnone : ∀ ms : List Node, n.id ∉ ms.map Node.id →
      (ms.flatMap fun m => if m.id = n.id then f m else []) = [] := by
    intro ms hms
    refine List.flatMap_eq_nil_iff.mpr fun m hm => if_neg fun heq => hms ?_
    exact heq ▸ List.mem_map_of_mem hm
  have hbefore := id_not_mem_of_nodup hnodup
  rw [List.map_append, List.map_cons, List.nodup_append] at hnodup
  have hafter : n.id ∉ after.map Node.id := (List.nodup_cons.mp hnodup.2.1).1
  rw [List.flatMap_append, List.flatMap_cons, hnone before hbefore, hnone after hafter, if_pos rfl,
    List.nil_append, List.append_nil]

variable {g} in
/-- A script sets the places of an emitted node by its links. -/
lemma filterMap_assigned? (hg : g.Indexed) {n : Node} (hn : n ∈ emittedNodes g) :
    (script style g).filterMap (assigned? (style.nodeName n.id))
      = (g.links n).map fun (l, id) => (style.access l, style.nodeName id) := by
  have hassign : ∀ m, (assign style g m).filterMap (assigned? (style.nodeName n.id))
      = if m.id = n.id then (g.links m).map fun (l, id) => (style.access l, style.nodeName id)
        else [] := by
    intro m
    rw [assign_eq, List.filterMap_map]
    split_ifs with hid
    · rw [← List.filterMap_eq_map]
      refine List.filterMap_congr fun (l, id) _ => ?_
      exact (assigned?_setEdge style m.id n.id l id).trans (if_pos hid)
    · refine List.filterMap_eq_nil_iff.mpr fun (l, id) _ => ?_
      exact (assigned?_setEdge style m.id n.id l id).trans (if_neg hid)
  have hnodup : ((emittedNodes g).map Node.id).Nodup :=
    hg.nodup_ids.sublist (List.filter_sublist.map Node.id)
  rw [filterMap_script style g (assigned? _) rfl rfl rfl,
    filterMap_collect_eq_nil style fun _ _ _ => rfl,
    filterMap_collect_eq_nil style fun _ _ _ => rfl]
  simp only [assigned?_declare, hassign, flatMap_id hnodup hn, List.filterMap_none,
    List.nil_append, List.append_nil]

/-- A collector is given what the roots are that are written for it. -/
lemma filterMap_collected?_collect (collector c : String) (position : Nat) (targets : List Node) :
    (collect style c position targets).filterMap (collected? collector)
      = if c = collector then targets.map fun n => style.nodeName n.id else [] := by
  rw [collect, List.filterMap_map]
  split_ifs with hc
  · have hfirst : (targets.zipIdx position).map Prod.fst = targets := List.zipIdx_map_fst ..
    conv_rhs => rw [← hfirst, List.map_map, ← List.filterMap_eq_map]
    exact List.filterMap_congr fun p _ => if_pos hc
  · exact List.filterMap_eq_nil_iff.mpr fun p _ => if_neg hc

/-- What the two collectors are given. -/
lemma filterMap_collected? (collector : String) :
    (script style g).filterMap (collected? collector)
      = (if style.blackCollector = collector then
          (g.includedRoots g.blackRoots).map fun n => style.nodeName n.id else [])
        ++ if style.grayCollector = collector then
          (g.includedRoots g.grayRoots).map fun n => style.nodeName n.id else [] := by
  rw [filterMap_script style g (collected? collector) rfl rfl rfl]
  simp [collected?_declare, assign, collected?_setEdge, filterMap_collected?_collect]

variable {style g}

lemma map_nodeName_injective {ns ns' : List Node}
    (h : (ns.map fun n => style.nodeName n.id) = ns'.map fun n => style.nodeName n.id) :
    ns.map Node.id = ns'.map Node.id := by
  rw [map_eq_map_iff_forall₂] at h ⊢
  exact h.imp fun _ _ hname => append_toString_injective hname

lemma access_injective (style : Style) : style.access.Injective := by
  intro l l' h
  cases l with
  | index i =>
      cases l' with
      | index j => exact congrArg Label.index (Access.element.inj h)
      | key j => cases h
  | key i =>
      cases l' with
      | index j => cases h
      | key j => exact congrArg Label.key (append_toString_injective (Access.property.inj h))

/-- Links are told from the places and the variables that they are written with. -/
lemma links_injective (style : Style) {ls ls' : List (Label × Nat)}
    (h : (ls.map fun (l, id) => (style.access l, style.nodeName id))
      = ls'.map fun (l, id) => (style.access l, style.nodeName id)) : ls = ls' := by
  refine List.map_injective_iff.mpr (fun p p' hp => ?_) h
  obtain ⟨haccess, hname⟩ := Prod.mk.inj hp
  exact Prod.ext (access_injective style haccess) (append_toString_injective hname)

/-- **A script determines the imprint of its graph.** -/
lemma imprint_eq_of_script_eq (apart : style.blackCollector ≠ style.grayCollector)
    {g' : HeapGraph} (hg : g.Indexed) (hg' : g'.Indexed) (h : script style g = script style g') :
    g.imprint = g'.imprint := by
  have hdeclared : List.Forall₂ (fun n n' => (style.nodeName n.id, n.kind.nature)
      = (style.nodeName n'.id, n'.kind.nature)) (emittedNodes g) (emittedNodes g') := by
    rw [← map_eq_map_iff_forall₂, ← filterMap_declared?, ← filterMap_declared?, h]
  have hnodes : ((emittedNodes g).map fun n => (n.id, n.kind.nature, g.links n))
      = (emittedNodes g').map fun n => (n.id, n.kind.nature, g'.links n) := by
    rw [map_eq_map_iff_forall₂]
    refine (forall₂_mem hdeclared).imp fun n n' ⟨⟨hn, hn'⟩, heq⟩ => ?_
    obtain ⟨hname, hnature⟩ := Prod.mk.inj heq
    have hlinks : g.links n = g'.links n' := by
      refine links_injective style ?_
      rw [← filterMap_assigned? style hg hn, ← filterMap_assigned? style hg' hn', h, hname]
    rw [append_toString_injective hname, hnature, hlinks]
  have hblack : (g.includedRoots g.blackRoots).map Node.id
      = (g'.includedRoots g'.blackRoots).map Node.id := by
    have hlook := congrArg (List.filterMap (collected? style.blackCollector)) h
    simp only [filterMap_collected?, apart.symm, if_true, if_false, List.append_nil] at hlook
    exact map_nodeName_injective hlook
  have hgray : (g.includedRoots g.grayRoots).map Node.id
      = (g'.includedRoots g'.grayRoots).map Node.id := by
    have hlook := congrArg (List.filterMap (collected? style.grayCollector)) h
    simp only [filterMap_collected?, apart, if_true, if_false, List.nil_append] at hlook
    exact map_nodeName_injective hlook
  rw [imprint, imprint, hnodes, hblack, hgray]

/-- The names in a script of an accepted style are legible. -/
lemma legible_of_mem_script (accepted : style.check = .ok style) {s : Statement}
    (hs : s ∈ script style g) : ∀ x ∈ s.names, Legible x := by
  have hnames : ∀ role, Legible (style.name role) := fun role =>
    legible_of_endsAsIdentifier (Style.invalid?_eq_none_iff.mp (invalid?_of_check accepted) role)
  intro x hx
  exact name_of_mem_script (hnames .node).append_toString (hnames .property).append_toString
    (hnames .blackCollector) (hnames .grayCollector) hs hx

end Script

open Script

/-- **The lines of a script determine what it shows.**  Whatever two graphs are built and whatever
is marked in them: if the lines of their scripts, in one accepted style that tells its collectors
apart, are written to the end and are the same, then so are the emitted nodes with their natures and
their links, and the nodes that the black and the gray roots lead to. -/
theorem lines_determine_imprint {style : Style} (accepted : style.check = .ok style)
    (apart : style.blackCollector ≠ style.grayCollector) {g g' : HeapGraph} (built : g.Built)
    (built' : g'.Built) (marks marks' : List Nat)
    (written : (emission style (g.withMarks marks)).failure = none)
    (written' : (emission style (g'.withMarks marks')).failure = none)
    (same : (emission style (g.withMarks marks)).lines
      = (emission style (g'.withMarks marks')).lines) :
    (g.withMarks marks).imprint = (g'.withMarks marks').imprint := by
  have hg := built.indexed.withMarks marks
  have hg' := built'.indexed.withMarks marks'
  rw [emission_eq_ofList hg ((emission_complete_iff hg).mp written),
    emission_eq_ofList hg' ((emission_complete_iff hg').mp written')] at same
  have hscript : script style (g.withMarks marks) = script style (g'.withMarks marks') :=
    map_text_injective (fun _ hs => legible_of_mem_script accepted hs)
      (fun _ hs => legible_of_mem_script accepted hs) same
  exact imprint_eq_of_script_eq apart hg hg' hscript

/-- A style in which names go on in the next line, and one collector differs from the other by a
newline only. -/
def brokenLines : Style :=
  { nodeStem := "n1\n", propertyStem := "n1", grayCollector := "blackRoot\n", wrapped := false }

/-- An object with a link to a string and one to itself. -/
def linkedObject : HeapGraph :=
  [Edit.addNode 0x1 .black .object "" none, .addNode 0x2 .black .string "" none,
    .addEdge 0 "next" 0x2, .addEdge 0 "objectElements[7]" 0x1,
    .addRoot { address := 0x1, color := .black },
    .addRoot { address := 0x2, color := .gray }].foldl HeapGraph.edit {}

/-- A script with a link to a string, one to a shape and one to itself. -/
def linkedScript : HeapGraph :=
  [Edit.addNode 0x20 .gray .script "f.js:1" none, .addNode 0x10 .gray .string "" none,
    .addNode 0x30 .gray .shape "" none, .addEdge 0 "source" 0x10, .addEdge 0 "shape" 0x30,
    .addEdge 0 "objectElements[007]" 0x20, .addRoot { address := 0x30, color := .black },
    .addRoot { address := 0x20, color := .black },
    .addRoot { address := 0x10, color := .gray }].foldl HeapGraph.edit {}

/-- The two of them have the same lines, so the script and the object are shown alike. -/
theorem linkedScript_shown :
    (emission brokenLines (linkedScript.withMarks [0, 1, 2])).lines
      = ["let n1\n0=\x7bn10:0\x7d;", "let n1\n1=\"1\";", "", "n1\n0.n10=n1\n1;",
        "n1\n0[7]=n1\n0;", "", "blackRoot()[0]=n1\n0;", "blackRoot\n()[0]=n1\n1;"] ∧
    (linkedObject.withMarks [1, 0]).imprint = (linkedScript.withMarks [0, 1, 2]).imprint ∧
    (linkedScript.withMarks [0, 1, 2]).imprint =
      { nodes := [(0, .object, [(.key 0, 1), (.index 7, 0)]), (1, .string, [])]
        blackRoots := [0], grayRoots := [1] } := by
  have accepted : brokenLines.check = .ok brokenLines := by decide
  refine ⟨by decide +kernel, ?_, by decide +kernel⟩
  exact lines_determine_imprint accepted (by decide) ⟨_, rfl⟩ ⟨_, rfl⟩ [1, 0] [0, 1, 2]
    (by decide +kernel) (by decide +kernel) (by decide +kernel)

end HeapReplay
