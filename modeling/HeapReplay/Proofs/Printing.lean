import HeapReplay.Proofs.Grammar
import HeapReplay.Proofs.Labels
import HeapReplay.Proofs.ReaderSteps
import HeapReplay.Proofs.Searching
import HeapReplay.Proofs.Sequences
import Mathlib.Data.List.TakeWhile

/-!
# Reading what was printed

The canonical log of a graph reads back as the graph, if the graph is `WellFormed`: this is
`parse_print`.

The proof follows the printed lines.  `Takes` says what a reader becomes by a sequence of lines,
whatever their numbers are.  After the lines of some nodes, the reader is `printedReader` of these
nodes: it has their part of the graph and has interned the names of their edges.  One edge more or
one node more is one step of the reader, and the rest is induction on the edges and on the nodes.
-/

namespace HeapReplay

/-- A node with other edges. -/
def Node.withEdges (n : Node) (edges : List Edge) : Node :=
  { n with edges }

@[simp] lemma Node.id_withEdges (n : Node) (es : List Edge) : (n.withEdges es).id = n.id := rfl

@[simp] lemma Node.address_withEdges (n : Node) (es : List Edge) :
    (n.withEdges es).address = n.address := rfl

@[simp] lemma Node.edges_withEdges (n : Node) (es : List Edge) : (n.withEdges es).edges = es := rfl

/-- The record that a node is printed as. -/
def Node.record (n : Node) : Dump.NodeRecord :=
  { address := n.address, color := n.color, tag := n.kind.tag, details := n.details }

/-- The labels of the edges of some nodes, in the order of the nodes and of their edges. -/
def labelsOf (ns : List Node) : List Label :=
  ns.flatMap fun n => n.edges.map (·.label)

namespace HeapGraph

/-- What a graph must be for a log to say it, whatever its references lead to. -/
structure Expressible (g : HeapGraph) : Prop where
  /-- Ids are places, addresses are distinct, and the registry maps these to those. -/
  indexed : g.Indexed
  addresses : ∀ n ∈ g.nodes, 0 ≤ n.address
  unmarked : g.marked = []
  details : ∀ n ∈ g.nodes, '\n' ∉ n.details.toList
  rootNames : ∀ r ∈ g.roots, '\n' ∉ r.name.toList
  names : ∀ name ∈ g.interner.names, '\n' ∉ name.toList ∧ ¬ IsElementName name
  distinct : g.interner.names.Nodup
  /-- Each name is stored with its place. -/
  numbered : g.interner.Numbered
  /-- Keys are numbered in the order in which they first occur, and all of them occur. -/
  keys : Script.distinctKeys (labelsOf g.nodes) = List.range g.interner.size
  indices : ∀ i, .index i ∈ labelsOf g.nodes →
    (Nat.toDigits 10 i).length ≤ Failure.maxIndexDigits
  blackRoots : ∀ r ∈ g.blackRoots, r.color = .black
  grayRoots : ∀ r ∈ g.grayRoots, r.color = .gray

/-- The graphs that a log can say: every address that they refer to is declared. -/
structure WellFormed (g : HeapGraph) : Prop extends Expressible g where
  closed : g.Closed

end HeapGraph

namespace Dump

/-! ## Words and lines -/

/-- A word without spaces is the first word of a line that begins with it. -/
lemma words_unwords_cons {w : String} (h : ' ' ∉ w.toList) {ws : List String} (hne : ws ≠ []) :
    Text.words (Text.unwords (w :: ws)) = w :: Text.words (Text.unwords ws) := by
  have hlist : (Text.unwords (w :: ws)).toList = w.toList ++ ' ' :: (Text.unwords ws).toList := by
    rw [Text.unwords, String.intercalate_cons_of_ne_nil hne, String.toList_append,
      String.toList_append, List.append_assoc]
    rfl
  rw [Text.words, Text.splitOn, hlist, List.splitOn_append_cons_self_of_not_mem h, List.map_cons,
    String.ofList_toList]
  rfl

lemma unwords_singleton (w : String) : Text.unwords [w] = w :=
  String.intercalate_singleton

/-- A character of joined words is a space or stands in one of the words. -/
lemma mem_unwords {c : Char} {ws : List String} (h : c ∈ (Text.unwords ws).toList) :
    c = ' ' ∨ ∃ w ∈ ws, c ∈ w.toList := by
  rw [Text.unwords, String.toList_intercalate] at h
  rcases mem_intercalate h with h | ⟨l, hl, hc⟩
  · exact Or.inl (List.mem_singleton.mp h)
  · obtain ⟨w, hw, rfl⟩ := List.mem_map.mp hl
    exact Or.inr ⟨w, hw, hc⟩

lemma newline_not_mem_unwords {ws : List String} (h : ∀ w ∈ ws, '\n' ∉ w.toList) :
    '\n' ∉ (Text.unwords ws).toList := by
  intro hin
  rcases mem_unwords hin with heq | ⟨w, hw, hc⟩
  · exact absurd heq (by decide)
  · exact h w hw hc

/-- An address literal holds no space and no newline. -/
lemma IsAddress.not_mem {word : String} (h : IsAddress word) :
    ' ' ∉ word.toList ∧ '\n' ∉ word.toList := by
  obtain ⟨digits, -, hdigits, hword⟩ := h
  have hfree : ∀ c, ¬ IsHexDigit c → c ≠ '0' → c ≠ 'x' → c ∉ word.toList := by
    intro c hc hzero hx hin
    rw [hword] at hin
    rcases List.mem_cons.mp hin with heq | hin
    · exact hzero heq
    · rcases List.mem_cons.mp hin with heq | hin
      · exact hx heq
      · exact hc (hdigits c hin)
  constructor
  · exact hfree ' ' (by rw [IsHexDigit]; decide) (by decide) (by decide)
  · exact hfree '\n' (by rw [IsHexDigit]; decide) (by decide) (by decide)

lemma isAddress_render {a : Address} (h : 0 ≤ a) : IsAddress a.render :=
  isAddress_iff.mpr ⟨a, Address.parse?_render h⟩

lemma color_not_mem (c : Color) : ' ' ∉ c.letter.toList ∧ '\n' ∉ c.letter.toList := by
  cases c <;> decide

lemma tag_not_mem (k : Kind) : ' ' ∉ k.tag.toList ∧ '\n' ∉ k.tag.toList := by
  cases k <;> decide

lemma readHead_render {a : Address} (h : 0 ≤ a) (c : Color) (rest : List String) :
    readHead (a.render :: c.letter :: rest) = .ok (a, c, rest) := by
  simp only [readHead, List.headD_cons, List.tail_cons, readAddress, Address.parse?_render h,
    readColor, Color.ofLetter?_letter]
  rfl

/-- The words of a printed root. -/
lemma words_rootLine {r : Root} (h : 0 ≤ r.address) :
    Text.words (rootLine r) = r.address.render :: r.color.letter :: Text.words r.name := by
  rw [rootLine, words_unwords_cons (isAddress_render h).not_mem.1 (by simp),
    words_unwords_cons (color_not_mem _).1 (by simp), unwords_singleton]

lemma words_nodeLine {n : Node} (h : 0 ≤ n.address) :
    Text.words (nodeLine n)
      = n.address.render :: n.color.letter :: n.kind.tag :: Text.words n.details := by
  rw [nodeLine, words_unwords_cons (isAddress_render h).not_mem.1 (by simp),
    words_unwords_cons (color_not_mem _).1 (by simp),
    words_unwords_cons (tag_not_mem _).1 (by simp), unwords_singleton]

lemma words_edgeLine {t : Interner} {e : Edge} (h : 0 ≤ e.target) :
    Text.words (edgeLine t e)
      = edgeMarker :: e.target.render :: "B" :: Text.words (t.nameOf e.label) := by
  rw [edgeLine, words_unwords_cons (by decide) (by simp),
    words_unwords_cons (isAddress_render h).not_mem.1 (by simp),
    words_unwords_cons (color_not_mem _).1 (by simp), unwords_singleton]
  rfl

/-- **A printed root reads back**, and so do nodes and edges. -/
lemma readRoot_rootLine {r : Root} (h : 0 ≤ r.address) :
    readRoot (Text.words (rootLine r)) = .ok r := by
  have hread : readRoot (Text.words (rootLine r)) = .ok
      { address := r.address, color := r.color, name := Text.unwords (Text.words r.name) } := by
    rw [words_rootLine h, readRoot, readHead_render h]
    rfl
  rw [hread, Text.unwords_words]

lemma readNode_nodeLine {n : Node} (h : 0 ≤ n.address) :
    readNode (Text.words (nodeLine n)) = .ok n.record := by
  have hread : readNode (Text.words (nodeLine n))
      = .ok { n.record with details := Text.unwords (Text.words n.details) } := by
    rw [words_nodeLine h, readNode, readHead_render h]
    rfl
  rw [hread, Text.unwords_words]
  rfl

lemma readEdge_edgeLine {t : Interner} {e : Edge} (h : 0 ≤ e.target) :
    readEdge (e.target.render :: "B" :: Text.words (t.nameOf e.label))
      = .ok { target := e.target, name := t.nameOf e.label } := by
  simp only [readEdge, readAddress, Address.parse?_render h, List.drop_succ_cons, List.drop_zero,
    Text.unwords_words]
  rfl

/-- What begins like an address or an edge is a record. -/
lemma entry_eq_record {text : String} {c : Char} (h : text.toList.head? = some c)
    (hc : c = '0' ∨ c = '>') : Entry.ofText text = .record := by
  have hheader : Section.ofHeader? text = none := by
    rw [Section.ofHeader?.eq_def]
    split
    · rcases hc with rfl | rfl <;> cases h
    · rcases hc with rfl | rfl <;> cases h
    · rcases hc with rfl | rfl <;> cases h
    · rfl
  have hcomment : text.toList.head? ≠ some '#' := by
    rw [h]
    rcases hc with rfl | rfl <;> decide
  have htrailer : text ≠ "\x7b" := by
    rintro rfl
    rcases hc with rfl | rfl <;> cases h
  rw [Entry.ofText, hheader]
  simp only [hcomment, htrailer, if_false]

lemma head?_unwords_cons {w : String} {c : Char} (h : w.toList.head? = some c)
    (ws : List String) : (Text.unwords (w :: ws)).toList.head? = some c := by
  cases ws with
  | nil => rw [unwords_singleton, h]
  | cons w' ws =>
      rw [Text.unwords, String.intercalate_cons_of_ne_nil (by simp), String.toList_append,
        String.toList_append, List.append_assoc, List.head?_append, h]
      rfl

lemma head?_render (a : Address) : a.render.toList.head? = some '0' := by
  rw [Address.render, String.toList_append, String.toList_append, List.append_assoc,
    List.head?_append]
  rfl

lemma entry_rootLine (r : Root) : Entry.ofText (rootLine r) = .record :=
  entry_eq_record (head?_unwords_cons (head?_render _) _) (Or.inl rfl)

lemma entry_nodeLine (n : Node) : Entry.ofText (nodeLine n) = .record :=
  entry_eq_record (head?_unwords_cons (head?_render _) _) (Or.inl rfl)

lemma entry_edgeLine (t : Interner) (e : Edge) : Entry.ofText (edgeLine t e) = .record :=
  entry_eq_record (head?_unwords_cons rfl _) (Or.inr rfl)

/-! ## Lines one after another -/

namespace Reader

/-- What a reader becomes by lines of the given texts. -/
def Takes (r : Reader) (texts : List String) (r' : Reader) : Prop :=
  ∀ file ls, ls.map Line.text = texts → Progress.run (step file) r ls = { state := r' }

lemma takes_nil (r : Reader) : Takes r [] r := by
  intro file ls hls
  obtain rfl := List.map_eq_nil_iff.mp hls
  rfl

lemma Takes.append {r r' r'' : Reader} {texts texts' : List String} (h : Takes r texts r')
    (h' : Takes r' texts' r'') : Takes r (texts ++ texts') r'' := by
  intro file ls hls
  obtain ⟨ls1, ls2, rfl, hls1, hls2⟩ := List.map_eq_append_iff.mp hls
  rw [Progress.run_append, h file ls1 hls1, Progress.andThen]
  exact h' file ls2 hls2

lemma takes_singleton {r r' : Reader} {text : String}
    (h : ∀ file l, l.text = text → r.step file l = .ok r') : Takes r [text] r' := by
  intro file ls hls
  obtain ⟨l, rfl, hl⟩ := List.map_eq_singleton_iff.mp hls
  rw [Progress.run, h file l hl]
  rfl

lemma takes_header (r : Reader) (s : Section) :
    Takes r [s.header] { r with within := some s } :=
  takes_singleton fun file l hl => by
    have hentry : l.entry = .header s := by
      rw [Line.entry, hl, Entry.ofText, Section.ofHeader?_header]
    rw [step, hentry]

lemma takes_record {r r' : Reader} {text : String} (hentry : Entry.ofText text = .record)
    (h : Entered r (Text.words text) r') : Takes r [text] r' :=
  takes_singleton fun file l hl => by
    have hentry' : l.entry = .record := by rw [Line.entry, hl, hentry]
    rw [step, hentry']
    exact enter_eq_ok_iff.mpr (hl ▸ h)

/-! ## Roots -/

lemma takes_roots {r : Reader} (hwithin : r.within = some .roots) {roots : List Root}
    (h : ∀ root ∈ roots, 0 ≤ root.address) :
    Takes r (roots.map rootLine) (roots.foldl addRoot r) := by
  induction roots generalizing r with
  | nil => exact takes_nil r
  | cons root roots ih =>
      have hroot : Takes r [rootLine root] (r.addRoot root) :=
        takes_record (entry_rootLine root) (.root hwithin (readRoot_rootLine (h root (by simp))))
      exact hroot.append (ih hwithin fun root' hr => h root' (by simp [hr]))

/-- Added roots go to the end of the roots of their color. -/
lemma foldl_addRoot (roots : List Root) (r : Reader) :
    roots.foldl addRoot r = { r with graph := { r.graph with
      blackRoots := r.graph.blackRoots ++ roots.filter (·.color = .black)
      grayRoots := r.graph.grayRoots ++ roots.filter (·.color = .gray) } } := by
  induction roots generalizing r with
  | nil => simp
  | cons root roots ih =>
      rw [List.foldl_cons, ih]
      cases hcolor : root.color <;> simp [addRoot, HeapGraph.addRoot, hcolor]

/-! ## Nodes and edges -/

/-- A reader that has gone through the lines of some nodes of a graph. -/
def printed (g : HeapGraph) (ns : List Node) : Reader where
  graph := { g with
    nodes := ns
    registry := .ofAddresses (ns.map Node.address)
    interner := g.interner.upTo (Script.distinctKeys (labelsOf ns)).length }
  within := some .main
  owner := ns.getLast?.map Node.id

section Nodes

variable {g : HeapGraph} {ns rest : List Node} {n : Node}

/-- The first nodes of a graph make a graph of their own. -/
lemma indexed_printed (h : g.Indexed) (hnodes : g.nodes = ns ++ rest) :
    (printed g ns).graph.Indexed := by
  have hids := h.ids
  have hnodup := h.nodup
  rw [hnodes, List.map_append] at hids hnodup
  refine ⟨?_, rfl, (List.nodup_append.mp hnodup).1, rfl⟩
  have htake := congrArg (List.take ns.length) hids
  rw [List.take_left' (by simp), List.take_range, List.length_append,
    Nat.min_eq_left (Nat.le_add_right _ _)] at htake
  exact htake

/-- The line of the next node. -/
lemma takes_nodeLine (h : g.WellFormed) (hnodes : g.nodes = ns ++ n :: rest) :
    Takes (printed g ns) [nodeLine n] (printed g (ns ++ [n.withEdges []])) := by
  have haddress := h.addresses n (by rw [hnodes]; simp)
  have hid : n.id = ns.length := h.indexed.id_of_getElem? (by rw [hnodes]; simp)
  have hnodup := h.indexed.nodup
  rw [hnodes, List.map_append, List.nodup_append] at hnodup
  have hfresh : (printed g ns).graph.registry.contains n.address = false :=
    (indexed_printed h.indexed hnodes).tables.contains_eq_false_iff.mpr fun hin =>
      hnodup.2.2 _ hin _ (by simp) rfl
  have hmarker : (Text.words (nodeLine n)).head? ≠ some edgeMarker := by
    rw [words_nodeLine haddress]
    intro heq
    exact Placed.not_isAddress_edgeMarker (Option.some.inj heq ▸ isAddress_render haddress)
  have hentered := Entered.node (r := printed g ns) rfl hmarker (readNode_nodeLine haddress)
    (Kind.classify_tag n.kind n.details none) hfresh
  have hnode : n.record.node ns.length n.kind = n.withEdges [] := by
    rw [← hid]
    rfl
  have hlabels : labelsOf (ns ++ [n.withEdges []]) = labelsOf ns := by simp [labelsOf]
  have hnext : { printed g ns with
      graph := (printed g ns).graph.withNode n.record n.kind
      owner := some (printed g ns).graph.registry.size }
      = printed g (ns ++ [n.withEdges []]) := by
    have haddress' : n.record.address = n.address := rfl
    have hsize : (Registry.ofAddresses (ns.map Node.address)).size = ns.length := List.length_map _
    simp [printed, hlabels, HeapGraph.withNode, hnode, hsize, hid, haddress',
      Registry.insert_ofAddresses]
  rw [hnext] at hentered
  exact takes_record (entry_nodeLine n) hentered

/-- The line of the next edge of the last node. -/
lemma takes_edgeLine (h : g.WellFormed) (hnodes : g.nodes = ns ++ n :: rest) {es es' : List Edge}
    {e : Edge} (hedges : n.edges = es ++ e :: es') :
    Takes (printed g (ns ++ [n.withEdges es])) [edgeLine g.interner e]
      (printed g (ns ++ [n.withEdges (es ++ [e])])) := by
  have htarget : 0 ≤ e.target := by
    obtain ⟨m, hm, haddress⟩ := h.closed.edges n (by rw [hnodes]; simp) e (by rw [hedges]; simp)
    rw [← haddress]
    exact h.addresses m hm
  have hsplit : labelsOf g.nodes = labelsOf (ns ++ [n.withEdges es])
      ++ e.label :: (es'.map (·.label) ++ labelsOf rest) := by
    simp [labelsOf, hnodes, hedges]
  have hnames : ∀ name ∈ g.interner.names, elementDigits? name = none := fun name hname =>
    (elementDigits?_eq_none_iff (h.names name hname).1).mpr (h.names name hname).2
  have hintern := Interner.intern_nameOf h.distinct hnames (hsplit ▸ h.keys) fun i hi =>
    h.indices i (by rw [hsplit, hi]; simp)
  have howner : (printed g (ns ++ [n.withEdges es])).owner = some n.id := by simp [printed]
  have hentered : Entered (printed g (ns ++ [n.withEdges es])) _ _ :=
    .edge rfl (words_edgeLine htarget) howner (readEdge_edgeLine htarget) hintern
  have hfirst : g.nodes = (ns ++ [n]) ++ rest := by rw [hnodes, List.append_cons]
  have hindexed : (printed g (ns ++ [n.withEdges es])).graph.Indexed :=
    (indexed_printed h.indexed hfirst).congr (by simp [printed]) (by simp [printed])
      (by simp [printed])
  have hmap : (ns ++ [n.withEdges es]).map
      (HeapGraph.extendEdges n.id { target := e.target, label := e.label })
      = ns ++ [n.withEdges (es ++ [e])] := hindexed.map_extendEdges rfl _
  have hlabels : labelsOf (ns ++ [n.withEdges (es ++ [e])])
      = labelsOf (ns ++ [n.withEdges es]) ++ [e.label] := by simp [labelsOf]
  have hnext : { printed g (ns ++ [n.withEdges es]) with
      graph := (printed g (ns ++ [n.withEdges es])).graph.withEdge n.id
        { target := e.target, label := e.label } (g.interner.upTo (Script.distinctKeys
          (labelsOf (ns ++ [n.withEdges es]) ++ [e.label])).length) }
      = printed g (ns ++ [n.withEdges (es ++ [e])]) := by
    simp [printed, hlabels, HeapGraph.withEdge, hmap]
  rw [hnext] at hentered
  exact takes_record (entry_edgeLine _ e) hentered

/-- The lines of the edges of the last node. -/
lemma takes_edgeLines (h : g.WellFormed) (hnodes : g.nodes = ns ++ n :: rest) (es es' : List Edge)
    (hedges : n.edges = es ++ es') :
    Takes (printed g (ns ++ [n.withEdges es])) (es'.map (edgeLine g.interner))
      (printed g (ns ++ [n])) := by
  induction es' generalizing es with
  | nil =>
      have hn : n.withEdges es = n := by rw [← List.append_nil es, ← hedges]; rfl
      rw [hn]
      exact takes_nil _
  | cons e es' ih =>
      exact (takes_edgeLine h hnodes hedges).append (ih _ (by rw [hedges, List.append_cons]))

/-- **The lines of further nodes**, with the lines of their edges. -/
lemma takes_nodeLines (h : g.WellFormed) (ns rest : List Node) (hnodes : g.nodes = ns ++ rest) :
    Takes (printed g ns) (rest.flatMap (nodeLines g.interner)) (printed g g.nodes) := by
  induction rest generalizing ns with
  | nil =>
      rw [hnodes, List.append_nil]
      exact takes_nil _
  | cons n rest ih =>
      have hnode := takes_nodeLine h hnodes
      have hedges := takes_edgeLines h hnodes [] n.edges rfl
      have hrest := ih (ns ++ [n]) (by rw [hnodes, List.append_cons])
      rw [List.flatMap_cons, nodeLines, ← List.singleton_append]
      exact (hnode.append hedges).append hrest

end Nodes

end Reader

/-! ## The whole log -/

open Reader

variable {g : HeapGraph}

lemma filter_color {roots : List Root} {c : Color} (h : ∀ r ∈ roots, r.color = c) (c' : Color) :
    roots.filter (·.color = c') = if c = c' then roots else [] := by
  split_ifs with hc
  · exact List.filter_eq_self.mpr fun r hr => by simp [h r hr, hc]
  · exact List.filter_eq_nil_iff.mpr fun r hr => by simp [h r hr, hc]

/-- **A reader of the canonical lines** has the graph in the end. -/
lemma takes_canonicalLines (h : g.WellFormed) :
    Takes {} (canonicalLines g) (printed g g.nodes) := by
  have hroots : ∀ root ∈ g.roots, 0 ≤ root.address := by
    intro root hroot
    obtain ⟨m, hm, haddress⟩ := h.closed.roots root hroot
    rw [← haddress]
    exact h.addresses m hm
  have hblack : g.roots.filter (·.color = .black) = g.blackRoots := by
    rw [HeapGraph.roots, List.filter_append, filter_color h.blackRoots, filter_color h.grayRoots]
    simp
  have hgray : g.roots.filter (·.color = .gray) = g.grayRoots := by
    rw [HeapGraph.roots, List.filter_append, filter_color h.blackRoots, filter_color h.grayRoots]
    simp
  have hread := takes_roots (r := { within := some .roots }) rfl hroots
  rw [foldl_addRoot, hblack, hgray] at hread
  have hmain := takes_header
    { graph := { blackRoots := g.blackRoots, grayRoots := g.grayRoots }, within := some .roots }
    .main
  have hstart : printed g []
      = { graph := { blackRoots := g.blackRoots, grayRoots := g.grayRoots },
          within := some .main } := by
    simp [printed, labelsOf, Script.distinctKeys, Interner.upTo, h.unmarked]
  have hnodes := takes_nodeLines h [] g.nodes rfl
  rw [hstart] at hnodes
  have hall := (((takes_header {} .roots).append hread).append hmain).append hnodes
  have hlines : [Section.roots.header] ++ g.roots.map rootLine ++ [Section.main.header]
      ++ g.nodes.flatMap (nodeLines g.interner) = canonicalLines g := by
    simp [canonicalLines]
  exact hlines ▸ hall

/-- The printed graph is the graph. -/
lemma graph_printed (h : g.WellFormed) : (printed g g.nodes).graph = g := by
  have hinterner : g.interner.upTo g.interner.size = g.interner := by
    rw [Interner.upTo, ← Interner.length_names, List.take_length, ← h.numbered.eq_ofNames]
  have hregistry : Registry.ofAddresses (g.nodes.map Node.address) = g.registry := by
    rw [← h.indexed.addresses, ← h.indexed.tables.eq_ofAddresses]
  simp [printed, h.keys, hinterner, hregistry]

/-- Canonical lines are not empty, do not end a log and hold no newline. -/
lemma of_mem_canonicalLines (h : g.WellFormed) {line : String} (hline : line ∈ canonicalLines g) :
    '\n' ∉ line.toList ∧ line ≠ "" ∧ Entry.ofText line ≠ .trailer := by
  have haddress : ∀ a, (∃ n, g.HasNode a n) → '\n' ∉ (Address.render a).toList := by
    rintro a ⟨n, hn, rfl⟩
    exact (isAddress_render (h.addresses n hn)).not_mem.2
  have hrecord : ∀ {c : Char}, line.toList.head? = some c → c = '0' ∨ c = '>' →
      line ≠ "" ∧ Entry.ofText line ≠ .trailer := by
    intro c hhead hc
    refine ⟨?_, by rw [entry_eq_record hhead hc]; simp⟩
    rintro rfl
    cases hhead
  rw [canonicalLines, List.cons_append, List.mem_cons, List.mem_append, List.mem_cons] at hline
  rcases hline with rfl | hline | rfl | hline
  · decide
  · obtain ⟨r, hr, rfl⟩ := List.mem_map.mp hline
    refine ⟨newline_not_mem_unwords ?_,
      hrecord (head?_unwords_cons (head?_render _) _) (Or.inl rfl)⟩
    simp only [List.mem_cons, List.not_mem_nil, or_false, forall_eq_or_imp, forall_eq]
    exact ⟨haddress _ (h.closed.roots r hr), (color_not_mem _).2, h.rootNames r hr⟩
  · decide
  · obtain ⟨n, hn, hline⟩ := List.mem_flatMap.mp hline
    rcases List.mem_cons.mp hline with rfl | hline
    · refine ⟨newline_not_mem_unwords ?_,
        hrecord (head?_unwords_cons (head?_render _) _) (Or.inl rfl)⟩
      simp only [List.mem_cons, List.not_mem_nil, or_false, forall_eq_or_imp, forall_eq]
      exact ⟨haddress _ ⟨n, hn, rfl⟩, (color_not_mem _).2, (tag_not_mem _).2, h.details n hn⟩
    · obtain ⟨e, he, rfl⟩ := List.mem_map.mp hline
      refine ⟨newline_not_mem_unwords ?_, hrecord (head?_unwords_cons rfl _) (Or.inr rfl)⟩
      simp only [List.mem_cons, List.not_mem_nil, or_false, forall_eq_or_imp, forall_eq]
      exact ⟨by decide, haddress _ (h.closed.edges n hn e he), (color_not_mem _).2,
        newline_not_mem_nameOf (fun name hname => (h.names name hname).1) _⟩

/-- Numbering drops the empty lines. -/
lemma map_text_numberedLines (text : String) :
    (numberedLines text).map Line.text = (Text.lines text).filter (· ≠ "") := by
  rw [numberedLines]
  generalize Text.lines text = lines
  generalize 1 = number
  induction lines generalizing number with
  | nil => rfl
  | cons line lines ih =>
      rw [List.zipIdx_cons, List.filterMap_cons, List.filter_cons]
      by_cases hline : line = ""
      · simp [hline, ih]
      · simp [hline, ih]

/-- The lines that a reader goes through are the canonical ones. -/
lemma body_print (h : g.WellFormed) : (body (print g)).map Line.text = canonicalLines g := by
  have hlines : Text.lines (print g) = canonicalLines g :=
    Text.splitOn_intercalate (fun line hline => (of_mem_canonicalLines h hline).1)
      (List.cons_ne_nil _ _)
  have hnumbered : (numberedLines (print g)).map Line.text = canonicalLines g := by
    rw [map_text_numberedLines, hlines]
    exact List.filter_eq_self.mpr fun line hline => by
      simpa using (of_mem_canonicalLines h hline).2.1
  have hall : body (print g) = numberedLines (print g) := by
    refine List.takeWhile_eq_self_iff.mpr fun l hl => decide_eq_true ?_
    have hline : l.text ∈ canonicalLines g := hnumbered ▸ List.mem_map_of_mem hl
    exact (of_mem_canonicalLines h hline).2.2
  rw [hall, hnumbered]

/-- **Reading undoes writing.** -/
lemma parse_print (h : g.WellFormed) (file : String) : parse file (print g) = .ok g := by
  refine parse_eq_ok_iff.mpr ⟨printed g g.nodes, ?_, ?_, graph_printed h⟩
  · exact takes_canonicalLines h file _ (body_print h)
  · rw [graph_printed h]
    exact h.indexed.closed_iff.mp h.closed

end Dump

end HeapReplay
