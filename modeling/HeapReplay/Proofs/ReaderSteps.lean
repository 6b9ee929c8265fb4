import HeapReplay.Dump.Reader
import HeapReplay.Proofs.Indexing

/-!
# What a record changes

A record that is accepted makes one of four changes: it adds a root, counts a weak map record, adds
a node that owns the edges to come, or adds an edge to its owner.  `Entered` lists them, each with
the checks that the record has passed, and `enter_eq_ok_iff` says that there is nothing else.

A reader that started with nothing is `Sound`: its graph is built by edits, and **the owner of the
next edge is the last node**.  So the edges of a log come to stand in the graph in the order in
which they were read, whatever sections came between.
-/

namespace HeapReplay

/-- Where a node stands decides about the message only. -/
lemma Kind.classify_eq_ok_iff {tag details : String} (location location' : Option Location)
    {kind : Kind} :
    classify tag details location = .ok kind ↔ classify tag details location' = .ok kind := by
  simp only [classify]
  split
  · exact Iff.rfl
  · split_ifs
    · exact Iff.rfl
    · simp

/-- A tag and details of no kind are reported as they are. -/
lemma Kind.classify_eq_error {tag details : String}
    (h : ∀ kind, classify tag details none ≠ .ok kind) (location : Option Location) :
    classify tag details location = .error (.unknownKind tag details location) := by
  cases hk : classify tag details location with
  | ok kind => exact absurd ((classify_eq_ok_iff location none).mp hk) (h kind)
  | error fault =>
      simp only [classify] at hk
      split at hk
      · cases hk
      · split_ifs at hk
        exact hk.symm

/-- The node that a record declares. -/
def Dump.NodeRecord.node (n : Dump.NodeRecord) (id : Nat) (kind : Kind) : Node :=
  { id, address := n.address, color := n.color, kind, details := n.details }

namespace HeapGraph

/-- The graph with one more node at an address that is free. -/
def withNode (g : HeapGraph) (n : Dump.NodeRecord) (kind : Kind) : HeapGraph :=
  { g with
    nodes := g.nodes ++ [n.node g.registry.size kind]
    registry := g.registry.insert n.address }

/-- The graph with one more edge, and the interner that knows its name. -/
def withEdge (g : HeapGraph) (source : Nat) (e : Edge) (interner : Interner) : HeapGraph :=
  { g with nodes := g.nodes.map (extendEdges source e), interner }

/-- An edge of the last node changes nothing before it. -/
lemma Indexed.map_extendEdges {g : HeapGraph} (h : g.Indexed) {ns : List Node} {n : Node}
    (hnodes : g.nodes = ns ++ [n]) (e : Edge) :
    g.nodes.map (extendEdges n.id e) = ns ++ [{ n with edges := n.edges ++ [e] }] := by
  have hnodup := h.nodup_ids
  rw [hnodes, List.map_append, List.nodup_append] at hnodup
  rw [hnodes, List.map_append]
  congr 1
  · refine List.map_congr_left (g := id) (fun a ha => ?_) |>.trans (List.map_id ns)
    have hne : a.id ≠ n.id := hnodup.2.2 _ (List.mem_map_of_mem ha) _ (by simp)
    rw [extendEdges, if_neg hne]
    rfl
  · simp [extendEdges]

lemma Built.withNode {g : HeapGraph} (h : g.Built) {n : Dump.NodeRecord} (kind : Kind)
    (fresh : g.registry.contains n.address = false) : (g.withNode n kind).Built := by
  have hadd : g.addNode n.address n.color kind n.details none
      = .ok (n.node g.registry.size kind, g.withNode n kind) :=
    addNode_eq_ok_iff.mpr ⟨fresh, rfl, rfl⟩
  have hbuilt := h.edit (.addNode n.address n.color kind n.details none)
  rw [HeapGraph.edit, hadd] at hbuilt
  exact hbuilt

lemma Built.withEdge {g : HeapGraph} (h : g.Built) {n : Node} (hn : n ∈ g.nodes) {name : String}
    {target : Address} {label : Label} {interner : Interner}
    (hi : g.interner.intern name = .ok (label, interner)) :
    (g.withEdge n.id { target, label } interner).Built := by
  have hadd : g.addEdge n.id name target
      = .ok (label, g.withEdge n.id { target, label } interner) :=
    addEdge_eq_ok_iff.mpr ⟨interner, hi, rfl⟩
  have hsome : g.node? n.id = some n := h.indexed.node?_eq_some_iff.mpr ⟨hn, rfl⟩
  have hbuilt := h.edit (.addEdge n.id name target)
  rw [HeapGraph.edit, hadd, hsome] at hbuilt
  exact hbuilt

end HeapGraph

namespace Dump

lemma words_ne_nil (line : String) : Text.words line ≠ [] :=
  Text.splitOn_ne_nil ' ' line

namespace Reader

/-! ## Accepted records -/

/-- The changes that a record of the given words can make. -/
inductive Entered (r : Reader) (words : List String) : Reader → Prop where
  | root {root : Root} (within : r.within = some .roots) (read : readRoot words = .ok root) :
      Entered r words (r.addRoot root)
  | weakMap (within : r.within = some .weakMaps) :
      Entered r words { r with weakLines := r.weakLines + 1 }
  | node {n : NodeRecord} {kind : Kind} (within : r.within = some .main)
      (unmarked : words.head? ≠ some edgeMarker) (read : readNode words = .ok n)
      (classified : Kind.classify n.tag n.details none = .ok kind)
      (fresh : r.graph.registry.contains n.address = false) :
      Entered r words
        { r with graph := r.graph.withNode n kind, owner := some r.graph.registry.size }
  | edge {rest : List String} {owner : Nat} {e : EdgeRecord} {label : Label} {interner : Interner}
      (within : r.within = some .main) (marked : words = edgeMarker :: rest)
      (owned : r.owner = some owner) (read : readEdge rest = .ok e)
      (interned : r.graph.interner.intern e.name = .ok (label, interner)) :
      Entered r words
        { r with graph := r.graph.withEdge owner { target := e.target, label } interner }

lemma addNode_eq_ok_iff {r r' : Reader} {n : NodeRecord} {location : Location} :
    r.addNode n location = .ok r' ↔
      ∃ kind, Kind.classify n.tag n.details none = .ok kind ∧
        r.graph.registry.contains n.address = false ∧
        r' = { r with graph := r.graph.withNode n kind, owner := some r.graph.registry.size } := by
  rw [addNode]
  cases hk : Kind.classify n.tag n.details (some location) with
  | error fault =>
      simp only [reduceCtorEq, false_iff, not_exists, not_and]
      intro kind hkind
      rw [Kind.classify_eq_ok_iff none (some location), hk] at hkind
      cases hkind
  | ok kind =>
      have hnone := (Kind.classify_eq_ok_iff (some location) none).mp hk
      simp only [hnone, Except.ok.injEq, exists_eq_left']
      cases hadd : r.graph.addNode n.address n.color kind n.details (some location) with
      | error fault =>
          have htaken := (HeapGraph.addNode_eq_error_iff.mp hadd).1
          simp [htaken]
      | ok p =>
          obtain ⟨node, graph⟩ := p
          obtain ⟨fresh, rfl, rfl⟩ := HeapGraph.addNode_eq_ok_iff.mp hadd
          simp only [fresh, true_and, Except.ok.injEq]
          exact eq_comm

lemma addEdge_eq_ok_iff {r r' : Reader} {owner : Nat} {e : EdgeRecord} :
    r.addEdge owner e = .ok r' ↔
      ∃ label interner, r.graph.interner.intern e.name = .ok (label, interner) ∧
        r' = { r with graph := r.graph.withEdge owner { target := e.target, label } interner } := by
  rw [addEdge]
  cases hadd : r.graph.addEdge owner e.name e.target with
  | error failure =>
      have hi := HeapGraph.addEdge_eq_error_iff.mp hadd
      simp [hi]
  | ok p =>
      obtain ⟨label, graph⟩ := p
      obtain ⟨interner, hi, rfl⟩ := HeapGraph.addEdge_eq_ok_iff.mp hadd
      simp only [hi, Except.ok.injEq, Prod.mk.injEq]
      constructor
      · rintro rfl; exact ⟨label, interner, ⟨rfl, rfl⟩, rfl⟩
      · rintro ⟨label', interner', ⟨rfl, rfl⟩, rfl⟩; rfl

lemma enterMain_eq_ok_iff {file : String} {r r' : Reader} {l : Line}
    (within : r.within = some .main) :
    r.enterMain file l = .ok r' ↔ Entered r (Text.words l.text) r' := by
  obtain ⟨first, rest, hwords⟩ := List.exists_cons_of_ne_nil (words_ne_nil l.text)
  rw [enterMain, hwords]
  by_cases hfirst : first = edgeMarker
  · subst hfirst
    simp only [if_true]
    constructor
    · intro h
      cases howner : r.owner with
      | none => rw [howner] at h; cases h
      | some owner =>
          cases hread : readEdge rest with
          | error problem => rw [howner, hread] at h; cases h
          | ok e =>
              rw [howner, hread] at h
              obtain ⟨label, interner, hi, rfl⟩ := addEdge_eq_ok_iff.mp h
              exact .edge within rfl howner hread hi
    · intro h
      cases h with
      | root hw _ => rw [within] at hw; cases hw
      | weakMap hw => rw [within] at hw; cases hw
      | node _ hunmarked _ _ _ => simp at hunmarked
      | edge _ hmarked howner hread hi =>
          obtain rfl := (List.cons.inj hmarked).2
          simp only [howner, hread]
          exact addEdge_eq_ok_iff.mpr ⟨_, _, hi, by simp only [howner]⟩
  · simp only [hfirst, if_false]
    constructor
    · intro h
      cases hread : readNode (first :: rest) with
      | error problem => rw [hread] at h; cases h
      | ok n =>
          rw [hread] at h
          obtain ⟨kind, hkind, fresh, rfl⟩ := addNode_eq_ok_iff.mp h
          exact .node within (by simpa using hfirst) hread hkind fresh
    · intro h
      cases h with
      | root hw _ => rw [within] at hw; cases hw
      | weakMap hw => rw [within] at hw; cases hw
      | node _ _ hread hkind fresh =>
          simp only [hread]
          exact addNode_eq_ok_iff.mpr ⟨_, hkind, fresh, rfl⟩
      | edge _ hmarked _ _ _ => exact absurd (List.cons.inj hmarked).1 hfirst

/-- **A record is accepted exactly if it passes all checks**, and then it makes its change. -/
theorem enter_eq_ok_iff {file : String} {r r' : Reader} {l : Line} :
    r.enter file l = .ok r' ↔ Entered r (Text.words l.text) r' := by
  rw [enter]
  cases hw : r.within with
  | none =>
      simp only [reduceCtorEq, false_iff]
      intro h
      cases h <;> simp_all
  | some s =>
      cases s with
      | roots =>
          constructor
          · intro h
            cases hread : readRoot (Text.words l.text) with
            | error problem => rw [hread] at h; cases h
            | ok root =>
                rw [hread] at h
                obtain rfl := Except.ok.inj h
                exact .root hw hread
          · intro h
            cases h with
            | root _ hread => rw [hread]
            | weakMap hw' => rw [hw] at hw'; cases hw'
            | node hw' _ _ _ _ => rw [hw] at hw'; cases hw'
            | edge hw' _ _ _ _ => rw [hw] at hw'; cases hw'
      | weakMaps =>
          constructor
          · intro h
            obtain rfl := Except.ok.inj h
            simpa only [hw] using Entered.weakMap hw
          · intro h
            cases h with
            | root hw' _ => rw [hw] at hw'; cases hw'
            | weakMap _ => simp only [hw]
            | node hw' _ _ _ _ => rw [hw] at hw'; cases hw'
            | edge hw' _ _ _ _ => rw [hw] at hw'; cases hw'
      | main => exact enterMain_eq_ok_iff hw

/-! ## Readers that started with nothing -/

/-- The graph of the reader is built by edits, and its last node owns the next edge. -/
structure Sound (r : Reader) : Prop where
  built : r.graph.Built
  owner : r.owner = r.graph.nodes.getLast?.map Node.id

lemma sound_initial : Sound {} :=
  ⟨HeapGraph.built_empty, rfl⟩

/-- The owner of an edge is there, at the end of the nodes. -/
lemma Sound.exists_last {r : Reader} (h : r.Sound) {owner : Nat} (ho : r.owner = some owner) :
    ∃ ns n, r.graph.nodes = ns ++ [n] ∧ n.id = owner := by
  rw [h.owner, Option.map_eq_some_iff] at ho
  obtain ⟨n, hlast, rfl⟩ := ho
  obtain ⟨ns, hns⟩ := List.getLast?_eq_some_iff.mp hlast
  exact ⟨ns, n, hns, rfl⟩

lemma Entered.sound {r r' : Reader} {words : List String} (h : Entered r words r')
    (hr : r.Sound) : r'.Sound := by
  cases h with
  | root _ _ => exact ⟨hr.built.edit (.addRoot _), by simpa [addRoot] using hr.owner⟩
  | weakMap _ => exact ⟨hr.built, hr.owner⟩
  | node _ _ _ _ fresh =>
      exact ⟨hr.built.withNode _ fresh, by simp [HeapGraph.withNode, NodeRecord.node]⟩
  | edge _ _ owned _ interned =>
      obtain ⟨ns, n, hnodes, rfl⟩ := hr.exists_last owned
      refine ⟨hr.built.withEdge (hnodes ▸ by simp) interned, ?_⟩
      rw [HeapGraph.withEdge, hr.built.indexed.map_extendEdges hnodes]
      simp [owned]

/-- **Every line keeps a reader sound.** -/
lemma Sound.step {file : String} {r r' : Reader} {l : Line} (h : r.Sound)
    (hstep : r.step file l = .ok r') : r'.Sound := by
  rw [Reader.step] at hstep
  cases hentry : l.entry with
  | header opened =>
      rw [hentry] at hstep
      obtain rfl := Except.ok.inj hstep
      exact ⟨h.built, h.owner⟩
  | comment => rw [hentry] at hstep; exact Except.ok.inj hstep ▸ h
  | trailer => rw [hentry] at hstep; exact Except.ok.inj hstep ▸ h
  | record => rw [hentry] at hstep; exact (enter_eq_ok_iff.mp hstep).sound h

lemma sound_run (file : String) (ls : List Line) :
    (Progress.run (step file) {} ls).state.Sound :=
  Progress.run_induction sound_initial fun _ _ _ _ h hstep => h.step hstep

end Reader

/-! ## Whole logs -/

/-- Whether a log is accepted is found by reading it. -/
instance (file text : String) : Decidable (∃ g, parse file text = .ok g) :=
  decidable_of_iff ((parse file text).isOk = true) (by
    cases parse file text <;> simp [Except.isOk, Except.toBool])

/-- A run gives a graph if nothing stops it and its references lead somewhere. -/
lemma Reader.finish_eq_ok_iff {p : Progress Reader Failure} {g : HeapGraph} :
    (p.andThen Reader.checkReferences).toExcept.map (·.graph) = .ok g ↔
      ∃ r, p = { state := r } ∧ r.graph.dangling? = none ∧ r.graph = g := by
  obtain ⟨r, failure⟩ := p
  cases failure with
  | some f => simp [Progress.andThen, Progress.toExcept, Except.map]
  | none =>
      simp only [Progress.andThen, Reader.checkReferences, Progress.toExcept]
      cases hd : r.graph.dangling? <;> simp [Except.map, hd]

/-- A run gives no graph if it is stopped, or if one of its references leads nowhere. -/
lemma Reader.finish_eq_error_iff {p : Progress Reader Failure} {f : Failure} :
    (p.andThen Reader.checkReferences).toExcept.map (·.graph) = .error f ↔
      p.failure = some f ∨
        ∃ r fault, p = { state := r } ∧ r.graph.dangling? = some fault ∧ f = .fault fault := by
  obtain ⟨r, failure⟩ := p
  cases failure with
  | some f' => simp [Progress.andThen, Progress.toExcept, Except.map]
  | none =>
      simp only [Progress.andThen, Reader.checkReferences, Progress.toExcept]
      cases hd : r.graph.dangling? <;> simp [Except.map, hd, eq_comm]

/-- A log is accepted if all its lines are and its references lead somewhere. -/
lemma parse_eq_ok_iff {file text : String} {g : HeapGraph} :
    parse file text = .ok g ↔
      ∃ r, Progress.run (Reader.step file) {} (body text) = { state := r } ∧
        r.graph.dangling? = none ∧ r.graph = g := by
  rw [parse, Reader.read]
  exact Reader.finish_eq_ok_iff

/-- The graph of a log is built by edits. -/
lemma built_of_parse {file text : String} {g : HeapGraph} (h : parse file text = .ok g) :
    g.Built := by
  obtain ⟨r, hrun, -, rfl⟩ := parse_eq_ok_iff.mp h
  have hsound := Reader.sound_run file (body text)
  rw [hrun] at hsound
  exact hsound.built

end Dump

end HeapReplay
