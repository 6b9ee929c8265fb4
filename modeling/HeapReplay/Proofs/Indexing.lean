import HeapReplay.Graph.History
import HeapReplay.Graph.Reach
import Mathlib.Data.List.Nodup

/-!
# Ids, places and addresses

Four tables run side by side in a graph: the nodes, their ids, and the two directions of the
registry.  `Indexed` says that they agree, place by place, and that no address occurs twice.  Every
edit keeps it (`Indexed.edit`), so every graph that is built has it (`Built.indexed`).

What the agreement is for: an address resolves to **the** node with that address, and if there is
none it is reported as unresolved, never as a place outside the list (`resolve_eq_ok_iff`,
`resolve_eq_error_iff`).

Marks play no part in any of this.  `withMarks` is a graph with other marks, and everything that
is said here of a graph holds of it as well.
-/

namespace HeapReplay.HeapGraph

/-! ## The same heap with other marks -/

/-- The graph with exactly the given ids marked. -/
def withMarks (g : HeapGraph) (marked : List Nat) : HeapGraph :=
  { g with marked }

section WithMarks

variable (g : HeapGraph) (marked : List Nat)

@[simp] lemma nodes_withMarks : (g.withMarks marked).nodes = g.nodes := rfl
@[simp] lemma roots_withMarks : (g.withMarks marked).roots = g.roots := rfl
@[simp] lemma marked_withMarks : (g.withMarks marked).marked = marked := rfl

@[simp] lemma withMarks_marked : g.withMarks g.marked = g := rfl

@[simp] lemma node?_withMarks (id : Nat) : (g.withMarks marked).node? id = g.node? id := rfl

@[simp] lemma resolve_withMarks (a : Address) (context : String) :
    (g.withMarks marked).resolve a context = g.resolve a context := rfl

@[simp] lemma isMarked_withMarks (n : Node) :
    (g.withMarks marked).isMarked n = true ↔ n.id ∈ marked := by
  simp [isMarked]

end WithMarks

/-! ## What the edits do -/

lemma addNode_eq_ok_iff {g g' : HeapGraph} {a : Address} {color : Color} {kind : Kind}
    {details : String} {location : Option Location} {n : Node} :
    g.addNode a color kind details location = .ok (n, g') ↔
      g.registry.contains a = false ∧
      n = { id := g.registry.size, address := a, color, kind, details } ∧
      g' = { g with
        nodes := g.nodes ++ [n]
        registry := g.registry.insert a } := by
  rw [addNode, Registry.register]
  cases h : g.registry.contains a with
  | true => simp
  | false =>
      simp only [Bool.false_eq_true, if_false, Except.ok.injEq, Prod.mk.injEq, true_and]
      constructor
      · rintro ⟨rfl, rfl⟩; exact ⟨rfl, rfl⟩
      · rintro ⟨rfl, rfl⟩; exact ⟨rfl, rfl⟩

lemma addNode_eq_error_iff {g : HeapGraph} {a : Address} {color : Color} {kind : Kind}
    {details : String} {location : Option Location} {f : Fault} :
    g.addNode a color kind details location = .error f ↔
      g.registry.contains a = true ∧ f = .duplicateAddress a location := by
  rw [addNode, Registry.register]
  cases g.registry.contains a <;> simp [eq_comm]

/-- A node with a further edge at its end, if it is the one with the id `source`. -/
def extendEdges (source : Nat) (e : Edge) (n : Node) : Node :=
  if n.id = source then { n with edges := n.edges ++ [e] } else n

@[simp] lemma id_extendEdges (source : Nat) (e : Edge) (n : Node) :
    (extendEdges source e n).id = n.id := by
  rw [extendEdges]; split_ifs <;> rfl

@[simp] lemma address_extendEdges (source : Nat) (e : Edge) (n : Node) :
    (extendEdges source e n).address = n.address := by
  rw [extendEdges]; split_ifs <;> rfl

@[simp] lemma details_extendEdges (source : Nat) (e : Edge) (n : Node) :
    (extendEdges source e n).details = n.details := by
  rw [extendEdges]; split_ifs <;> rfl

lemma addEdge_eq_ok_iff {g g' : HeapGraph} {source : Nat} {name : String} {target : Address}
    {label : Label} :
    g.addEdge source name target = .ok (label, g') ↔
      ∃ interner, g.interner.intern name = .ok (label, interner) ∧
        g' = { g with
          nodes := g.nodes.map (extendEdges source { target, label })
          interner } := by
  rw [addEdge]
  split
  · rename_i failure hi
    simp [hi]
  · rename_i l t hi
    simp only [hi, Except.ok.injEq, Prod.mk.injEq]
    constructor
    · rintro ⟨rfl, rfl⟩; exact ⟨t, ⟨rfl, rfl⟩, rfl⟩
    · rintro ⟨t', ⟨rfl, rfl⟩, rfl⟩; exact ⟨rfl, rfl⟩

lemma addEdge_eq_error_iff {g : HeapGraph} {source : Nat} {name : String} {target : Address}
    {failure : Failure} :
    g.addEdge source name target = .error failure ↔
      g.interner.intern name = .error failure := by
  rw [addEdge]
  split
  · rename_i f hi; simp [hi]
  · rename_i l t hi; simp [hi]

@[simp] lemma nodes_addRoot (g : HeapGraph) (r : Root) : (g.addRoot r).nodes = g.nodes := by
  rw [addRoot]; split <;> rfl

@[simp] lemma registry_addRoot (g : HeapGraph) (r : Root) :
    (g.addRoot r).registry = g.registry := by
  rw [addRoot]; split <;> rfl

@[simp] lemma interner_addRoot (g : HeapGraph) (r : Root) :
    (g.addRoot r).interner = g.interner := by
  rw [addRoot]; split <;> rfl

@[simp] lemma marked_addRoot (g : HeapGraph) (r : Root) : (g.addRoot r).marked = g.marked := by
  rw [addRoot]; split <;> rfl

lemma blackRoots_addRoot (g : HeapGraph) (r : Root) :
    (g.addRoot r).blackRoots = if r.color = .black then g.blackRoots ++ [r] else g.blackRoots := by
  rw [addRoot]
  cases r.color <;> rfl

lemma grayRoots_addRoot (g : HeapGraph) (r : Root) :
    (g.addRoot r).grayRoots = if r.color = .gray then g.grayRoots ++ [r] else g.grayRoots := by
  rw [addRoot]
  cases r.color <;> rfl

lemma mem_roots_addRoot {g : HeapGraph} {r r' : Root} :
    r' ∈ (g.addRoot r).roots ↔ r' = r ∨ r' ∈ g.roots := by
  simp only [roots, blackRoots_addRoot, grayRoots_addRoot, List.mem_append]
  cases r.color
  · simp only [reduceCtorEq, if_true, if_false, List.mem_append, List.mem_singleton]
    grind
  · simp only [reduceCtorEq, if_true, if_false, List.mem_append, List.mem_singleton]
    grind

/-! ## The agreement -/

/-- Ids are places, the registry lists the addresses of the nodes in both of its tables, and these
are distinct. -/
structure Indexed (g : HeapGraph) : Prop where
  ids : g.nodes.map Node.id = List.range g.nodes.length
  addresses : g.registry.addresses = g.nodes.map Node.address
  nodup : (g.nodes.map Node.address).Nodup
  tables : g.registry.Agrees

lemma indexed_empty : Indexed {} :=
  ⟨rfl, rfl, List.nodup_nil, rfl⟩

namespace Indexed

variable {g g' : HeapGraph}

/-- The agreement is about the ids and addresses of the nodes and about nothing else. -/
lemma congr (h : g.Indexed) (hi : g'.nodes.map Node.id = g.nodes.map Node.id)
    (ha : g'.nodes.map Node.address = g.nodes.map Node.address)
    (hr : g'.registry = g.registry) : g'.Indexed := by
  have hlen : g'.nodes.length = g.nodes.length := by
    simpa using congrArg List.length hi
  refine ⟨?_, ?_, ?_, ?_⟩
  · rw [hi, h.ids, hlen]
  · rw [hr, h.addresses, ha]
  · rw [ha]; exact h.nodup
  · rw [hr]; exact h.tables

lemma withMarks (h : g.Indexed) (marked : List Nat) : (g.withMarks marked).Indexed :=
  h.congr rfl rfl rfl

lemma addRoot (h : g.Indexed) (r : Root) : (g.addRoot r).Indexed :=
  h.congr (by simp) (by simp) (by simp)

lemma addNode (h : g.Indexed) {a : Address} {color : Color} {kind : Kind} {details : String}
    {location : Option Location} {n : Node}
    (hg : g.addNode a color kind details location = .ok (n, g')) : g'.Indexed := by
  obtain ⟨fresh, rfl, rfl⟩ := addNode_eq_ok_iff.mp hg
  rw [h.tables.contains_eq_false_iff, h.addresses] at fresh
  have hsize : g.registry.size = g.nodes.length := by simp [Registry.size, h.addresses]
  refine ⟨?_, ?_, ?_, h.tables.insert a⟩
  · simp [h.ids, hsize, List.range_succ]
  · simp [Registry.insert, h.addresses]
  · simp only [List.map_append, List.map_cons, List.map_nil]
    refine List.nodup_append.mpr ⟨h.nodup, by simp, ?_⟩
    intro b hb c hc
    rw [List.mem_singleton.mp hc]
    exact fun heq => fresh (heq ▸ hb)

lemma addEdge (h : g.Indexed) {source : Nat} {name : String} {target : Address} {label : Label}
    (hg : g.addEdge source name target = .ok (label, g')) : g'.Indexed := by
  obtain ⟨interner, -, rfl⟩ := addEdge_eq_ok_iff.mp hg
  exact h.congr (by simp [Function.comp_def]) (by simp [Function.comp_def]) rfl

/-- **Every edit keeps the agreement**, refused ones included. -/
lemma edit (h : g.Indexed) (e : Edit) : (g.edit e).Indexed := by
  cases e with
  | addNode a color kind details location =>
      simp only [HeapGraph.edit]
      split
      · rename_i n g' hg; exact h.addNode hg
      · exact h
  | addEdge source name target =>
      simp only [HeapGraph.edit]
      split_ifs
      · exact h
      · split
        · rename_i l g' hg; exact h.addEdge hg
        · exact h
  | addRoot r => exact h.addRoot r

/-! ## Finding nodes -/

lemma id_of_getElem? (h : g.Indexed) {i : Nat} {n : Node} (hn : g.nodes[i]? = some n) :
    n.id = i := by
  obtain ⟨hlt, -⟩ := List.getElem?_eq_some_iff.mp hn
  have hid : (g.nodes.map Node.id)[i]? = some n.id := by rw [List.getElem?_map, hn]; rfl
  rw [h.ids, List.getElem?_range hlt] at hid
  exact (Option.some.inj hid).symm

lemma getElem?_id (h : g.Indexed) {n : Node} (hn : n ∈ g.nodes) : g.nodes[n.id]? = some n := by
  obtain ⟨i, hi⟩ := List.mem_iff_getElem?.mp hn
  rw [h.id_of_getElem? hi, hi]

lemma eq_of_id_eq (h : g.Indexed) {n m : Node} (hn : n ∈ g.nodes) (hm : m ∈ g.nodes)
    (heq : n.id = m.id) : n = m := by
  have hn' := h.getElem?_id hn
  rw [heq, h.getElem?_id hm] at hn'
  exact (Option.some.inj hn').symm

lemma nodup_ids (h : g.Indexed) : (g.nodes.map Node.id).Nodup := by
  rw [h.ids]; exact List.nodup_range

/-- An address has at most one node. -/
lemma hasNode_unique (h : g.Indexed) {a : Address} {n m : Node} (hn : g.HasNode a n)
    (hm : g.HasNode a m) : n = m :=
  List.inj_on_of_nodup_map h.nodup hn.1 hm.1 (hn.2.trans hm.2.symm)

lemma node?_eq_some_iff (h : g.Indexed) {id : Nat} {n : Node} :
    g.node? id = some n ↔ n ∈ g.nodes ∧ n.id = id := by
  constructor
  · intro hn
    exact ⟨List.mem_of_find?_eq_some hn, by simpa using List.find?_some hn⟩
  · rintro ⟨hn, rfl⟩
    have hsome : (g.node? n.id).isSome := List.find?_isSome.mpr ⟨n, hn, by simp⟩
    obtain ⟨m, hm⟩ := Option.isSome_iff_exists.mp hsome
    have heq : m.id = n.id := by simpa using List.find?_some hm
    rw [hm, h.eq_of_id_eq (List.mem_of_find?_eq_some hm) hn heq]

/-- The registered addresses are those of the nodes. -/
lemma contains_iff (h : g.Indexed) {a : Address} :
    g.registry.contains a = true ↔ ∃ n, g.HasNode a n := by
  rw [h.tables.contains_eq_true_iff, h.addresses, List.mem_map]
  exact Iff.rfl

lemma id?_eq_none_iff (h : g.Indexed) {a : Address} :
    g.registry.id? a = none ↔ ∀ n, ¬ g.HasNode a n := by
  rw [← not_exists, ← h.contains_iff, Registry.contains, Bool.not_eq_true,
    Option.isSome_eq_false_iff, Option.isNone_iff_eq_none]

/-- The id under which an address is registered is the place of its node. -/
lemma registry_id?_eq_some_iff (h : g.Indexed) {a : Address} {i : Nat} :
    g.registry.id? a = some i ↔ ∃ n, g.nodes[i]? = some n ∧ n.address = a := by
  rw [h.tables.id?_eq_idxOf?, List.idxOf?_eq_some_iff]
  constructor
  · rintro ⟨hlt, ha, -⟩
    have hget := List.getElem?_eq_getElem hlt
    rw [ha] at hget
    simp only [h.addresses, List.getElem?_map, Option.map_eq_some_iff] at hget
    exact hget
  · rintro ⟨n, hn, rfl⟩
    have hget : g.registry.addresses[i]? = some n.address := by
      rw [h.addresses, List.getElem?_map, hn]; rfl
    obtain ⟨hlt, ha⟩ := List.getElem?_eq_some_iff.mp hget
    refine ⟨hlt, ha, fun j hj heq => ?_⟩
    have hnodup : g.registry.addresses.Nodup := by rw [h.addresses]; exact h.nodup
    exact absurd ((hnodup.getElem_inj_iff).mp (heq.trans ha.symm)) (by omega)

/-- **An address resolves to the node that has it.** -/
lemma resolve_eq_ok_iff (h : g.Indexed) {a : Address} {context : String} {n : Node} :
    g.resolve a context = .ok n ↔ g.HasNode a n := by
  simp only [resolve, Registry.lookup]
  cases hid : g.registry.id? a with
  | none =>
      simp only [reduceCtorEq, false_iff]
      exact h.id?_eq_none_iff.mp hid n
  | some i =>
      obtain ⟨m, hm, ha⟩ := h.registry_id?_eq_some_iff.mp hid
      have hhas : g.HasNode a m := ⟨List.mem_of_getElem? hm, ha⟩
      simp only [hm, Except.ok.injEq]
      constructor
      · rintro rfl; exact hhas
      · exact fun hn => h.hasNode_unique hhas hn

/-- **If no node has an address, the address is reported**, and nothing else is. -/
lemma resolve_eq_error_iff (h : g.Indexed) {a : Address} {context : String} {f : Failure} :
    g.resolve a context = .error f ↔
      (∀ n, ¬ g.HasNode a n) ∧ f = .fault (.unresolvedAddress a context none) := by
  simp only [resolve, Registry.lookup]
  cases hid : g.registry.id? a with
  | none =>
      simp only [Except.error.injEq]
      exact ⟨fun hf => ⟨h.id?_eq_none_iff.mp hid, hf.symm⟩, fun hf => hf.2.symm⟩
  | some i =>
      obtain ⟨m, hm, ha⟩ := h.registry_id?_eq_some_iff.mp hid
      simp only [hm, reduceCtorEq, false_iff, not_and]
      exact fun hno => absurd ⟨List.mem_of_getElem? hm, ha⟩ (hno m)

end Indexed

/-! ## Built graphs -/

lemma Built.indexed {g : HeapGraph} (h : g.Built) : g.Indexed :=
  h.induction indexed_empty fun _ e _ hg => hg.edit e

/-- Edits mark nothing. -/
lemma marked_edit (g : HeapGraph) (e : Edit) : (g.edit e).marked = g.marked := by
  cases e with
  | addNode a color kind details location =>
      simp only [edit]
      split
      · rename_i n g' hg; obtain ⟨-, -, rfl⟩ := addNode_eq_ok_iff.mp hg; rfl
      · rfl
  | addEdge source name target =>
      simp only [edit]
      split_ifs
      · rfl
      · split
        · rename_i l g' hg; obtain ⟨_, -, rfl⟩ := addEdge_eq_ok_iff.mp hg; rfl
        · rfl
  | addRoot r => exact marked_addRoot g r

lemma Built.marked_eq_nil {g : HeapGraph} (h : g.Built) : g.marked = [] :=
  h.induction (motive := fun g => g.marked = []) rfl fun g e _ hg => (marked_edit g e).trans hg

end HeapReplay.HeapGraph
