import HeapReplay.Proofs.Searching

/-!
# Graphs that grow

Edits only ever add.  A node keeps its id, its address and all else that it was declared with, and
new edges go behind the ones it has; roots stay.  This is `Grows`, and every edit makes a graph
grow, refused ones included (`grows_edit`).  Marks are no part of it.

What is reached in a graph is therefore reached in all graphs that it grows to
(`Grows.exists_reached`).  The node at the end of a path may have more edges by then, so the
statement speaks of the node that it has grown to.
-/

namespace HeapReplay

/-- The nodes that a node becomes by further edges. -/
def Node.GrowsTo (n n' : Node) : Prop :=
  ∃ more, n' = { n with edges := n.edges ++ more }

namespace Node.GrowsTo

variable {n n' : Node}

lemma refl (n : Node) : n.GrowsTo n :=
  ⟨[], by rw [List.append_nil]⟩

lemma trans {n'' : Node} (h : n.GrowsTo n') (h' : n'.GrowsTo n'') : n.GrowsTo n'' := by
  obtain ⟨more, rfl⟩ := h
  obtain ⟨more', rfl⟩ := h'
  exact ⟨more ++ more', by rw [List.append_assoc]⟩

lemma id (h : n.GrowsTo n') : n'.id = n.id := by
  obtain ⟨more, rfl⟩ := h
  rfl

lemma address (h : n.GrowsTo n') : n'.address = n.address := by
  obtain ⟨more, rfl⟩ := h
  rfl

lemma includable (h : n.GrowsTo n') : n'.includable = n.includable := by
  obtain ⟨more, rfl⟩ := h
  rfl

lemma edges_subset (h : n.GrowsTo n') : n.edges ⊆ n'.edges := by
  obtain ⟨more, rfl⟩ := h
  exact List.subset_append_left _ _

end Node.GrowsTo

namespace HeapGraph

/-- A graph that has become another one by further nodes, edges and roots. -/
structure Grows (g g' : HeapGraph) : Prop where
  nodes : ∀ n ∈ g.nodes, ∃ n' ∈ g'.nodes, n.GrowsTo n'
  roots : g.roots ⊆ g'.roots

lemma Grows.refl (g : HeapGraph) : g.Grows g :=
  ⟨fun n hn => ⟨n, hn, .refl n⟩, List.Subset.refl _⟩

lemma Grows.trans {g g' g'' : HeapGraph} (h : g.Grows g') (h' : g'.Grows g'') : g.Grows g'' := by
  refine ⟨fun n hn => ?_, List.Subset.trans h.roots h'.roots⟩
  obtain ⟨n', hn', hgrown⟩ := h.nodes n hn
  obtain ⟨n'', hn'', hgrown'⟩ := h'.nodes n' hn'
  exact ⟨n'', hn'', hgrown.trans hgrown'⟩

lemma grows_withMarks (g : HeapGraph) (marked : List Nat) : g.Grows (g.withMarks marked) :=
  ⟨(Grows.refl g).nodes, (Grows.refl g).roots⟩

lemma growsTo_extendEdges (source : Nat) (e : Edge) (n : Node) :
    n.GrowsTo (extendEdges source e n) := by
  rw [extendEdges]
  split_ifs
  · exact ⟨[e], rfl⟩
  · exact .refl n

/-- **Every edit makes a graph grow.** -/
lemma grows_edit (g : HeapGraph) (e : Edit) : g.Grows (g.edit e) := by
  cases e with
  | addNode a color kind details location =>
      simp only [edit]
      split
      · rename_i n g' hg
        obtain ⟨-, -, rfl⟩ := addNode_eq_ok_iff.mp hg
        exact ⟨fun m hm => ⟨m, List.mem_append_left _ hm, .refl m⟩, List.Subset.refl _⟩
      · exact .refl g
  | addEdge source name target =>
      simp only [edit]
      split_ifs
      · exact .refl g
      · split
        · rename_i label g' hg
          obtain ⟨interner, -, rfl⟩ := addEdge_eq_ok_iff.mp hg
          exact ⟨fun n hn => ⟨_, List.mem_map_of_mem hn, growsTo_extendEdges source _ n⟩,
            List.Subset.refl _⟩
        · exact .refl g
  | addRoot r =>
      refine ⟨fun n hn => ⟨n, ?_, .refl n⟩, fun r' hr' => ?_⟩
      · rw [edit, nodes_addRoot]
        exact hn
      · exact mem_roots_addRoot.mpr (Or.inr hr')

/-- A whole history of edits makes a graph grow. -/
lemma grows_edits (g : HeapGraph) (edits : List Edit) : g.Grows (edits.foldl edit g) := by
  induction edits generalizing g with
  | nil => exact .refl g
  | cons e edits ih => exact (grows_edit g e).trans (ih (g.edit e))

/-- **What is reached stays reached.** -/
lemma Grows.exists_reached {g g' : HeapGraph} (h : g.Grows g') {avoid : List Nat} {n : Node}
    (hn : g.Reached avoid n) : ∃ n', n.GrowsTo n' ∧ g'.Reached avoid n' := by
  induction hn with
  | @root r n hr hn hout =>
      obtain ⟨n', hn', hgrown⟩ := h.nodes n hn.1
      exact ⟨n', hgrown, .root (h.roots hr) ⟨hn', hgrown.address.trans hn.2⟩ (hgrown.id ▸ hout)⟩
  | @edge n e m _ hincl he hm hout ih =>
      obtain ⟨n', hgrown, hreach⟩ := ih
      obtain ⟨m', hm', hgrownm⟩ := h.nodes m hm.1
      exact ⟨m', hgrownm, .edge hreach (hgrown.includable.trans hincl) (hgrown.edges_subset he)
        ⟨hm', hgrownm.address.trans hm.2⟩ (hgrownm.id ▸ hout)⟩

end HeapGraph

end HeapReplay
