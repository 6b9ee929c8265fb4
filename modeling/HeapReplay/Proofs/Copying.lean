import HeapReplay.Proofs.Finishing
import HeapReplay.Proofs.Sequences

/-!
# Copies of a heap

A graph **begins with a copy** of another one if its first nodes agree with the nodes of the other
in id, kind and edges, with all addresses moved in one way, and its roots lead to where the roots of
the other lead.  Behind the copies any further nodes may stand; they are garbage, for no root and no
copied edge leads to them.

Such graphs have the same script (`BeginsWith.script_eq`).  The argument follows the script:

* an address of a copy leads to the copy of what the address leads to (`isCopy_of_hasNode`), so
  exactly the copies of reached nodes are reached (`reached_iff`);
* the emitted nodes are copies of the emitted nodes, in the same order (`emitted`);
* declarations, assignments and roots are made from kinds, ids and labels, and these are copied
  (`declare_eq`, `assign_eq`, `collect_congr`).

Colors, details, root names and the interned names take no part in it.  Nor need the moving be
injective: that the copies stand at different addresses is enough.
-/

namespace HeapReplay

/-- The edge to an address that has been moved. -/
def Edge.moved (move : Address → Address) (e : Edge) : Edge :=
  { e with target := move e.target }

/-- A node that differs in color, details and the moving of addresses only. -/
structure Node.IsCopy (move : Address → Address) (n n' : Node) : Prop where
  id : n'.id = n.id
  kind : n'.kind = n.kind
  address : n'.address = move n.address
  edges : n'.edges = n.edges.map (Edge.moved move)

lemma Node.IsCopy.includable {move : Address → Address} {n n' : Node} (h : n.IsCopy move n') :
    n'.includable = n.includable := by
  rw [Node.includable, h.kind, Node.includable]

namespace HeapGraph

/-- A graph whose first nodes are copies of the nodes of another one, and whose roots lead to
copies as well. -/
structure BeginsWith (move : Address → Address) (g g' : HeapGraph) : Prop where
  nodes : ∃ copies garbage, g'.nodes = copies ++ garbage ∧
    List.Forall₂ (Node.IsCopy move) g.nodes copies
  blackRoots : g'.blackRoots.map (·.address) = g.blackRoots.map fun r => move r.address
  grayRoots : g'.grayRoots.map (·.address) = g.grayRoots.map fun r => move r.address

namespace BeginsWith

variable {move : Address → Address} {g g' : HeapGraph} {n n' : Node} {a : Address}

/-! ## Nodes and addresses -/

lemma roots (h : BeginsWith move g g') :
    g'.roots.map (·.address) = g.roots.map fun r => move r.address := by
  rw [HeapGraph.roots, HeapGraph.roots, List.map_append, List.map_append, h.blackRoots,
    h.grayRoots]

lemma exists_copy (h : BeginsWith move g g') (hn : n ∈ g.nodes) :
    ∃ n' ∈ g'.nodes, n.IsCopy move n' := by
  obtain ⟨copies, garbage, hnodes, hcopies⟩ := h.nodes
  obtain ⟨n', hn', hcopy⟩ := exists_of_forall₂ hcopies hn
  exact ⟨n', hnodes ▸ List.mem_append_left _ hn', hcopy⟩

/-- What an address of the copy leads to is the copy of what the address leads to. -/
lemma isCopy_of_hasNode (h : BeginsWith move g g') (hg' : g'.Indexed) (hn : g.HasNode a n)
    (hn' : g'.HasNode (move a) n') : n.IsCopy move n' := by
  obtain ⟨m, hm, hcopy⟩ := h.exists_copy hn.1
  have haddress : g'.HasNode (move a) m := ⟨hm, by rw [hcopy.address, hn.2]⟩
  exact hg'.hasNode_unique haddress hn' ▸ hcopy

lemma hasNode_copy (h : BeginsWith move g g') (hn : g.HasNode a n) :
    ∃ n', n.IsCopy move n' ∧ g'.HasNode (move a) n' := by
  obtain ⟨n', hn', hcopy⟩ := h.exists_copy hn.1
  exact ⟨n', hcopy, hn', by rw [hcopy.address, hn.2]⟩

/-! ## Reached nodes -/

/-- Copies of reached nodes are reached. -/
lemma reached_copy (h : BeginsWith move g g') (hn : g.Reached [] n) (hn' : n' ∈ g'.nodes)
    (hcopy : n.IsCopy move n') : g'.Reached [] n' := by
  induction hn generalizing n' with
  | @root r n hr hn _ =>
      have hmoved : move r.address ∈ g'.roots.map (·.address) :=
        h.roots ▸ List.mem_map.mpr ⟨r, hr, rfl⟩
      obtain ⟨r', hr', heq⟩ := List.mem_map.mp hmoved
      exact .root hr' ⟨hn', by rw [hcopy.address, hn.2, heq]⟩ (by simp)
  | @edge n e m hn hincl he hm _ ih =>
      obtain ⟨p', hp', hcopyp⟩ := h.exists_copy hn.mem_nodes
      have he' : e.moved move ∈ p'.edges := hcopyp.edges ▸ List.mem_map_of_mem he
      exact .edge (ih hp' hcopyp) (hcopyp.includable.trans hincl) he'
        ⟨hn', by rw [hcopy.address, hm.2]; rfl⟩ (by simp)

/-- Nothing but copies of reached nodes is reached. -/
lemma exists_of_reached (h : BeginsWith move g g') (hg' : g'.Indexed) (closed : g.Closed)
    (hn' : g'.Reached [] n') : ∃ n, g.Reached [] n ∧ n.IsCopy move n' := by
  induction hn' with
  | @root r' n' hr' hn' _ =>
      have haddress : r'.address ∈ g.roots.map fun r => move r.address :=
        h.roots ▸ List.mem_map.mpr ⟨r', hr', rfl⟩
      obtain ⟨r, hr, heq⟩ := List.mem_map.mp haddress
      obtain ⟨n, hn⟩ := closed.roots r hr
      exact ⟨n, .root hr hn (by simp), h.isCopy_of_hasNode hg' hn (heq ▸ hn')⟩
  | @edge p' e' m' _ hincl he' hm' _ ih =>
      obtain ⟨p, hp, hcopy⟩ := ih
      rw [hcopy.edges] at he'
      obtain ⟨e, he, rfl⟩ := List.mem_map.mp he'
      obtain ⟨m, hm⟩ := closed.edges p hp.mem_nodes e he
      exact ⟨m, .edge hp (hcopy.includable.symm.trans hincl) he hm (by simp),
        h.isCopy_of_hasNode hg' hm hm'⟩

/-- **A copy is reached exactly if its original is.** -/
lemma reached_iff (h : BeginsWith move g g') (hg : g.Indexed) (hg' : g'.Indexed)
    (closed : g.Closed) (hn : n ∈ g.nodes) (hn' : n' ∈ g'.nodes) (hcopy : n.IsCopy move n') :
    g'.Reached [] n' ↔ g.Reached [] n := by
  constructor
  · intro hreach
    obtain ⟨m, hm, hcopym⟩ := h.exists_of_reached hg' closed hreach
    exact hg.eq_of_id_eq hm.mem_nodes hn (hcopym.id.symm.trans hcopy.id) ▸ hm
  · intro hreach
    exact h.reached_copy hreach hn' hcopy

/-! ## The parts of a script -/

/-- What an address of the copy leads to has the id of what the address leads to. -/
lemma includable?_id (h : BeginsWith move g g') (hg : g.Indexed) (hg' : g'.Indexed)
    (declared : ∃ n, g.HasNode a n) :
    (g'.includable? (move a)).map Node.id = (g.includable? a).map Node.id := by
  obtain ⟨n, hn⟩ := declared
  obtain ⟨n', hcopy, hn'⟩ := h.hasNode_copy hn
  rw [hg.includable?_of_hasNode hn, hg'.includable?_of_hasNode hn', hcopy.includable]
  split_ifs
  · exact congrArg some hcopy.id
  · rfl

end BeginsWith

/-- The labels of the edges of a node that lead to nodes which a script declares, with the ids of
these nodes. -/
def links (g : HeapGraph) (n : Node) : List (Label × Nat) :=
  n.edges.filterMap fun e => ((g.includable? e.target).map Node.id).map (e.label, ·)

lemma map_includedTargets (g : HeapGraph) (n : Node) :
    (g.includedTargets n).map (fun (e, m) => (e.label, m.id)) = g.links n := by
  rw [includedTargets, List.map_filterMap, links]
  refine List.filterMap_congr fun e _ => ?_
  cases g.includable? e.target <;> rfl

lemma map_includedRoots (g : HeapGraph) (roots : List Root) :
    (g.includedRoots roots).map Node.id
      = roots.filterMap fun r => (g.includable? r.address).map Node.id := by
  rw [includedRoots, List.map_filterMap]

namespace BeginsWith

variable {move : Address → Address} {g g' : HeapGraph} {n n' : Node}

/-- Links are copied. -/
lemma links_eq (h : BeginsWith move g g') (hg : g.Indexed) (hg' : g'.Indexed)
    (closed : g.Closed) (hn : n ∈ g.nodes) (hcopy : n.IsCopy move n') :
    g'.links n' = g.links n := by
  rw [links, hcopy.edges, List.filterMap_map, links]
  refine List.filterMap_congr fun e he => ?_
  have hid := h.includable?_id hg hg' (closed.edges n hn e he)
  rw [Function.comp_apply, ← hid]
  rfl

/-- The ids that roots lead to are copied. -/
lemma includedRoots_eq (h : BeginsWith move g g') (hg : g.Indexed) (hg' : g'.Indexed)
    {roots roots' : List Root} (declared : ∀ r ∈ roots, ∃ n, g.HasNode r.address n)
    (hroots : roots'.map (·.address) = roots.map fun r => move r.address) :
    (g'.includedRoots roots').map Node.id = (g.includedRoots roots).map Node.id := by
  have hfactor : (g'.includedRoots roots').map Node.id
      = (roots'.map (·.address)).filterMap fun a => (g'.includable? a).map Node.id := by
    rw [map_includedRoots, List.filterMap_map]
    rfl
  rw [hfactor, hroots, List.filterMap_map, map_includedRoots]
  exact List.filterMap_congr fun r hr => h.includable?_id hg hg' (declared r hr)

end BeginsWith

end HeapGraph

namespace Script

open HeapGraph

variable (style : Style) (g : HeapGraph)

/-- A declaration is made from the kind, the id and the labels. -/
lemma declare_eq (n : Node) : declare style g n =
    match n.kind with
    | .string => .declareString (style.nodeName n.id) n.id
    | .symbol => .declareSymbol (style.nodeName n.id)
    | _ => .declareObject (style.nodeName n.id)
        ((distinctKeys ((g.links n).map Prod.fst)).map style.propertyName) := by
  rw [declare, ← map_includedTargets, List.map_map]
  rfl

/-- Assignments are made from the id of the source and the links. -/
lemma assign_eq (n : Node) :
    assign style g n = (g.links n).map fun (l, id) => setEdge style n.id l id := by
  rw [assign, ← map_includedTargets, List.map_map]
  rfl

/-- Roots are collected by their ids. -/
lemma collect_congr (collector : String) (position : Nat) {targets targets' : List Node}
    (h : targets'.map Node.id = targets.map Node.id) :
    collect style collector position targets' = collect style collector position targets := by
  have hids : ∀ ns : List Node, collect style collector position ns
      = ((ns.map Node.id).zipIdx position).map fun p =>
          .setRoot collector p.2 (style.nodeName p.1) := by
    intro ns
    rw [collect, List.zipIdx_map, List.map_map]
    rfl
  rw [hids, h, ← hids]

end Script

namespace HeapGraph.BeginsWith

open Script

variable {move : Address → Address} {g g' : HeapGraph} {marks marks' : List Nat}

/-- **The emitted nodes of the copy are copies of the emitted nodes**, in the same order. -/
lemma emitted (h : BeginsWith move g g') (hg : g.Indexed) (hg' : g'.Indexed) (closed : g.Closed)
    (hmarks : ∀ n ∈ g.nodes, n.id ∈ marks ↔ g.Reached [] n)
    (hmarks' : ∀ n' ∈ g'.nodes, n'.id ∈ marks' ↔ g'.Reached [] n') :
    List.Forall₂ (fun n n' => n ∈ g.nodes ∧ n.IsCopy move n')
      (emittedNodes (g.withMarks marks)) (emittedNodes (g'.withMarks marks')) := by
  obtain ⟨copies, garbage, hnodes, hcopies⟩ := h.nodes
  -- garbage is not marked: it would be the copy of a node that has its copy before it
  have hgarbage : garbage.filter
      (fun n => (g'.withMarks marks').isMarked n && n.includable) = [] := by
    refine List.filter_eq_nil_iff.mpr fun m hm hemitted => ?_
    rw [Bool.and_eq_true, isMarked_withMarks,
      hmarks' m (hnodes ▸ List.mem_append_right _ hm)] at hemitted
    obtain ⟨n, hn, hcopy⟩ := h.exists_of_reached hg' closed hemitted.1
    obtain ⟨n', hn', hcopy'⟩ := exists_of_forall₂ hcopies hn.mem_nodes
    have hnodup := hg'.nodup_ids
    rw [hnodes, List.map_append, List.nodup_append] at hnodup
    exact hnodup.2.2 _ (List.mem_map_of_mem hn') _ (List.mem_map_of_mem hm)
      (hcopy'.id.trans hcopy.id.symm)
  have hrelated : List.Forall₂
      (fun n n' => (n ∈ g.nodes ∧ n' ∈ g'.nodes) ∧ n.IsCopy move n') g.nodes copies :=
    (forall₂_mem hcopies).imp fun n n' ⟨⟨hn, hn'⟩, hcopy⟩ =>
      ⟨⟨hn, hnodes ▸ List.mem_append_left _ hn'⟩, hcopy⟩
  have hfilter := List.rel_filter
    (p := fun n => (g.withMarks marks).isMarked n && n.includable)
    (q := fun n => (g'.withMarks marks').isMarked n && n.includable)
    (fun n n' hnn' => ?_) hrelated
  · rw [emittedNodes, emittedNodes, nodes_withMarks, nodes_withMarks, hnodes, List.filter_append,
      hgarbage, List.append_nil]
    exact hfilter.imp fun n n' hnn' => ⟨hnn'.1.1, hnn'.2⟩
  · obtain ⟨⟨hn, hn'⟩, hcopy⟩ := hnn'
    beta_reduce
    rw [Bool.and_eq_true, Bool.and_eq_true, isMarked_withMarks, isMarked_withMarks,
      hmarks n hn, hmarks' n' hn', h.reached_iff hg hg' closed hn hn' hcopy, hcopy.includable]

/-- **A graph that begins with a copy of another one has the same script**, if in both of them the
reached nodes are marked. -/
theorem script_eq (h : BeginsWith move g g') (hg : g.Indexed) (hg' : g'.Indexed)
    (closed : g.Closed) (hmarks : ∀ n ∈ g.nodes, n.id ∈ marks ↔ g.Reached [] n)
    (hmarks' : ∀ n' ∈ g'.nodes, n'.id ∈ marks' ↔ g'.Reached [] n') (style : Style) :
    script style (g'.withMarks marks') = script style (g.withMarks marks) := by
  have hemitted := h.emitted hg hg' closed hmarks hmarks'
  have hlinks : ∀ n n', n ∈ g.nodes → n.IsCopy move n' →
      (g'.withMarks marks').links n' = (g.withMarks marks).links n :=
    fun _ _ hn hcopy => h.links_eq hg hg' closed hn hcopy
  have hdeclare : (emittedNodes (g'.withMarks marks')).map (declare style (g'.withMarks marks'))
      = (emittedNodes (g.withMarks marks)).map (declare style (g.withMarks marks)) := by
    refine (map_eq_map_iff_forall₂.mpr (hemitted.imp fun n n' ⟨hn, hcopy⟩ => ?_)).symm
    rw [declare_eq, declare_eq, hlinks n n' hn hcopy, hcopy.kind, hcopy.id]
  have hassign : (emittedNodes (g'.withMarks marks')).map (assign style (g'.withMarks marks'))
      = (emittedNodes (g.withMarks marks)).map (assign style (g.withMarks marks)) := by
    refine (map_eq_map_iff_forall₂.mpr (hemitted.imp fun n n' ⟨hn, hcopy⟩ => ?_)).symm
    rw [assign_eq, assign_eq, hlinks n n' hn hcopy, hcopy.id]
  have hblack : ((g'.withMarks marks').includedRoots (g'.withMarks marks').blackRoots).map Node.id
      = ((g.withMarks marks).includedRoots (g.withMarks marks).blackRoots).map Node.id :=
    h.includedRoots_eq hg hg' (fun r hr => closed.roots r (List.mem_append_left _ hr))
      h.blackRoots
  have hgray : ((g'.withMarks marks').includedRoots (g'.withMarks marks').grayRoots).map Node.id
      = ((g.withMarks marks).includedRoots (g.withMarks marks).grayRoots).map Node.id :=
    h.includedRoots_eq hg hg' (fun r hr => closed.roots r (List.mem_append_right _ hr))
      h.grayRoots
  rw [script, script, scriptBody, scriptBody, hdeclare, List.flatMap_def, hassign, ← List.flatMap_def,
    collect_congr style _ 0 hblack, collect_congr style _ 0 hgray]

end HeapGraph.BeginsWith

/-- **Logs whose graphs are copies of each other, but for garbage, have the same script.** -/
lemma reconstruct_eq_of_beginsWith (style : Script.Style) {file file' text text' : String}
    {g g' : HeapGraph} {move : Address → Address} (h : Dump.parse file text = .ok g)
    (h' : Dump.parse file' text' = .ok g') (copied : g.BeginsWith move g') :
    ∃ script, reconstruct style file text = .ok script ∧
      reconstruct style file' text' = .ok script := by
  obtain ⟨marks, hmarks, hscript⟩ := reconstruct_of_parse style h
  obtain ⟨marks', hmarks', hscript'⟩ := reconstruct_of_parse style h'
  refine ⟨_, hscript, ?_⟩
  rw [hscript', Script.scriptText, copied.script_eq (Dump.built_of_parse h).indexed
    (Dump.built_of_parse h').indexed (Dump.closed_of_parse h) hmarks hmarks' style]
  rfl

end HeapReplay
