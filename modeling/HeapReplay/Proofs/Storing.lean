import HeapReplay.Proofs.Growing
import HeapReplay.Proofs.Updating

/-!
# What a history of edits stores

A graph keeps three lists in step: nodes, their ids and the registered addresses.  An edit changes
them one after the other, an edit may be refused in between, and everything that looks an address up
later relies on their agreement.

**`Consistent`** spells out what a user of the graph sees of it: the node at place `i` has id `i`,
the registry leads from its address to `i` and back, and an address resolves to the one node that
has it or is reported as unresolved.  It follows from `Indexed`, which every edit keeps.

**Nothing is taken back.**  Edits that come later leave a node at its place, with all that it was
declared with, and its address leads to it for ever (`Indexed.exists_later`).

**Edits are made in place.**  A history goes on from what the last edit has left, and one that fails
leaves what it has written by then.  That this is nothing is proved, and not taken from the type of an
edit (`foldl_leaves_editInPlace`, `Indexed.addNodeInPlace_eq_error_iff`).

**Roots come in order.**  The roots of a color are the added roots of this color, in the order in
which they were added (`rootsOf_edits`).
-/

namespace HeapReplay

/-- The root that an edit adds. -/
def Edit.root? : Edit → Option Root
  | addRoot r => some r
  | addNode .. | addEdge .. => none

namespace HeapGraph

variable {g : HeapGraph}

/-! ## Places and addresses -/

/-- Nodes, ids and registry agree place by place, and an address leads to the one node that has it
or is reported. -/
structure Consistent (g : HeapGraph) : Prop where
  ids : ∀ (i : Nat) (n : Node), g.nodes[i]? = some n → n.id = i
  distinct : (g.nodes.map Node.address).Nodup
  size : g.registry.size = g.nodes.length
  tables : g.registry.Agrees
  registered : ∀ (i : Nat) (n : Node), g.nodes[i]? = some n →
    g.registry.addressOf i = .ok n.address ∧ ∀ context location,
      g.registry.lookup n.address context location = .ok i
  resolved : ∀ a context,
    (∃ n, g.HasNode a n ∧ (∀ m, g.HasNode a m → m = n) ∧ g.resolve a context = .ok n) ∨
    (∀ n, ¬ g.HasNode a n) ∧
      g.resolve a context = .error (.fault (.unresolvedAddress a context none))

namespace Indexed

/-- The registry leads from a place to the address of its node. -/
lemma addressOf_eq_ok (h : g.Indexed) {i : Nat} {n : Node} (hn : g.nodes[i]? = some n) :
    g.registry.addressOf i = .ok n.address := by
  rw [Registry.addressOf, atOffset_eq_ok_iff, atOffset?_natCast, h.addresses, List.getElem?_map, hn]
  rfl

/-- The registry leads from the address of a node to its place, whoever asks. -/
lemma lookup_eq_ok (h : g.Indexed) {i : Nat} {n : Node} (hn : g.nodes[i]? = some n)
    (context : String) (location : Option Location) :
    g.registry.lookup n.address context location = .ok i := by
  rw [Registry.lookup_eq_ok_iff, h.registry_id?_eq_some_iff]
  exact ⟨n, hn, rfl⟩

/-- **Lists that are in step are all that consistency needs.** -/
lemma consistent (h : g.Indexed) : g.Consistent where
  ids _ _ hn := h.id_of_getElem? hn
  distinct := h.nodup
  size := by rw [Registry.size, h.addresses, List.length_map]
  tables := h.tables
  registered _ _ hn := ⟨h.addressOf_eq_ok hn, h.lookup_eq_ok hn⟩
  resolved a context := by
    by_cases hdeclared : ∃ n, g.HasNode a n
    · obtain ⟨n, hn⟩ := hdeclared
      exact Or.inl ⟨n, hn, fun m hm => h.hasNode_unique hm hn, h.resolve_eq_ok_iff.mpr hn⟩
    · rw [not_exists] at hdeclared
      exact Or.inr ⟨hdeclared, h.resolve_eq_error_iff.mpr ⟨hdeclared, rfl⟩⟩

lemma edits (h : g.Indexed) (edits : List Edit) : (edits.foldl HeapGraph.edit g).Indexed := by
  induction edits generalizing g with
  | nil => exact h
  | cons e edits ih => exact ih (h.edit e)

/-- **A node stays where it is and as it was declared**, and its address goes on leading to it.
Only its edges may become more. -/
lemma exists_later (h : g.Indexed) (edits : List Edit) {i : Nat} {n : Node}
    (hn : g.nodes[i]? = some n) :
    ∃ more, (edits.foldl HeapGraph.edit g).nodes[i]? = some { n with edges := n.edges ++ more } ∧
      ∀ context, (edits.foldl HeapGraph.edit g).resolve n.address context
        = .ok { n with edges := n.edges ++ more } := by
  have hlater := h.edits edits
  obtain ⟨n', hn', hgrown⟩ := (grows_edits g edits).nodes n (List.mem_of_getElem? hn)
  have hid : n'.id = i := hgrown.id.trans (h.id_of_getElem? hn)
  obtain ⟨more, rfl⟩ := hgrown
  refine ⟨more, ?_, fun context => hlater.resolve_eq_ok_iff.mpr ⟨hn', rfl⟩⟩
  rw [← hid]
  exact hlater.getElem?_id hn'

/-! ## Refused nodes -/

/-- **A node is refused exactly if its address is taken**, the refusal names the address, and what has
been written by then is nothing. -/
lemma addNodeInPlace_eq_error_iff (h : g.Indexed) {a : Address} {color : Color} {kind : Kind}
    {details : String} {location : Option Location} {f : Failure} {g' : HeapGraph} :
    addNodeInPlace a color kind details location g = .error f g' ↔
      (∃ n, g.HasNode a n) ∧ f = .fault (.duplicateAddress a location) ∧ g' = g := by
  rw [addNodeInPlace_eq, ← h.contains_iff]
  cases hadd : g.addNode a color kind details location with
  | ok p =>
      have hfree : g.registry.contains a = false := (addNode_eq_ok_iff.mp hadd).1
      refine iff_of_false nofun fun htaken => ?_
      rw [hfree] at htaken
      cases htaken.1
  | error fault =>
      obtain ⟨htaken, rfl⟩ := addNode_eq_error_iff.mp hadd
      constructor
      · intro hsettled
        injection hsettled with hfailure hstate
        exact ⟨htaken, hfailure.symm, hstate.symm⟩
      · rintro ⟨-, rfl, rfl⟩
        rfl

end Indexed

/-- **A history in place leaves what its edits make**, whatever fails on the way. -/
lemma foldl_leaves_editInPlace (g : HeapGraph) (edits : List Edit) :
    edits.foldl (fun g e => InPlace.leaves (editInPlace e) g) g = edits.foldl edit g := by
  simp only [leaves_editInPlace]

/-! ## Roots -/

lemma rootsOf_addRoot (g : HeapGraph) (r : Root) (c : Color) :
    (g.addRoot r).rootsOf c = g.rootsOf c ++ [r].filter (·.color = c) := by
  cases hr : r.color <;> cases c <;> simp [rootsOf, blackRoots_addRoot, grayRoots_addRoot, hr]

/-- **An edit adds its root at the end of the roots of its color** and changes no other root. -/
lemma rootsOf_edit (g : HeapGraph) (e : Edit) (c : Color) :
    (g.edit e).rootsOf c = g.rootsOf c ++ e.root?.toList.filter (·.color = c) := by
  cases e with
  | addNode a color kind details location =>
      simp only [edit, Edit.root?, Option.toList_none, List.filter_nil, List.append_nil]
      split
      · rename_i n g' hg
        obtain ⟨-, -, rfl⟩ := addNode_eq_ok_iff.mp hg
        cases c <;> rfl
      · rfl
  | addEdge source name target =>
      simp only [edit, Edit.root?, Option.toList_none, List.filter_nil, List.append_nil]
      split_ifs
      · rfl
      · split
        · rename_i label g' hg
          obtain ⟨interner, -, rfl⟩ := addEdge_eq_ok_iff.mp hg
          cases c <;> rfl
        · rfl
  | addRoot r => exact rootsOf_addRoot g r c

lemma rootsOf_edits (g : HeapGraph) (edits : List Edit) (c : Color) :
    (edits.foldl edit g).rootsOf c
      = g.rootsOf c ++ (edits.filterMap Edit.root?).filter (·.color = c) := by
  induction edits generalizing g with
  | nil => simp
  | cons e edits ih =>
      rw [List.foldl_cons, ih, rootsOf_edit, List.append_assoc, ← List.filter_append]
      cases hr : e.root? with
      | none => rw [List.filterMap_cons_none hr, Option.toList_none, List.nil_append]
      | some r => rw [List.filterMap_cons_some hr, Option.toList_some, List.singleton_append]

end HeapGraph

/-- **A history of edits keeps its store in step**, refused edits included.  Its graph is what the
edits leave when they are made in place, one after another, whatever fails.  At every moment nodes,
ids and registry agree and every address leads to its one node or is reported; edits that come later
change nothing of a node but add edges, and its address goes on leading to it; a node is refused
exactly if its address is taken, and then nothing has been written; and the roots of a color are those
that were added, in order. -/
theorem edited_graph_consistent (edits more : List Edit) :
    let g := edits.foldl HeapGraph.edit {}
    let later := more.foldl HeapGraph.edit g
    edits.foldl (fun g e => InPlace.leaves (HeapGraph.editInPlace e) g) {} = g ∧
    g.Consistent ∧
    (∀ (i : Nat) (n : Node), g.nodes[i]? = some n → ∃ edges,
      later.nodes[i]? = some { n with edges := n.edges ++ edges } ∧
      ∀ context, later.resolve n.address context = .ok { n with edges := n.edges ++ edges }) ∧
    (∀ a color kind details location f g',
      HeapGraph.addNodeInPlace a color kind details location g = .error f g' ↔
        (∃ n, g.HasNode a n) ∧ f = .fault (.duplicateAddress a location) ∧ g' = g) ∧
    g.blackRoots = (edits.filterMap Edit.root?).filter (·.color = .black) ∧
    g.grayRoots = (edits.filterMap Edit.root?).filter (·.color = .gray) := by
  intro g later
  have hg : g.Indexed := HeapGraph.indexed_empty.edits edits
  refine ⟨HeapGraph.foldl_leaves_editInPlace {} edits, hg.consistent,
    fun i n hn => hg.exists_later more hn,
    fun a color kind details location f g' => hg.addNodeInPlace_eq_error_iff, ?_, ?_⟩
  · exact HeapGraph.rootsOf_edits {} edits .black
  · exact HeapGraph.rootsOf_edits {} edits .gray

/-- A history in which an address is declared twice and two roots are gray. -/
def repeatedAddress : List Edit :=
  [.addNode 0x10 .black .object "" none, .addRoot { address := 0x10, color := .gray },
    .addEdge 0 "next" 0x11, .addNode 0x10 .gray .string "again" none,
    .addRoot { address := 0x11, color := .black },
    .addRoot { address := 0x11, color := .gray, name := "last" },
    .addNode 0x11 .gray .scope "s" none]

/-- The second declaration has left no trace, and an edge that is added later is all that changes of
the object. -/
theorem repeatedAddress_consistent :
    let g := repeatedAddress.foldl HeapGraph.edit {}
    let later := [Edit.addEdge 0 "next" 0x12, .addNode 0x11 .black .symbol "" none].foldl
      HeapGraph.edit g
    let object : Node := { id := 0, address := 0x10, color := .black, kind := .object
                           edges := [{ target := 0x11, label := .key 0 }] }
    g.Consistent ∧ g.nodes[0]? = some object ∧
      (∃ edges, later.nodes[0]? = some { object with edges := object.edges ++ edges } ∧
        ∀ context, later.resolve 0x10 context
          = .ok { object with edges := object.edges ++ edges }) ∧
      HeapGraph.addNodeInPlace 0x10 .gray .string "again" none g
        = .error (.fault (.duplicateAddress 0x10 none)) g ∧
      g.blackRoots = [{ address := 0x11, color := .black }] ∧
      g.grayRoots = [{ address := 0x10, color := .gray },
        { address := 0x11, color := .gray, name := "last" }] := by
  intro g later object
  have hobject : g.nodes[0]? = some object := by decide +kernel
  have htaken : ∃ n, g.HasNode 0x10 n := ⟨object, List.mem_of_getElem? hobject, rfl⟩
  obtain ⟨-, consistent, kept, refused, black, gray⟩ := edited_graph_consistent repeatedAddress
    [Edit.addEdge 0 "next" 0x12, .addNode 0x11 .black .symbol "" none]
  exact ⟨consistent, hobject, kept 0 object hobject, (refused ..).mpr ⟨htaken, rfl, rfl⟩, black, gray⟩

end HeapReplay
