import HeapReplay.Script.Emission
import HeapReplay.Proofs.Indexing
import HeapReplay.Proofs.Labels
import HeapReplay.Proofs.LineReading

/-!
# The statements of a script

An emission resolves the address of every edge and root that it meets and breaks off where there is
no node.  If the addresses that it meets all have nodes, it is the plain list of statements
`script`: this is `emission_eq_ofList`.

In the plain list nothing is looked up twice: `includable?` is the node of an address, if there is
one that can be declared, and the declarations, assignments and roots are made from what it finds.
-/

namespace HeapReplay

namespace HeapGraph

/-- The node of an address, if it is one that a script declares. -/
def includable? (g : HeapGraph) (a : Address) : Option Node :=
  g.nodes.find? fun n => n.address == a && n.includable

/-- The edges of a node that lead to nodes which a script declares, with these nodes. -/
def includedTargets (g : HeapGraph) (n : Node) : List (Edge × Node) :=
  n.edges.filterMap fun e => (g.includable? e.target).map (e, ·)

/-- The nodes that roots lead to and that a script declares, in the order of the roots. -/
def includedRoots (g : HeapGraph) (roots : List Root) : List Node :=
  roots.filterMap fun r => g.includable? r.address

lemma Indexed.includable?_eq_some_iff {g : HeapGraph} (h : g.Indexed) {a : Address} {n : Node} :
    g.includable? a = some n ↔ g.HasNode a n ∧ n.includable = true := by
  constructor
  · intro hn
    have hp := List.find?_some hn
    rw [Bool.and_eq_true, beq_iff_eq] at hp
    exact ⟨⟨List.mem_of_find?_eq_some hn, hp.1⟩, hp.2⟩
  · rintro ⟨hn, hincl⟩
    have hsome : (g.includable? a).isSome :=
      List.find?_isSome.mpr ⟨n, hn.1, by simp [hn.2, hincl]⟩
    obtain ⟨m, hm⟩ := Option.isSome_iff_exists.mp hsome
    have hp := List.find?_some hm
    rw [Bool.and_eq_true, beq_iff_eq] at hp
    rw [hm, h.hasNode_unique ⟨List.mem_of_find?_eq_some hm, hp.1⟩ hn]

/-- A node that an address has is found exactly if it can be declared. -/
lemma Indexed.includable?_of_hasNode {g : HeapGraph} (h : g.Indexed) {a : Address} {n : Node}
    (hn : g.HasNode a n) : g.includable? a = if n.includable then some n else none := by
  split_ifs with hincl
  · exact h.includable?_eq_some_iff.mpr ⟨hn, hincl⟩
  · refine Option.eq_none_iff_forall_ne_some.mpr fun m hm => ?_
    obtain ⟨hm, hincl'⟩ := h.includable?_eq_some_iff.mp hm
    exact hincl (h.hasNode_unique hm hn ▸ hincl')

lemma Indexed.mem_includedTargets {g : HeapGraph} (h : g.Indexed) {n m : Node} {e : Edge} :
    (e, m) ∈ g.includedTargets n ↔ e ∈ n.edges ∧ g.HasNode e.target m ∧ m.includable = true := by
  simp only [includedTargets, List.mem_filterMap, Option.map_eq_some_iff, Prod.mk.injEq]
  constructor
  · rintro ⟨e', he, m', hm, rfl, rfl⟩
    exact ⟨he, h.includable?_eq_some_iff.mp hm⟩
  · rintro ⟨he, hm⟩
    exact ⟨e, he, m, h.includable?_eq_some_iff.mpr hm, rfl, rfl⟩

lemma Indexed.mem_includedRoots {g : HeapGraph} (h : g.Indexed) {roots : List Root} {n : Node} :
    n ∈ g.includedRoots roots ↔
      ∃ r ∈ roots, g.HasNode r.address n ∧ n.includable = true := by
  simp only [includedRoots, List.mem_filterMap, h.includable?_eq_some_iff]

end HeapGraph

namespace Script

open HeapGraph

/-! ## Emissions that do not break off -/

namespace Emission

lemma ofList_append (as bs : List Statement) : ofList as ++ ofList bs = ofList (as ++ bs) := rfl

lemma concat_ofList {α : Type} (f : α → List Statement) (as : List α) :
    concat (as.map fun a => ofList (f a)) = ofList (as.flatMap f) := by
  induction as with
  | nil => rfl
  | cons a as ih =>
      rw [List.map_cons, concat, List.foldr_cons, ← concat, ih, ofList_append, List.flatMap_cons]

/-- Joined emissions reach their end if both of them do. -/
lemma failure_append_eq_none_iff {a b : Emission} :
    (a ++ b).failure = none ↔ a.failure = none ∧ b.failure = none := by
  obtain ⟨statements, _ | failure⟩ := a <;> simp [append_def, append]

lemma failure_concat_eq_none_iff {es : List Emission} :
    (concat es).failure = none ↔ ∀ e ∈ es, e.failure = none := by
  induction es with
  | nil => simp [concat]
  | cons e es ih =>
      rw [concat, List.foldr_cons, ← concat, failure_append_eq_none_iff, ih, List.forall_mem_cons]

lemma failure_ofExcept_eq_none_iff {r : Except Failure (List Statement)} :
    (ofExcept r).failure = none ↔ ∃ statements, r = .ok statements := by
  cases r <;> simp [ofExcept]

end Emission

/-! ## The plain list -/

variable (style : Style) (g : HeapGraph)

/-- The declaration of a node. -/
def declare (n : Node) : Statement :=
  match n.kind with
  | .string => .declareString (style.nodeName n.id) n.id
  | .symbol => .declareSymbol (style.nodeName n.id)
  | _ => .declareObject (style.nodeName n.id)
      ((distinctKeys ((g.includedTargets n).map (·.1.label))).map style.propertyName)

/-- The assignments for the edges of a node. -/
def assign (n : Node) : List Statement :=
  (g.includedTargets n).map fun (e, m) => setEdge style n.id e.label m.id

/-- The assignments for the roots of one color, from a place of the collector on. -/
def collect (collector : String) (position : Nat) (targets : List Node) : List Statement :=
  (targets.zipIdx position).map fun (n, i) => .setRoot collector i (style.nodeName n.id)

/-- A statement of the layout, if it is wanted. -/
def optional (wanted : Bool) (s : Statement) : List Statement :=
  if wanted then [s] else []

/-- The script of a marked graph in which no address is missing, without the function around it. -/
def scriptBody : List Statement :=
  (emittedNodes g).map (declare style g)
    ++ optional style.spaced .blank
    ++ (emittedNodes g).flatMap (assign style g)
    ++ optional style.spaced .blank
    ++ (collect style style.blackCollector 0 (g.includedRoots g.blackRoots)
      ++ collect style style.grayCollector 0 (g.includedRoots g.grayRoots))

/-- The script of a marked graph in which no address is missing. -/
def script : List Statement :=
  optional style.wrapped .openFunction ++ scriptBody style g
    ++ optional style.wrapped .closeFunction

variable {style g}

/-- Every address among the targets of some edges has a node. -/
lemma mapM_resolve (hg : g.Indexed) {es : List Edge}
    (hes : ∀ e ∈ es, ∃ m, g.HasNode e.target m) :
    ∃ resolved, (es.mapM fun e => return (e, ← g.resolve e.target "edge")) = .ok resolved ∧
      resolved.filter (·.2.includable)
        = es.filterMap fun e => (g.includable? e.target).map (e, ·) := by
  induction es with
  | nil => exact ⟨[], rfl, rfl⟩
  | cons e es ih =>
      obtain ⟨m, hm⟩ := hes e (by simp)
      obtain ⟨resolved, hres, hfilter⟩ := ih fun e' he' => hes e' (by simp [he'])
      refine ⟨(e, m) :: resolved, ?_, ?_⟩
      · rw [List.mapM_cons, hres, hg.resolve_eq_ok_iff.mpr hm]
        rfl
      · rw [List.filter_cons, List.filterMap_cons, hg.includable?_of_hasNode hm, hfilter]
        split_ifs with hincl <;> rfl

lemma includedEdges_eq_ok (hg : g.Indexed) {n : Node}
    (hn : ∀ e ∈ n.edges, ∃ m, g.HasNode e.target m) :
    includedEdges g n = .ok (g.includedTargets n) := by
  obtain ⟨resolved, hres, hfilter⟩ := mapM_resolve hg hn
  rw [includedEdges, hres, HeapGraph.includedTargets, ← hfilter]
  rfl

lemma declaration_eq_ok (hg : g.Indexed) {n : Node}
    (hn : ∀ e ∈ n.edges, ∃ m, g.HasNode e.target m) :
    declaration style g n = .ok [declare style g n] := by
  rw [declaration, declare]
  cases n.kind <;> simp only [includedEdges_eq_ok hg hn] <;> rfl

lemma assignment_eq_ok (hg : g.Indexed) {n m : Node} {e : Edge} (hm : g.HasNode e.target m) :
    assignment style g n e
      = .ok (if m.includable then [setEdge style n.id e.label m.id] else []) := by
  rw [assignment, hg.resolve_eq_ok_iff.mpr hm]
  rfl

/-- The assignments for some edges of a node. -/
lemma concat_assignment (hg : g.Indexed) (n : Node) {es : List Edge}
    (hes : ∀ e ∈ es, ∃ m, g.HasNode e.target m) :
    Emission.concat (es.map fun e => .ofExcept (assignment style g n e))
      = .ofList ((es.filterMap fun e => (g.includable? e.target).map (e, ·)).map
          fun (e, m) => setEdge style n.id e.label m.id) := by
  induction es with
  | nil => rfl
  | cons e es ih =>
      obtain ⟨m, hm⟩ := hes e (by simp)
      rw [List.map_cons, Emission.concat, List.foldr_cons, ← Emission.concat,
        ih fun e' he' => hes e' (by simp [he']), assignment_eq_ok hg hm, List.filterMap_cons,
        hg.includable?_of_hasNode hm]
      split_ifs <;> rfl

/-- The roots of one color, once all of their addresses have nodes. -/
lemma collected_eq_ofList (hg : g.Indexed) (collector : String) {roots : List Root}
    (hroots : ∀ r ∈ roots, ∃ m, g.HasNode r.address m) (position : Nat) :
    collected style g collector position roots
      = .ofList (collect style collector position (g.includedRoots roots)) := by
  induction roots generalizing position with
  | nil => rfl
  | cons r roots ih =>
      obtain ⟨m, hm⟩ := hroots r (by simp)
      have ih' := ih fun r' hr' => hroots r' (by simp [hr'])
      rw [collected, hg.resolve_eq_ok_iff.mpr hm, HeapGraph.includedRoots, List.filterMap_cons,
        hg.includable?_of_hasNode hm]
      split_ifs with hincl
      · simp only [hincl, if_true, ih', Emission.ofList_append]
        rfl
      · simp only [hincl, ih']
        rfl

/-- What a script needs of a graph: the addresses of the edges of all emitted nodes and of all
roots have nodes. -/
structure Complete (g : HeapGraph) : Prop where
  edges : ∀ n ∈ emittedNodes g, ∀ e ∈ n.edges, ∃ m, g.HasNode e.target m
  roots : ∀ r ∈ g.roots, ∃ m, g.HasNode r.address m

/-- **Nothing breaks an emission off** if no address is missing, and then it is the plain script. -/
theorem emission_eq_ofList (hg : g.Indexed) (complete : Complete g) :
    emission style g = .ofList (script style g) := by
  have hdecl : declarations style g = .ofList ((emittedNodes g).map (declare style g)) := by
    have hmap : ((emittedNodes g).map fun n => Emission.ofExcept (declaration style g n))
        = (emittedNodes g).map fun n => .ofList [declare style g n] :=
      List.map_congr_left fun n hn => by
        rw [declaration_eq_ok hg (complete.edges n hn)]; rfl
    rw [declarations, hmap, Emission.concat_ofList, ← List.map_eq_flatMap]
  have hassign : assignments style g = .ofList ((emittedNodes g).flatMap (assign style g)) := by
    have hmap : ((emittedNodes g).map fun n =>
          Emission.concat (n.edges.map fun e => .ofExcept (assignment style g n e)))
        = (emittedNodes g).map fun n => .ofList (assign style g n) :=
      List.map_congr_left fun n hn => concat_assignment hg n (complete.edges n hn)
    rw [assignments, hmap, Emission.concat_ofList]
  have hblack : collected style g style.blackCollector 0 g.blackRoots = _ :=
    collected_eq_ofList hg _ (fun r hr => complete.roots r (List.mem_append_left _ hr)) 0
  have hgray : collected style g style.grayCollector 0 g.grayRoots = _ :=
    collected_eq_ofList hg _ (fun r hr => complete.roots r (List.mem_append_right _ hr)) 0
  rw [emission, body, hdecl, hassign, rootAssignments, hblack, hgray]
  rfl

/-- An address whose assignment is written has a node. -/
lemma hasNode_of_assignment (hg : g.Indexed) {n : Node} {e : Edge} {statements : List Statement}
    (h : assignment style g n e = .ok statements) : ∃ m, g.HasNode e.target m := by
  cases hm : g.resolve e.target "edge" with
  | ok m => exact ⟨m, hg.resolve_eq_ok_iff.mp hm⟩
  | error failure =>
      rw [assignment, hm] at h
      cases h

/-- Roots that are all written have nodes. -/
lemma hasNode_of_collected (hg : g.Indexed) {collector : String} {roots : List Root}
    {position : Nat} (h : (collected style g collector position roots).failure = none) :
    ∀ r ∈ roots, ∃ m, g.HasNode r.address m := by
  induction roots generalizing position with
  | nil => simp
  | cons r roots ih =>
      rw [collected] at h
      cases hm : g.resolve r.address "root" with
      | error failure => simp [hm] at h
      | ok m =>
          simp only [hm] at h
          refine List.forall_mem_cons.mpr ⟨⟨m, hg.resolve_eq_ok_iff.mp hm⟩, ?_⟩
          split_ifs at h
          · exact ih (Emission.failure_append_eq_none_iff.mp h).2
          · exact ih h

/-- **An emission reaches its end exactly if no address is missing.** -/
theorem emission_complete_iff (hg : g.Indexed) :
    (emission style g).failure = none ↔ Complete g := by
  constructor
  · intro h
    simp only [emission, body, rootAssignments, assignments, Emission.failure_append_eq_none_iff,
      Emission.failure_concat_eq_none_iff, List.forall_mem_map,
      Emission.failure_ofExcept_eq_none_iff] at h
    obtain ⟨⟨-, ⟨⟨⟨-, -⟩, hedges⟩, -⟩, hblack, hgray⟩, -⟩ := h
    refine ⟨fun n hn e he => ?_, fun r hr => ?_⟩
    · obtain ⟨statements, hassign⟩ := hedges n hn e he
      exact hasNode_of_assignment hg hassign
    · rcases List.mem_append.mp hr with hr | hr
      · exact hasNode_of_collected hg hblack r hr
      · exact hasNode_of_collected hg hgray r hr
  · intro complete
    rw [emission_eq_ofList hg complete]
    rfl

/-! ## The names in a script -/

/-- The functions that a statement calls. -/
def Statement.calls : Statement → List String
  | declareSymbol _ => ["Symbol"]
  | setRoot collector _ _ => [collector]
  | openFunction | closeFunction | blank | declareString .. | declareObject .. | setProperty ..
  | setElement .. => []

/-- The statements that a style can write within the function around a script, of whatever
graph. -/
inductive Inner (style : Style) : Statement → Prop where
  | blank : Inner style .blank
  | string (id content : Nat) : Inner style (.declareString (style.nodeName id) content)
  | symbol (id : Nat) : Inner style (.declareSymbol (style.nodeName id))
  | object (id : Nat) (keys : List Nat) :
      Inner style (.declareObject (style.nodeName id) (keys.map style.propertyName))
  | edge (source : Nat) (l : Label) (target : Nat) : Inner style (setEdge style source l target)
  | blackRoot (position id : Nat) :
      Inner style (.setRoot style.blackCollector position (style.nodeName id))
  | grayRoot (position id : Nat) :
      Inner style (.setRoot style.grayCollector position (style.nodeName id))

/-- The statements that a style can write, of whatever graph. -/
inductive Written (style : Style) : Statement → Prop where
  | opening : Written style .openFunction
  | closing : Written style .closeFunction
  | inner {s : Statement} (h : Inner style s) : Written style s

lemma Inner.ne_wrapper {s : Statement} (h : Inner style s) :
    s ≠ .openFunction ∧ s ≠ .closeFunction := by
  cases h with
  | edge source l target => cases l <;> simp [setEdge]
  | _ => simp

/-- What holds of all names that a style makes holds of every name that it writes. -/
lemma Written.name {motive : String → Prop} {s : Statement} (h : Written style s)
    (node : ∀ id, motive (style.nodeName id)) (property : ∀ key, motive (style.propertyName key))
    (black : motive style.blackCollector) (gray : motive style.grayCollector) :
    ∀ x ∈ s.names, motive x := by
  cases h with
  | opening | closing => simp [Statement.names]
  | inner h =>
      cases h with
      | blank => simp [Statement.names]
      | string id content => simp [Statement.names, node]
      | symbol id => simp [Statement.names, node]
      | object id keys => simp [Statement.names, node, property]
      | edge source l target => cases l <;> simp [setEdge, Statement.names, node, property]
      | blackRoot position id => simp [Statement.names, node, black]
      | grayRoot position id => simp [Statement.names, node, gray]

/-- A variable that a style writes is that of a node, and what else a statement refers to is
called. -/
lemma Inner.reference {s : Statement} (h : Inner style s) {x : String}
    (hx : x ∈ s.references) : (∃ id, x = style.nodeName id) ∨ x ∈ s.calls := by
  cases h with
  | blank => cases hx
  | string id content | symbol id | object id keys =>
      exact Or.inl ⟨id, List.mem_singleton.mp hx⟩
  | edge source l target =>
      have hx' : x = style.nodeName source ∨ x = style.nodeName target := by
        cases l <;> simpa [setEdge, Statement.references] using hx
      rcases hx' with rfl | rfl
      · exact Or.inl ⟨source, rfl⟩
      · exact Or.inl ⟨target, rfl⟩
  | blackRoot position id | grayRoot position id =>
      rcases List.mem_cons.mp hx with rfl | hx
      · exact Or.inr List.mem_cons_self
      · exact Or.inl ⟨id, List.mem_singleton.mp hx⟩

lemma inner_of_mem_scriptBody {s : Statement} (hs : s ∈ scriptBody style g) : Inner style s := by
  have hspacing : s ∈ optional style.spaced .blank → Inner style s := by
    intro hs
    rw [optional] at hs
    split_ifs at hs
    · exact List.mem_singleton.mp hs ▸ .blank
    · cases hs
  simp only [scriptBody, List.mem_append] at hs
  rcases hs with ((((hs | hs) | hs) | hs) | (hs | hs))
  · obtain ⟨n, -, rfl⟩ := List.mem_map.mp hs
    rw [declare]
    split
    · exact .string n.id n.id
    · exact .symbol n.id
    · exact .object n.id _
  · exact hspacing hs
  · obtain ⟨n, -, hs⟩ := List.mem_flatMap.mp hs
    obtain ⟨⟨e, t⟩, -, rfl⟩ := List.mem_map.mp hs
    exact .edge n.id e.label t.id
  · exact hspacing hs
  · obtain ⟨⟨n, i⟩, -, rfl⟩ := List.mem_map.mp hs
    exact .blackRoot i n.id
  · obtain ⟨⟨n, i⟩, -, rfl⟩ := List.mem_map.mp hs
    exact .grayRoot i n.id

lemma written_of_mem_script {s : Statement} (hs : s ∈ script style g) : Written style s := by
  have hwrapper : ∀ t, Written style t → s ∈ optional style.wrapped t → Written style s := by
    intro t ht hs
    rw [optional] at hs
    split_ifs at hs
    · exact List.mem_singleton.mp hs ▸ ht
    · cases hs
  rcases List.mem_append.mp hs with hs | hs
  · rcases List.mem_append.mp hs with hs | hs
    · exact hwrapper _ .opening hs
    · exact .inner (inner_of_mem_scriptBody hs)
  · exact hwrapper _ .closing hs

/-- What holds of all names that a style makes holds of every name in a script. -/
lemma name_of_mem_script {motive : String → Prop} (node : ∀ id, motive (style.nodeName id))
    (property : ∀ key, motive (style.propertyName key)) (black : motive style.blackCollector)
    (gray : motive style.grayCollector) {s : Statement} (hs : s ∈ script style g) {x : String}
    (hx : x ∈ s.names) : motive x :=
  (written_of_mem_script hs).name node property black gray x hx

end Script

end HeapReplay
