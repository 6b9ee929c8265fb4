import HeapReplay.Proofs.Determining

/-!
# The shape of an object

An object is declared with a placeholder for each of its properties, and lines further down set
them.  The two are made apart from each other, and both leave out the edges that lead to nothing
that can be declared.  They agree: the properties of the declaration are those that are set, **each
once, in the order in which they are first set**.  So no line gives an object a property that it was
not declared with, none changes the order of its properties, and no placeholder is left.

Both are found in the lines of the script, with nothing known of the graph: `declaredProperties?`
looks for the braces behind the name of a variable, `assignedProperty?` for the point behind it.
That this finds the right lines and no others rests on what an accepted name can hold.
-/

namespace HeapReplay.Script

open HeapGraph

/-- The properties with which a line declares a variable as an object. -/
def declaredProperties? (x line : String) : Option (List String) :=
  match leadingName line.toList with
  | (word, ' ' :: rest) =>
    match leadingName rest with
    | (y, '=' :: '\x7b' :: rest) =>
      if word = "let" ∧ y = x then some (leadingNames (rest.takeWhile (· ≠ '\x7d'))) else none
    | _ => none
  | _ => none

/-- The property that a line sets of a variable. -/
def assignedProperty? (x line : String) : Option String :=
  match leadingName line.toList with
  | (y, '.' :: rest) => if y = x then some (leadingName rest).1 else none
  | _ => none

/-- The name of a property, if the place is one. -/
def Access.property? : Access → Option String
  | property name => some name
  | element _ => none

namespace Statement

/-- The properties with which a statement declares a variable as an object. -/
def shape? (x : String) : Statement → Option (List String)
  | declareObject y properties => if y = x then some properties else none
  | openFunction | closeFunction | blank | declareString .. | declareSymbol _ | setProperty ..
  | setElement .. | setRoot .. => none

/-! ## Lines and statements -/

/-- **The lines that declare an object are found.** -/
lemma declaredProperties?_text {s : Statement} (h : ∀ y ∈ s.names, Legible y) (x : String) :
    declaredProperties? x s.text = s.shape? x := by
  cases s with
  | openFunction => rfl
  | closeFunction => rfl
  | blank => rfl
  | declareString y content =>
      have hy : Legible y := h y (by simp [names])
      rw [declaredProperties?, toList_declareString, leadingName_of_let]
      simp only [leadingName_append hy (by decide : isNameChar '=' = false)]
      rfl
  | declareSymbol y =>
      have hy : Legible y := h y (by simp [names])
      rw [declaredProperties?, toList_declareSymbol, leadingName_of_const]
      simp only [leadingName_append hy (by decide : isNameChar '=' = false)]
      rfl
  | declareObject y properties =>
      have hy : Legible y := h y (by simp [names])
      have hp : ∀ p ∈ properties, Legible p := fun p hp => h p (by simp [names, hp])
      rw [declaredProperties?, toList_declareObject, leadingName_of_let]
      simp only [leadingName_append hy (by decide : isNameChar '=' = false),
        leadingNames_of_braces hp, shape?, true_and]
  | setProperty y property z =>
      have hy : Legible y := h y (by simp [names])
      rw [declaredProperties?, toList_setProperty, leadingName_append hy (by decide)]
      rfl
  | setElement y index z =>
      have hy : Legible y := h y (by simp [names])
      rw [declaredProperties?, toList_setElement, leadingName_append hy (by decide)]
      rfl
  | setRoot collector position z =>
      have hc : Legible collector := h collector (by simp [names])
      rw [declaredProperties?, toList_setRoot, leadingName_append hc (by decide)]
      rfl

/-- **The lines that set a property are found.** -/
lemma assignedProperty?_text {s : Statement} (h : ∀ y ∈ s.names, Legible y) (x : String) :
    assignedProperty? x s.text = (s.assigned? x).bind fun p => p.1.property? := by
  cases s with
  | openFunction => rfl
  | closeFunction => rfl
  | blank => rfl
  | declareString y content =>
      rw [assignedProperty?, toList_declareString, leadingName_of_let]
      rfl
  | declareSymbol y =>
      rw [assignedProperty?, toList_declareSymbol, leadingName_of_const]
      rfl
  | declareObject y properties =>
      rw [assignedProperty?, toList_declareObject, leadingName_of_let]
      rfl
  | setProperty y property z =>
      have hy : Legible y := h y (by simp [names])
      have hp : Legible property := h property (by simp [names])
      rw [assignedProperty?, toList_setProperty, leadingName_append hy (by decide), assigned?]
      simp only [leadingName_append hp (by decide : isNameChar '=' = false)]
      split_ifs <;> rfl
  | setElement y index z =>
      have hy : Legible y := h y (by simp [names])
      rw [assignedProperty?, toList_setElement, leadingName_append hy (by decide), assigned?]
      split_ifs <;> rfl
  | setRoot collector position z =>
      have hc : Legible collector := h collector (by simp [names])
      rw [assignedProperty?, toList_setRoot, leadingName_append hc (by decide)]
      rfl

end Statement

/-! ## Declared and assigned properties -/

open Statement

variable {style : Style} {g : HeapGraph}

lemma propertyName_injective (style : Style) : Function.Injective style.propertyName :=
  fun _ _ h => append_toString_injective h

lemma property?_access (style : Style) (l : Label) :
    (style.access l).property? = l.key?.map style.propertyName := by
  cases l <;> rfl

lemma shape?_declare (style : Style) (g : HeapGraph) (m n : Node) :
    (declare style g m).shape? (style.nodeName n.id)
      = if m.id = n.id then (declare style g m).shape? (style.nodeName m.id) else none := by
  have hname : style.nodeName m.id = style.nodeName n.id ↔ m.id = n.id :=
    ⟨append_toString_injective, fun h => h ▸ rfl⟩
  rw [declare]
  cases m.kind <;> simp [shape?, hname]

lemma shape?_setEdge (style : Style) (source : Nat) (l : Label) (target : Nat) (x : String) :
    (setEdge style source l target).shape? x = none := by
  cases l <;> rfl

/-- An object is declared with the distinct keys of its links. -/
lemma shape?_of_object {n : Node} (hobject : n.kind ≠ .string ∧ n.kind ≠ .symbol) :
    (declare style g n).shape? (style.nodeName n.id)
      = some ((distinctKeys ((g.links n).map Prod.fst)).map style.propertyName) := by
  rw [declare_eq]
  split
  · exact absurd ‹_› hobject.1
  · exact absurd ‹_› hobject.2
  · exact if_pos rfl

/-- The variable of an emitted object is declared once. -/
lemma filterMap_shape? (hg : g.Indexed) {n : Node} (hn : n ∈ emittedNodes g)
    (hobject : n.kind ≠ .string ∧ n.kind ≠ .symbol) :
    (script style g).filterMap (shape? (style.nodeName n.id))
      = [(distinctKeys ((g.links n).map Prod.fst)).map style.propertyName] := by
  have hnodup : ((emittedNodes g).map Node.id).Nodup :=
    hg.nodup_ids.sublist (List.filter_sublist.map Node.id)
  have hdeclared : (emittedNodes g).filterMap
        (fun m => (declare style g m).shape? (style.nodeName n.id))
      = ((declare style g n).shape? (style.nodeName n.id)).toList := by
    rw [List.filterMap_eq_flatMap_toList, ← flatMap_id hnodup hn
      fun m => ((declare style g m).shape? (style.nodeName m.id)).toList]
    refine List.flatMap_congr fun m _ => ?_
    rw [shape?_declare]
    split_ifs <;> rfl
  have hassigned : ∀ m, (assign style g m).filterMap (shape? (style.nodeName n.id)) = [] :=
    fun m => by simp [assign_eq, shape?_setEdge]
  rw [filterMap_script style g (shape? _) rfl rfl rfl,
    filterMap_collect_eq_nil style fun _ _ _ => rfl,
    filterMap_collect_eq_nil style fun _ _ _ => rfl, hdeclared, shape?_of_object hobject]
  simp [hassigned]

/-- The properties of an emitted object are set by its links, in their order. -/
lemma filterMap_property? (hg : g.Indexed) {n : Node} (hn : n ∈ emittedNodes g) :
    (script style g).filterMap (fun s => (s.assigned? (style.nodeName n.id)).bind
        fun p => p.1.property?)
      = (((g.links n).map Prod.fst).filterMap Label.key?).map style.propertyName := by
  rw [← List.filterMap_filterMap, filterMap_assigned? style hg hn, List.filterMap_map,
    List.filterMap_map, List.map_filterMap]
  exact List.filterMap_congr fun p _ => property?_access style p.1

/-- **What an object is declared with is what it is given.**  Of the lines of a script that is
written to its end, in an accepted style, exactly one declares the variable of an emitted object.
Its properties are those that further lines set of this variable, each once and in the order in
which they are first set. -/
theorem declared_shape_assigned {style : Style} (accepted : style.check = .ok style) {g : HeapGraph}
    (built : g.Built) (marks : List Nat)
    (written : (emission style (g.withMarks marks)).failure = none) {n : Node}
    (emitted : n ∈ emittedNodes (g.withMarks marks))
    (object : n.kind ≠ .string ∧ n.kind ≠ .symbol) :
    let lines := (emission style (g.withMarks marks)).lines
    let assigned := lines.filterMap (assignedProperty? (style.nodeName n.id))
    ∃ declared, lines.filterMap (declaredProperties? (style.nodeName n.id)) = [declared] ∧
      declared.Nodup ∧ declared = assigned.eraseDups ∧ ∀ p, p ∈ assigned ↔ p ∈ declared := by
  intro lines assigned
  have hg := built.indexed.withMarks marks
  have hlines : lines = (script style (g.withMarks marks)).map Statement.text := by
    simp only [lines, emission_eq_ofList hg ((emission_complete_iff hg).mp written)]
    rfl
  have hlegible : ∀ s ∈ script style (g.withMarks marks), ∀ x ∈ s.names, Legible x :=
    fun s hs => legible_of_mem_script accepted hs
  have hdeclared : lines.filterMap (declaredProperties? (style.nodeName n.id))
      = [assigned.eraseDups] := by
    have hassigned : assigned
        = ((((g.withMarks marks).links n).map Prod.fst).filterMap Label.key?).map
            style.propertyName := by
      rw [← filterMap_property? hg emitted]
      simp only [assigned, hlines, List.filterMap_map]
      exact List.filterMap_congr fun s hs => assignedProperty?_text (hlegible s hs) _
    rw [hassigned, eraseDups_map (propertyName_injective style), ← distinctKeys_eq_eraseDups,
      ← filterMap_shape? hg emitted object, hlines, List.filterMap_map]
    exact List.filterMap_congr fun s hs => declaredProperties?_text (hlegible s hs) _
  exact ⟨_, hdeclared, nodup_eraseDups _, rfl, fun p => List.mem_eraseDups.symm⟩

/-- An object with a property that is set twice and with one that another node has had before.  It
has an element, leads to a shape and to a node that is not marked, and stands in front of its
targets. -/
def sharingObject : HeapGraph :=
  [Edit.addNode 0x10 .black .object "" none, .addNode 0x20 .gray .string "" none,
    .addNode 0x30 .gray .shape "" none, .addNode 0x40 .black .scope "" none,
    .addEdge 3 "next" 0x10, .addEdge 0 "last" 0x20, .addEdge 0 "next" 0x10,
    .addEdge 0 "objectElements[3]" 0x20, .addEdge 0 "last" 0x10, .addEdge 0 "shape" 0x30,
    .addEdge 0 "scope" 0x40].foldl HeapGraph.edit {}

/-- It is declared with three properties, and the four lines that set one agree with that. -/
theorem sharingObject_shape :
    let lines := (emission brokenLines (sharingObject.withMarks [1, 0])).lines
    let assigned := lines.filterMap (assignedProperty? "n1\n0")
    lines = ["let n1\n0=\x7bn11:0,n10:0,n13:0\x7d;", "let n1\n1=\"1\";", "", "n1\n0.n11=n1\n1;",
        "n1\n0.n10=n1\n0;", "n1\n0[3]=n1\n1;", "n1\n0.n11=n1\n0;", "n1\n0.n13=n1\n3;", ""] ∧
    assigned = ["n11", "n10", "n11", "n13"] ∧
    ∃ declared, lines.filterMap (declaredProperties? "n1\n0") = [declared] ∧
      declared.Nodup ∧ declared = assigned.eraseDups ∧ ∀ p, p ∈ assigned ↔ p ∈ declared := by
  intro lines assigned
  have accepted : brokenLines.check = .ok brokenLines := by decide
  refine ⟨by decide +kernel, by decide +kernel, ?_⟩
  have built : sharingObject.Built := ⟨_, rfl⟩
  obtain ⟨n, emitted, object, hname⟩ : ∃ n ∈ emittedNodes (sharingObject.withMarks [1, 0]),
      (n.kind ≠ .string ∧ n.kind ≠ .symbol) ∧ brokenLines.nodeName n.id = "n1\n0" := by
    decide +kernel
  have hshape := declared_shape_assigned accepted built [1, 0] (by decide +kernel) emitted object
  rwa [hname] at hshape

end HeapReplay.Script
