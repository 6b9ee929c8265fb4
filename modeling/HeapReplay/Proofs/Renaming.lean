import HeapReplay.Proofs.Determining
import HeapReplay.Proofs.Naming

/-!
# One script in many styles

A style chooses names and layout.  What a script does is said without either: an `Action` speaks of
nodes by their ids and of properties by their keys, and a `Heap` is a memory whose variables are ids
and whose slots are places.  `Action.write` and `Heap.named` put the names of a style in.

**Every style writes the same actions.**  The emission of a graph depends on its style by names and
layout alone, wherever it breaks off (`uniform_emission`).

**Running does not look at names** either: a statement does to the heap that a style has named what
its action does to the heap (`toOption_step`).  This is where names can get into each other's way.
Ids and keys are read off their names, so nodes are never taken for each other, nor are properties;
but a collector that is named like a node, like the other collector or like the function that makes
symbols is no longer the function of the host that it is meant to be, and a reserved word is never
one.  `Hygienic` rules this out for the script of a graph, and `names_and_layout_only` is what comes
of it.  No check of a style rules it out: `accepted_names_collide` has one style for each way in
which names get into each other's way.
-/

namespace HeapReplay.Script

/-! ## What a script does -/

/-- What a statement does, whatever it is written with. -/
inductive Action where
  | declareString (id content : Nat)
  | declareSymbol (id : Nat)
  | declareObject (id : Nat) (keys : List Nat)
  /-- Sets a slot of one node to another node. -/
  | set (source : Nat) (label : Label) (target : Nat)
  /-- Sets a place of the collector of a color to a node. -/
  | collect (color : Color) (position target : Nat)
deriving DecidableEq, Repr

namespace Action

/-- The statement that a style has for an action. -/
def write (style : Style) : Action → Statement
  | declareString id content => .declareString (style.nodeName id) content
  | declareSymbol id => .declareSymbol (style.nodeName id)
  | declareObject id keys => .declareObject (style.nodeName id) (keys.map style.propertyName)
  | set source label target => setEdge style source label target
  | collect color position target =>
    .setRoot (style.collector color) position (style.nodeName target)

/-- The node that an action declares. -/
def declared? : Action → Option Nat
  | declareString id _ | declareSymbol id | declareObject id _ => some id
  | set .. | collect .. => none

end Action

namespace Statement

/-- Whether a statement belongs to the layout. -/
def isLayout : Statement → Bool
  | openFunction | closeFunction | blank => true
  | declareString .. | declareSymbol _ | declareObject .. | setProperty .. | setElement ..
  | setRoot .. => false

end Statement

/-- Statements without their layout. -/
def content (ss : List Statement) : List Statement :=
  ss.filter fun s => !s.isLayout

lemma content_append (ss ss' : List Statement) : content (ss ++ ss') = content ss ++ content ss' :=
  List.filter_append ..

lemma isLayout_write (style : Style) (a : Action) : (a.write style).isLayout = false := by
  cases a with
  | set source label target => cases label <;> rfl
  | _ => rfl

/-- An action declares the node whose name its statement declares. -/
lemma declared?_write (style : Style) (a : Action) :
    (a.write style).declared?.map Prod.fst = a.declared?.map style.nodeName := by
  cases a with
  | set source label target => cases label <;> rfl
  | _ => rfl

/-! ## Every style writes the same actions -/

/-- Emissions of all styles that are the same but for names and layout. -/
def Uniform (e : Style → Emission) : Prop :=
  ∃ (actions : List Action) (failure : Option Failure), ∀ style,
    content (e style).statements = actions.map (Action.write style) ∧ (e style).failure = failure

lemma uniform_empty (failure : Option Failure) : Uniform fun _ => { failure } :=
  ⟨[], failure, fun _ => ⟨rfl, rfl⟩⟩

lemma uniform_write (a : Action) : Uniform fun style => .ofList [a.write style] := by
  refine ⟨[a], none, fun style => ⟨?_, rfl⟩⟩
  simp [Emission.ofList, content, isLayout_write]

lemma uniform_layout (wanted : Style → Bool) {s : Statement} (hs : s.isLayout = true) :
    Uniform fun style => layout (wanted style) s := by
  refine ⟨[], none, fun style => ⟨?_, rfl⟩⟩
  cases hw : wanted style <;> simp [layout, Emission.ofList, content, hw, hs]

lemma Uniform.append {d e : Style → Emission} (hd : Uniform d) (he : Uniform e) :
    Uniform fun style => d style ++ e style := by
  obtain ⟨actions, failure, hd⟩ := hd
  obtain ⟨actions', failure', he⟩ := he
  cases failure with
  | some f =>
      -- what has broken off is not gone on with
      refine ⟨actions, some f, fun style => ?_⟩
      obtain ⟨hactions, hfailure⟩ := hd style
      have happend : d style ++ e style = d style := by
        rw [Emission.append_def, Emission.append, hfailure]
      beta_reduce
      rw [happend]
      exact ⟨hactions, hfailure⟩
  | none =>
      refine ⟨actions ++ actions', failure', fun style => ?_⟩
      obtain ⟨hactions, hfailure⟩ := hd style
      obtain ⟨hactions', hfailure'⟩ := he style
      beta_reduce
      rw [Emission.append_def, Emission.append, hfailure]
      refine ⟨?_, hfailure'⟩
      rw [content_append, hactions, hactions', List.map_append]

lemma uniform_concat {α : Type} {f : Style → α → Emission} {as : List α}
    (h : ∀ a ∈ as, Uniform fun style => f style a) :
    Uniform fun style => .concat (as.map (f style)) := by
  induction as with
  | nil => exact uniform_empty none
  | cons a as ih =>
      obtain ⟨ha, has⟩ := List.forall_mem_cons.mp h
      exact ha.append (ih has)

variable (g : HeapGraph)

lemma uniform_declaration (n : Node) :
    Uniform fun style => .ofExcept (declaration style g n) := by
  simp only [declaration]
  cases n.kind with
  | string => exact uniform_write (.declareString n.id n.id)
  | symbol => exact uniform_write (.declareSymbol n.id)
  | _ =>
      cases includedEdges g n with
      | error failure => exact uniform_empty (some failure)
      | ok edges =>
          exact uniform_write (.declareObject n.id (distinctKeys (edges.map (·.1.label))))

lemma uniform_assignment (n : Node) (e : Edge) :
    Uniform fun style => .ofExcept (assignment style g n e) := by
  simp only [assignment]
  cases g.resolve e.target "edge" with
  | error failure => exact uniform_empty (some failure)
  | ok target =>
      show Uniform fun style =>
        .ofList (if target.includable then [setEdge style n.id e.label target.id] else [])
      split_ifs
      · exact uniform_write (.set n.id e.label target.id)
      · exact uniform_empty none

lemma uniform_collected (color : Color) (position : Nat) (roots : List Root) :
    Uniform fun style => collected style g (style.collector color) position roots := by
  induction roots generalizing position with
  | nil => exact uniform_empty none
  | cons r roots ih =>
      simp only [collected]
      cases g.resolve r.address "root" with
      | error failure => exact uniform_empty (some failure)
      | ok target =>
          dsimp only
          split_ifs
          · exact (uniform_write (.collect color position target.id)).append (ih (position + 1))
          · exact ih position

/-- **Scripts of one graph differ in names and layout only**, and if they break off, they do so at
one place. -/
theorem uniform_emission : Uniform fun style => emission style g := by
  have hdeclarations : Uniform fun style => declarations style g :=
    uniform_concat fun n _ => uniform_declaration g n
  have hassignments : Uniform fun style => assignments style g :=
    uniform_concat fun n _ => uniform_concat fun e _ => uniform_assignment g n e
  have hroots : Uniform fun style => rootAssignments style g :=
    (uniform_collected g .black 0 g.blackRoots).append (uniform_collected g .gray 0 g.grayRoots)
  have hbody : Uniform fun style => body style g :=
    hdeclarations.append (uniform_layout Style.spaced rfl) |>.append hassignments
      |>.append (uniform_layout Style.spaced rfl) |>.append hroots
  exact (uniform_layout Style.wrapped rfl).append hbody |>.append (uniform_layout Style.wrapped rfl)

/-! ## Heaps -/

/-- A memory without names: variables are ids, and slots are places. -/
structure Heap where
  bindings : Table Nat Value := []
  objects : List (Table Place Content) := []
  symbols : Nat := 0
  blackRoots : Table Place Value := []
  grayRoots : Table Place Value := []
deriving DecidableEq, Repr

namespace Heap

/-- The memory that is the heap with the names of a style. -/
def named (style : Style) (h : Heap) : Memory where
  bindings := h.bindings.rename style.nodeName
  objects := h.objects.map (Table.rename style.slot)
  symbols := h.symbols
  blackRoots := h.blackRoots.rename style.slot
  grayRoots := h.grayRoots.rename style.slot

/-- Binds an id that is not bound. -/
def bind (h : Heap) (id : Nat) (v : Value) : Option Heap :=
  match h.bindings.lookup id with
  | some _ => none
  | none => some { h with bindings := h.bindings ++ [(id, v)] }

/-- Sets a place of a value, which has an effect on objects and arrays only. -/
def setPlace (h : Heap) (v : Value) (place : Place) (content : Value) : Heap :=
  match v with
  | .object serial =>
    { h with objects := h.objects.modify serial (Table.set place (.value content)) }
  | .roots .black => { h with blackRoots := Table.set place content h.blackRoots }
  | .roots .gray => { h with grayRoots := Table.set place content h.grayRoots }
  | .string _ | .symbol _ => h

/-- The ids that are bound. -/
def ids (h : Heap) : List Nat :=
  h.bindings.map Prod.fst

end Heap

/-- The places of an object that has just been declared. -/
def blankPlaces (keys : List Nat) : Table Place Content :=
  keys.foldl (fun t key => Table.set (.key key) .placeholder t) []

/-- The heap after an action, if nothing is read that is not bound and nothing bound twice. -/
def Action.step (h : Heap) : Action → Option Heap
  | declareString id content => h.bind id (.string content)
  | declareSymbol id => { h with symbols := h.symbols + 1 }.bind id (.symbol h.symbols)
  | declareObject id keys =>
    { h with objects := h.objects ++ [blankPlaces keys] }.bind id (.object h.objects.length)
  | set source label target => do
    let v ← h.bindings.lookup source
    return h.setPlace v (.ofLabel label) (← h.bindings.lookup target)
  | collect color position target => do
    return h.setPlace (.roots color) (.element (.ofNat position)) (← h.bindings.lookup target)

/-! ## Running does not look at names -/

variable {style : Style} {h₀ h h' : Heap} {a : Action}

lemma nodeName_injective (style : Style) : style.nodeName.Injective := fun _ _ =>
  append_toString_injective

lemma lookup_named (style : Style) (h : Heap) (id : Nat) :
    (h.named style).bindings.lookup (style.nodeName id) = h.bindings.lookup id :=
  lookup_rename (nodeName_injective style) h.bindings id

lemma toOption_bind (style : Style) (h : Heap) (id : Nat) (v : Value) :
    ((h.named style).bind (style.nodeName id) v).toOption
      = (h.bind id v).map (Heap.named style) := by
  rw [Memory.bind, Heap.bind, lookup_named]
  cases h.bindings.lookup id with
  | some w => rfl
  | none => simp [Except.toOption, Heap.named, Table.rename]

lemma setSlot_named (style : Style) (h : Heap) (v w : Value) (place : Place) :
    (h.named style).setSlot v (style.slot place) w = (h.setPlace v place w).named style := by
  have hset : ∀ {γ : Type} (t : Table Place γ) (c : γ), Table.set (style.slot place) c
      (t.rename style.slot) = (Table.set place c t).rename style.slot :=
    fun t c => set_rename (slot_injective style) t place c
  cases v with
  | string content => rfl
  | symbol serial => rfl
  | object serial =>
      have hobjects : (h.objects.map (Table.rename style.slot)).modify serial
            (Table.set (style.slot place) (.value w))
          = (h.objects.modify serial (Table.set place (.value w))).map
            (Table.rename style.slot) := by
        refine List.ext_getElem? fun i => ?_
        rw [List.getElem?_modify, List.getElem?_map, List.getElem?_map, List.getElem?_modify]
        by_cases hi : serial = i <;> simp [hi, hset, Function.comp_def]
      simp only [Memory.setSlot, Heap.setPlace, Heap.named, hobjects]
  | roots color =>
      cases color <;>
        simp only [Memory.setSlot, Memory.setRoots, Memory.roots, Heap.setPlace, Heap.named, hset]

/-- The placeholders of an object are those of its properties. -/
lemma blankPlaces_rename (style : Style) (keys : List Nat) :
    (keys.map style.propertyName).foldl (fun t p => Table.set (.property p) .placeholder t) []
      = (blankPlaces keys).rename style.slot := by
  induction keys using List.reverseRecOn with
  | nil => rfl
  | append_singleton keys key ih =>
      have hlast : blankPlaces (keys ++ [key])
          = Table.set (.key key) .placeholder (blankPlaces keys) := by
        rw [blankPlaces, List.foldl_append]
        rfl
      rw [List.map_append, List.foldl_append, ih, hlast]
      exact set_rename (slot_injective style) (blankPlaces keys) (.key key) .placeholder

/-- A name that no id has is not bound. -/
lemma lookup_named_eq_none {name : String} (h : ∀ id ∈ h₀.ids, style.nodeName id ≠ name) :
    (h₀.named style).bindings.lookup name = none := by
  rw [lookup_eq_none_iff_not_mem]
  intro hin
  obtain ⟨p, hp, heq⟩ := List.mem_map.mp hin
  obtain ⟨q, hq, rfl⟩ := List.mem_map.mp hp
  exact h q.1 (List.mem_map_of_mem hq) heq

/-- **A statement does to a named heap what its action does to the heap**, as long as the collectors
are two, none of them is a variable, and none stands where symbols are made. -/
lemma toOption_step (apart : style.blackCollector ≠ style.grayCollector)
    (free : ∀ id ∈ h.ids, ∀ color, style.nodeName id ≠ style.collector color) (a : Action)
    (maker : ∀ id, a = .declareSymbol id → ∀ color, style.collector color ≠ "Symbol") :
    (Memory.step style.host (h.named style) (a.write style)).toOption
      = (a.step h).map (Heap.named style) := by
  cases a with
  | declareString id content => exact toOption_bind style h id (.string content)
  | declareSymbol id =>
      have hcall : (h.named style).call style.host "Symbol"
          = .ok (.symbol h.symbols, { h with symbols := h.symbols + 1 }.named style) := by
        rw [Memory.call, lookup_named_eq_none fun id _ => nodeName_ne_symbol style id,
          color?_eq_none_iff.mpr (maker id rfl)]
        rfl
      have hwrite : Memory.step style.host (h.named style) (Action.write style (.declareSymbol id))
          = (h.named style).call style.host "Symbol" >>= fun p =>
            p.2.bind (style.nodeName id) p.1 := rfl
      rw [hwrite, hcall]
      exact toOption_bind style { h with symbols := h.symbols + 1 } id (.symbol h.symbols)
  | declareObject id keys =>
      have hbind := toOption_bind style { h with objects := h.objects ++ [blankPlaces keys] } id
        (.object h.objects.length)
      simpa [Action.write, Memory.step, blankPlaces_rename, Heap.named, Action.step] using hbind
  | set source label target =>
      have hwrite : Memory.step style.host (h.named style)
            (Action.write style (.set source label target))
          = (do
            let v ← (h.named style).value (style.nodeName source)
            return (h.named style).setSlot v (style.slot (.ofLabel label))
              (← (h.named style).value (style.nodeName target))) := by
        cases label <;> rfl
      rw [hwrite, Action.step, Memory.value, Memory.value, lookup_named, lookup_named]
      cases h.bindings.lookup source with
      | none => rfl
      | some v =>
          cases h.bindings.lookup target with
          | none => rfl
          | some w => exact congrArg some (setSlot_named style h v w (.ofLabel label))
  | collect color position target =>
      have hcall : (h.named style).call style.host (style.collector color)
          = .ok (.roots color, h.named style) :=
        call_collector (lookup_named_eq_none fun id hid => free id hid color)
          (color?_collector apart color)
      have hwrite : Memory.step style.host (h.named style)
            (Action.write style (.collect color position target))
          = (h.named style).call style.host (style.collector color) >>= fun p => do
            return p.2.setSlot p.1 (style.slot (.element (.ofNat position)))
              (← p.2.value (style.nodeName target)) := rfl
      rw [hwrite, hcall, Action.step]
      simp only [Bind.bind, Except.bind, Memory.value, lookup_named]
      cases h.bindings.lookup target with
      | none => rfl
      | some w => exact congrArg some (setSlot_named style h (.roots color) w _)

lemma ids_bind {id : Nat} {v : Value} (h : h₀.bind id v = some h') : h'.ids = h₀.ids ++ [id] := by
  rw [Heap.bind] at h
  cases hid : h₀.bindings.lookup id with
  | some w => simp [hid] at h
  | none =>
      rw [hid] at h
      rw [← Option.some.inj h, Heap.ids, List.map_append]
      rfl

lemma ids_setPlace (h : Heap) (v : Value) (place : Place) (w : Value) :
    (h.setPlace v place w).ids = h.ids := by
  cases v with
  | roots color => cases color <;> rfl
  | _ => rfl

/-- An action binds the id that it declares. -/
lemma ids_step (h : a.step h₀ = some h') : h'.ids = h₀.ids ++ a.declared?.toList := by
  cases a with
  | declareString id content => exact ids_bind h
  | declareSymbol id =>
      have hids := ids_bind h
      exact hids
  | declareObject id keys =>
      have hids := ids_bind h
      exact hids
  | set source label target =>
      obtain ⟨v, -, h⟩ := Option.bind_eq_some_iff.mp h
      obtain ⟨w, -, h⟩ := Option.bind_eq_some_iff.mp h
      rw [← Option.some.inj h, ids_setPlace]
      exact (List.append_nil _).symm
  | collect color position target =>
      obtain ⟨w, -, h⟩ := Option.bind_eq_some_iff.mp h
      rw [← Option.some.inj h, ids_setPlace]
      exact (List.append_nil _).symm

/-- **A whole run** does to a named heap what its actions do to the heap. -/
lemma toOption_execute (apart : style.blackCollector ≠ style.grayCollector) {actions : List Action}
    (free : ∀ id ∈ h.ids ++ actions.filterMap Action.declared?, ∀ color,
      style.nodeName id ≠ style.collector color)
    (maker : ∀ id, .declareSymbol id ∈ actions → ∀ color, style.collector color ≠ "Symbol") :
    (execute style.host (actions.map (Action.write style)) (h.named style)).toOption
      = (actions.foldlM Action.step h).map (Heap.named style) := by
  induction actions generalizing h with
  | nil => rfl
  | cons a actions ih =>
      have hstep := toOption_step apart (fun id hid => free id (List.mem_append_left _ hid)) a
        fun id ha => maker id (ha ▸ List.mem_cons_self)
      rw [List.map_cons, execute, List.foldlM_cons, List.foldlM_cons]
      cases hs : a.step h with
      | none =>
          rw [hs] at hstep
          cases hm : Memory.step style.host (h.named style) (a.write style) with
          | error e => rfl
          | ok m => rw [hm] at hstep; cases hstep
      | some h' =>
          rw [hs] at hstep
          cases hm : Memory.step style.host (h.named style) (a.write style) with
          | error e => rw [hm] at hstep; cases hstep
          | ok m =>
              obtain rfl : m = h'.named style := Option.some.inj (by rw [hm] at hstep; exact hstep)
              refine ih (fun id hid => free id ?_) fun id hid => maker id (List.mem_cons_of_mem _ hid)
              rw [ids_step hs, List.append_assoc] at hid
              cases hd : a.declared? with
              | none => simpa [hd] using hid
              | some i => simpa [hd] using hid

/-- Empty lines are run without any effect. -/
lemma execute_content (host : Host) {ss : List Statement} (inner : ∀ s ∈ ss, Inner style s)
    (m : Memory) : execute host (content ss) m = execute host ss m := by
  induction ss generalizing m with
  | nil => rfl
  | cons s ss ih =>
      obtain ⟨hinner, hrest⟩ := List.forall_mem_cons.mp inner
      cases hs : s.isLayout with
      | true =>
          have hblank : s = .blank := by
            cases s with
            | openFunction => exact absurd rfl hinner.ne_wrapper.1
            | closeFunction => exact absurd rfl hinner.ne_wrapper.2
            | blank => rfl
            | _ => cases hs
          have hskip : content (s :: ss) = content ss := by simp [content, hs]
          rw [hskip, ih hrest, execute, execute, List.foldlM_cons, hblank]
          rfl
      | false =>
          have hkeep : content (s :: ss) = s :: content ss := by simp [content, hs]
          rw [hkeep, execute, execute, List.foldlM_cons, List.foldlM_cons]
          exact bind_congr (ih hrest)

/-- An emission that reaches its end has its body between the two ends of the function. -/
lemma statements_emission {g : HeapGraph} (whole : (emission style g).failure = none) :
    (emission style g).statements = optional style.wrapped .openFunction
      ++ (body style g).statements ++ optional style.wrapped .closeFunction := by
  rw [emission, Emission.failure_append_eq_none_iff, Emission.failure_append_eq_none_iff] at whole
  obtain ⟨⟨-, hbody⟩, -⟩ := whole
  simp only [emission, Emission.append_def, Emission.append, layout, Emission.ofList, hbody,
    optional]

/-! ## Names that do not get into each other's way -/

/-- A style in which the names of the script of a graph keep apart. -/
structure Hygienic (style : Style) (g : HeapGraph) : Prop where
  accepted : style.check = .ok style
  oneLine : ∀ role, '\n' ∉ (style.name role).toList
  apart : style.blackCollector ≠ style.grayCollector
  /-- No variable that is declared has the name of a collector. -/
  free : ∀ s ∈ (emission style g).statements, ∀ color,
    s.declared?.map Prod.fst ≠ some (style.collector color)
  /-- If symbols are made, no collector has the name of the function that makes them. -/
  builtin : ∀ x, .declareSymbol x ∈ (emission style g).statements →
    ∀ color, style.collector color ≠ "Symbol"
  /-- What is called can be called by its name. -/
  callable : ∀ s ∈ (emission style g).statements, ∀ x ∈ s.calls, x ∉ reservedWords

/-- The usual style keeps the names of every script apart. -/
lemma hygienic_default (g : HeapGraph) : Hygienic {} g := by
  have hname : ∀ id color, ({} : Style).nodeName id ≠ ({} : Style).collector color := by
    intro id color
    cases color
    · exact append_toString_ne (by decide) "n" id
    · exact append_toString_ne (by decide) "n" id
  have hwritten : ∀ s, Written {} s → (∀ color,
      s.declared?.map Prod.fst ≠ some (({} : Style).collector color)) ∧
      ∀ x ∈ s.calls, x ∉ reservedWords := by
    intro s hs
    cases hs with
    | opening | closing => simp [Statement.declared?, Statement.calls]
    | inner hs =>
        cases hs with
        | blank => simp [Statement.declared?, Statement.calls]
        | edge source l target => cases l <;> simp [setEdge, Statement.declared?, Statement.calls]
        | blackRoot position id | grayRoot position id =>
            exact ⟨by simp [Statement.declared?], List.forall_mem_singleton.mpr (by decide)⟩
        | string id content | object id keys =>
            exact ⟨fun color heq => hname id color (Option.some.inj heq), by simp [Statement.calls]⟩
        | symbol id =>
            exact ⟨fun color heq => hname id color (Option.some.inj heq),
              List.forall_mem_singleton.mpr (by decide)⟩
  refine ⟨by decide, fun role => by cases role <;> decide, by decide, ?_, ?_, ?_⟩
  · exact fun s hs => (hwritten s (each_emission {} g s hs)).1
  · exact fun x _ color => by cases color <;> decide
  · exact fun s hs => (hwritten s (each_emission {} g s hs)).2

variable {g : HeapGraph}

/-- The variables that the actions of a script declare are no collectors. -/
lemma Hygienic.nodeName_ne (hygienic : Hygienic style g) {actions : List Action}
    (h : content (emission style g).statements = actions.map (Action.write style)) {id : Nat}
    (hid : id ∈ actions.filterMap Action.declared?) (color : Color) :
    style.nodeName id ≠ style.collector color := by
  obtain ⟨a, ha, hdeclared⟩ := List.mem_filterMap.mp hid
  have hs : a.write style ∈ content (emission style g).statements :=
    h ▸ List.mem_map_of_mem ha
  have hfree := hygienic.free _ (List.mem_filter.mp hs).1 color
  rw [declared?_write, hdeclared] at hfree
  exact fun heq => hfree (congrArg some heq)

/-- No collector stands where the actions of a script make symbols. -/
lemma Hygienic.collector_ne_symbol (hygienic : Hygienic style g) {actions : List Action}
    (h : content (emission style g).statements = actions.map (Action.write style)) {id : Nat}
    (hid : .declareSymbol id ∈ actions) (color : Color) : style.collector color ≠ "Symbol" := by
  have hs : .declareSymbol (style.nodeName id) ∈ content (emission style g).statements :=
    h ▸ List.mem_map_of_mem hid
  exact hygienic.builtin _ (List.mem_filter.mp hs).1 color

lemma Hygienic.wellNamed (hygienic : Hygienic style g) :
    ∀ s ∈ (emission style g).statements, s.WellNamed := fun s hs =>
  (each_emission style g s hs).wellNamed
    (isIdentifier_of_check hygienic.accepted hygienic.oneLine) (hygienic.callable s hs)

/-- Running what a script does to the empty memory is running its actions on the empty heap. -/
lemma Hygienic.toOption_execute_content (hygienic : Hygienic style g) {actions : List Action}
    (h : content (emission style g).statements = actions.map (Action.write style)) :
    (execute style.host (content (emission style g).statements) {}).toOption
      = (actions.foldlM Action.step {}).map (Heap.named style) := by
  have hempty : ({} : Memory) = ({} : Heap).named style := rfl
  rw [h, hempty]
  exact toOption_execute hygienic.apart (fun id hid => hygienic.nodeName_ne h hid)
    fun id hid => hygienic.collector_ne_symbol h hid

/-- The lines of a script without its layout are run like its statements. -/
lemma Hygienic.runLines_content (hygienic : Hygienic style g) :
    runLines style.host ((content (emission style g).statements).map Statement.text)
      = execute style.host (content (emission style g).statements) {} := by
  have hunwrap : unwrap (content (emission style g).statements)
      = .ok (content (emission style g).statements) := by
    have hnone : .openFunction ∉ content (emission style g).statements := fun hin => by
      simpa [Statement.isLayout] using (List.mem_filter.mp hin).2
    simpa [optional] using unwrap_optional false hnone
  have hnamed : ∀ s ∈ content (emission style g).statements, s.WellNamed := fun s hs =>
    hygienic.wellNamed s (List.mem_filter.mp hs).1
  rw [runLines_text hnamed, hunwrap]
  rfl

/-- The lines of a whole script are run like those without its layout. -/
lemma Hygienic.runLines_whole (hygienic : Hygienic style g)
    (whole : (emission style g).failure = none) :
    runLines style.host (emission style g).lines
      = execute style.host (content (emission style g).statements) {} := by
  have hinner := each_body style g
  have hbody : .openFunction ∉ (body style g).statements := fun hin =>
    (hinner _ hin).ne_wrapper.1 rfl
  have hcontent : content (emission style g).statements = content (body style g).statements := by
    rw [statements_emission whole, content_append, content_append]
    cases style.wrapped <;> simp [optional, content, Statement.isLayout]
  rw [hcontent, execute_content _ hinner, Emission.lines, runLines_text hygienic.wellNamed,
    statements_emission whole, unwrap_optional style.wrapped hbody]
  rfl

/-- A collector is called where something is collected for its color, and nowhere else. -/
lemma Hygienic.collector_mem_calls (hygienic : Hygienic style g) {actions : List Action}
    (h : content (emission style g).statements = actions.map (Action.write style)) {a : Action}
    (ha : a ∈ actions) (color : Color) : style.collector color ∈ (a.write style).calls ↔
      ∃ position target, a = .collect color position target := by
  cases a with
  | declareSymbol id =>
      have hs : .declareSymbol (style.nodeName id) ∈ content (emission style g).statements :=
        h ▸ List.mem_map_of_mem ha
      have hne := hygienic.builtin _ (List.mem_filter.mp hs).1 color
      simp [Action.write, Statement.calls, hne]
  | declareString id content => simp [Action.write, Statement.calls]
  | declareObject id keys => simp [Action.write, Statement.calls]
  | set source label target => cases label <;> simp [Action.write, setEdge, Statement.calls]
  | collect color' position target =>
      have hinj : style.collector color = style.collector color' ↔ color = color' := by
        have hne := hygienic.apart
        cases color <;> cases color' <;> simp [Style.collector, hne, hne.symm]
      simp [Action.write, Statement.calls, hinj, eq_comm]

/-- **A style is names and layout only.**  Let a style keep the names of the script of a graph
apart.  Then its script breaks off where the usual one does, if any does; both are written for the
same actions, and the collector of a color is called by the lines that collect roots of this color,
and by no other.  The lines of both scripts, with their layout if they are whole and without it
however far they reach, leave the same heap, each with the names of its style, and the same roots,
or none of them runs to the end. -/
theorem names_and_layout_only (hygienic : Hygienic style g) :
    (emission style g).failure = (emission {} g).failure ∧
    ∃ actions : List Action,
      content (emission {} g).statements = actions.map (Action.write {}) ∧
      content (emission style g).statements = actions.map (Action.write style) ∧
      (∀ a ∈ actions, ∀ color, style.collector color ∈ (a.write style).calls ↔
        ∃ position target, a = .collect color position target) ∧
      ∃ heap? : Option Heap,
        ((runLines ({} : Style).host
            ((content (emission {} g).statements).map Statement.text)).toOption
            = heap?.map (Heap.named {}) ∧
          (runLines style.host
            ((content (emission style g).statements).map Statement.text)).toOption
            = heap?.map (Heap.named style)) ∧
        ((emission {} g).failure = none →
          (runLines ({} : Style).host (emission {} g).lines).toOption = heap?.map (Heap.named {}) ∧
          (runLines style.host (emission style g).lines).toOption
            = heap?.map (Heap.named style)) := by
  obtain ⟨actions, failure, h⟩ := uniform_emission g
  have hfailure : (emission style g).failure = (emission {} g).failure :=
    (h style).2.trans (h {}).2.symm
  have husual := (hygienic_default g).toOption_execute_content (h {}).1
  have hstyle := hygienic.toOption_execute_content (h style).1
  refine ⟨hfailure, actions, (h {}).1, (h style).1, ?_, actions.foldlM Action.step {}, ⟨?_, ?_⟩,
    fun whole => ⟨?_, ?_⟩⟩
  · exact fun a ha color => hygienic.collector_mem_calls (h style).1 ha color
  · rw [(hygienic_default g).runLines_content, husual]
  · rw [hygienic.runLines_content, hstyle]
  · rw [(hygienic_default g).runLines_whole whole, husual]
  · rw [hygienic.runLines_whole (hfailure.trans whole), hstyle]

/-- An object with a symbol and a string, and roots of both colors. -/
def smallHeap : HeapGraph :=
  [Edit.addNode 0x1 .black .object "" none, .addNode 0x2 .black .symbol "" none,
    .addNode 0x3 .gray .string "" none, .addEdge 0 "tag" 0x2, .addEdge 0 "objectElements[4]" 0x3,
    .addEdge 0 "name" 0x3, .addRoot { address := 0x1, color := .black },
    .addRoot { address := 0x3, color := .gray },
    .addRoot { address := 0x2, color := .gray }].foldl HeapGraph.edit {}

/-- A style whose collectors are named like nodes, but like none that a small heap has. -/
def closeNames : Style :=
  { nodeStem := "v", propertyStem := "v", blackCollector := "v7", grayCollector := "v00",
    wrapped := false, spaced := false }

lemma hygienic_closeNames : Hygienic closeNames (smallHeap.withMarks [0, 1, 2]) := by
  refine ⟨by decide, fun role => by cases role <;> decide, by decide, ?_, ?_, by decide +kernel⟩
  · have hfree : ∀ s ∈ (emission closeNames (smallHeap.withMarks [0, 1, 2])).statements,
        s.declared?.map Prod.fst ≠ some "v7" ∧ s.declared?.map Prod.fst ≠ some "v00" := by
      decide +kernel
    intro s hs color
    cases color
    · exact (hfree s hs).1
    · exact (hfree s hs).2
  · exact fun x _ color => by cases color <;> decide

/-- Its script does what the usual one does. -/
theorem closeNames_rebuild :
    let g := smallHeap.withMarks [0, 1, 2]
    (emission closeNames g).lines = ["let v0=\x7bv0:0,v1:0\x7d;", "const v1=Symbol();",
        "let v2=\"2\";", "v0.v0=v1;", "v0[4]=v2;", "v0.v1=v2;", "v7()[0]=v0;", "v00()[0]=v2;",
        "v00()[1]=v1;"] ∧
      (emission {} g).failure = none ∧ Hygienic closeNames g ∧
      ∃ heap : Heap, heap.grayRoots = [(.element (.finite 0), .string 2),
          (.element (.finite 1), .symbol 0)] ∧
        (runLines ({} : Style).host (emission {} g).lines).toOption = some (heap.named {}) ∧
        (runLines closeNames.host (emission closeNames g).lines).toOption
          = some (heap.named closeNames) := by
  intro g
  obtain ⟨hfailure, -, -, -, -, heap?, -, hruns⟩ := names_and_layout_only hygienic_closeNames
  have hwritten : (emission {} g).failure = none := by decide +kernel
  obtain ⟨husual, hclose⟩ := hruns hwritten
  have hgray : (runLines closeNames.host (emission closeNames g).lines).toOption.map
      Memory.grayRoots = some [(.element (.finite 0), .string 2),
        (.element (.finite 1), .symbol 0)] := by decide +kernel
  refine ⟨by decide +kernel, hwritten, hygienic_closeNames, ?_⟩
  rw [hclose] at hgray
  cases heap? with
  | none => cases hgray
  | some heap =>
      refine ⟨heap, ?_, husual, hclose⟩
      exact rename_injective (slot_injective closeNames) (Option.some.inj hgray)

/-- **Names that are accepted one by one can get into each other's way.**  A node and a collector
can have one name, and then the collector cannot be called; the two collectors can have one name,
and then gray roots are collected among the black ones; a collector can have the name of the
function that makes symbols, and then a variable for a symbol holds its array; and a newline that
was overlooked can break a line. -/
theorem accepted_names_collide :
    let g := smallHeap.withMarks [0, 1, 2]
    let node : Style := { blackCollector := "n0" }
    let twin : Style := { grayCollector := "blackRoot" }
    let maker : Style := { blackCollector := "Symbol" }
    let broken : Style := { nodeStem := "n\n" }
    (∀ style ∈ [{}, node, twin, maker, broken],
      style.check = .ok style ∧ (emission style g).failure = none) ∧
    (runLines ({} : Style).host (emission {} g).lines).toOption.map
        (fun m => (m.blackRoots, m.grayRoots))
      = some ([(.element (.finite 0), .object 0)],
        [(.element (.finite 0), .string 2), (.element (.finite 1), .symbol 0)]) ∧
    ((∃ s ∈ (emission node g).statements, s.declared?.map Prod.fst = some node.blackCollector) ∧
      runLines node.host (emission node g).lines = .error (.notCallable "n0")) ∧
    (twin.blackCollector = twin.grayCollector ∧
      (runLines twin.host (emission twin g).lines).toOption.map
          (fun m => (m.blackRoots, m.grayRoots))
        = some ([(.element (.finite 0), .string 2), (.element (.finite 1), .symbol 0)], [])) ∧
    (∃ x, .declareSymbol x ∈ (emission maker g).statements ∧
      maker.blackCollector ∈ (Statement.declareSymbol x).calls ∧
      (runLines maker.host (emission maker g).lines).toOption.map
        (fun m => m.bindings.lookup x) = some (some (.roots .black))) ∧
    runLines broken.host (emission broken g).lines
      = .error (.unreadable "let n\n0=\x7be0:0,e1:0\x7d;") := by
  refine ⟨by decide +kernel, by decide +kernel, ⟨by decide +kernel, by decide +kernel⟩,
    ⟨by decide +kernel, by decide +kernel⟩,
    ⟨"n1", by decide +kernel, by decide +kernel, by decide +kernel⟩, by decide +kernel⟩

end HeapReplay.Script
