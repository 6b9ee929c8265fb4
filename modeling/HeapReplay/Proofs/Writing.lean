import HeapReplay.Proofs.Storing
import HeapReplay.Proofs.Updating

/-!
# Writing a script line by line

`emission` gives all statements at once, with what broke them off.  A program that writes a script
has a list of lines instead, to which it adds one line after the other while it goes through the
graph; when an address cannot be resolved it stops, and **the lines that it has written stay there**.

Here a script is written in this way.  An `Emitter` holds the lines, and the graph as well, in the
same state: so it is a statement, and not a matter of course, that writing leaves the graph alone.
Nothing is looked up before it is needed, and whatever the emitter held before is thrown away.

**What is written is the emission.**  Each operation has one lemma, which says which emission it
writes (`Writes`); together they make `Emitter.emit_eq`.

**What a failure leaves** is the beginning of what would have been written if nothing had been
missing (`failed_emission_begins`).  Further nodes that are not marked change nothing but what
addresses lead to, and where an address led before, there it leads now (`Extends`); so the two
emissions run side by side until the first one breaks off (`Emission.Begins`).
-/

namespace HeapReplay.Script

open InPlace

/-- A writer of scripts, with the graph that it works on and the lines that it has written. -/
structure Emitter where
  graph : HeapGraph := {}
  lines : List String := []
deriving DecidableEq, Repr

namespace Emitter

/-- Writes one line. -/
def put (s : Statement) : InPlace Emitter Unit :=
  modify fun e => { e with lines := e.lines ++ [s.text] }

/-- Writes a line of the layout, if the style asks for it. -/
def putLayout (wanted : Bool) (s : Statement) : InPlace Emitter Unit :=
  if wanted then put s else return ()

/-- Finds the node that an address leads to. -/
def find (a : Address) (context : String) : InPlace Emitter Node := do
  check ((← get).graph.resolve a context)

/-- Looks at a node, and goes on with it if a script declares it. -/
def ifEmitted (operation : Node → InPlace Emitter Unit) (n : Node) : InPlace Emitter Unit := do
  if (← get).graph.isMarked n && n.includable then operation n else return ()

/-- Goes through the nodes of the graph. -/
def forEmitted (operation : Node → InPlace Emitter Unit) : InPlace Emitter Unit := do
  (← get).graph.nodes.forM (ifEmitted operation)

/-- Adds the key that a label is, unless it is there. -/
def addKey (keys : List Nat) : Label → List Nat
  | .index _ => keys
  | .key id => if keys.contains id then keys else keys ++ [id]

/-- Notes the key of an edge that leads to a node which can be declared. -/
def noteKey (keys : List Nat) (e : Edge) : InPlace Emitter (List Nat) := do
  let target ← find e.target "edge"
  return if target.includable then addKey keys e.label else keys

/-- Writes the declaration of a node. -/
def declare (style : Style) (n : Node) : InPlace Emitter Unit :=
  match n.kind with
  | .string => put (.declareString (style.nodeName n.id) n.id)
  | .symbol => put (.declareSymbol (style.nodeName n.id))
  | _ => do
    let keys ← n.edges.foldlM noteKey []
    put (.declareObject (style.nodeName n.id) (keys.map style.propertyName))

/-- Writes the assignment for an edge of a node. -/
def assignEdge (style : Style) (n : Node) (e : Edge) : InPlace Emitter Unit := do
  let target ← find e.target "edge"
  if target.includable then put (setEdge style n.id e.label target.id) else return ()

/-- Writes the assignments for the edges of a node. -/
def assign (style : Style) (n : Node) : InPlace Emitter Unit :=
  n.edges.forM (assignEdge style n)

/-- Writes the assignments for some roots, from the given place of their collector on. -/
def collect (style : Style) (collector : String) : Nat → List Root → InPlace Emitter Unit
  | _, [] => return ()
  | position, r :: rest => do
    let target ← find r.address "root"
    if target.includable then do
      put (.setRoot collector position (style.nodeName target.id))
      collect style collector (position + 1) rest
    else collect style collector position rest

/-- Writes the assignments for all roots of one color. -/
def collectAll (style : Style) (collector : String) (roots : HeapGraph → List Root) :
    InPlace Emitter Unit := do
  collect style collector 0 (roots (← get).graph)

/-- Writes the script of a marked graph. -/
def emit (style : Style) (g : HeapGraph) : InPlace Emitter Unit := do
  set ({ graph := g, lines := [] } : Emitter)
  putLayout style.wrapped .openFunction
  forEmitted (declare style)
  putLayout style.spaced .blank
  forEmitted (assign style)
  putLayout style.spaced .blank
  collectAll style style.blackCollector HeapGraph.blackRoots
  collectAll style style.grayCollector HeapGraph.grayRoots
  putLayout style.wrapped .closeFunction

end Emitter

/-! ## What is written -/

/-- What is left of an emitter that writes an emission behind some lines. -/
def Emission.outcome (e : Emission) (g : HeapGraph) (lines : List String) :
    EStateM.Result Failure Emitter Unit :=
  match e.failure with
  | none => .ok () { graph := g, lines := lines ++ e.lines }
  | some f => .error f { graph := g, lines := lines ++ e.lines }

/-- An operation that writes an emission, whatever has been written before, and leaves the graph
alone. -/
def Writes (g : HeapGraph) (operation : InPlace Emitter Unit) (e : Emission) : Prop :=
  ∀ lines, operation { graph := g, lines } = e.outcome g lines

open Emitter

variable {g : HeapGraph} {operation operation' : InPlace Emitter Unit} {d e : Emission}

lemma writes_nothing : Writes g (return ()) {} := fun lines => by
  rw [Emission.outcome, Emission.lines, List.map_nil, List.append_nil]
  rfl

lemma writes_put (s : Statement) : Writes g (put s) (.ofList [s]) := fun _ => rfl

lemma writes_putLayout (wanted : Bool) (s : Statement) :
    Writes g (putLayout wanted s) (layout wanted s) := by
  cases wanted with
  | false => exact writes_nothing
  | true => exact writes_put s

/-- Operations one after the other write emissions one after the other. -/
lemma Writes.andThen (h : Writes g operation d) (h' : Writes g operation' e) :
    Writes g (operation >>= fun _ => operation') (d ++ e) := by
  intro lines
  have hd := h lines
  rw [Emission.outcome] at hd
  rw [Emission.append_def, Emission.append]
  cases hf : d.failure with
  | none =>
      rw [hf] at hd
      rw [bind_of_eq_ok hd, h', Emission.outcome, Emission.outcome]
      simp only [Emission.lines, List.map_append, List.append_assoc]
  | some f =>
      rw [hf] at hd
      dsimp only
      rw [bind_of_eq_error hd, Emission.outcome, hf]

lemma writes_forM {α : Type} {operation : α → InPlace Emitter Unit} {f : α → Emission} {as : List α}
    (h : ∀ a ∈ as, Writes g (operation a) (f a)) :
    Writes g (as.forM operation) (.concat (as.map f)) := by
  induction as with
  | nil => exact writes_nothing
  | cons a as ih =>
      obtain ⟨ha, has⟩ := List.forall_mem_cons.mp h
      exact ha.andThen (ih has)

lemma writes_ifEmitted {operation : Node → InPlace Emitter Unit} {n : Node}
    (h : Writes g (operation n) e) : Writes g (ifEmitted operation n)
      (if g.isMarked n && n.includable then e else {}) := by
  intro lines
  show (if g.isMarked n && n.includable then operation n else return ()) _ = _
  split_ifs
  · exact h lines
  · exact writes_nothing lines

/-- Emissions of nothing can be left out. -/
lemma concat_filter {α : Type} (p : α → Bool) (f : α → Emission) (as : List α) :
    Emission.concat (as.map fun a => if p a then f a else {})
      = .concat ((as.filter p).map f) := by
  induction as with
  | nil => rfl
  | cons a as ih =>
      rw [List.map_cons, Emission.concat, List.foldr_cons, ← Emission.concat, ih, List.filter_cons]
      split_ifs
      · rfl
      · exact Emission.empty_append _

lemma writes_forEmitted {operation : Node → InPlace Emitter Unit} {f : Node → Emission}
    (h : ∀ n, Writes g (operation n) (f n)) :
    Writes g (forEmitted operation) (.concat ((emittedNodes g).map f)) := by
  have hall : Writes g (g.nodes.forM (ifEmitted operation)) _ :=
    writes_forM fun n _ => writes_ifEmitted (h n)
  rw [concat_filter] at hall
  exact fun lines => hall lines

lemma outcome_failed (f : Failure) (g : HeapGraph) (lines : List String) :
    ({ failure := some f } : Emission).outcome g lines = .error f { graph := g, lines } := by
  rw [Emission.outcome, Emission.lines, List.map_nil, List.append_nil]

/-- Looking an address up changes nothing. -/
lemma find_eq (g : HeapGraph) (lines : List String) (a : Address) (context : String) :
    find a context { graph := g, lines } = match g.resolve a context with
      | .ok n => .ok n { graph := g, lines }
      | .error f => .error f { graph := g, lines } := by
  show check (g.resolve a context) _ = _
  cases g.resolve a context <;> rfl

/-- What follows a look at an address, if it leads to a node. -/
lemma writes_find (a : Address) (context : String) {next : Node → InPlace Emitter Unit}
    {f : Node → Emission} (h : ∀ n, Writes g (next n) (f n)) :
    Writes g (find a context >>= next) (match g.resolve a context with
      | .ok n => f n
      | .error failure => { failure := some failure }) := by
  intro lines
  have hfind := find_eq g lines a context
  cases hr : g.resolve a context with
  | ok n =>
      rw [hr] at hfind
      rw [bind_of_eq_ok hfind]
      exact h n lines
  | error failure =>
      rw [hr] at hfind
      rw [bind_of_eq_error hfind]
      exact (outcome_failed failure g lines).symm

/-- The keys that are noted are those of the edges that lead to nodes which can be declared. -/
lemma foldlM_noteKey (g : HeapGraph) (lines : List String) (es : List Edge) (keys : List Nat) :
    es.foldlM noteKey keys { graph := g, lines } =
      match es.mapM fun e => return (e, ← g.resolve e.target "edge") with
      | .ok found => .ok (((found.filter (·.2.includable)).map (·.1.label)).foldl addKey keys)
          { graph := g, lines }
      | .error f => .error f { graph := g, lines } := by
  induction es generalizing keys with
  | nil => rfl
  | cons e es ih =>
      have hfind := find_eq g lines e.target "edge"
      rw [List.foldlM_cons, List.mapM_cons]
      cases hr : g.resolve e.target "edge" with
      | error f =>
          rw [hr] at hfind
          have hnote : noteKey keys e { graph := g, lines } = .error f { graph := g, lines } :=
            bind_of_eq_error hfind
          exact bind_of_eq_error hnote
      | ok target =>
          rw [hr] at hfind
          have hnote : noteKey keys e { graph := g, lines }
              = .ok (if target.includable then addKey keys e.label else keys)
                { graph := g, lines } := bind_of_eq_ok hfind
          rw [bind_of_eq_ok hnote, ih]
          cases hm : es.mapM fun e => return (e, ← g.resolve e.target "edge") with
          | error f => rfl
          | ok found =>
              show EStateM.Result.ok _ _ = EStateM.Result.ok (((((e, target) :: found).filter
                (·.2.includable)).map (·.1.label)).foldl addKey keys) _
              rw [List.filter_cons]
              split_ifs <;> rfl

lemma writes_declare (style : Style) (n : Node) :
    Writes g (Emitter.declare style n) (.ofExcept (declaration style g n)) := by
  simp only [Emitter.declare, declaration]
  cases n.kind with
  | string => exact writes_put _
  | symbol => exact writes_put _
  | _ =>
      intro lines
      have hkeys := foldlM_noteKey g lines n.edges []
      simp only [includedEdges]
      cases hm : n.edges.mapM fun e => return (e, ← g.resolve e.target "edge") with
      | error f =>
          rw [hm] at hkeys
          rw [bind_of_eq_error hkeys]
          exact (outcome_failed f g lines).symm
      | ok found =>
          rw [hm] at hkeys
          rw [bind_of_eq_ok hkeys]
          rfl

lemma writes_assignEdge (style : Style) (n : Node) (e : Edge) :
    Writes g (assignEdge style n e) (.ofExcept (assignment style g n e)) := by
  have hnext : ∀ target : Node, Writes g
      (if target.includable then put (setEdge style n.id e.label target.id) else return ())
      (.ofList (if target.includable then [setEdge style n.id e.label target.id] else [])) := by
    intro target
    split_ifs
    · exact writes_put _
    · exact writes_nothing
  have hwrites := writes_find e.target "edge" hnext
  rw [assignment]
  cases hr : g.resolve e.target "edge" <;>
  · rw [hr] at hwrites
    exact hwrites

lemma writes_assign (style : Style) (n : Node) : Writes g (Emitter.assign style n)
    (.concat (n.edges.map fun e => .ofExcept (assignment style g n e))) :=
  writes_forM fun e _ => writes_assignEdge style n e

lemma writes_collect (style : Style) (collector : String) (position : Nat) (roots : List Root) :
    Writes g (Emitter.collect style collector position roots)
      (collected style g collector position roots) := by
  induction roots generalizing position with
  | nil => exact writes_nothing
  | cons r roots ih =>
      have hnext : ∀ target : Node, Writes g
          (if target.includable then do
            put (.setRoot collector position (style.nodeName target.id))
            Emitter.collect style collector (position + 1) roots
          else Emitter.collect style collector position roots)
          (if target.includable then
            .ofList [.setRoot collector position (style.nodeName target.id)]
              ++ collected style g collector (position + 1) roots
          else collected style g collector position roots) := by
        intro target
        split_ifs
        · exact (writes_put _).andThen (ih (position + 1))
        · exact ih position
      rw [Emitter.collect, collected]
      have hwrites := writes_find r.address "root" hnext
      cases hr : g.resolve r.address "root" <;>
      · rw [hr] at hwrites
        exact hwrites

lemma writes_collectAll (style : Style) (collector : String) (roots : HeapGraph → List Root) :
    Writes g (collectAll style collector roots) (collected style g collector 0 (roots g)) :=
  fun lines => writes_collect style collector 0 (roots g) lines

/-- **What an emitter writes is the emission**, up to its end or up to where it breaks off.  It makes
no difference what the emitter held before, and the graph is left alone. -/
theorem Emitter.emit_eq (style : Style) (g : HeapGraph) (before : Emitter) :
    emit style g before = (emission style g).outcome g [] := by
  have hwrites := (writes_putLayout (g := g) style.wrapped .openFunction).andThen <|
    (writes_forEmitted (writes_declare style)).andThen <|
    (writes_putLayout style.spaced .blank).andThen <|
    (writes_forEmitted (writes_assign style)).andThen <|
    (writes_putLayout style.spaced .blank).andThen <|
    (writes_collectAll style style.blackCollector HeapGraph.blackRoots).andThen <|
    (writes_collectAll style style.grayCollector HeapGraph.grayRoots).andThen <|
    writes_putLayout style.wrapped .closeFunction
  simp only [emission, body, rootAssignments, Emission.append_assoc]
  exact hwrites []

/-! ## What a failure leaves -/

namespace Emission

/-- An emission that another one goes on from: if it has not broken off, there is nothing to go on
with. -/
structure Begins (d e : Emission) : Prop where
  statements : d.statements <+: e.statements
  complete : d.failure = none → e = d

lemma Begins.refl (e : Emission) : Begins e e :=
  ⟨List.prefix_refl _, fun _ => rfl⟩

lemma Begins.append {a b c d : Emission} (h : Begins a b) (h' : Begins c d) :
    Begins (a ++ c) (b ++ d) := by
  cases hf : a.failure with
  | none =>
      obtain rfl := h.complete hf
      have happend : ∀ e : Emission,
          b ++ e = { statements := b.statements ++ e.statements, failure := e.failure } := by
        intro e
        rw [append_def, Emission.append, hf]
      rw [happend, happend]
      refine ⟨(List.prefix_append_right_inj _).mpr h'.statements, fun hc => ?_⟩
      rw [h'.complete hc]
  | some f =>
      -- the first one has broken off, and whatever the other goes on with stands behind it
      have hfirst : a ++ c = a := by rw [append_def, Emission.append, hf]
      have hsecond : b.statements <+: (b ++ d).statements := by
        rw [append_def, Emission.append]
        cases b.failure
        · exact List.prefix_append _ _
        · exact List.prefix_refl _
      rw [hfirst]
      exact ⟨h.statements.trans hsecond, fun hnone => by rw [hf] at hnone; cases hnone⟩

lemma begins_concat {α : Type} {f f' : α → Emission} {as : List α}
    (h : ∀ a ∈ as, Begins (f a) (f' a)) : Begins (concat (as.map f)) (concat (as.map f')) := by
  induction as with
  | nil => exact .refl _
  | cons a as ih =>
      obtain ⟨ha, has⟩ := List.forall_mem_cons.mp h
      exact ha.append (ih has)

lemma begins_ofExcept {r r' : Except Failure (List Statement)}
    (h : ∀ statements, r = .ok statements → r' = .ok statements) :
    Begins (ofExcept r) (ofExcept r') := by
  cases r with
  | ok statements =>
      rw [h statements rfl]
      exact .refl _
  | error f => exact ⟨List.nil_prefix, fun hnone => by cases hnone⟩

lemma Begins.lines {d e : Emission} (h : Begins d e) : d.lines <+: e.lines :=
  h.statements.map _

end Emission

/-- A graph in which nothing has changed but that more addresses lead to nodes. -/
structure Extends (g g' : HeapGraph) : Prop where
  blackRoots : g'.blackRoots = g.blackRoots
  grayRoots : g'.grayRoots = g.grayRoots
  emitted : emittedNodes g' = emittedNodes g
  resolve : ∀ {a context n}, g.resolve a context = .ok n → g'.resolve a context = .ok n

namespace Extends

variable {g' : HeapGraph} (style : Style)

lemma refl (g : HeapGraph) : Extends g g :=
  ⟨rfl, rfl, rfl, id⟩

lemma trans {g'' : HeapGraph} (h : Extends g g') (h' : Extends g' g'') : Extends g g'' :=
  ⟨h'.blackRoots.trans h.blackRoots, h'.grayRoots.trans h.grayRoots, h'.emitted.trans h.emitted,
    fun hr => h'.resolve (h.resolve hr)⟩

lemma includedEdges_eq (h : Extends g g') {n : Node} {edges : List (Edge × Node)}
    (hn : includedEdges g n = .ok edges) : includedEdges g' n = .ok edges := by
  rw [includedEdges] at hn ⊢
  cases hm : n.edges.mapM fun e => return (e, ← g.resolve e.target "edge") with
  | error f =>
      rw [hm] at hn
      cases hn
  | ok found =>
      rw [hm] at hn
      rw [mapM_eq_ok_of_imp (fun e p he => ?_) hm]
      · exact hn
      · cases hr : g.resolve e.target "edge" with
        | error f =>
            rw [hr] at he
            cases he
        | ok target =>
            rw [hr] at he
            rw [h.resolve hr]
            exact he

lemma begins_declaration (h : Extends g g') (n : Node) :
    Emission.Begins (.ofExcept (declaration style g n)) (.ofExcept (declaration style g' n)) := by
  simp only [declaration]
  cases n.kind with
  | string => exact .refl _
  | symbol => exact .refl _
  | _ =>
      refine Emission.begins_ofExcept fun statements hs => ?_
      cases hi : includedEdges g n with
      | error f =>
          rw [hi] at hs
          cases hs
      | ok edges =>
          rw [hi] at hs
          rw [h.includedEdges_eq hi]
          exact hs

lemma begins_assignment (h : Extends g g') (n : Node) (e : Edge) :
    Emission.Begins (.ofExcept (assignment style g n e)) (.ofExcept (assignment style g' n e)) := by
  refine Emission.begins_ofExcept fun statements hs => ?_
  rw [assignment] at hs ⊢
  cases hr : g.resolve e.target "edge" with
  | error f =>
      rw [hr] at hs
      cases hs
  | ok target =>
      rw [hr] at hs
      rw [h.resolve hr]
      exact hs

lemma begins_collected (h : Extends g g') (collector : String) (position : Nat)
    (roots : List Root) : Emission.Begins (collected style g collector position roots)
      (collected style g' collector position roots) := by
  induction roots generalizing position with
  | nil => exact .refl _
  | cons r roots ih =>
      rw [collected, collected]
      cases hr : g.resolve r.address "root" with
      | error f => exact ⟨List.nil_prefix, fun hnone => by cases hnone⟩
      | ok target =>
          rw [h.resolve hr]
          dsimp only
          split_ifs
          · exact (Emission.Begins.refl _).append (ih (position + 1))
          · exact ih position

/-- **Where addresses lead to more nodes, an emission goes on** from where it broke off. -/
lemma begins_emission (h : Extends g g') : (emission style g).Begins (emission style g') := by
  have hlayout : ∀ wanted s, (layout wanted s).Begins (layout wanted s) := fun _ _ => .refl _
  have hdeclarations : (declarations style g).Begins (declarations style g') := by
    rw [declarations, declarations, h.emitted]
    exact Emission.begins_concat fun n _ => h.begins_declaration style n
  have hassignments : (assignments style g).Begins (assignments style g') := by
    rw [assignments, assignments, h.emitted]
    exact Emission.begins_concat fun n _ =>
      Emission.begins_concat fun e _ => h.begins_assignment style n e
  have hroots : (rootAssignments style g).Begins (rootAssignments style g') := by
    rw [rootAssignments, rootAssignments, h.blackRoots, h.grayRoots]
    exact (h.begins_collected style _ 0 _).append (h.begins_collected style _ 0 _)
  have hbody : (body style g).Begins (body style g') :=
    hdeclarations.append (hlayout _ _) |>.append hassignments |>.append (hlayout _ _)
      |>.append hroots
  exact (hlayout _ _).append hbody |>.append (hlayout _ _)

end Extends

end HeapReplay.Script

namespace HeapReplay

open Script InPlace

/-- Whether an edit declares a node. -/
def Edit.declares : Edit → Bool
  | addNode .. => true
  | addEdge .. | addRoot _ => false

namespace HeapGraph

/-- An address that the script of a marked graph is about and that has no node: it is the address of
a root, or an edge leads there from a marked node that can be declared. -/
def Missing (g : HeapGraph) (a : Address) : Prop :=
  (∀ n, ¬ g.HasNode a n) ∧ ((∃ r ∈ g.roots, r.address = a) ∨
    ∃ n ∈ g.nodes, g.isMarked n = true ∧ n.includable = true ∧ ∃ e ∈ n.edges, e.target = a)

lemma complete_iff_not_missing {g : HeapGraph} : Complete g ↔ ∀ a, ¬ g.Missing a := by
  constructor
  · rintro ⟨hedges, hroots⟩ a ⟨hno, ⟨r, hr, rfl⟩ | ⟨n, hn, hmark, hincl, e, he, rfl⟩⟩
    · obtain ⟨m, hm⟩ := hroots r hr
      exact hno m hm
    · obtain ⟨m, hm⟩ := hedges n (List.mem_filter.mpr ⟨hn, by simp [hmark, hincl]⟩) e he
      exact hno m hm
  · refine fun h => ⟨fun n hn e he => ?_, fun r hr => ?_⟩
    · obtain ⟨hn, hemitted⟩ := List.mem_filter.mp hn
      rw [Bool.and_eq_true] at hemitted
      by_contra hno
      exact h e.target ⟨not_exists.mp hno, Or.inr ⟨n, hn, hemitted.1, hemitted.2, e, he, rfl⟩⟩
    · by_contra hno
      exact h r.address ⟨not_exists.mp hno, Or.inl ⟨r, hr, rfl⟩⟩

variable {g : HeapGraph}

/-- A further node changes nothing but what its address leads to: no mark is on it. -/
lemma Indexed.extends_edit (hg : g.Indexed) (inside : ∀ id ∈ g.marked, ∃ n ∈ g.nodes, n.id = id)
    {e : Edit} (he : e.declares = true) : Extends g (g.edit e) := by
  have hg' := hg.edit e
  cases e with
  | addEdge source name target => cases he
  | addRoot r => cases he
  | addNode a color kind details location =>
      simp only [HeapGraph.edit] at hg' ⊢
      cases hadd : g.addNode a color kind details location with
      | error f => exact .refl g
      | ok p =>
          obtain ⟨n, g'⟩ := p
          rw [hadd] at hg'
          obtain ⟨-, hn, rfl⟩ := addNode_eq_ok_iff.mp hadd
          have hnodup := hg'.nodup_ids
          rw [List.map_append, List.nodup_append] at hnodup
          have hunmarked : g.isMarked n = false := by
            rw [Bool.eq_false_iff, isMarked, ne_eq, List.contains_iff_mem]
            intro hin
            obtain ⟨m, hm, hid⟩ := inside _ hin
            exact hnodup.2.2 _ (List.mem_map_of_mem hm) _ (by simp) hid
          have hlast : [n].filter (fun n => g.isMarked n && n.includable) = [] := by
            simp [hunmarked]
          have hemitted : (g.nodes ++ [n]).filter (fun n => g.isMarked n && n.includable)
              = emittedNodes g := by
            rw [List.filter_append, hlast, List.append_nil]
            rfl
          refine ⟨rfl, rfl, hemitted, fun hm => ?_⟩
          obtain ⟨hin, haddress⟩ := hg.resolve_eq_ok_iff.mp hm
          exact hg'.resolve_eq_ok_iff.mpr ⟨List.mem_append_left _ hin, haddress⟩

/-- So do any number of further nodes, those that are refused included. -/
lemma Indexed.extends_edits (hg : g.Indexed) (inside : ∀ id ∈ g.marked, ∃ n ∈ g.nodes, n.id = id)
    {adds : List Edit} (hadds : ∀ e ∈ adds, e.declares = true) :
    Extends g (adds.foldl HeapGraph.edit g) := by
  induction adds generalizing g with
  | nil => exact .refl g
  | cons e adds ih =>
      obtain ⟨he, hadds⟩ := List.forall_mem_cons.mp hadds
      refine (hg.extends_edit inside he).trans (ih (hg.edit e) (fun id hid => ?_) hadds)
      rw [marked_edit] at hid
      obtain ⟨n, hn, rfl⟩ := inside id hid
      obtain ⟨n', hn', hgrown⟩ := (grows_edit g e).nodes n hn
      exact ⟨n', hn', hgrown.id⟩

/-- What is missing with further nodes was missing without them. -/
lemma missing_of_extends {g' : HeapGraph} (hg : g.Indexed) (hg' : g'.Indexed) (h : Extends g g')
    {a : Address} (ha : g'.Missing a) : g.Missing a := by
  obtain ⟨hno, hneeded⟩ := ha
  refine ⟨fun n hn => ?_, ?_⟩
  · have hfound : g'.resolve a "root" = .ok n := h.resolve (hg.resolve_eq_ok_iff.mpr hn)
    exact hno n (hg'.resolve_eq_ok_iff.mp hfound)
  · rcases hneeded with ⟨r, hr, hra⟩ | ⟨n, hn, hmark, hincl, hedge⟩
    · rw [roots, h.blackRoots, h.grayRoots] at hr
      exact Or.inl ⟨r, hr, hra⟩
    · have hin : n ∈ emittedNodes g' := List.mem_filter.mpr ⟨hn, by simp [hmark, hincl]⟩
      rw [h.emitted] at hin
      obtain ⟨hn, hemitted⟩ := List.mem_filter.mp hin
      rw [Bool.and_eq_true] at hemitted
      exact Or.inr ⟨n, hn, hemitted.1, hemitted.2, hedge⟩

end HeapGraph

namespace Script

/-- The emitter that is left, whether it has reached the end or not. -/
def leftOver : EStateM.Result Failure Emitter Unit → Emitter
  | .ok _ s => s
  | .error _ s => s

lemma leftOver_outcome (e : Emission) (g : HeapGraph) (lines : List String) :
    leftOver (e.outcome g lines) = { graph := g, lines := lines ++ e.lines } := by
  rw [Emission.outcome]
  cases e.failure <;> rfl

lemma outcome_eq_error_iff {e : Emission} {g : HeapGraph} {lines : List String} :
    (∃ f s, e.outcome g lines = .error f s) ↔ e.failure ≠ none := by
  rw [Emission.outcome]
  cases e.failure <;> simp

end Script

open Emitter

/-- **A failed emission leaves the graph alone and the beginning of a script.**  Let any nodes of a
built graph be marked, and let an emitter have done whatever before.  It fails exactly if an address
is missing.  In any case the graph is afterwards what it was.  And when it has failed, the lines that
it holds begin those that it writes after further nodes have been declared, whichever these are; if
the missing addresses are among them, it writes to the end. -/
theorem failed_emission_begins {g : HeapGraph} (built : g.Built) {marks : List Nat}
    (inside : ∀ id ∈ marks, ∃ n ∈ g.nodes, n.id = id) (style : Style) (before : Emitter) :
    ((∃ f after, emit style (g.withMarks marks) before = .error f after) ↔
      ∃ a, (g.withMarks marks).Missing a) ∧
    (leftOver (emit style (g.withMarks marks) before)).graph = g.withMarks marks ∧
    ∀ f after, emit style (g.withMarks marks) before = .error f after →
      ∀ adds : List Edit, (∀ e ∈ adds, e.declares = true) →
        after.lines <+:
          (leftOver (emit style (adds.foldl HeapGraph.edit (g.withMarks marks)) after)).lines ∧
        ((∀ a, (g.withMarks marks).Missing a →
            ∃ n, (adds.foldl HeapGraph.edit (g.withMarks marks)).HasNode a n) →
          ∃ finished, emit style (adds.foldl HeapGraph.edit (g.withMarks marks)) after
            = .ok () finished) := by
  have hg := built.indexed.withMarks marks
  refine ⟨?_, ?_, fun f after hfailed adds hadds => ?_⟩
  · rw [emit_eq, outcome_eq_error_iff, ne_eq, emission_complete_iff hg,
      HeapGraph.complete_iff_not_missing, not_forall_not]
  · rw [emit_eq, leftOver_outcome]
  · have hextends := hg.extends_edits inside hadds
    have hafter : after = leftOver (emit style (g.withMarks marks) before) := by
      rw [hfailed]
      rfl
    rw [emit_eq, leftOver_outcome] at hafter
    refine ⟨?_, fun hdeclared => ?_⟩
    · rw [hafter, emit_eq, leftOver_outcome]
      exact (hextends.begins_emission style).lines
    · have hmore := hg.edits adds
      have hcomplete : Complete (adds.foldl HeapGraph.edit (g.withMarks marks)) := by
        refine HeapGraph.complete_iff_not_missing.mpr fun a ha => ?_
        obtain ⟨n, hn⟩ := hdeclared a (HeapGraph.missing_of_extends hg hmore hextends ha)
        exact ha.1 n hn
      rw [emit_eq, Emission.outcome, (emission_complete_iff hmore).mpr hcomplete]
      exact ⟨_, rfl⟩

/-- An object and a string with links to each other, of which the string has another link to an
address without a node. -/
def lostLink : HeapGraph :=
  [Edit.addNode 0x1 .black .object "" none, .addNode 0x2 .black .string "" none,
    .addEdge 0 "next" 0x2, .addEdge 1 "base" 0x1, .addEdge 1 "lost" 0x9,
    .addEdge 1 "objectElements[3]" 0x2, .addRoot { address := 0x1, color := .gray }].foldl
    HeapGraph.edit {}

/-- The string is declared without a look at its links, so it is among the assignments that the
emission breaks off; with a node at the address it goes on from there. -/
theorem lostLink_written :
    let marked := lostLink.withMarks [1, 0]
    let more := [Edit.addNode 0x1 .gray .string "" none, .addNode 0x9 .black .shape "" none].foldl
      HeapGraph.edit marked
    let after : Emitter := { graph := marked, lines := ["(() => \x7b", "let n0=\x7be0:0\x7d;",
      "let n1=\"1\";", "", "n0.e0=n1;", "n1.e1=n0;"] }
    lostLink.Built ∧
    emit {} marked { graph := more, lines := ["n1.e1=n0;"] }
      = .error (.fault (.unresolvedAddress 0x9 "edge" none)) after ∧
    marked.Missing 0x9 ∧
    ∃ finished, emit {} more after = .ok () finished ∧ after.lines <+: finished.lines ∧
      finished.lines.drop 6 = ["n1[3]=n1;", "", "grayRoot()[0]=n0;", "\x7d)();"] := by
  intro marked more after
  have built : lostLink.Built := ⟨_, rfl⟩
  have inside : ∀ id ∈ [1, 0], ∃ n ∈ lostLink.nodes, n.id = id := by decide +kernel
  have hfailed : emit {} marked { graph := more, lines := ["n1.e1=n0;"] }
      = .error (.fault (.unresolvedAddress 0x9 "edge" none)) after := by
    have hfailure : (emission {} marked).failure
        = some (.fault (.unresolvedAddress 0x9 "edge" none)) := by decide +kernel
    have hlines : (emission {} marked).lines = after.lines := by decide +kernel
    rw [emit_eq, Emission.outcome, hfailure, hlines]
    rfl
  have hno : ∀ n ∈ marked.nodes, n.address ≠ 0x9 := by decide +kernel
  have hneeded : ∃ n ∈ marked.nodes, marked.isMarked n = true ∧ n.includable = true ∧
      ∃ e ∈ n.edges, e.target = 0x9 := by decide +kernel
  have hroots : ∀ r ∈ marked.roots, ∃ n ∈ more.nodes, n.address = r.address := by decide +kernel
  have hedges : ∀ n ∈ marked.nodes, ∀ e ∈ n.edges, ∃ m ∈ more.nodes, m.address = e.target := by
    decide +kernel
  have hdeclared : ∀ a, marked.Missing a → ∃ n, more.HasNode a n := by
    rintro a ⟨-, ⟨r, hr, rfl⟩ | ⟨n, hn, -, -, e, he, rfl⟩⟩
    · exact hroots r hr
    · exact hedges n hn e he
  obtain ⟨-, -, hbegins⟩ := failed_emission_begins built inside {}
    { graph := more, lines := ["n1.e1=n0;"] }
  obtain ⟨hearlier, hends⟩ := hbegins _ _ hfailed [.addNode 0x1 .gray .string "" none,
    .addNode 0x9 .black .shape "" none] (by decide)
  obtain ⟨finished, hfinished⟩ := hends hdeclared
  have hleft : leftOver (emit {} more after) = finished := by rw [hfinished]; rfl
  have hlines : finished.lines.drop 6
      = ["n1[3]=n1;", "", "grayRoot()[0]=n0;", "\x7d)();"] := by
    rw [← hleft, emit_eq, leftOver_outcome]
    decide +kernel
  exact ⟨built, hfailed, ⟨fun n hn => hno n hn.1 hn.2, Or.inr hneeded⟩, finished, hfinished,
    hleft ▸ hearlier, hlines⟩

end HeapReplay
