import HeapReplay.Reconstruct
import HeapReplay.Proofs.ReaderSteps
import HeapReplay.Proofs.Running
import HeapReplay.Proofs.Searching

/-!
# The heap that a script rebuilds

Running the script of a marked graph rebuilds the part of the heap that is in use.  What the rebuilt
heap looks like is said by `Rebuilds`, of the graph alone and in terms of paths from the roots;
neither marks nor statements take part in it.

Three things have to come together:

* a search that returns has marked the **live** nodes, and it has met a node behind every edge of
  such a node and behind every root, so the emission does not break off;
* every node that a statement mentions is live, so its variable has been declared;
* the assignments of an object come in the order of its edges, so a slot holds the target of the
  **last** edge with its place, and no placeholder is left.

This is about statements, and `execute_scriptBody` says it of their run.  Whether the lines can be
read is a matter of names (`runLines_script`).
-/

namespace HeapReplay

open Script

namespace HeapGraph

/-- A node that a script rebuilds: it is reached from a root and not internal to an object. -/
def Live (g : HeapGraph) (n : Node) : Prop :=
  g.Reached [] n ∧ n.includable = true

/-- The last edge with a place among those that lead to nodes which a script declares. -/
def LastTarget (g : HeapGraph) (n : Node) (p : Place) (t : Node) : Prop :=
  ∃ before e after, n.edges = before ++ e :: after ∧ .ofLabel e.label = p ∧
    g.HasNode e.target t ∧ t.includable = true ∧
    ∀ e' ∈ after, .ofLabel e'.label = p → ∀ t', g.HasNode e'.target t' → t'.includable = false

/-- The last edge is found by looking through the included ones from the end. -/
lemma Indexed.lastTarget_iff {g : HeapGraph} (h : g.Indexed) {n t : Node} {p : Place} :
    g.LastTarget n p t ↔
      ((g.includedTargets n).reverse.find? fun q => .ofLabel q.1.label = p).map Prod.snd = some t := by
  have hno (e : Edge) : (∀ t', g.HasNode e.target t' → t'.includable = false) ↔
      g.includable? e.target = none := by
    rw [Option.eq_none_iff_forall_ne_some]
    constructor
    · intro hall t' ht'
      obtain ⟨hhas, hincl⟩ := h.includable?_eq_some_iff.mp ht'
      rw [hall t' hhas] at hincl
      cases hincl
    · intro hall t' hhas
      exact Bool.eq_false_iff.mpr fun hincl =>
        hall t' (h.includable?_eq_some_iff.mpr ⟨hhas, hincl⟩)
  rw [includedTargets, ← List.filterMap_reverse, List.find?_filterMap]
  simp only [Option.map_eq_some_iff, Option.bind_eq_some_iff, List.find?_eq_some_iff_append]
  constructor
  · rintro ⟨before, e, after, hedges, hlabel, hhas, hincl, hlast⟩
    have ht := h.includable?_eq_some_iff.mpr ⟨hhas, hincl⟩
    refine ⟨(e, t), ⟨e, ⟨by simp [ht, hlabel], after.reverse, before.reverse, by simp [hedges], ?_⟩,
      by simp [ht]⟩, rfl⟩
    intro e' he'
    rw [List.mem_reverse] at he'
    cases ht' : g.includable? e'.target with
    | none => simp
    | some t' =>
        have hne : Place.ofLabel e'.label ≠ p := fun heq => by
          rw [(hno e').mp (hlast e' he' heq)] at ht'
          cases ht'
        simpa using hne
  · rintro ⟨q, ⟨e, ⟨hany, after, before, hedges, hlast⟩, hq⟩, rfl⟩
    cases ht : g.includable? e.target with
    | none => simp [ht] at hq
    | some t' =>
        obtain rfl : (e, t') = q := by simpa [ht] using hq
        obtain ⟨hhas, hincl⟩ := h.includable?_eq_some_iff.mp ht
        refine ⟨before.reverse, e, after.reverse, ?_, by simpa [ht] using hany, hhas, hincl, ?_⟩
        · rw [← List.reverse_reverse n.edges, hedges]
          simp
        · intro e' he' hlabel
          have hskip := hlast e' (List.mem_reverse.mp he')
          rw [hno]
          cases ht' : g.includable? e'.target with
          | none => rfl
          | some t'' => simp [ht', hlabel] at hskip

end HeapGraph

/-! ## Rebuilt heaps -/

/-- The kinds of nodes whose variables hold a value. -/
def Script.Value.Fits : Value → Kind → Prop
  | .string _, kind => kind = .string
  | .symbol _, kind => kind = .symbol
  | .object _, kind => kind ≠ .string ∧ kind ≠ .symbol
  | .roots _, _ => False

/-- The live part of a graph as a heap in which `value` tells what stands for each node. -/
structure Script.Rebuilds (style : Style) (g : HeapGraph) (value : Node → Value) (m : Memory) :
    Prop where
  /-- The variables are those of the live nodes. -/
  bound : ∀ x v, m.bindings.lookup x = some v ↔
    ∃ n, g.Live n ∧ x = style.nodeName n.id ∧ v = value n
  /-- No variable is there twice. -/
  once : (m.bindings.map Prod.fst).Nodup
  distinct : ∀ n n', g.Live n → g.Live n' → value n = value n' → n = n'
  fits : ∀ n, g.Live n → (value n).Fits n.kind
  /-- Every object stands for a live node. -/
  owned : ∀ serial < m.objects.length, ∃ n, g.Live n ∧ value n = .object serial
  /-- The slots of an object are the places of its edges, each with the target of the last one. -/
  slots : ∀ n serial, g.Live n → value n = .object serial →
    ∃ t, m.objects[serial]? = some t ∧ (t.map Prod.fst).Nodup ∧
      ∀ slot content, t.lookup slot = some content ↔
        ∃ p target, slot = style.slot p ∧ g.LastTarget n p target ∧
          content = .value (value target)
  roots : ∀ color, Collected value (g.includedRoots (g.rootsOf color)) (m.roots color)

namespace Script

variable {style : Style} {g : HeapGraph}

/-! ## Slots -/

/-- Every property that an object is declared with is assigned. -/
lemma exists_of_mem_blankSlots {n : Node} {slot : Slot}
    (h : slot ∈ (blankSlots style g n).map Prod.fst) :
    ∃ p ∈ g.includedTargets n, style.slot (.ofLabel p.1.label) = slot := by
  rcases mem_keys_foldl_set h with h | ⟨name, hname, rfl⟩
  · cases h
  · obtain ⟨key, hkey, rfl⟩ := List.mem_map.mp hname
    obtain ⟨p, hp, hlabel⟩ := List.mem_map.mp (mem_distinctKeys.mp hkey)
    exact ⟨p, hp, by rw [hlabel]; rfl⟩

/-- **The slots of an object in the end**: no placeholder, and the last assignment to each place. -/
lemma lookup_fillSlots_blankSlots (hg : g.Indexed) (value : Node → Value) (n : Node)
    (slot : Slot) (content : Content) :
    (fillSlots style value (g.includedTargets n) (blankSlots style g n)).lookup slot
        = some content ↔
      ∃ p target, slot = style.slot p ∧ g.LastTarget n p target ∧
        content = .value (value target) := by
  rw [fillSlots, lookup_foldl_set]
  cases hfind : (g.includedTargets n).reverse.find?
      fun q => style.slot (.ofLabel q.1.label) = slot with
  | none =>
      have hblank : (blankSlots style g n).lookup slot = none := by
        rw [lookup_eq_none_iff_not_mem]
        intro hin
        obtain ⟨q, hq, hslot⟩ := exists_of_mem_blankSlots hin
        exact absurd hslot (by simpa using List.find?_eq_none.mp hfind q (List.mem_reverse.mpr hq))
      simp only [hblank, reduceCtorEq, false_iff]
      rintro ⟨p, target, rfl, hlast, -⟩
      obtain ⟨q, hq, -⟩ := Option.map_eq_some_iff.mp (hg.lastTarget_iff.mp hlast)
      have hplace : Place.ofLabel q.1.label = p := by simpa using List.find?_some hq
      have hmem := List.mem_of_find?_eq_some hq
      exact absurd (congrArg style.slot hplace) (by simpa using List.find?_eq_none.mp hfind q hmem)
  | some q =>
      have hslot : style.slot (.ofLabel q.1.label) = slot := by simpa using List.find?_some hfind
      have hsame : (fun q' : Edge × Node => decide (style.slot (.ofLabel q'.1.label) = slot))
          = fun q' => decide (Place.ofLabel q'.1.label = .ofLabel q.1.label) := by
        funext q'
        rw [← hslot]
        exact decide_eq_decide.mpr (slot_injective style).eq_iff
      rw [hsame] at hfind
      have hlast : g.LastTarget n (.ofLabel q.1.label) q.2 :=
        hg.lastTarget_iff.mpr (by rw [hfind]; rfl)
      constructor
      · rintro heq
        exact ⟨.ofLabel q.1.label, q.2, hslot.symm, hlast, (Option.some.inj heq).symm⟩
      · rintro ⟨p, target, rfl, hlast', rfl⟩
        obtain rfl := slot_injective style hslot
        rw [hg.lastTarget_iff, hfind] at hlast'
        rw [← Option.some.inj hlast']

/-! ## The run -/

lemma Holds.fits {m : Memory} {n : Node} {v : Value} (h : Holds style g m n v) :
    v.Fits n.kind := by
  cases v with
  | string content => exact h.1
  | symbol serial => exact h.1
  | object serial => exact ⟨h.1, h.2.1⟩
  | roots color => exact h

/-- The heap in the end, from what the declarations and the assignments have done. -/
lemma Filled.rebuilds (hg : g.Indexed) {marks : List Nat} {ns : List Node}
    (hlive : ∀ n, n ∈ ns ↔ g.Live n) (hnodup : (ns.map Node.id).Nodup)
    {value : Node → Value} {start m m' : Memory}
    (declared : Declared style (g.withMarks marks) ns start)
    (hvalue : ∀ n ∈ ns, start.bindings.lookup (style.nodeName n.id) = some (value n) ∧
      Holds style (g.withMarks marks) start n (value n))
    (filled : Filled style (g.withMarks marks) start ns ns value m)
    (hbindings : m'.bindings = m.bindings) (hobjects : m'.objects = m.objects)
    (hroots : ∀ color,
      m'.roots color = fillPlaces value (g.includedRoots (g.rootsOf color)) 0 []) :
    Rebuilds style g value m' := by
  have hids : ∀ a ∈ ns, ∀ b ∈ ns, a.id = b.id → a = b := by
    intro a ha b hb heq
    exact hg.eq_of_id_eq ((hlive a).mp ha).1.mem_nodes ((hlive b).mp hb).1.mem_nodes heq
  have honce : (start.bindings.map Prod.fst).Nodup := by
    have hcomp : (ns.map fun n => style.nodeName n.id) = (ns.map Node.id).map style.nodeName := by
      rw [List.map_map]
      rfl
    rw [declared.names, hcomp]
    exact hnodup.map fun i j heq => append_toString_injective heq
  have hbound : ∀ x v, start.bindings.lookup x = some v ↔
      ∃ n, g.Live n ∧ x = style.nodeName n.id ∧ v = value n := by
    intro x v
    constructor
    · intro hx
      have hname : x ∈ start.bindings.map Prod.fst := List.mem_map_of_mem (mem_of_lookup hx)
      rw [declared.names] at hname
      obtain ⟨n, hn, rfl⟩ := List.mem_map.mp hname
      rw [(hvalue n hn).1] at hx
      exact ⟨n, (hlive n).mp hn, rfl, (Option.some.inj hx).symm⟩
    · rintro ⟨n, hn, rfl, rfl⟩
      exact (hvalue n ((hlive n).mpr hn)).1
  refine ⟨?_, ?_, ?_, ?_, ?_, ?_, fun color => hroots color ▸ collected_fillPlaces value _⟩
  · rw [hbindings, filled.bindings]
    exact hbound
  · rw [hbindings, filled.bindings]
    exact honce
  · intro n n' hn hn' heq
    have hn := (hlive n).mpr hn
    have hn' := (hlive n').mpr hn'
    exact declared.eq_of_value_eq hids hn hn' (hvalue n hn).1 (heq ▸ (hvalue n' hn').1)
  · intro n hn
    exact (hvalue n ((hlive n).mpr hn)).2.fits
  · intro serial hlt
    rw [hobjects, filled.size] at hlt
    obtain ⟨⟨x, v⟩, hx, rfl⟩ := List.mem_map.mp (declared.objects serial hlt)
    obtain ⟨n, hn, -, hv⟩ := (hbound x _).mp (lookup_of_mem honce hx)
    exact ⟨n, hn, hv.symm⟩
  · intro n serial hn hv
    have hn := (hlive n).mpr hn
    have hget := filled.objects n hn serial hv
    rw [if_pos (List.mem_map_of_mem hn)] at hget
    refine ⟨_, by rw [hobjects]; exact hget, ?_, lookup_fillSlots_blankSlots hg value n⟩
    exact nodup_keys_foldl_set _ _ (nodup_keys_foldl_set _ _ (by simp) _) _

/-- If the emitted nodes are the live ones, the edges between live nodes stay among them. -/
lemma mem_emittedNodes_of_target (hg : g.Indexed) {marks : List Nat}
    (hlive : ∀ n, n ∈ emittedNodes (g.withMarks marks) ↔ g.Live n) {n : Node}
    (hn : n ∈ emittedNodes (g.withMarks marks)) {p : Edge × Node}
    (hp : p ∈ (g.withMarks marks).includedTargets n) :
    p.2 ∈ emittedNodes (g.withMarks marks) := by
  obtain ⟨e, t⟩ := p
  obtain ⟨he, ht, hincl⟩ := (hg.withMarks marks).mem_includedTargets.mp hp
  obtain ⟨hreach, hn⟩ := (hlive n).mp hn
  exact (hlive t).mpr ⟨.edge hreach hn he ht (by simp), hincl⟩

/-- A host of two collectors knows each of them. -/
lemma color?_collector (apart : style.blackCollector ≠ style.grayCollector) (color : Color) :
    style.host.color? (style.collector color) = some color := by
  cases color <;> simp [Host.color?, Style.host, Style.collector, apart.symm]

/-- The host has a function of its own under the name of a collector and under no other. -/
lemma color?_eq_none_iff {name : String} :
    style.host.color? name = none ↔ ∀ color, style.collector color ≠ name := by
  rw [Host.color?]
  constructor
  · intro h color
    split_ifs at h with hblack hgray
    cases color
    · exact Ne.symm hblack
    · exact Ne.symm hgray
  · intro h
    have hblack : name ≠ style.host.blackCollector := (h .black).symm
    have hgray : name ≠ style.host.grayCollector := (h .gray).symm
    rw [if_neg hblack, if_neg hgray]

/-- Both collectors are filled, unless a variable has the name of one of them. -/
lemma execute_collectors {m : Memory} {value : Node → Value}
    (apart : style.blackCollector ≠ style.grayCollector) (hempty : ∀ color, m.roots color = [])
    (hfree : ∀ color, m.bindings.lookup (style.collector color) = none)
    (hbound : ∀ color, ∀ n ∈ g.includedRoots (g.rootsOf color),
      m.bindings.lookup (style.nodeName n.id) = some (value n)) :
    ∃ m', execute style.host (collect style style.blackCollector 0 (g.includedRoots g.blackRoots)
        ++ collect style style.grayCollector 0 (g.includedRoots g.grayRoots)) m = .ok m' ∧
      m'.bindings = m.bindings ∧ m'.objects = m.objects ∧ ∀ color,
        m'.roots color = fillPlaces value (g.includedRoots (g.rootsOf color)) 0 [] := by
  have hrun := execute_collect style (color?_collector apart .black) (hfree .black)
    (hbound .black) 0
  have hrun' := execute_collect style (color?_collector apart .gray)
    (m := m.setRoots .black (fillPlaces value (g.includedRoots (g.rootsOf .black)) 0
      (m.roots .black)))
    (by rw [bindings_setRoots]; exact hfree .gray)
    (fun n hn => by rw [bindings_setRoots]; exact hbound .gray n hn) 0
  refine ⟨_, execute_append hrun hrun', by simp, by simp, fun color => ?_⟩
  cases color <;> simp [hempty]

/-- **Running the body of a script** rebuilds the live part of a graph in which the emitted nodes
are the live ones, unless a collector stands where symbols are to be made. -/
lemma execute_scriptBody (hg : g.Indexed) {marks : List Nat}
    (hlive : ∀ n, n ∈ emittedNodes (g.withMarks marks) ↔ g.Live n)
    (apart : style.blackCollector ≠ style.grayCollector)
    (free : ∀ id, style.blackCollector ≠ style.nodeName id ∧
      style.grayCollector ≠ style.nodeName id)
    (maker : ∀ n, g.Live n → n.kind = .symbol → ∀ color, style.collector color ≠ "Symbol") :
    ∃ value m, execute style.host (scriptBody style (g.withMarks marks)) {} = .ok m ∧
      Rebuilds style g value m := by
  have hmem : ∀ n ∈ emittedNodes (g.withMarks marks), n ∈ g.nodes := fun n hn =>
    (List.mem_filter.mp hn).1
  have hids : ∀ a ∈ emittedNodes (g.withMarks marks), ∀ b ∈ emittedNodes (g.withMarks marks),
      a.id = b.id → a = b := fun a ha b hb => hg.eq_of_id_eq (hmem a ha) (hmem b hb)
  have hnodup : ((emittedNodes (g.withMarks marks)).map Node.id).Nodup :=
    hg.nodup_ids.sublist (List.filter_sublist.map _)
  -- the declarations bind a variable for each emitted node
  obtain ⟨m1, hrun1, declared⟩ := execute_declare (declared_nil style (g.withMarks marks))
    (by simpa using hnodup)
    fun n hn hsymbol => color?_eq_none_iff.mpr (maker n ((hlive n).mp hn) hsymbol)
  rw [List.nil_append] at declared
  obtain ⟨value, hvalue⟩ := declared.exists_value
  have hown : ∀ n ∈ emittedNodes (g.withMarks marks), ∀ color, value n ≠ .roots color := by
    intro n hn color heq
    have hheld := (hvalue n hn).2
    rw [heq] at hheld
    exact hheld
  have hinj : ∀ a ∈ emittedNodes (g.withMarks marks), ∀ b ∈ emittedNodes (g.withMarks marks),
      value a = value b → a = b := by
    intro a ha b hb heq
    exact declared.eq_of_value_eq hids ha hb (hvalue a ha).1 (heq ▸ (hvalue b hb).1)
  -- the assignments mention live nodes only
  have htargets : ∀ n ∈ emittedNodes (g.withMarks marks), n ∈ emittedNodes (g.withMarks marks) ∧
      ∀ p ∈ (g.withMarks marks).includedTargets n, p.2 ∈ emittedNodes (g.withMarks marks) := by
    intro n hn
    exact ⟨hn, fun p hp => mem_emittedNodes_of_target hg hlive hn hp⟩
  obtain ⟨m2, hrun2, filled⟩ := execute_assign style.host
    (filled_nil fun n hn => (hvalue n hn).2) (fun n hn => (hvalue n hn).1) hown hinj hids htargets
    (by simpa using hnodup)
  rw [List.nil_append] at filled
  -- the collectors are not variables, and their entries are live nodes
  have hcollector : ∀ color, m2.bindings.lookup (style.collector color) = none := by
    intro color
    rw [filled.bindings]
    refine declared.lookup_eq_none fun n _ => ?_
    cases color
    · exact (free n.id).1
    · exact (free n.id).2
  have hroots : ∀ color, ∀ n ∈ g.includedRoots (g.rootsOf color),
      m2.bindings.lookup (style.nodeName n.id) = some (value n) := by
    intro color n hn
    obtain ⟨r, hr, hhas, hincl⟩ := hg.mem_includedRoots.mp hn
    have hmem : r ∈ g.roots := by
      cases color
      · exact List.mem_append_left _ hr
      · exact List.mem_append_right _ hr
    rw [filled.bindings]
    exact (hvalue n ((hlive n).mpr ⟨.root hmem hhas (by simp), hincl⟩)).1
  obtain ⟨m3, hrun3, hbindings, hobjects, harrays⟩ := execute_collectors apart
    (fun color => (filled.roots color).trans (declared.roots color)) hcollector hroots
  refine ⟨value, m3, ?_, filled.rebuilds hg hlive hnodup declared hvalue hbindings hobjects harrays⟩
  have hblank1 := execute_append hrun1 (execute_spacing style.host style.spaced m1)
  have hassign := execute_append hblank1 hrun2
  have hblank2 := execute_append hassign (execute_spacing style.host style.spaced m2)
  exact execute_append hblank2 hrun3

/-! ## The lines -/

/-- A statement can be read if the names of its style are identifiers and it calls no reserved
word. -/
lemma Written.wellNamed (hident : ∀ role, Text.isIdentifier (style.name role).toList = true)
    {s : Statement} (h : Written style s) (hcalls : ∀ x ∈ s.calls, x ∉ reservedWords) :
    s.WellNamed := by
  refine ⟨h.name (motive := fun x => Text.isIdentifier x.toList = true)
    (isIdentifier_append_toString (hident .node)) (isIdentifier_append_toString (hident .property))
    (hident .blackCollector) (hident .grayCollector), fun x hx => ?_⟩
  cases h with
  | opening | closing => cases hx
  | inner h =>
      rcases h.reference hx with ⟨id, rfl⟩ | hcall
      · exact nodeName_not_mem_reservedWords style id
      · exact hcalls x hcall

/-- Running the lines of statements is running the statements. -/
lemma runLines_text {host : Host} {ss : List Statement} (h : ∀ s ∈ ss, s.WellNamed) :
    runLines host (ss.map Statement.text) = unwrap ss >>= fun body => execute host body {} := by
  have hread : (ss.map Statement.text).mapM readLine = .ok ss := by
    have hok : ∀ s ∈ ss, (readLine ∘ Statement.text) s = pure (id s) := by
      intro s hs
      rw [Function.comp_apply, readLine, read?_text (h s hs)]
      rfl
    rw [List.mapM_map, mapM_eq_pure hok, List.map_id]
    rfl
  rw [runLines, hread]
  rfl

/-- Running the lines of a script is running its body. -/
lemma runLines_script {host : Host} (h : ∀ s ∈ script style g, s.WellNamed) :
    runLines host ((script style g).map Statement.text) = execute host (scriptBody style g) {} := by
  have hbody : .openFunction ∉ scriptBody style g := fun hin =>
    (inner_of_mem_scriptBody hin).ne_wrapper.1 rfl
  rw [runLines_text h, script, unwrap_optional style.wrapped hbody]
  rfl

/-- What a script calls is the function that makes symbols, or a collector that some root is
written for. -/
lemma calls_of_mem_script {s : Statement} (hs : s ∈ script style g) {x : String}
    (hx : x ∈ s.calls) :
    x = "Symbol" ∨ ∃ color, x = style.collector color ∧ g.includedRoots (g.rootsOf color) ≠ [] := by
  have hlayout : ∀ wanted t, t.calls = [] → s ∉ optional wanted t := by
    intro wanted t ht hin
    rw [optional] at hin
    split_ifs at hin
    · rw [List.mem_singleton.mp hin, ht] at hx
      cases hx
    · cases hin
  have hcollect : ∀ color, s ∈ collect style (style.collector color) 0
      (g.includedRoots (g.rootsOf color)) →
      x = style.collector color ∧ g.includedRoots (g.rootsOf color) ≠ [] := by
    intro color hin
    obtain ⟨⟨n, i⟩, hn, rfl⟩ := List.mem_map.mp hin
    refine ⟨List.mem_singleton.mp hx, fun hnil => ?_⟩
    rw [hnil] at hn
    cases hn
  simp only [script, scriptBody, List.mem_append] at hs
  rcases hs with (hs | ((((hs | hs) | hs) | hs) | (hs | hs))) | hs
  · exact absurd hs (hlayout _ _ rfl)
  · obtain ⟨n, -, rfl⟩ := List.mem_map.mp hs
    rw [declare] at hx
    split at hx
    · cases hx
    · exact Or.inl (List.mem_singleton.mp hx)
    · cases hx
  · exact absurd hs (hlayout _ _ rfl)
  · obtain ⟨n, -, hs⟩ := List.mem_flatMap.mp hs
    obtain ⟨⟨e, t⟩, -, rfl⟩ := List.mem_map.mp hs
    cases hl : e.label <;> simp [setEdge, hl, Statement.calls] at hx
  · exact absurd hs (hlayout _ _ rfl)
  · exact Or.inr ⟨.black, hcollect .black hs⟩
  · exact Or.inr ⟨.gray, hcollect .gray hs⟩
  · exact absurd hs (hlayout _ _ rfl)

/-- No name of an accepted style is invalid. -/
lemma invalid?_of_check (accepted : style.check = .ok style) : style.invalid? = none := by
  rw [Style.check] at accepted
  cases hi : style.invalid? with
  | none => rfl
  | some e => rw [hi] at accepted; cases accepted

/-- A name that is accepted is an identifier if it holds no newline. -/
lemma isIdentifier_of_check (accepted : style.check = .ok style)
    (oneLine : ∀ role, '\n' ∉ (style.name role).toList) (role : NameRole) :
    Text.isIdentifier (style.name role).toList = true := by
  have hends := Style.invalid?_eq_none_iff.mp (invalid?_of_check accepted) role
  rw [Text.endsAsIdentifier, Bool.or_eq_true] at hends
  rcases hends with hident | hnewline
  · exact hident
  · rw [Bool.and_eq_true, beq_iff_eq] at hnewline
    exact absurd (List.mem_of_getLast? hnewline.1) (oneLine role)

end Script

lemma buildGraph_eq_ok_iff {file text : String} {marked : HeapGraph} :
    buildGraph file text = .ok marked ↔
      ∃ g s, Dump.parse file text = .ok g ∧ g.mark = { state := s } ∧ s.graph = marked := by
  have hmark : ∀ g : HeapGraph, (g.mark.toExcept >>= fun s => pure s.graph) = .ok marked ↔
      ∃ s, g.mark = { state := s } ∧ s.graph = marked := by
    intro g
    rcases g.mark with ⟨s, failure⟩
    cases failure <;> simp [Bind.bind, Except.bind, Pure.pure, Except.pure, Progress.toExcept]
  simp only [buildGraph, bind_eq_ok_iff, hmark, exists_and_left]

end HeapReplay
