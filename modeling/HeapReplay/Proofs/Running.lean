import HeapReplay.Script.Execution
import HeapReplay.Proofs.ScriptParts
import HeapReplay.Proofs.Tables

/-!
# Running a script, part by part

The three parts of a script change three parts of the memory, one after the other:

* the **declarations** bind a variable for each node, each to a value of its own (`Declared`);
* the **assignments** of a node fill the slots of its object and touch no other one;
* the **roots** fill the two collectors, place by place (`Collected`).

Each part has a lemma for one statement and one for the whole run, and each says that the run
cannot fail: names are bound before they are read, and no name is bound twice.

**Slots have two names.**  A `Place` is a slot without the style that names it: a key, or the number
of an element.  Labels that differ can have one place, since numerals that differ can stand for one
number, so slots are spoken of by places and not by labels.
-/

namespace HeapReplay.Script

/-! ## Names -/

/-- A name tells which number it was made with. -/
lemma append_toString_injective {stem : String} {i j : Nat}
    (h : stem ++ toString i = stem ++ toString j) : i = j := by
  have hlist := congrArg String.toList h
  rw [String.toList_append, String.toList_append] at hlist
  have hread := congrArg (Numeral.read? 10) (List.append_cancel_left hlist)
  simp only [Nat.toString_eq_repr, Nat.toList_repr,
    Numeral.read?_toDigits (by decide : 1 < 10) (by decide)] at hread
  exact Option.some.inj hread

/-- A name that ends in a number is no word without digits. -/
lemma append_toString_ne {word : String} (h : word.toList.any Char.isDigit = false)
    (stem : String) (n : Nat) : stem ++ toString n ≠ word := by
  rintro rfl
  obtain ⟨c, hc⟩ := List.exists_mem_of_ne_nil _ (Nat.toDigits_ne_nil : Nat.toDigits 10 n ≠ [])
  have hdigit : c.isDigit = true := Nat.isDigit_of_mem_toDigits (by decide) (by decide) hc
  exact List.any_eq_false.mp h c (by simp [hc]) hdigit

lemma nodeName_not_mem_reservedWords (style : Style) (id : Nat) :
    style.nodeName id ∉ reservedWords := by
  have hletters : ∀ word ∈ reservedWords, word.toList.any Char.isDigit = false := by decide
  exact fun hin => append_toString_ne (hletters _ hin) style.nodeStem id rfl

lemma nodeName_ne_symbol (style : Style) (id : Nat) : style.nodeName id ≠ "Symbol" :=
  append_toString_ne (by decide) style.nodeStem id

/-- A slot of a node's object, whatever style it is named in. -/
inductive Place where
  | key (id : Nat)
  | element (index : Number)
deriving DecidableEq, Repr

/-- The place that a label stands for. -/
def Place.ofLabel : Label → Place
  | .index i => .element (.ofNat i)
  | .key id => .key id

/-- As long as indices are exact, labels that differ have places that differ. -/
lemma Place.ofLabel_eq_iff {l l' : Label}
    (h : ∀ i, l = .index i ∨ l' = .index i → i ≤ Number.exactBound) :
    Place.ofLabel l = .ofLabel l' ↔ l = l' := by
  refine ⟨fun heq => ?_, congrArg Place.ofLabel⟩
  cases l with
  | key id =>
      cases l' with
      | key id' => exact congrArg Label.key (Place.key.inj heq)
      | index i => cases heq
  | index i =>
      cases l' with
      | key id' => cases heq
      | index i' =>
          have hi := Number.ofNat_of_le (h i (Or.inl rfl))
          have hi' := Number.ofNat_of_le (h i' (Or.inr rfl))
          have hnumber := Place.element.inj heq
          rw [hi, hi'] at hnumber
          exact congrArg Label.index (Number.finite.inj hnumber)

/-- The slot that a place is in a style. -/
def Style.slot (style : Style) : Place → Slot
  | .key id => .property (style.propertyName id)
  | .element index => .element index

lemma slot_injective (style : Style) : style.slot.Injective := by
  intro p p' h
  cases p with
  | key id =>
      cases p' with
      | key id' => exact congrArg Place.key (append_toString_injective (Slot.property.inj h))
      | element index' => cases h
  | element index =>
      cases p' with
      | key id' => cases h
      | element index' => exact congrArg Place.element (Slot.element.inj h)

/-- Names of both kinds are identifiers if their stems are. -/
lemma isIdentifier_append_toString {stem : String} (h : Text.isIdentifier stem.toList = true)
    (n : Nat) : Text.isIdentifier (stem ++ toString n).toList = true := by
  rw [String.toList_append]
  refine Text.isIdentifier_append h (List.all_eq_true.mpr fun c hc => ?_)
  have hdigit : c.isDigit = true :=
    Nat.isDigit_of_mem_toDigits (by decide) (by decide) (Nat.toList_repr ▸ hc)
  simp [Text.isIdentifierPart, hdigit]

/-- If no id occurs twice, that of the next node is none of those before it. -/
lemma id_not_mem_of_nodup {before after : List Node} {n : Node}
    (h : ((before ++ n :: after).map Node.id).Nodup) : n.id ∉ before.map Node.id := by
  rw [List.map_append, List.nodup_append] at h
  exact fun hin => h.2.2 _ hin _ (by simp) rfl

/-! ## Declarations -/

section Declarations

variable (style : Style) (g : HeapGraph)

/-- The slots of the object of a node when it is declared. -/
def blankSlots (n : Node) : Table Slot Content :=
  ((distinctKeys ((g.includedTargets n).map (·.1.label))).map style.propertyName).foldl
    (fun t p => Table.set (.property p) .placeholder t) []

/-- What the variable of a node may hold when it is declared. -/
def Holds (m : Memory) (n : Node) : Value → Prop
  | .string content => n.kind = .string ∧ content = n.id
  | .symbol serial => n.kind = .symbol ∧ serial < m.symbols
  | .object serial => n.kind ≠ .string ∧ n.kind ≠ .symbol ∧
      m.objects[serial]? = some (blankSlots style g n)
  | .roots _ => False

/-- The memory after the declarations of `ns`. -/
structure Declared (ns : List Node) (m : Memory) : Prop where
  names : m.bindings.map Prod.fst = ns.map fun n => style.nodeName n.id
  holds : ∀ n ∈ ns, ∃ v, m.bindings.lookup (style.nodeName n.id) = some v ∧
    Holds style g m n v
  distinct : (m.bindings.map Prod.snd).Nodup
  used : ∀ v ∈ m.bindings.map Prod.snd, ∃ n ∈ ns, Holds style g m n v
  objects : ∀ serial < m.objects.length, Value.object serial ∈ m.bindings.map Prod.snd
  roots : ∀ color, m.roots color = []

lemma declared_nil : Declared style g [] {} :=
  ⟨rfl, by simp, List.nodup_nil, by simp, by simp, fun color => by cases color <;> rfl⟩

variable {style g}

/-- More symbols and objects do not change what a variable holds. -/
lemma Holds.mono {m m' : Memory} {n : Node} {v : Value} (h : Holds style g m n v)
    (hsym : m.symbols ≤ m'.symbols) (hobj : m.objects <+: m'.objects) :
    Holds style g m' n v := by
  cases v with
  | string content => exact h
  | symbol serial => exact ⟨h.1, Nat.lt_of_lt_of_le h.2 hsym⟩
  | object serial =>
      obtain ⟨hstr, hnsym, hget⟩ := h
      obtain ⟨extra, hextra⟩ := hobj
      have hlt : serial < m.objects.length := (List.getElem?_eq_some_iff.mp hget).1
      refine ⟨hstr, hnsym, ?_⟩
      rw [← hextra, List.getElem?_append_left hlt]
      exact hget
  | roots color => exact h

/-- Only the names of declared nodes are bound. -/
lemma Declared.lookup_eq_none {ns : List Node} {m : Memory} (h : Declared style g ns m)
    {x : String} (hx : ∀ n ∈ ns, x ≠ style.nodeName n.id) : m.bindings.lookup x = none := by
  rw [lookup_eq_none_iff_not_mem, h.names]
  intro hin
  obtain ⟨n, hn, heq⟩ := List.mem_map.mp hin
  exact hx n hn heq.symm

/-- One more variable, with a value that is not in use. -/
lemma Declared.snoc {ns : List Node} {m m' : Memory} {n : Node} {v : Value}
    (h : Declared style g ns m) (hname : n.id ∉ ns.map Node.id)
    (hbind : m'.bindings = m.bindings ++ [(style.nodeName n.id, v)])
    (hsym : m.symbols ≤ m'.symbols) (hobj : m.objects <+: m'.objects)
    (hv : Holds style g m' n v) (hnew : v ∉ m.bindings.map Prod.snd)
    (hall : ∀ serial < m'.objects.length, m.objects.length ≤ serial → v = .object serial)
    (hroots : ∀ color, m'.roots color = []) :
    Declared style g (ns ++ [n]) m' := by
  have hfresh : style.nodeName n.id ∉ m.bindings.map Prod.fst := by
    rw [h.names]
    intro hin
    obtain ⟨n', hn', heq⟩ := List.mem_map.mp hin
    exact hname (List.mem_map.mpr ⟨n', hn', append_toString_injective heq⟩)
  refine ⟨by rw [hbind]; simp [h.names], ?_, ?_, ?_, ?_, hroots⟩
  · intro n' hn'
    rw [hbind, List.lookup_append]
    rcases List.mem_append.mp hn' with hn' | hn'
    · obtain ⟨v', hv', hholds⟩ := h.holds n' hn'
      exact ⟨v', by rw [hv']; rfl, hholds.mono hsym hobj⟩
    · rw [List.mem_singleton.mp hn', lookup_eq_none_iff_not_mem.mpr hfresh]
      exact ⟨v, by rw [lookup_cons_eq_ite, if_pos rfl, Option.none_or], hv⟩
  · rw [hbind, List.map_append]
    refine List.nodup_append.mpr ⟨h.distinct, by simp, fun a ha b hb heq => hnew ?_⟩
    obtain rfl : b = v := by simpa using hb
    exact heq ▸ ha
  · intro w hw
    rw [hbind, List.map_append] at hw
    rcases List.mem_append.mp hw with hw | hw
    · obtain ⟨n', hn', hholds⟩ := h.used w hw
      exact ⟨n', List.mem_append_left _ hn', hholds.mono hsym hobj⟩
    · exact ⟨n, by simp, List.mem_singleton.mp hw ▸ hv⟩
  · intro serial hlt
    rw [hbind, List.map_append]
    rcases Nat.lt_or_ge serial m.objects.length with hold | hnew'
    · exact List.mem_append_left _ (h.objects serial hold)
    · exact List.mem_append_right _ (by simp [hall serial hlt hnew'])

/-- **One declaration** binds a variable that was not bound, to a value that was not in use, unless
the host has a function of its own where a symbol is to be made. -/
lemma step_declare {host : Host} {ns : List Node} {m : Memory} {n : Node}
    (h : Declared style g ns m) (hname : n.id ∉ ns.map Node.id)
    (hmaker : n.kind = .symbol → host.color? "Symbol" = none) :
    ∃ m', Memory.step host m (declare style g n) = .ok m' ∧
      Declared style g (ns ++ [n]) m' := by
  have hunbound : m.bindings.lookup (style.nodeName n.id) = none := by
    refine h.lookup_eq_none fun n' hn' heq => ?_
    exact hname (List.mem_map.mpr ⟨n', hn', (append_toString_injective heq).symm⟩)
  by_cases hstr : n.kind = .string
  · refine ⟨{ m with bindings := m.bindings ++ [(style.nodeName n.id, .string n.id)] }, ?_, ?_⟩
    · simp [declare, hstr, Memory.step, Memory.bind, hunbound]
    · refine h.snoc hname rfl (Nat.le_refl _) (List.prefix_refl _) ⟨hstr, rfl⟩ ?_
        (fun serial hlt hge => absurd hlt (Nat.not_lt.mpr hge)) h.roots
      intro hin
      obtain ⟨n', hn', hheld⟩ := h.used _ hin
      exact hname (List.mem_map.mpr ⟨n', hn', hheld.2.symm⟩)
  · by_cases hsym : n.kind = .symbol
    · refine ⟨{ m with
          symbols := m.symbols + 1
          bindings := m.bindings ++ [(style.nodeName n.id, .symbol m.symbols)] }, ?_, ?_⟩
      · have hcall : m.call host "Symbol"
            = .ok (.symbol m.symbols, { m with symbols := m.symbols + 1 }) := by
          rw [Memory.call, h.lookup_eq_none fun n' _ => (nodeName_ne_symbol style n'.id).symm,
            hmaker hsym]
          rfl
        have hstep : Memory.step host m (declare style g n)
            = m.call host "Symbol" >>= fun p => p.2.bind (style.nodeName n.id) p.1 := by
          rw [declare, hsym]
          rfl
        rw [hstep, hcall]
        simp [Bind.bind, Except.bind, Memory.bind, hunbound]
      · refine h.snoc hname rfl (Nat.le_succ _) (List.prefix_refl _)
          ⟨hsym, Nat.lt_succ_self _⟩ ?_
          (fun serial hlt hge => absurd hlt (Nat.not_lt.mpr hge)) h.roots
        intro hin
        obtain ⟨n', -, hheld⟩ := h.used _ hin
        exact Nat.lt_irrefl _ hheld.2
    · have hdecl : declare style g n = .declareObject (style.nodeName n.id)
          ((distinctKeys ((g.includedTargets n).map (·.1.label))).map style.propertyName) := by
        rw [declare]
        split
        · rename_i hk; exact absurd hk hstr
        · rename_i hk; exact absurd hk hsym
        · rfl
      refine ⟨{ m with
          objects := m.objects ++ [blankSlots style g n]
          bindings := m.bindings ++ [(style.nodeName n.id, .object m.objects.length)] }, ?_, ?_⟩
      · simp [hdecl, Memory.step, Memory.bind, hunbound, blankSlots]
      · refine h.snoc hname rfl (Nat.le_refl _) (List.prefix_append _ _)
          ⟨hstr, hsym, by simp⟩ ?_ ?_ h.roots
        · intro hin
          obtain ⟨n', -, -, -, hget⟩ := h.used _ hin
          simp at hget
        · intro serial hlt hge
          simp only [List.length_append, List.length_singleton] at hlt
          rw [show serial = m.objects.length by omega]

/-- The declarations of nodes with different ids. -/
lemma execute_declare {host : Host} {before ns : List Node} {m : Memory}
    (h : Declared style g before m) (hnodup : ((before ++ ns).map Node.id).Nodup)
    (hmaker : ∀ n ∈ ns, n.kind = .symbol → host.color? "Symbol" = none) :
    ∃ m', execute host (ns.map (declare style g)) m = .ok m' ∧
      Declared style g (before ++ ns) m' := by
  induction ns generalizing before m with
  | nil => exact ⟨m, rfl, by simpa using h⟩
  | cons n ns ih =>
      have hname : n.id ∉ before.map Node.id := id_not_mem_of_nodup hnodup
      obtain ⟨hn, hns⟩ := List.forall_mem_cons.mp hmaker
      obtain ⟨m1, hstep, h1⟩ := step_declare h hname hn
      obtain ⟨m2, hrun, h2⟩ := ih h1 (by simpa using hnodup) hns
      refine ⟨m2, ?_, by simpa using h2⟩
      rw [List.map_cons, execute, List.foldlM_cons, hstep]
      exact hrun

/-- What the variables hold, as a function of the nodes. -/
lemma Declared.exists_value {ns : List Node} {m : Memory} (h : Declared style g ns m) :
    ∃ value : Node → Value, ∀ n ∈ ns, m.bindings.lookup (style.nodeName n.id) = some (value n) ∧
      Holds style g m n (value n) := by
  refine ⟨fun n => (m.bindings.lookup (style.nodeName n.id)).getD (.string 0), fun n hn => ?_⟩
  obtain ⟨v, hv, hholds⟩ := h.holds n hn
  simp only [hv]
  exact ⟨rfl, hholds⟩

/-- Variables of different nodes hold different values. -/
lemma Declared.eq_of_value_eq {ns : List Node} {m : Memory} (h : Declared style g ns m)
    (hids : ∀ a ∈ ns, ∀ b ∈ ns, a.id = b.id → a = b) {a b : Node} (ha : a ∈ ns) (hb : b ∈ ns)
    {v : Value} (hav : m.bindings.lookup (style.nodeName a.id) = some v)
    (hbv : m.bindings.lookup (style.nodeName b.id) = some v) : a = b := by
  have hpair := List.inj_on_of_nodup_map h.distinct (mem_of_lookup hav) (mem_of_lookup hbv) rfl
  exact hids a ha b hb (append_toString_injective (congrArg Prod.fst hpair))

end Declarations

/-! ## Assignments -/

section Assignments

variable (style : Style) (g : HeapGraph)

/-- The slots after some assignments, where `value` tells the values of the targets. -/
def fillSlots (value : Node → Value) (targets : List (Edge × Node)) (t : Table Slot Content) :
    Table Slot Content :=
  targets.foldl
    (fun t p => Table.set (style.slot (.ofLabel p.1.label)) (.value (value p.2)) t) t

/-- What the assignments of one node do to the memory. -/
def setSlots (value : Node → Value) (v : Value) (targets : List (Edge × Node)) (m : Memory) :
    Memory :=
  targets.foldl (fun m p => m.setSlot v (style.slot (.ofLabel p.1.label)) (value p.2)) m

/-- The memory that comes of `start` when the objects of the nodes in `filled` have got their
slots. -/
structure Filled (start : Memory) (ns filled : List Node) (value : Node → Value)
    (m : Memory) : Prop where
  bindings : m.bindings = start.bindings
  roots : ∀ color, m.roots color = start.roots color
  size : m.objects.length = start.objects.length
  objects : ∀ n ∈ ns, ∀ serial, value n = .object serial →
    m.objects[serial]? = some (if n.id ∈ filled.map Node.id then
      fillSlots style value (g.includedTargets n) (blankSlots style g n)
    else blankSlots style g n)

variable {style g}

/-- Before any assignment, objects have the slots that they were declared with. -/
lemma filled_nil {ns : List Node} {value : Node → Value} {m : Memory}
    (hholds : ∀ n ∈ ns, Holds style g m n (value n)) : Filled style g m ns [] value m := by
  refine ⟨rfl, fun _ => rfl, rfl, ?_⟩
  intro n hn serial hv
  have h := hholds n hn
  rw [hv] at h
  exact h.2.2

lemma step_setEdge (host : Host) {m : Memory} {source target : Nat} {v w : Value} (label : Label)
    (hv : m.bindings.lookup (style.nodeName source) = some v)
    (hw : m.bindings.lookup (style.nodeName target) = some w) :
    Memory.step host m (setEdge style source label target)
      = .ok (m.setSlot v (style.slot (.ofLabel label)) w) := by
  cases label <;>
    simp [setEdge, Memory.step, Memory.value, hv, hw, Style.slot, Place.ofLabel] <;> rfl

@[simp] lemma bindings_setSlot (m : Memory) (v : Value) (slot : Slot) (w : Value) :
    (m.setSlot v slot w).bindings = m.bindings := by
  cases v with
  | roots color => cases color <;> rfl
  | _ => rfl

/-- The assignments of one node, whatever it holds. -/
lemma execute_setEdges (host : Host) {m : Memory} {source : Nat} {v : Value}
    {value : Node → Value} {targets : List (Edge × Node)}
    (hv : m.bindings.lookup (style.nodeName source) = some v)
    (ht : ∀ p ∈ targets, m.bindings.lookup (style.nodeName p.2.id) = some (value p.2)) :
    execute host (targets.map fun (e, t) => setEdge style source e.label t.id) m
      = .ok (setSlots style value v targets m) := by
  induction targets generalizing m with
  | nil => rfl
  | cons p targets ih =>
      have hstep := step_setEdge host p.1.label hv (ht p (by simp))
      rw [List.map_cons, execute, List.foldlM_cons, hstep]
      exact ih (by simpa using hv) fun q hq => by simpa using ht q (by simp [hq])

/-- The assignments of an object fill its slots. -/
lemma setSlots_object (value : Node → Value) (serial : Nat) (targets : List (Edge × Node))
    (m : Memory) : setSlots style value (.object serial) targets m
      = { m with objects := m.objects.modify serial (fillSlots style value targets) } := by
  induction targets generalizing m with
  | nil =>
      have hid : fillSlots style value [] = id := rfl
      rw [hid, List.modify_id]
      rfl
  | cons p targets ih =>
      have hcons : setSlots style value (.object serial) (p :: targets) m
          = setSlots style value (.object serial) targets
            (m.setSlot (.object serial) (style.slot (.ofLabel p.1.label)) (value p.2)) := rfl
      rw [hcons, ih]
      simp only [Memory.setSlot, List.modify_modify_eq]
      rfl

/-- The assignments of a string or a symbol do nothing. -/
lemma setSlots_of_inert (value : Node → Value) {v : Value} (targets : List (Edge × Node))
    (m : Memory) (hv : ∀ slot w, m.setSlot v slot w = m) :
    setSlots style value v targets m = m := by
  induction targets with
  | nil => rfl
  | cons p targets ih =>
      rw [setSlots, List.foldl_cons, hv]
      exact ih

/-- **The assignments of one node** fill its object and leave all others as they are. -/
lemma Filled.snoc {start : Memory} {ns filled : List Node} {value : Node → Value} {m : Memory}
    (h : Filled style g start ns filled value m) {n : Node} (hn : n ∈ ns)
    (hnew : n.id ∉ filled.map Node.id) (hown : ∀ color, value n ≠ .roots color)
    (hinj : ∀ a ∈ ns, ∀ b ∈ ns, value a = value b → a = b)
    (hids : ∀ a ∈ ns, ∀ b ∈ ns, a.id = b.id → a = b) :
    Filled style g start ns (filled ++ [n]) value
      (setSlots style value (value n) (g.includedTargets n) m) := by
  have hother : ∀ a ∈ ns, a ≠ n →
      (a.id ∈ (filled ++ [n]).map Node.id ↔ a.id ∈ filled.map Node.id) := by
    intro a ha hne
    have hid : a.id ≠ n.id := fun heq => hne (hids a ha n hn heq)
    simp [hid]
  -- what has no slots stays as it is, and so do all objects
  have hinert : (∀ serial, value n ≠ .object serial) →
      (∀ slot w, m.setSlot (value n) slot w = m) → Filled style g start ns (filled ++ [n]) value
        (setSlots style value (value n) (g.includedTargets n) m) := by
    intro hobject hset
    rw [setSlots_of_inert value _ m hset]
    refine ⟨h.bindings, h.roots, h.size, fun a ha serial hs => ?_⟩
    have hne : a ≠ n := by rintro rfl; exact hobject serial hs
    rw [if_congr (hother a ha hne) rfl rfl]
    exact h.objects a ha serial hs
  cases hv : value n with
  | string content => exact hv ▸ hinert (by simp [hv]) fun _ _ => by rw [hv]; rfl
  | symbol s => exact hv ▸ hinert (by simp [hv]) fun _ _ => by rw [hv]; rfl
  | roots color => exact absurd hv (hown color)
  | object s =>
      rw [setSlots_object]
      refine ⟨h.bindings, h.roots, by simp [h.size], fun a ha serial hs => ?_⟩
      have hget := h.objects a ha serial hs
      rw [List.getElem?_modify]
      by_cases hne : a = n
      · subst hne
        obtain rfl : s = serial := Value.object.inj (hv.symm.trans hs)
        rw [if_neg hnew] at hget
        simp [hget]
      · have hserial : s ≠ serial := by
          rintro rfl
          exact hne (hinj a ha n hn (hs.trans hv.symm))
        rw [if_congr (hother a ha hne) rfl rfl, ← hget]
        simp [hserial]

/-- The assignments of all nodes. -/
lemma execute_assign (host : Host) {start : Memory} {ns filled rest : List Node}
    {value : Node → Value} {m : Memory} (h : Filled style g start ns filled value m)
    (hbound : ∀ n ∈ ns, start.bindings.lookup (style.nodeName n.id) = some (value n))
    (hown : ∀ n ∈ ns, ∀ color, value n ≠ .roots color)
    (hinj : ∀ a ∈ ns, ∀ b ∈ ns, value a = value b → a = b)
    (hids : ∀ a ∈ ns, ∀ b ∈ ns, a.id = b.id → a = b)
    (hrest : ∀ n ∈ rest, n ∈ ns ∧ ∀ p ∈ g.includedTargets n, p.2 ∈ ns)
    (hnodup : ((filled ++ rest).map Node.id).Nodup) :
    ∃ m', execute host (rest.flatMap (assign style g)) m = .ok m' ∧
      Filled style g start ns (filled ++ rest) value m' := by
  induction rest generalizing filled m with
  | nil => exact ⟨m, rfl, by simpa using h⟩
  | cons n rest ih =>
      obtain ⟨hn, htargets⟩ := hrest n (by simp)
      have hnew : n.id ∉ filled.map Node.id := id_not_mem_of_nodup hnodup
      have hstep : execute host (assign style g n) m
          = .ok (setSlots style value (value n) (g.includedTargets n) m) :=
        execute_setEdges host (by rw [h.bindings]; exact hbound n hn)
          fun p hp => by rw [h.bindings]; exact hbound p.2 (htargets p hp)
      obtain ⟨m', hrun, h'⟩ := ih (h.snoc hn hnew (hown n hn) hinj hids)
        (fun a ha => hrest a (by simp [ha])) (by simpa using hnodup)
      refine ⟨m', ?_, by simpa using h'⟩
      rw [List.flatMap_cons, execute, List.foldlM_append, ← execute, hstep]
      exact hrun

end Assignments

/-! ## Collectors -/

/-- The collector of a color. -/
def Style.collector (style : Style) : Color → String
  | .black => style.blackCollector
  | .gray => style.grayCollector

/-- The host whose collectors are those of the style. -/
def Style.host (style : Style) : Host :=
  { blackCollector := style.blackCollector, grayCollector := style.grayCollector }

/-- What is left in an array after some nodes have been put there one after the other, each at the
number of its position: a place holds the last node whose position has this number. -/
structure Collected (value : Node → Value) (targets : List Node) (t : Table Slot Value) :
    Prop where
  /-- No place is there twice. -/
  once : (t.map Prod.fst).Nodup
  places : ∀ slot v, t.lookup slot = some v ↔
    ∃ i n, targets[i]? = some n ∧ slot = .element (.ofNat i) ∧ v = value n ∧
      ∀ j, i < j → j < targets.length → Number.ofNat j ≠ .ofNat i
  /-- As long as all positions are exact, each node is at its own. -/
  inOrder : targets.length ≤ Number.exactBound →
    t = targets.zipIdx.map fun p => (.element (.finite p.2), value p.1)

/-- The nodes from a position on are put into an array. -/
def fillPlaces (value : Node → Value) (targets : List Node) (position : Nat)
    (t : Table Slot Value) : Table Slot Value :=
  (targets.zipIdx position).foldl
    (fun t p => Table.set (.element (.ofNat p.2)) (value p.1) t) t

lemma fillPlaces_snoc (value : Node → Value) (targets : List Node) (n : Node) :
    fillPlaces value (targets ++ [n]) 0 []
      = Table.set (.element (.ofNat targets.length)) (value n) (fillPlaces value targets 0 []) := by
  simp [fillPlaces, List.zipIdx_append]

/-- Positions that are exact are all different, so nothing is put where something was. -/
lemma fillPlaces_eq_map (value : Node → Value) {targets : List Node}
    (h : targets.length ≤ Number.exactBound) : fillPlaces value targets 0 []
      = targets.zipIdx.map fun p => (.element (.finite p.2), value p.1) := by
  induction targets using List.reverseRecOn with
  | nil => rfl
  | append_singleton targets n ih =>
      rw [List.length_append, List.length_singleton] at h
      have hfresh : .element (.finite targets.length) ∉
          (targets.zipIdx.map fun p => (Slot.element (.finite p.2), value p.1)).map Prod.fst := by
        intro hin
        simp only [List.map_map, List.mem_map, Function.comp_apply, Slot.element.injEq,
          Number.finite.injEq] at hin
        obtain ⟨p, hp, heq⟩ := hin
        exact (Nat.ne_of_lt (by simpa using List.snd_lt_of_mem_zipIdx hp)) heq
      rw [fillPlaces_snoc, ih (by omega), Number.ofNat_of_le (by omega), set_of_fresh hfresh,
        List.zipIdx_append, List.map_append]
      simp

/-- One more member is no later one for the positions whose number its own is not. -/
lemma later_append_singleton {targets : List Node} {n : Node} {i : Nat}
    (h : Number.ofNat targets.length ≠ .ofNat i) :
    (∀ j, i < j → j < (targets ++ [n]).length → Number.ofNat j ≠ .ofNat i) ↔
      ∀ j, i < j → j < targets.length → Number.ofNat j ≠ .ofNat i := by
  rw [List.length_append, List.length_singleton]
  constructor
  · intro hlater j hj hlt
    exact hlater j hj (Nat.lt_succ_of_lt hlt)
  · intro hlater j hj hlt
    rcases Nat.lt_or_eq_of_le (Nat.le_of_lt_succ hlt) with hlt | rfl
    · exact hlater j hj hlt
    · exact h

lemma collected_fillPlaces (value : Node → Value) (targets : List Node) :
    Collected value targets (fillPlaces value targets 0 []) := by
  refine ⟨nodup_keys_foldl_set _ _ (by simp) _, ?_, fillPlaces_eq_map value⟩
  induction targets using List.reverseRecOn with
  | nil => simp [fillPlaces]
  | append_singleton targets n ih =>
      intro slot v
      rw [fillPlaces_snoc, lookup_set]
      split_ifs with hslot
      · -- the place of the new node is the one that is asked for
        constructor
        · rintro heq
          refine ⟨targets.length, n, by simp, hslot, (Option.some.inj heq).symm, fun j hj hlt => ?_⟩
          rw [List.length_append, List.length_singleton] at hlt
          omega
        · rintro ⟨i, n', hn', hi, rfl, hlater⟩
          have hle : targets.length ≤ i := by
            by_contra hlt
            exact hlater targets.length (by omega) (by simp)
              (Slot.element.inj (hslot.symm.trans hi))
          rw [List.getElem?_append_right hle, List.getElem?_singleton] at hn'
          split_ifs at hn' with hi'
          rw [Option.some.inj hn']
      · -- the places of the nodes before are what they were
        rw [ih]
        have hother : ∀ {i}, slot = .element (.ofNat i) →
            Number.ofNat targets.length ≠ .ofNat i := fun hi heq =>
          hslot (hi.trans (congrArg Slot.element heq.symm))
        constructor
        · rintro ⟨i, n', hn', hi, hv, hlater⟩
          have hlt : i < targets.length := (List.getElem?_eq_some_iff.mp hn').1
          refine ⟨i, n', ?_, hi, hv, (later_append_singleton (hother hi)).mpr hlater⟩
          rwa [List.getElem?_append_left hlt]
        · rintro ⟨i, n', hn', hi, hv, hlater⟩
          have hne : i ≠ targets.length := fun heq => hother hi (congrArg Number.ofNat heq.symm)
          have hlt : i < targets.length := by
            have hle := (List.getElem?_eq_some_iff.mp hn').1
            rw [List.length_append, List.length_singleton] at hle
            omega
          refine ⟨i, n', ?_, hi, hv, (later_append_singleton (hother hi)).mp hlater⟩
          rwa [List.getElem?_append_left hlt] at hn'

section Arrays

variable (m : Memory) (color : Color) (t : Table Slot Value)

@[simp] lemma bindings_setRoots : (m.setRoots color t).bindings = m.bindings := by
  cases color <;> rfl

@[simp] lemma objects_setRoots : (m.setRoots color t).objects = m.objects := by
  cases color <;> rfl

@[simp] lemma roots_setRoots (other : Color) :
    (m.setRoots color t).roots other = if other = color then t else m.roots other := by
  cases color <;> cases other <;> rfl

@[simp] lemma setRoots_setRoots (t' : Table Slot Value) :
    (m.setRoots color t).setRoots color t' = m.setRoots color t' := by
  cases color <;> rfl

@[simp] lemma setRoots_roots : m.setRoots color (m.roots color) = m := by
  cases color <;> rfl

end Arrays

/-- A collector of the host is called, unless a variable hides it. -/
lemma call_collector {host : Host} {m : Memory} {name : String} {color : Color}
    (hfree : m.bindings.lookup name = none) (hcolor : host.color? name = some color) :
    m.call host name = .ok (.roots color, m) := by
  rw [Memory.call, hfree, hcolor]

/-- The nodes for a color are put into its array. -/
lemma execute_collect {host : Host} (style : Style) {collector : String} {color : Color}
    (hcolor : host.color? collector = some color) {m : Memory}
    (hfree : m.bindings.lookup collector = none) {value : Node → Value} {targets : List Node}
    (hbound : ∀ n ∈ targets, m.bindings.lookup (style.nodeName n.id) = some (value n))
    (position : Nat) :
    execute host (collect style collector position targets) m
      = .ok (m.setRoots color (fillPlaces value targets position (m.roots color))) := by
  induction targets generalizing m position with
  | nil =>
      have hkeep : m.setRoots color (fillPlaces value [] position (m.roots color)) = m :=
        setRoots_roots m color
      rw [hkeep]
      rfl
  | cons n targets ih =>
      obtain ⟨hn, htargets⟩ := List.forall_mem_cons.mp hbound
      have hstep : Memory.step host m (.setRoot collector position (style.nodeName n.id))
          = .ok (m.setRoots color
            (Table.set (.element (.ofNat position)) (value n) (m.roots color))) := by
        have hvalue : m.value (style.nodeName n.id) = .ok (value n) := by rw [Memory.value, hn]
        rw [Memory.step, call_collector hfree hcolor]
        simp only [Bind.bind, Except.bind, hvalue]
        rfl
      rw [collect, List.zipIdx_cons, List.map_cons, execute, List.foldlM_cons, hstep]
      have ih' := ih (m := m.setRoots color
        (Table.set (.element (.ofNat position)) (value n) (m.roots color))) (by simpa using hfree)
        (by simpa using htargets) (position + 1)
      rw [setRoots_setRoots, roots_setRoots, if_pos rfl] at ih'
      exact ih'

/-! ## One part after another -/

lemma execute_append {host : Host} {ss ss' : List Statement} {m m' m'' : Memory}
    (h : execute host ss m = .ok m') (h' : execute host ss' m' = .ok m'') :
    execute host (ss ++ ss') m = .ok m'' := by
  rw [execute] at h h' ⊢
  rw [List.foldlM_append, h]
  exact h'

/-- Empty lines do nothing. -/
lemma execute_spacing (host : Host) (wanted : Bool) (m : Memory) :
    execute host (optional wanted .blank) m = .ok m := by
  cases wanted <;> rfl

/-- The function around statements that have none is taken off. -/
lemma unwrap_optional (wanted : Bool) {body : List Statement} (h : .openFunction ∉ body) :
    unwrap (optional wanted .openFunction ++ body ++ optional wanted .closeFunction)
      = .ok body := by
  cases wanted with
  | true => simp [optional, unwrap]
  | false =>
      cases body with
      | nil => rfl
      | cons s body =>
          cases s with
          | openFunction => exact absurd List.mem_cons_self h
          | _ => simp [optional, unwrap]

end HeapReplay.Script
