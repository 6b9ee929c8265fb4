import HeapReplay.Proofs.Grammar
import HeapReplay.Proofs.Outlining
import Mathlib.Data.List.Induction

/-!
# Which logs are accepted

A log is accepted exactly if its records are in order and its references are declared, and
otherwise its first fault is reported: this is `parse_follows_grammar`.

**A reader represents the records that it has taken in.**  `Represents` relates the two, so each
record needs three facts only: one that is in order is entered and the reader goes on to represent it
(`Represents.enter`), one with a fault is refused with that fault (`Represents.refuse`), and one that
is in order but for its element index is refused because of that (`Represents.refuse_overlong`).  So
a reader takes in all records or stops at the first one that it cannot take in (`run_of_inOrder`,
`failure_of_stops`).  That there is only one first fault follows from readers, too: a reader stops
once.
-/

namespace HeapReplay.Dump

/-! ## Readers -/

namespace Reader

/-- A reader that has taken in some records, all of them in order. -/
structure Represents (records : List Placed) (r : Reader) : Prop where
  inOrder : InOrder records
  sound : r.Sound
  addresses : r.graph.registry.addresses = declared records
  owner : r.owner = none ↔ ∀ q ∈ records, ¬ q.IsNode
  blackRoots : r.graph.blackRoots.map (·.address) = records.filterMap (Placed.rootTarget? .black)
  grayRoots : r.graph.grayRoots.map (·.address) = records.filterMap (Placed.rootTarget? .gray)
  edges : (r.graph.nodes.flatMap fun n => n.edges.map (·.target))
    = records.filterMap Placed.edgeTarget?

lemma represents_initial : Represents [] {} :=
  ⟨inOrder_nil, sound_initial, rfl, by simp, rfl, rfl, rfl⟩

/-- The section of the next record plays no part. -/
lemma Represents.within {records : List Placed} {r : Reader} (h : Represents records r)
    (s : Option Section) : Represents records { r with within := s } :=
  ⟨h.inOrder, ⟨h.sound.built, h.sound.owner⟩, h.addresses, h.owner, h.blackRoots, h.grayRoots,
    h.edges⟩

/-- A name whose element form is not too long has a label. -/
lemma exists_intern (t : Interner) {name : String}
    (h : ∀ digits, elementDigits? name = some digits → digits.length ≤ Failure.maxIndexDigits) :
    ∃ label t', t.intern name = .ok (label, t') := by
  cases hd : elementDigits? name with
  | none => exact ⟨_, _, by rw [Interner.intern, hd]⟩
  | some digits =>
      exact ⟨.index (Nat.ofDigitChars 10 digits 0), t, by
        rw [Interner.intern, hd]
        exact if_pos (h digits hd)⟩

section Entering

variable {file : String} {earlier : List Placed} {r : Reader} {p : Placed}

/-- After a node, edges have an owner. -/
lemma Represents.exists_owner (h : Represents earlier r) (owned : ∃ q ∈ earlier, q.IsNode) :
    ∃ owner, r.owner = some owner := by
  refine Option.ne_none_iff_exists'.mp fun hnone => ?_
  obtain ⟨q, hq, hnode⟩ := owned
  exact h.owner.mp hnone q hq hnode

/-- An edge to an address is read with its name. -/
lemma readEdge_of_isAddress {target : String} {rest : List String}
    (hwords : p.words = edgeMarker :: target :: rest) (isAddress : IsAddress target) :
    ∃ a, Address.parse? target = some a ∧
      readEdge (target :: rest) = .ok { target := a, name := p.edgeName } := by
  obtain ⟨a, ha, hread⟩ := readAddress_of_isAddress isAddress
  refine ⟨a, ha, ?_⟩
  rw [readEdge, hread, Placed.edgeName, hwords]
  rfl

/-- What a record in order adds to a reader is what it adds to the records. -/
lemma Represents.snoc {r' : Reader} (h : Represents earlier r) (hp : p.Ok earlier)
    (sound : r'.Sound)
    (addresses : r'.graph.registry.addresses
      = r.graph.registry.addresses ++ p.declares?.toList)
    (owner : r'.owner = none ↔ r.owner = none ∧ ¬ p.IsNode)
    (black : r'.graph.blackRoots.map (·.address)
      = r.graph.blackRoots.map (·.address) ++ (p.rootTarget? .black).toList)
    (gray : r'.graph.grayRoots.map (·.address)
      = r.graph.grayRoots.map (·.address) ++ (p.rootTarget? .gray).toList)
    (edges : (r'.graph.nodes.flatMap fun n => n.edges.map (·.target))
      = (r.graph.nodes.flatMap fun n => n.edges.map (·.target)) ++ p.edgeTarget?.toList) :
    Represents (earlier ++ [p]) r' := by
  have hone {α : Type} (f : Placed → Option α) : [p].filterMap f = (f p).toList := by
    cases hf : f p <;> simp [hf]
  refine ⟨h.inOrder.snoc hp, sound, ?_, ?_, ?_, ?_, ?_⟩
  · rw [addresses, h.addresses, declared, declared, List.filterMap_append, hone]
  · rw [owner, h.owner]
    simp [or_imp, forall_and]
  · rw [black, h.blackRoots, List.filterMap_append, hone]
  · rw [gray, h.grayRoots, List.filterMap_append, hone]
  · rw [edges, h.edges, List.filterMap_append, hone]

lemma Represents.enter_root (h : Represents earlier r) (hwithin : r.within = p.within)
    {address color : String} {rest : List String} (within : p.within = some .roots)
    (hwords : p.words = address :: color :: rest) (isAddress : IsAddress address)
    (isColor : IsColor color) :
    ∃ r', r.enter file p.line = .ok r' ∧ r'.within = r.within ∧
      Represents (earlier ++ [p]) r' := by
  obtain ⟨a, c, ha, hc, hread⟩ := readHead_of_isAddress rest isAddress isColor
  have hroot : readRoot p.words = .ok { address := a, color := c, name := Text.unwords rest } := by
    rw [readRoot, hwords, hread]
    rfl
  have hentered := Entered.root (hwithin.trans within) hroot
  have hdeclares : p.declares? = none := Placed.declares?_eq_none (by simp [within])
  have hedge : p.edgeTarget? = none := Placed.edgeTarget?_eq_none (by simp [within])
  have hroots (c' : Color) : p.rootTarget? c' = if c = c' then some a else none := by
    rw [Placed.rootTarget?, Placed.first_of_words hwords, hwords, ha]
    simp [within, hc]
  refine ⟨_, enter_eq_ok_iff.mpr hentered, rfl,
    h.snoc (.root within hwords isAddress isColor) (hentered.sound h.sound) ?_ ?_ ?_ ?_ ?_⟩
  · simp [addRoot, hdeclares]
  · simp [addRoot, Placed.IsNode, within]
  · rw [hroots]
    cases c <;> simp [addRoot, HeapGraph.addRoot]
  · rw [hroots]
    cases c <;> simp [addRoot, HeapGraph.addRoot]
  · simp [addRoot, hedge]

lemma Represents.enter_weakMap (h : Represents earlier r) (hwithin : r.within = p.within)
    (within : p.within = some .weakMaps) :
    ∃ r', r.enter file p.line = .ok r' ∧ r'.within = r.within ∧
      Represents (earlier ++ [p]) r' := by
  have hentered : Entered r p.words _ := .weakMap (hwithin.trans within)
  have hdeclares : p.declares? = none := Placed.declares?_eq_none (by simp [within])
  have hedge : p.edgeTarget? = none := Placed.edgeTarget?_eq_none (by simp [within])
  have hroots (c : Color) : p.rootTarget? c = none :=
    Placed.rootTarget?_eq_none (by simp [within]) c
  refine ⟨_, enter_eq_ok_iff.mpr hentered, rfl,
    h.snoc (.weakMap within) (hentered.sound h.sound) ?_ ?_ ?_ ?_ ?_⟩
  · simp [hdeclares]
  · simp [Placed.IsNode, within]
  · simp [hroots]
  · simp [hroots]
  · simp [hedge]

lemma Represents.enter_edge (h : Represents earlier r) (hwithin : r.within = p.within)
    {target : String} {rest : List String} (within : p.within = some .main)
    (hwords : p.words = edgeMarker :: target :: rest) (isAddress : IsAddress target)
    (owned : ∃ q ∈ earlier, q.IsNode)
    (short : ∀ digits, elementDigits? p.edgeName = some digits →
      digits.length ≤ Failure.maxIndexDigits) :
    ∃ r', r.enter file p.line = .ok r' ∧ r'.within = r.within ∧
      Represents (earlier ++ [p]) r' := by
  obtain ⟨a, ha, hedge⟩ := readEdge_of_isAddress hwords isAddress
  obtain ⟨owner, howner⟩ := h.exists_owner owned
  obtain ⟨label, interner, hintern⟩ := exists_intern r.graph.interner short
  have hentered := Entered.edge (hwithin.trans within) hwords howner hedge hintern
  have hfirst := Placed.first_of_words hwords
  have hdeclares : p.declares? = none := if_neg fun hnode => hnode.2 hfirst
  have hroots (c : Color) : p.rootTarget? c = none :=
    Placed.rootTarget?_eq_none (by simp [within]) c
  have htarget : p.edgeTarget? = some a := by
    rw [Placed.edgeTarget?, if_pos ⟨within, hfirst⟩, hwords]
    exact ha
  obtain ⟨ns, n, hnodes, rfl⟩ := h.sound.exists_last howner
  refine ⟨_, enter_eq_ok_iff.mpr hentered, rfl,
    h.snoc (.edge within hwords isAddress owned) (hentered.sound h.sound) ?_ ?_ ?_ ?_ ?_⟩
  · simp [HeapGraph.withEdge, hdeclares]
  · simp [Placed.IsNode, hfirst, howner]
  · simp [HeapGraph.withEdge, hroots]
  · simp [HeapGraph.withEdge, hroots]
  · rw [HeapGraph.withEdge, h.sound.built.indexed.map_extendEdges hnodes, hnodes, htarget]
    simp

lemma Represents.enter_node (h : Represents earlier r) (hwithin : r.within = p.within)
    {address color tag : String} {details : List String} {kind : Kind}
    (within : p.within = some .main) (hwords : p.words = address :: color :: tag :: details)
    (isAddress : IsAddress address) (isColor : IsColor color)
    (classified : Kind.classify tag (Text.unwords details) none = .ok kind)
    (fresh : ∀ q ∈ earlier, q.IsNode → Address.parse? q.first ≠ Address.parse? address) :
    ∃ r', r.enter file p.line = .ok r' ∧ r'.within = r.within ∧
      Represents (earlier ++ [p]) r' := by
  obtain ⟨a, c, ha, hnode⟩ := readNode_of_isAddress tag details isAddress isColor
  rw [← hwords] at hnode
  have hfirst := Placed.first_of_words hwords
  have hisNode : p.IsNode := Placed.isNode_of_isAddress within (hfirst ▸ isAddress)
  have hfree : r.graph.registry.contains a = false := by
    rw [h.sound.built.indexed.tables.contains_eq_false_iff, h.addresses, declared,
      List.mem_filterMap]
    rintro ⟨q, hq, hdeclares⟩
    rw [Placed.declares?] at hdeclares
    split_ifs at hdeclares with hother
    exact fresh q hq hother (hdeclares.trans ha.symm)
  have hmarker : p.words.head? ≠ some edgeMarker := by
    rw [hwords]
    exact fun heq => hisNode.2 (hfirst.trans (Option.some.inj heq))
  have hentered := Entered.node (hwithin.trans within) hmarker hnode classified hfree
  have hdeclares : p.declares? = some a := by
    rw [Placed.declares?, if_pos hisNode, hfirst, ha]
  have hroots (c : Color) : p.rootTarget? c = none :=
    Placed.rootTarget?_eq_none (by simp [within]) c
  have hedge : p.edgeTarget? = none := if_neg fun hedge => hisNode.2 hedge.2
  refine ⟨_, enter_eq_ok_iff.mpr hentered, rfl,
    h.snoc (.node within hwords isAddress isColor classified fresh) (hentered.sound h.sound)
      ?_ ?_ ?_ ?_ ?_⟩
  · simp [HeapGraph.withNode, hdeclares]
  · simp [hisNode]
  · simp [HeapGraph.withNode, hroots]
  · simp [HeapGraph.withNode, hroots]
  · simp [HeapGraph.withNode, NodeRecord.node, hedge]

variable (file) in
/-- **A record that is in order is entered**, and the reader then represents it as well. -/
lemma Represents.enter (h : Represents earlier r) (hwithin : r.within = p.within)
    (hp : p.Ok earlier)
    (short : p.IsEdge → ∀ digits, elementDigits? p.edgeName = some digits →
      digits.length ≤ Failure.maxIndexDigits) :
    ∃ r', r.enter file p.line = .ok r' ∧ r'.within = r.within ∧
      Represents (earlier ++ [p]) r' := by
  cases hp with
  | root within words isAddress isColor => exact h.enter_root hwithin within words isAddress isColor
  | weakMap within => exact h.enter_weakMap hwithin within
  | edge within words isAddress owned =>
      exact h.enter_edge hwithin within words isAddress owned
        (short ⟨within, Placed.first_of_words words⟩)
  | node within words isAddress isColor classified fresh =>
      exact h.enter_node hwithin within words isAddress isColor classified fresh

lemma enterMain_of_readEdge_eq_error {rest : List String} {problem : LineProblem}
    (hwords : p.words = edgeMarker :: rest) (howner : ∃ owner, r.owner = some owner)
    (hread : readEdge rest = .error problem) :
    r.enterMain file p.line = .error (p.line.malformed file problem) := by
  have hwords' : Text.words p.line.text = edgeMarker :: rest := hwords
  obtain ⟨owner, howner⟩ := howner
  rw [enterMain, hwords']
  simp only [if_true, howner, hread]

lemma enterMain_of_readNode_eq_error {problem : LineProblem} (hnode : p.IsNode)
    (hread : readNode p.words = .error problem) :
    r.enterMain file p.line = .error (p.line.malformed file problem) := by
  obtain ⟨rest, hwords⟩ := p.exists_words
  have hwords' : Text.words p.line.text = p.first :: rest := hwords
  rw [hwords] at hread
  rw [enterMain, hwords']
  simp only [hnode.2, if_false, hread]

lemma enterMain_of_readNode_eq_ok {n : NodeRecord} (hnode : p.IsNode)
    (hread : readNode p.words = .ok n) :
    r.enterMain file p.line = r.addNode n (p.line.location file) := by
  obtain ⟨rest, hwords⟩ := p.exists_words
  have hwords' : Text.words p.line.text = p.first :: rest := hwords
  rw [hwords] at hread
  rw [enterMain, hwords']
  simp only [hnode.2, if_false, hread]

/-- **A record with a fault is refused with that fault.** -/
lemma Represents.refuse (h : Represents earlier r) (hwithin : r.within = p.within)
    {failure : Failure} (hfault : p.Fault file earlier failure) :
    r.enter file p.line = .error failure := by
  have hmain (hp : p.within = some .main) : r.enter file p.line = r.enterMain file p.line := by
    rw [Reader.enter, hwithin.trans hp]
  cases hfault with
  | outsideSection within => rw [Reader.enter, hwithin.trans within]
  | @rootHead problem within head =>
      have hread : readRoot (Text.words p.line.text) = .error problem := by
        rw [readRoot, ← Placed.words, head.readHead]
        rfl
      rw [Reader.enter, hwithin.trans within]
      simp only [hread]
  | noOwner edge unowned =>
      obtain ⟨rest, hwords⟩ := p.exists_words
      have hwords' : Text.words p.line.text = edgeMarker :: rest := edge.2 ▸ hwords
      rw [hmain edge.1, enterMain, hwords']
      simp only [if_true, h.owner.mpr unowned]
  | noTarget within words owned =>
      rw [hmain within]
      exact enterMain_of_readEdge_eq_error words (h.exists_owner owned) rfl
  | badTarget within words owned bad =>
      rw [hmain within]
      refine enterMain_of_readEdge_eq_error words (h.exists_owner owned) ?_
      rw [readEdge, readAddress_of_not_isAddress bad]
      rfl
  | @nodeHead problem node head =>
      have hread : readNode p.words = .error problem := by
        rw [readNode, head.readHead]
        rfl
      rw [hmain node.1, enterMain_of_readNode_eq_error node hread]
  | noTag node words isAddress isColor =>
      obtain ⟨a, c, -, -, hhead⟩ := readHead_of_isAddress [] isAddress isColor
      have hread : readNode p.words = .error (.missingField "type tag") := by
        rw [readNode, words, hhead]
        rfl
      rw [hmain node.1, enterMain_of_readNode_eq_error node hread]
  | @unknownKind address color tag details node words isAddress isColor unknown =>
      obtain ⟨a, c, -, hread⟩ := readNode_of_isAddress tag details isAddress isColor
      rw [← words] at hread
      rw [hmain node.1, enterMain_of_readNode_eq_ok node hread, addNode]
      simp only [Kind.classify_eq_error unknown]
  | @duplicate address color tag details kind a q node words isColor classified spelled before
      other same =>
      obtain ⟨a', c, ha', hread⟩ := readNode_of_isAddress tag details
        (isAddress_iff.mpr ⟨a, spelled⟩) isColor
      obtain rfl := Option.some.inj (ha'.symm.trans spelled)
      rw [← words] at hread
      have htaken : r.graph.registry.contains a' = true := by
        rw [h.sound.built.indexed.tables.contains_eq_true_iff, h.addresses, declared,
          List.mem_filterMap]
        exact ⟨q, before, by rw [Placed.declares?, if_pos other, same]⟩
      have hkind := (Kind.classify_eq_ok_iff none (some (p.line.location file))).mp classified
      have hadd : r.graph.addNode a' c kind (Text.unwords details) (some (p.line.location file))
          = .error (.duplicateAddress a' (some (p.line.location file))) :=
        HeapGraph.addNode_eq_error_iff.mpr ⟨htaken, rfl⟩
      rw [hmain node.1, enterMain_of_readNode_eq_ok node hread, addNode]
      simp only [hkind, hadd]

end Entering

/-- **An element index of too many digits is refused**, even if the record is in order. -/
lemma Represents.refuse_overlong {file : String} {earlier : List Placed} {r : Reader} {p : Placed}
    (h : Represents earlier r) (hwithin : r.within = p.within) (hp : p.Ok earlier) {digits : Nat}
    (overlong : p.Overlong digits) : r.enter file p.line = .error (.indexTooLong digits) := by
  obtain ⟨hedge, hlong, ds, hform, rfl⟩ := overlong
  cases hp with
  | root within _ _ _ => exact absurd (within.symm.trans hedge.1) (by simp)
  | weakMap within => exact absurd (within.symm.trans hedge.1) (by simp)
  | node within words isAddress _ _ _ =>
      exact absurd hedge.2
        (Placed.isNode_of_isAddress within (Placed.first_of_words words ▸ isAddress)).2
  | @edge target rest within words isAddress owned =>
      obtain ⟨a, -, hread⟩ := readEdge_of_isAddress words isAddress
      obtain ⟨owner, howner⟩ := h.exists_owner owned
      have hwords : Text.words p.line.text = edgeMarker :: target :: rest := words
      have hintern : r.graph.interner.intern p.edgeName = .error (.indexTooLong ds.length) := by
        rw [Interner.intern, hform]
        exact if_neg (Nat.not_le.mpr hlong)
      rw [Reader.enter, hwithin.trans within]
      simp only [enterMain, hwords, if_true, howner, hread, addEdge,
        HeapGraph.addEdge_eq_error_iff.mpr hintern]

end Reader

/-! ## Where a reader stops -/

/-- What stops a reader at a record, and the failure that it stops with. -/
inductive Placed.Stops (file : String) (earlier : List Placed) (p : Placed) : Failure → Prop where
  | fault {failure : Failure} (fault : p.Fault file earlier failure) : Stops file earlier p failure
  | overlong {digits : Nat} (ok : p.Ok earlier) (overlong : p.Overlong digits) :
      Stops file earlier p (.indexTooLong digits)

/-- **A reader takes in what is in order and has short indices.** -/
lemma run_of_inOrder (file : String) {records : List Placed} (h : InOrder records)
    (short : ShortIndices records) :
    ∃ r, Progress.run (Reader.enterAt file) {} records = { state := r } ∧
      Reader.Represents records r := by
  induction records using List.reverseRecOn with
  | nil => exact ⟨{}, rfl, Reader.represents_initial⟩
  | append_singleton records p ih =>
      obtain ⟨r, hrun, hr⟩ := ih h.of_append fun q hq => short q (List.mem_append_left _ hq)
      obtain ⟨r', hentered, -, hr'⟩ := (hr.within p.within).enter file rfl (h records p [] rfl)
        (short p (by simp))
      exact ⟨r', Progress.run_append_eq_ok.mpr
        ⟨r, hrun, Progress.run_cons_eq_ok.mpr ⟨r', hentered, rfl⟩⟩, hr'⟩

/-- **A reader stops at the first record that it cannot take in.** -/
lemma failure_of_stops {file : String} {before : List Placed} {p : Placed} {failure : Failure}
    (h : InOrder before) (short : ShortIndices before) (hstop : p.Stops file before failure)
    (after : List Placed) :
    (Progress.run (Reader.enterAt file) {} (before ++ p :: after)).failure = some failure := by
  obtain ⟨r, hrun, hr⟩ := run_of_inOrder file h short
  have hrefused : r.enterAt file p = .error failure := by
    cases hstop with
    | fault hfault => exact (hr.within p.within).refuse rfl hfault
    | overlong hp hlong => exact (hr.within p.within).refuse_overlong rfl hp hlong
  rw [Progress.run_append, hrun, Progress.andThen, Progress.run, hrefused]

/-- Records can be taken in to the end, or there is a first one that cannot. -/
lemma inOrder_or_stops (file : String) (records : List Placed) :
    InOrder records ∧ ShortIndices records ∨
      ∃ before p after failure, records = before ++ p :: after ∧ InOrder before ∧
        ShortIndices before ∧ p.Stops file before failure := by
  induction records using List.reverseRecOn with
  | nil => exact Or.inl ⟨inOrder_nil, by simp [ShortIndices]⟩
  | append_singleton records p ih =>
      rcases ih with ⟨hrecords, short⟩ | ⟨before, q, after, failure, rfl, hbefore, short, hstop⟩
      · rcases p.ok_or_fault file records with hok | ⟨failure, hfault⟩
        · by_cases hlong : ∃ digits, p.Overlong digits
          · obtain ⟨digits, hlong⟩ := hlong
            exact Or.inr ⟨records, p, [], _, rfl, hrecords, short, .overlong hok hlong⟩
          · refine Or.inl ⟨hrecords.snoc hok, fun q hq hedge ds hform => ?_⟩
            rcases List.mem_append.mp hq with hq | hq
            · exact short q hq hedge ds hform
            · obtain rfl := List.mem_singleton.mp hq
              exact Nat.not_lt.mp fun hlt => hlong ⟨ds.length, hedge, hlt, ds, hform, rfl⟩
        · exact Or.inr ⟨records, p, [], failure, rfl, hrecords, short, .fault hfault⟩
      · exact Or.inr ⟨before, q, after ++ [p], failure, by simp, hbefore, short, hstop⟩

/-! ## The first fault -/

section Faults

variable {file : String} {records : List Placed} {failure failure' : Failure}

lemma FirstFault.failure_eq (h : FirstFault file records failure) (short : ShortIndices records) :
    (Progress.run (Reader.enterAt file) {} records).failure = some failure := by
  obtain ⟨before, p, after, rfl, hbefore, hfault⟩ := h
  exact failure_of_stops hbefore (fun q hq => short q (List.mem_append_left _ hq))
    (.fault hfault) after

lemma FirstFault.not_inOrder (h : FirstFault file records failure)
    (short : ShortIndices records) : ¬ InOrder records := by
  intro hall
  have hstopped := h.failure_eq short
  obtain ⟨r, hrun, -⟩ := run_of_inOrder file hall short
  rw [hrun] at hstopped
  cases hstopped

/-- **There is only one first fault**, for a reader stops once. -/
lemma FirstFault.unique (h : FirstFault file records failure)
    (h' : FirstFault file records failure') (short : ShortIndices records) :
    failure = failure' :=
  Option.some.inj ((h.failure_eq short).symm.trans (h'.failure_eq short))

end Faults

/-! ## Whole logs -/

/-- **A reader goes through the records** until one has a fault; if none has, it represents all. -/
lemma represents_or_firstFault (file : String) {records : List Placed}
    (short : ShortIndices records) :
    (∃ r, Progress.run (Reader.enterAt file) {} records = { state := r } ∧
        Reader.Represents records r) ∨
      ∃ failure, FirstFault file records failure ∧
        (Progress.run (Reader.enterAt file) {} records).failure = some failure := by
  rcases inOrder_or_stops file records with
    ⟨hrecords, -⟩ | ⟨before, p, after, failure, rfl, hbefore, hshort, hstop⟩
  · exact Or.inl (run_of_inOrder file hrecords short)
  · refine Or.inr ⟨failure, ?_, failure_of_stops hbefore hshort hstop after⟩
    cases hstop with
    | fault hfault => exact ⟨before, p, after, rfl, hbefore, hfault⟩
    | overlong _ hlong =>
        obtain ⟨hedge, hlt, ds, hform, rfl⟩ := hlong
        exact absurd (short p (by simp) hedge ds hform) (Nat.not_le.mpr hlt)

/-- The references of a reader's graph are those of the records. -/
lemma Reader.Represents.references_eq {records : List Placed} {r : Reader}
    (h : Represents records r) : r.graph.references = references records := by
  rw [references, ← h.blackRoots, ← h.grayRoots, ← h.edges, HeapGraph.references, HeapGraph.roots]
  simp [List.map_flatMap, Function.comp_def]

/-- The addresses that a reader knows are those that the records declare. -/
lemma Reader.Represents.contains_iff {records : List Placed} {r : Reader}
    (h : Represents records r) {a : Address} :
    r.graph.registry.contains a = true ↔ a ∈ declared records := by
  rw [h.sound.built.indexed.tables.contains_eq_true_iff, h.addresses]

lemma Reader.Represents.dangling?_eq_none_iff {records : List Placed} {r : Reader}
    (h : Represents records r) :
    r.graph.dangling? = none ↔ ∀ ref ∈ references records, ref.1 ∈ declared records := by
  simp [HeapGraph.dangling?, h.references_eq, h.contains_iff]

/-- The reference that a reader reports is the first dangling one. -/
lemma Reader.Represents.firstDangling_iff {records : List Placed} {r : Reader}
    (h : Represents records r) {failure : Failure} :
    FirstDangling records failure ↔ r.graph.dangling?.map .fault = some failure := by
  have hmissing (ref : Address × String) :
      (!r.graph.registry.contains ref.1) = true ↔ ref.1 ∉ declared records := by
    rw [← h.contains_iff, Bool.not_eq_true', Bool.not_eq_true]
  have hthere (ref : Address × String) :
      (!(!r.graph.registry.contains ref.1)) = true ↔ ref.1 ∈ declared records := by
    rw [Bool.not_not, h.contains_iff]
  rw [HeapGraph.dangling?, h.references_eq, Option.map_map, Option.map_eq_some_iff]
  constructor
  · rintro ⟨before, a, context, after, hrefs, hbefore, hbad, rfl⟩
    refine ⟨(a, context), List.find?_eq_some_iff_append.mpr ?_, rfl⟩
    exact ⟨(hmissing (a, context)).mpr hbad, before, after, hrefs,
      fun ref href => (hthere ref).mpr (hbefore ref href)⟩
  · rintro ⟨⟨a, context⟩, hfind, rfl⟩
    obtain ⟨hbad, before, after, hrefs, hbefore⟩ := List.find?_eq_some_iff_append.mp hfind
    exact ⟨before, a, context, after, hrefs, fun ref href => (hthere ref).mp (hbefore ref href),
      (hmissing (a, context)).mp hbad, rfl⟩

/-- **A log is accepted exactly if it follows the grammar, and else its first fault is reported.**
Records are read in their order; a reference to an address that is never declared is reported only
if all records are in order. -/
theorem parse_follows_grammar (file text : String) (short : ShortIndices (outline text)) :
    ((∃ g, parse file text = .ok g) ↔
      InOrder (outline text) ∧
        ∀ ref ∈ references (outline text), ref.1 ∈ declared (outline text)) ∧
    ∀ failure, parse file text = .error failure ↔
      FirstFault file (outline text) failure ∨
        InOrder (outline text) ∧ FirstDangling (outline text) failure := by
  rcases represents_or_firstFault file short with ⟨r, hrun, hr⟩ | ⟨first, hfirst, hrun⟩
  · -- every record is taken in, so the references decide
    have hnofault : ∀ failure, ¬ FirstFault file (outline text) failure :=
      fun failure hfault => hfault.not_inOrder short hr.inOrder
    rw [parse_of_run hrun, ← hr.dangling?_eq_none_iff]
    constructor
    · cases hd : r.graph.dangling? with
      | none => simp [hr.inOrder]
      | some fault => simp
    · intro failure
      rw [hr.firstDangling_iff]
      cases hd : r.graph.dangling? with
      | none => simp [hnofault]
      | some fault => simp [hnofault, hr.inOrder]
  · -- the reader stops at the first fault
    have hfaulty : ¬ InOrder (outline text) := hfirst.not_inOrder short
    rw [parse_of_failure hrun]
    constructor
    · simp [hfaulty]
    · intro failure
      constructor
      · intro heq
        obtain rfl := Except.error.inj heq
        exact Or.inl hfirst
      · rintro (hfirst' | ⟨hinOrder, -⟩)
        · rw [hfirst.unique hfirst' short]
        · exact absurd hinOrder hfaulty

/-- A log whose sections interleave and in which one edge leads nowhere. -/
def interleavedLog : String :=
  "==========\n0x1 B shape\n> 0x1 B a\n# Roots.\n0x01 G r\n==========\n> 0x3 B b"

/-- Its records are in order, so the edge is what is reported. -/
theorem interleavedLog_reported :
    ShortIndices (outline interleavedLog) ∧
      parse "heap.log" interleavedLog = .error (.fault (.unresolvedAddress 0x3 "edge" none)) ∧
      InOrder (outline interleavedLog) ∧
      FirstDangling (outline interleavedLog)
        (.fault (.unresolvedAddress 0x3 "edge" none)) := by
  have short : ShortIndices (outline interleavedLog) :=
    shortIndices_of_all (by decide +kernel)
  have hparse : parse "heap.log" interleavedLog
      = .error (.fault (.unresolvedAddress 0x3 "edge" none)) := by decide +kernel
  rcases ((parse_follows_grammar "heap.log" interleavedLog short).2 _).mp hparse with hfault | h
  · obtain ⟨before, p, after, -, -, hfault⟩ := hfault
    cases hfault
  · exact ⟨short, hparse, h⟩

end HeapReplay.Dump
