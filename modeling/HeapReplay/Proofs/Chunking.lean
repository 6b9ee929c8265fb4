import HeapReplay.Proofs.Garbage

/-!
# Logs that come in pieces

A reader remembers across the end of a text all that it needs, so a log may be handed over in
pieces, cut at any newline: between a node and its edges, inside a section of weak maps, or between
a reference and the node that it refers to.

**The pieces make the whole** (`read_append_newline`).  If the first piece is read to its end, then
reading the next one does what reading both at once would have done.  Addresses that only the next
piece declares do no harm, though they make the first piece fail, for their check changes nothing.
If a line of the first piece is refused, the next piece does not matter.

**Lines are counted within a piece.**  A failure in a later piece is therefore reported too high up,
by as many lines as the pieces before it have; `Failure.below` moves it down.  Where a line stands
has no other effect (`step_below`), and a line is never refused for an address without a node
(`refused_of_step`), so the two kinds of failure cannot be taken for each other.
-/

namespace HeapReplay

/-! ## Moving down -/

/-- The position so many lines further down. -/
def Location.below (k : Nat) (location : Location) : Location :=
  { location with line := location.line + k }

namespace Fault

/-- The same fault, met so many lines further down. -/
def below (k : Nat) : Fault → Fault
  | malformed problem location line => malformed problem (location.map (Location.below k)) line
  | unknownKind tag details location => unknownKind tag details (location.map (Location.below k))
  | duplicateAddress address location => duplicateAddress address (location.map (Location.below k))
  | unresolvedAddress address context location =>
    unresolvedAddress address context (location.map (Location.below k))

/-- **A fault further down is reported as it was, but for its location.** -/
theorem diagnostic_below (k : Nat) (f : Fault) :
    (f.below k).diagnostic
      = { f.diagnostic with location := f.diagnostic.location.map (Location.below k) } := by
  cases f <;> rfl

end Fault

namespace Failure

/-- The same failure, met so many lines further down. -/
def below (k : Nat) : Failure → Failure
  | fault f => fault (f.below k)
  | f => f

/-- Whether the failure is about an address that names no node. -/
def isUnresolved : Failure → Bool
  | fault (.unresolvedAddress ..) => true
  | _ => false

end Failure

namespace Progress

variable {σ ε α : Type}

/-- The same progress with another account of what stopped it. -/
def mapFailure (g : ε → ε) (p : Progress σ ε) : Progress σ ε :=
  { p with failure := p.failure.map g }

/-- A run over items that are refused for other reasons, but taken in as before, gets as far. -/
lemma run_map {step : σ → α → Except ε σ} {f : α → α} {g : ε → ε}
    (h : ∀ s a, step s (f a) = (step s a).mapError g) (s : σ) (xs : List α) :
    run step s (xs.map f) = (run step s xs).mapFailure g := by
  induction xs generalizing s with
  | nil => rfl
  | cons x xs ih =>
      simp only [List.map_cons, run, h]
      cases step s x with
      | ok s' => exact ih s'
      | error e => rfl

/-- A change of the account can wait until the run has gone on. -/
lemma mapFailure_andThen {g : ε → ε} {next : σ → Progress σ ε}
    (h : ∀ s, (next s).mapFailure g = next s) (p : Progress σ ε) :
    (p.mapFailure g).andThen next = (p.andThen next).mapFailure g := by
  obtain ⟨s, failure⟩ := p
  cases failure with
  | none => exact (h s).symm
  | some e => rfl

end Progress

/-! ## Refusals further down -/

lemma Kind.classify_below (k : Nat) (tag details : String) (location : Location) :
    classify tag details (some (location.below k))
      = (classify tag details (some location)).mapError (Fault.below k) := by
  simp only [classify]
  split
  · rfl
  · split_ifs <;> rfl

lemma HeapGraph.addNode_below (k : Nat) (g : HeapGraph) (address : Address) (color : Color)
    (kind : Kind) (details : String) (location : Location) :
    g.addNode address color kind details (some (location.below k))
      = (g.addNode address color kind details (some location)).mapError (Fault.below k) := by
  simp only [addNode, Registry.register]
  split_ifs <;> rfl

/-- A name without a label is refused wherever it stands. -/
lemma Interner.eq_of_intern_eq_error {t : Interner} {name : String} {f : Failure}
    (h : t.intern name = .error f) : ∃ digits, f = .indexTooLong digits := by
  rw [intern] at h
  split at h
  · rename_i digits _
    split_ifs at h
    exact ⟨digits.length, (Except.error.inj h).symm⟩
  · cases h

namespace Dump

namespace Line

/-- The line so many lines further down. -/
def below (k : Nat) (l : Line) : Line :=
  { l with number := l.number + k }

lemma location_below (file : String) (k : Nat) (l : Line) :
    (l.below k).location file = (l.location file).below k := by
  simp [below, location, Location.below]

lemma malformed_below (file : String) (k : Nat) (l : Line) (problem : LineProblem) :
    (l.below k).malformed file problem = (l.malformed file problem).below k := by
  rw [malformed, location_below]
  rfl

end Line

/-- What a line can be refused for: for its text, or for the kind, the address or the name of what
it would add. -/
inductive Refused (file : String) (l : Line) : Failure → Prop where
  | malformed (problem : LineProblem) : Refused file l (l.malformed file problem)
  | unknownKind (tag details : String) :
      Refused file l (.fault (.unknownKind tag details (some (l.location file))))
  | duplicateAddress (address : Address) :
      Refused file l (.fault (.duplicateAddress address (some (l.location file))))
  | indexTooLong (digits : Nat) : Refused file l (.indexTooLong digits)

/-- A line is not refused for an address without a node. -/
lemma Refused.not_unresolved {file : String} {l : Line} {f : Failure} (h : Refused file l f) :
    f.isUnresolved = false := by
  cases h <;> rfl

namespace Reader

variable {file : String} {r : Reader} {l : Line}

lemma addNode_below (k : Nat) (r : Reader) (n : NodeRecord) (location : Location) :
    r.addNode n (location.below k) = (r.addNode n location).mapError (Failure.below k) := by
  rw [addNode, addNode, Kind.classify_below]
  cases Kind.classify n.tag n.details (some location) with
  | error fault => rfl
  | ok kind =>
      simp only [Except.mapError, HeapGraph.addNode_below]
      cases r.graph.addNode n.address n.color kind n.details (some location) <;> rfl

lemma refused_of_addNode {n : NodeRecord} {f : Failure}
    (h : r.addNode n (l.location file) = .error f) : Refused file l f := by
  rw [addNode] at h
  split at h
  · rename_i fault hkind
    obtain rfl := Except.error.inj h
    have hnone : ∀ kind, Kind.classify n.tag n.details none ≠ .ok kind := by
      intro kind hok
      rw [Kind.classify_eq_ok_iff none (some (l.location file)), hkind] at hok
      cases hok
    rw [Kind.classify_eq_error hnone] at hkind
    obtain rfl := Except.error.inj hkind
    exact .unknownKind n.tag n.details
  · split at h
    · rename_i fault hadd
      obtain rfl := Except.error.inj h
      obtain ⟨-, rfl⟩ := HeapGraph.addNode_eq_error_iff.mp hadd
      exact .duplicateAddress n.address
    · cases h

lemma exists_of_addEdge_eq_error {owner : Nat} {e : EdgeRecord} {f : Failure}
    (h : r.addEdge owner e = .error f) : ∃ digits, f = .indexTooLong digits := by
  rw [addEdge] at h
  split at h
  · rename_i failure hadd
    obtain rfl := Except.error.inj h
    exact Interner.eq_of_intern_eq_error (HeapGraph.addEdge_eq_error_iff.mp hadd)
  · cases h

lemma addEdge_below (k : Nat) (r : Reader) (owner : Nat) (e : EdgeRecord) :
    r.addEdge owner e = (r.addEdge owner e).mapError (Failure.below k) := by
  cases h : r.addEdge owner e with
  | ok r' => rfl
  | error f =>
      obtain ⟨digits, rfl⟩ := exists_of_addEdge_eq_error h
      rfl

lemma enterMain_below (file : String) (k : Nat) (r : Reader) (l : Line) :
    r.enterMain file (l.below k) = (r.enterMain file l).mapError (Failure.below k) := by
  have htext : (l.below k).text = l.text := rfl
  simp only [enterMain, htext, Line.malformed_below, Line.location_below]
  cases Text.words l.text with
  | nil => rfl
  | cons first rest =>
      by_cases hfirst : first = edgeMarker
      · simp only [if_pos hfirst]
        cases r.owner with
        | none => rfl
        | some owner =>
            cases readEdge rest with
            | error problem => rfl
            | ok e => exact addEdge_below k r owner e
      · simp only [if_neg hfirst]
        cases readNode (first :: rest) with
        | error problem => rfl
        | ok n => exact addNode_below k r n (l.location file)

lemma enter_below (file : String) (k : Nat) (r : Reader) (l : Line) :
    r.enter file (l.below k) = (r.enter file l).mapError (Failure.below k) := by
  have htext : (l.below k).text = l.text := rfl
  simp only [enter, htext, Line.malformed_below]
  cases r.within with
  | none => rfl
  | some s =>
      cases s with
      | roots => cases readRoot (Text.words l.text) <;> rfl
      | weakMaps => rfl
      | main => exact enterMain_below file k r l

/-- **Where a line stands matters to its refusal only**, and to that only for the location. -/
lemma step_below (file : String) (k : Nat) (r : Reader) (l : Line) :
    step file r (l.below k) = (step file r l).mapError (Failure.below k) := by
  have hentry : (l.below k).entry = l.entry := rfl
  simp only [step, hentry]
  cases l.entry with
  | header opened => rfl
  | comment => rfl
  | trailer => rfl
  | record => exact enter_below file k r l

lemma refused_of_enterMain {f : Failure} (h : r.enterMain file l = .error f) :
    Refused file l f := by
  rw [enterMain] at h
  cases hwords : Text.words l.text with
  | nil => exact absurd hwords (words_ne_nil l.text)
  | cons first rest =>
      simp only [hwords] at h
      split_ifs at h with hfirst
      · split at h
        · exact Except.error.inj h ▸ .malformed _
        · split at h
          · exact Except.error.inj h ▸ .malformed _
          · obtain ⟨digits, rfl⟩ := exists_of_addEdge_eq_error h
            exact .indexTooLong digits
      · split at h
        · exact Except.error.inj h ▸ .malformed _
        · exact refused_of_addNode h

/-- **A line is refused for one of four reasons**, and a refusal that names a place names the place
of the line. -/
lemma refused_of_step {f : Failure} (h : step file r l = .error f) : Refused file l f := by
  rw [step] at h
  split at h
  · cases h
  · cases h
  · cases h
  · rw [enter] at h
    split at h
    · exact Except.error.inj h ▸ .malformed _
    · split at h
      · exact Except.error.inj h ▸ .malformed _
      · cases h
    · cases h
    · exact refused_of_enterMain h

/-- The check of the references says nothing of lines. -/
lemma mapFailure_checkReferences (k : Nat) (r : Reader) :
    r.checkReferences.mapFailure (Failure.below k) = r.checkReferences := by
  simp only [checkReferences, Progress.mapFailure, HeapGraph.dangling?, Option.map_map]
  rfl

lemma isUnresolved_of_checkReferences {f : Failure} (h : f ∈ r.checkReferences.failure) :
    f.isUnresolved = true := by
  simp only [checkReferences, HeapGraph.dangling?, Option.map_map, Option.mem_def,
    Option.map_eq_some_iff] at h
  obtain ⟨reference, -, rfl⟩ := h
  rfl

/-- What stops a run over lines is a refusal of one of them. -/
lemma refused_of_run {ls : List Line} {f : Failure}
    (h : f ∈ (Progress.run (step file) r ls).failure) : ∃ l ∈ ls, Refused file l f := by
  induction ls generalizing r with
  | nil => cases h
  | cons l ls ih =>
      rw [Progress.run] at h
      cases hstep : step file r l with
      | ok next =>
          rw [hstep] at h
          obtain ⟨l', hl', hrefused⟩ := ih h
          exact ⟨l', List.mem_cons_of_mem l hl', hrefused⟩
      | error e =>
          rw [hstep] at h
          obtain rfl := Option.mem_some.mp h
          exact ⟨l, List.mem_cons_self, refused_of_step hstep⟩

/-- **A text is read to its end, or else one of its lines is refused**: the check at the end fails
for an address without a node, and no line does. -/
lemma read_cases (file text : String) (r : Reader) :
    (∃ s, Progress.run (step file) r (body text) = { state := s } ∧
      r.read file text = s.checkReferences ∧
      ∀ f ∈ (r.read file text).failure, f.isUnresolved = true) ∨
    ∃ l ∈ body text, ∃ f, Refused file l f ∧ (r.read file text).failure = some f ∧
      Progress.run (step file) r (body text) = r.read file text := by
  cases hrun : Progress.run (step file) r (body text) with
  | mk s failure =>
      cases failure with
      | none =>
          have hread : r.read file text = s.checkReferences := by
            rw [read, hrun]
            rfl
          exact Or.inl ⟨s, rfl, hread, fun f hf => isUnresolved_of_checkReferences (hread ▸ hf)⟩
      | some f =>
          have hread : r.read file text = { state := s, failure := some f } := by
            rw [read, hrun]
            rfl
          have hf : f ∈ (Progress.run (step file) r (body text)).failure := by
            rw [hrun]
            rfl
          obtain ⟨l, hl, hrefused⟩ := refused_of_run hf
          exact Or.inr ⟨l, hl, f, hrefused, by rw [hread], hread.symm⟩

end Reader

/-! ## Two pieces -/

/-- The lines of the second piece stand below those of the first. -/
lemma numberedLines_append_newline (text rest : String) :
    numberedLines (text ++ "\n" ++ rest)
      = numberedLines text ++ (numberedLines rest).map (Line.below (Text.lines text).length) := by
  rw [numberedLines, Text.lines_append_newline, List.zipIdx_append, List.filterMap_append,
    Nat.add_comm 1, ← List.map_snd_add_zipIdx_eq_zipIdx, List.filterMap_map, numberedLines,
    numberedLines, List.map_filterMap]
  congr 1
  refine List.filterMap_congr fun p _ => ?_
  by_cases hempty : p.1 = "" <;> simp [hempty, Line.below]

/-- What is read of two pieces, if the first one has no trailer. -/
lemma body_append_newline {text : String} (untrailed : "\x7b" ∉ Text.lines text) (rest : String) :
    body (text ++ "\n" ++ rest)
      = body text ++ (body rest).map (Line.below (Text.lines text).length) := by
  rw [body, numberedLines_append_newline, takeWhile_untrailed_append untrailed,
    body_of_untrailed untrailed, List.takeWhile_map]
  rfl

/-- What is read of the first piece is read in any case. -/
lemma exists_body_append_newline (text rest : String) :
    ∃ ls, body (text ++ "\n" ++ rest) = body text ++ ls := by
  rw [body, numberedLines_append_newline, List.takeWhile_append]
  split_ifs with hall
  · have hself : body text = numberedLines text :=
      (List.takeWhile_prefix fun l : Line => decide (l.entry ≠ .trailer)).eq_of_length hall
    exact ⟨_, by rw [hself]⟩
  · exact ⟨[], (List.append_nil _).symm⟩

/-- A reader that has read the first piece to its end reads the second one as if it stood below. -/
lemma Reader.read_append_of_run {file text : String} {r s : Reader}
    (untrailed : "\x7b" ∉ Text.lines text)
    (hrun : Progress.run (step file) r (body text) = { state := s }) (rest : String) :
    r.read file (text ++ "\n" ++ rest)
      = (s.read file rest).mapFailure (Failure.below (Text.lines text).length) := by
  have hbelow := Progress.run_map (step_below file (Text.lines text).length) s (body rest)
  rw [read, body_append_newline untrailed, Progress.run_append, hrun]
  calc (Progress.run (step file) s ((body rest).map (Line.below (Text.lines text).length))).andThen
        checkReferences
    _ = ((Progress.run (step file) s (body rest)).mapFailure
          (Failure.below (Text.lines text).length)).andThen checkReferences := by rw [hbelow]
    _ = (s.read file rest).mapFailure (Failure.below (Text.lines text).length) :=
        Progress.mapFailure_andThen (mapFailure_checkReferences _) _

/-- A reader that was stopped by a line of the first piece does not come to the second one. -/
lemma Reader.read_append_of_refused {file text : String} {r : Reader} {f : Failure}
    (hfailure : (r.read file text).failure = some f)
    (hrun : Progress.run (step file) r (body text) = r.read file text) (rest : String) :
    r.read file (text ++ "\n" ++ rest) = r.read file text := by
  obtain ⟨ls, hbody⟩ := exists_body_append_newline text rest
  have hstop : ∀ next, (r.read file text).andThen next = r.read file text := fun next => by
    rw [Progress.andThen, hfailure]
  rw [read, hbody, Progress.run_append, hrun, hstop, hstop]

/-- **Reading in pieces is reading at once.**  Whatever the reader has seen before, a first piece
without trailer, of which no line is refused, can be followed by another one: the reader ends up
where it would have ended up with both at once, and with the same failure, but for the line that is
counted from the start of the piece.  If a line of the first piece is refused, then both at once
fail like it. -/
theorem read_append_newline (file text rest : String) (r : Reader) :
    ("\x7b" ∉ Text.lines text → (∀ f ∈ (r.read file text).failure, f.isUnresolved = true) →
      r.read file (text ++ "\n" ++ rest)
        = ((r.read file text).state.read file rest).mapFailure
            (Failure.below (Text.lines text).length)) ∧
    ((∃ f ∈ (r.read file text).failure, f.isUnresolved = false) →
      r.read file (text ++ "\n" ++ rest) = r.read file text) := by
  rcases Reader.read_cases file text r with
    ⟨s, hrun, hread, hunresolved⟩ | ⟨l, -, f, hrefused, hfailure, hrun⟩
  · refine ⟨fun untrailed _ => ?_, fun ⟨f, hf, hresolved⟩ => ?_⟩
    · rw [hread]
      exact Reader.read_append_of_run untrailed hrun rest
    · rw [hunresolved f hf] at hresolved
      cases hresolved
  · refine ⟨fun _ hunresolved => ?_, fun _ => Reader.read_append_of_refused hfailure hrun rest⟩
    have hf := hunresolved f hfailure
    rw [hrefused.not_unresolved] at hf
    cases hf

/-- A log that ends between a reference and the node that it refers to. -/
def firstPiece : String :=
  "==========\n0x1 B scope\n> 0x2 B next"

/-- It goes on with a further edge of the same node; its last line is refused. -/
def secondPiece : String :=
  "> 0x1 B self\n0x2 B string\n0x2 B string"

/-- The line that is refused is the third of its piece and the sixth of the whole; nothing behind it
is read. -/
theorem firstPiece_continued :
    "\x7b" ∉ Text.lines firstPiece ∧
      (Reader.read "heap.log" firstPiece {}).failure
        = some (.fault (.unresolvedAddress 2 "edge" none)) ∧
      ((Reader.read "heap.log" firstPiece {}).state.read "heap.log" secondPiece).failure
        = some (.fault (.duplicateAddress 2 (some { file := "heap.log", line := 3 }))) ∧
      (Reader.read "heap.log" (firstPiece ++ "\n" ++ secondPiece) {}).failure
        = some (.fault (.duplicateAddress 2 (some { file := "heap.log", line := 6 }))) ∧
      Reader.read "heap.log" (firstPiece ++ "\n" ++ secondPiece ++ "\n" ++ "# Roots.") {}
        = Reader.read "heap.log" (firstPiece ++ "\n" ++ secondPiece) {} := by
  have untrailed : "\x7b" ∉ Text.lines firstPiece := by decide +kernel
  have first : (Reader.read "heap.log" firstPiece {}).failure
      = some (.fault (.unresolvedAddress 2 "edge" none)) := by
    decide +kernel
  have second : ((Reader.read "heap.log" firstPiece {}).state.read "heap.log" secondPiece).failure
      = some (.fault (.duplicateAddress 2 (some { file := "heap.log", line := 3 }))) := by
    decide +kernel
  have length : (Text.lines firstPiece).length = 3 := by decide +kernel
  have unresolved : ∀ f ∈ (Reader.read "heap.log" firstPiece {}).failure,
      f.isUnresolved = true := by
    rw [first]
    rintro f ⟨⟩
    rfl
  have whole := (read_append_newline "heap.log" firstPiece secondPiece {}).1 untrailed unresolved
  have failure : (Reader.read "heap.log" (firstPiece ++ "\n" ++ secondPiece) {}).failure
      = some (.fault (.duplicateAddress 2 (some { file := "heap.log", line := 6 }))) := by
    rw [whole, Progress.mapFailure, second, length]
    rfl
  exact ⟨untrailed, first, second, failure,
    (read_append_newline "heap.log" (firstPiece ++ "\n" ++ secondPiece) "# Roots." {}).2
      ⟨_, failure, rfl⟩⟩

end Dump

end HeapReplay
