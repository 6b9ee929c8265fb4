import HeapReplay.Dump.Outline
import HeapReplay.Proofs.ReaderSteps
import Mathlib.Data.List.Induction

/-!
# Reading the outline

What a reader makes of a log depends on the outline of the log alone: instead of going through the
lines it may **enter the records one by one, each in the section that it stands in**
(`parse_eq_outline`).  Headers, comments, empty lines and the trailer are dealt with here, once; what
is proved of whole logs afterwards is proved by induction on their records.
-/

namespace HeapReplay.Dump

/-- A record stands on a line in front of the trailer. -/
lemma line_mem_of_mem_outlineFrom {p : Placed} {within : Option Section} {ls : List Line}
    (h : p ∈ outlineFrom within ls) : p.line ∈ ls.takeWhile (·.entry ≠ .trailer) := by
  induction ls generalizing within with
  | nil => cases h
  | cons l ls ih =>
      rw [outlineFrom] at h
      cases hentry : l.entry with
      | trailer =>
          rw [hentry] at h
          cases h
      | header opened =>
          rw [hentry] at h
          rw [List.takeWhile_cons_of_pos (by simp [hentry])]
          exact List.mem_cons_of_mem _ (ih h)
      | comment =>
          rw [hentry] at h
          rw [List.takeWhile_cons_of_pos (by simp [hentry])]
          exact List.mem_cons_of_mem _ (ih h)
      | record =>
          rw [hentry] at h
          rw [List.takeWhile_cons_of_pos (by simp [hentry])]
          rcases List.mem_cons.mp h with rfl | h
          · exact List.mem_cons_self
          · exact List.mem_cons_of_mem _ (ih h)

namespace Reader

/-- Enters a record in the section that it stands in. -/
def enterAt (file : String) (r : Reader) (p : Placed) : Except Failure Reader :=
  { r with within := p.within }.enter file p.line

/-- The section of a record plays no part in whether a reader is sound. -/
lemma sound_run_enterAt (file : String) (records : List Placed) :
    (Progress.run (enterAt file) {} records).state.Sound :=
  Progress.run_induction sound_initial fun _ _ _ _ hs hstep =>
    (enter_eq_ok_iff.mp hstep).sound ⟨hs.built, hs.owner⟩

/-- **What every record keeps holds of all records that a reader has taken in.** -/
lemma run_enterAt_induction {file : String} {motive : List Placed → Reader → Prop}
    (nil : motive [] {})
    (snoc : ∀ {records r p r'}, motive records r → r.Sound → enterAt file r p = .ok r' →
      motive (records ++ [p]) r')
    {records : List Placed} {r : Reader}
    (h : Progress.run (enterAt file) {} records = { state := r }) : motive records r := by
  induction records using List.reverseRecOn generalizing r with
  | nil =>
      obtain rfl : {} = r := congrArg Progress.state h
      exact nil
  | append_singleton records p ih =>
      obtain ⟨before, hbefore, hlast⟩ := Progress.run_append_eq_ok.mp h
      obtain ⟨after, hentered, hnil⟩ := Progress.run_cons_eq_ok.mp hlast
      obtain rfl : after = r := congrArg Progress.state hnil
      have sound := sound_run_enterAt file records
      rw [hbefore] at sound
      exact snoc (ih hbefore) sound hentered

/-- The section that a reader comes from matters only if there are no records. -/
lemma exists_run_enterAt_within (file : String) (r : Reader) (s : Option Section)
    (records : List Placed) :
    ∃ s', Progress.run (enterAt file) { r with within := s } records =
      { state := { (Progress.run (enterAt file) r records).state with within := s' }
        failure := (Progress.run (enterAt file) r records).failure } := by
  cases records with
  | nil => exact ⟨s, rfl⟩
  | cons p records =>
      have hsame : enterAt file { r with within := s } p = enterAt file r p := rfl
      rw [Progress.run, Progress.run, hsame]
      cases enterAt file r p with
      | error failure => exact ⟨s, rfl⟩
      | ok next => exact ⟨_, rfl⟩

/-- **Going through lines is entering their records**, but for the section at the end. -/
lemma exists_run_step (file : String) (r : Reader) (ls : List Line) :
    ∃ s, Progress.run (step file) r (ls.takeWhile (·.entry ≠ .trailer)) =
      { state := { (Progress.run (enterAt file) r (outlineFrom r.within ls)).state with within := s }
        failure := (Progress.run (enterAt file) r (outlineFrom r.within ls)).failure } := by
  induction ls generalizing r with
  | nil => exact ⟨r.within, rfl⟩
  | cons l ls ih =>
      cases hentry : l.entry with
      | header opened =>
          have hstep : r.step file l = .ok { r with within := some opened } := by
            rw [step, hentry]
          have hrecords : outlineFrom r.within (l :: ls) = outlineFrom (some opened) ls := by
            rw [outlineFrom, hentry]
          -- the lines do this from the section that was opened, the records from wherever
          obtain ⟨s, hs⟩ := ih { r with within := some opened }
          obtain ⟨s', hs'⟩ := exists_run_enterAt_within file r (some opened)
            (outlineFrom (some opened) ls)
          rw [hs'] at hs
          rw [List.takeWhile_cons_of_pos (by simp [hentry]), Progress.run, hstep, hrecords]
          exact ⟨s, hs⟩
      | comment =>
          have hstep : r.step file l = .ok r := by rw [step, hentry]
          rw [List.takeWhile_cons_of_pos (by simp [hentry]), Progress.run, hstep, outlineFrom,
            hentry]
          exact ih r
      | trailer =>
          rw [List.takeWhile_cons_of_neg (by simp [hentry]), outlineFrom, hentry]
          exact ⟨r.within, rfl⟩
      | record =>
          have hstep : r.step file l = r.enter file l := by rw [step, hentry]
          have henter : enterAt file r { within := r.within, line := l } = r.enter file l := rfl
          rw [List.takeWhile_cons_of_pos (by simp [hentry]), Progress.run, hstep, outlineFrom,
            hentry, Progress.run, henter]
          cases hentered : r.enter file l with
          | error failure => exact ⟨r.within, rfl⟩
          | ok next =>
              have hwithin : next.within = r.within := by
                cases enter_eq_ok_iff.mp hentered <;> rfl
              exact hwithin ▸ ih next

end Reader

/-- **A log is read by entering its records**, and checking their references in the end. -/
theorem parse_eq_outline (file text : String) :
    parse file text = ((Progress.run (Reader.enterAt file) {} (outline text)).andThen
      Reader.checkReferences).toExcept.map (·.graph) := by
  obtain ⟨s, hs⟩ := Reader.exists_run_step file {} (numberedLines text)
  rw [parse, Reader.read, body, hs, outline]
  obtain ⟨r, failure⟩ :=
    Progress.run (Reader.enterAt file) {} (outlineFrom none (numberedLines text))
  cases failure with
  | some f => rfl
  | none =>
      simp only [Progress.andThen, Reader.checkReferences, Progress.toExcept]
      cases r.graph.dangling? <;> rfl

/-- A log is accepted if all its records are and its references lead somewhere. -/
lemma parse_eq_ok_iff_outline {file text : String} {g : HeapGraph} :
    parse file text = .ok g ↔
      ∃ r, Progress.run (Reader.enterAt file) {} (outline text) = { state := r } ∧
        r.graph.dangling? = none ∧ r.graph = g := by
  rw [parse_eq_outline]
  exact Reader.finish_eq_ok_iff

/-- A log is refused with what its reader stops at, or with a reference that leads nowhere. -/
lemma parse_eq_error_iff_outline {file text : String} {f : Failure} :
    parse file text = .error f ↔
      (Progress.run (Reader.enterAt file) {} (outline text)).failure = some f ∨
        ∃ r fault, Progress.run (Reader.enterAt file) {} (outline text) = { state := r } ∧
          r.graph.dangling? = some fault ∧ f = .fault fault := by
  rw [parse_eq_outline]
  exact Reader.finish_eq_error_iff

/-- A log is refused with what its reader stops at. -/
lemma parse_of_failure {file text : String} {f : Failure}
    (h : (Progress.run (Reader.enterAt file) {} (outline text)).failure = some f) :
    parse file text = .error f :=
  parse_eq_error_iff_outline.mpr (Or.inl h)

/-- If no record stops the reader, only the references matter. -/
lemma parse_of_run {file text : String} {r : Reader}
    (h : Progress.run (Reader.enterAt file) {} (outline text) = { state := r }) :
    parse file text =
      match r.graph.dangling? with
      | none => .ok r.graph
      | some fault => .error (.fault fault) := by
  cases hd : r.graph.dangling? with
  | none => exact parse_eq_ok_iff_outline.mpr ⟨r, h, hd, rfl⟩
  | some fault => exact parse_eq_error_iff_outline.mpr (Or.inr ⟨r, fault, h, hd, rfl⟩)

end HeapReplay.Dump
