import HeapReplay.Proofs.Updating

/-!
# Lines that are refused

Reading a log stops at the first line that is refused, or at the end if an address was never
declared.  What the reader holds then is what the lines before have made of it: the line that is
refused has been looked at and has left **no trace**, in whatever section it stands and whatever is
wrong with it (`refused_line_leaves_no_trace`).

The statement is about a reader that changes its tables in place and undoes nothing, so it says that
every check of a line comes before its first write.  The lines before the refused one are themselves
a text (`exists_lines_before`), and the reader could have been given that text alone.
-/

namespace HeapReplay

namespace Progress

variable {σ ε α : Type}

/-- **A run stops at the item that it refuses**, with the state that the items before it have made. -/
lemma exists_refused {step : σ → α → Except ε σ} {s s' : σ} {e : ε} {xs : List α}
    (h : run step s xs = { state := s', failure := some e }) :
    ∃ before a after, xs = before ++ a :: after ∧ run step s before = { state := s' } ∧
      step s' a = .error e := by
  induction xs generalizing s with
  | nil => cases h
  | cons x xs ih =>
      rw [run] at h
      cases hx : step s x with
      | ok t =>
          rw [hx] at h
          obtain ⟨before, a, after, rfl, hrun, ha⟩ := ih h
          exact ⟨x :: before, a, after, rfl, run_cons_eq_ok.mpr ⟨t, hx, hrun⟩, ha⟩
      | error f =>
          rw [hx] at h
          injection h with hstate hfailure
          obtain rfl := hstate
          obtain rfl := Option.some.inj hfailure
          exact ⟨[], x, xs, rfl, rfl, hx⟩

lemma eq_of_result_eq_error {σ : Type} {p : Progress σ Failure} {f : Failure} {s : σ}
    (h : p.result = .error f s) : p = { state := s, failure := some f } := by
  obtain ⟨t, failure⟩ := p
  cases failure with
  | none => cases h
  | some g =>
      injection h with hfailure hstate
      obtain rfl := hfailure
      obtain rfl : t = s := hstate
      rfl

end Progress

namespace Dump

lemma newline_not_mem_of_mem_lines {text piece : String} (h : piece ∈ Text.lines text) :
    '\n' ∉ piece.toList := by
  obtain ⟨cs, hcs, rfl⟩ := List.mem_map.mp h
  rw [String.toList_ofList]
  exact fun hin => (mem_of_mem_splitOn hcs hin).2 rfl

/-- **What is read before a line is what would be read of the lines before it alone.** -/
lemma exists_lines_before {text : String} {before after : List Line} {l : Line}
    (h : body text = before ++ l :: after) :
    ∃ earlier later, Text.lines text = earlier ++ l.text :: later ∧
      l.number = earlier.length + 1 ∧ body ("\n".intercalate earlier) = before := by
  -- the lines that are read are the first ones of those that are not empty
  obtain ⟨rest, hrest⟩ := List.takeWhile_prefix (p := fun l : Line => decide (l.entry ≠ .trailer))
    (l := numberedLines text)
  have hbody : numberedLines text = before ++ l :: (after ++ rest) := by
    rw [← hrest, ← body, h, List.append_assoc, List.cons_append]
  rw [numberedLines, List.filterMap_eq_append_iff] at hbody
  obtain ⟨xs, ys, hzip, hbefore, hys⟩ := hbody
  obtain ⟨empties, p, zs, rfl, hempties, hp, -⟩ := List.filterMap_eq_cons_iff.mp hys
  rw [← List.append_assoc] at hzip
  obtain ⟨earlier, later, hlines, hearlier, hlater⟩ := List.zipIdx_eq_append_iff.mp hzip
  obtain ⟨line, later', rfl, rfl, -⟩ := List.zipIdx_eq_cons_iff.mp hlater.symm
  have hl : line = l.text ∧ earlier.length + 1 = l.number := by
    dsimp only at hp
    split_ifs at hp
    obtain rfl := Option.some.inj hp
    exact ⟨rfl, Nat.add_comm _ _⟩
  refine ⟨earlier, later', hl.1 ▸ hlines, hl.2.symm, ?_⟩
  have hsingle : ∀ piece ∈ earlier, '\n' ∉ piece.toList := fun piece hpiece =>
    newline_not_mem_of_mem_lines (hlines ▸ List.mem_append_left _ hpiece)
  have hnumbered : numberedLines ("\n".intercalate earlier) = before := by
    cases earlier with
    | nil =>
        obtain ⟨rfl, rfl⟩ := List.append_eq_nil_iff.mp hearlier
        exact hbefore
    | cons piece pieces =>
        have hcut : Text.lines ("\n".intercalate (piece :: pieces)) = piece :: pieces :=
          Text.splitOn_intercalate hsingle (List.cons_ne_nil _ _)
        rw [numberedLines, hcut, ← hearlier, List.filterMap_append, hbefore,
          List.filterMap_eq_nil_iff.mpr hempties, List.append_nil]
  rw [body, hnumbered, List.takeWhile_eq_self_iff]
  intro m hm
  have hmem : m ∈ body text := by
    rw [h]
    exact List.mem_append_left _ hm
  exact List.mem_takeWhile_imp (p := fun l : Line => decide (l.entry ≠ .trailer)) hmem

open Reader

/-- **A line that is refused leaves no trace.**  Whatever a reader has seen before, if reading a text
in place is stopped, then it is stopped where reading is stopped, and either by a line or at the end.
A line is refused for its text, for its kind, for its address or for the index in its name; then the
reader is as the lines before it alone have left it.  At the end the only failure is an address that
was never declared, and then the reader is as all lines have left it. -/
theorem refused_line_leaves_no_trace {file text : String} {r s : Reader} {f : Failure}
    (stopped : readInPlace file text r = .error f s) :
    r.read file text = { state := s, failure := some f } ∧
    ((∃ earlier l later, Text.lines text = earlier ++ l.text :: later ∧
        l.number = earlier.length + 1 ∧ Refused file l f ∧ stepInPlace file l s = .error f s ∧
        takeInPlace file (body ("\n".intercalate earlier)) r = .ok () s) ∨
      ∃ a context, f = .fault (.unresolvedAddress a context none) ∧
        takeInPlace file (body text) r = .ok () s) := by
  have hread : r.read file text = { state := s, failure := some f } :=
    Progress.eq_of_result_eq_error ((readInPlace_eq file text r).symm.trans stopped)
  refine ⟨hread, ?_⟩
  rcases read_cases file text r with ⟨t, hrun, hcheck, -⟩ | ⟨l, -, g, -, -, hrun⟩
  · -- every line has been taken in
    right
    rw [hcheck, checkReferences] at hread
    injection hread with hstate hfailure
    obtain rfl := hstate
    obtain ⟨fault, hdangling, rfl⟩ := Option.map_eq_some_iff.mp hfailure
    obtain ⟨⟨a, context⟩, -, rfl⟩ := Option.map_eq_some_iff.mp hdangling
    refine ⟨a, context, rfl, ?_⟩
    rw [takeInPlace_eq, hrun]
    rfl
  · left
    rw [hread] at hrun
    obtain ⟨before, l, after, hbody, hbefore, hrefused⟩ := Progress.exists_refused hrun
    obtain ⟨earlier, later, hlines, hnumber, halone⟩ := exists_lines_before hbody
    refine ⟨earlier, l, later, hlines, hnumber, refused_of_step hrefused, ?_, ?_⟩
    · rw [stepInPlace_eq, hrefused]
      rfl
    · rw [halone, takeInPlace_eq, hbefore]
      rfl

/-- A log in which an address is declared twice, after a root, a node and an edge. -/
def repeatedLog : String :=
  "# Roots.\n0x1 G stack\n==========\n0x1 B scope\n> 0x2 B next\n0x1 B string\n0x2 B string"

/-- What its lines have made when the second declaration is refused. -/
def repeatedReader : Reader where
  graph :=
    { nodes := [{ id := 0, address := 0x1, color := .black, kind := .scope
                  edges := [{ target := 0x2, label := .key 0 }] }]
      grayRoots := [{ address := 0x1, color := .gray, name := "stack" }]
      registry := .ofAddresses [0x1]
      interner := { entries := [("next", 0)] } }
  within := some .main
  owner := some 0

/-- The second declaration is the sixth line; the five before it alone leave the same reader. -/
theorem repeatedLog_refused :
    let f : Failure := .fault (.duplicateAddress 0x1 (some { file := "heap.log", line := 6 }))
    readInPlace "heap.log" repeatedLog {} = .error f repeatedReader ∧
      Reader.read "heap.log" repeatedLog {} = { state := repeatedReader, failure := some f } ∧
      ∃ earlier l later, Text.lines repeatedLog = earlier ++ l.text :: later ∧
        l.number = earlier.length + 1 ∧ Refused "heap.log" l f ∧
        stepInPlace "heap.log" l repeatedReader = .error f repeatedReader ∧
        takeInPlace "heap.log" (body ("\n".intercalate earlier)) {} = .ok () repeatedReader := by
  intro f
  have hread : Reader.read "heap.log" repeatedLog {}
      = { state := repeatedReader, failure := some f } := by
    decide +kernel
  have stopped : readInPlace "heap.log" repeatedLog {} = .error f repeatedReader := by
    rw [readInPlace_eq, hread]
    rfl
  refine ⟨stopped, hread, ?_⟩
  rcases (refused_line_leaves_no_trace stopped).2 with htrace | ⟨a, context, hf, -⟩
  · exact htrace
  · exact absurd hf.symm (by simp [f])

end Dump

end HeapReplay
