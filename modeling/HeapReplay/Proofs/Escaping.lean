import HeapReplay.Cli.Run
import HeapReplay.Proofs.Accepting
import HeapReplay.Proofs.Finishing
import HeapReplay.Proofs.Printing

/-!
# What escapes

A failure with a diagnostic is what readers of a log are told to expect; the command catches it and
ends with the status 1.  Any other failure **escapes**: it goes through all callers, and the command
crashes.

Reading is meant to fail with a diagnostic, always.  It does, but for one case, and
`escapes_iff_firstOverlong` says which: an edge that is in order has an element index of more digits
than are converted, and all records before it are fine.  A single line of a log that follows the
grammar can so make the command crash (`overlongLog`).
-/

namespace HeapReplay

/-- A failure that has no diagnostic. -/
def Failure.Escapes (f : Failure) : Prop :=
  ∀ fault, f ≠ .fault fault

/-- What is said about a failure when a run ends with it. -/
def Failure.lastWords : Failure → String
  | .fault problem => problem.diagnostic.text
  | .indexTooLong _ | .outOfRange | .notAnOffset => ""

namespace Dump

/-- What is reported of a record has a diagnostic. -/
lemma Placed.Fault.exists_fault {file : String} {earlier : List Placed} {p : Placed}
    {failure : Failure} (h : p.Fault file earlier failure) : ∃ fault, failure = .fault fault := by
  cases h <;> exact ⟨_, rfl⟩

lemma FirstOverlong.parse_eq {text : String} {digits : Nat}
    (h : FirstOverlong (outline text) digits) (file : String) :
    parse file text = .error (.indexTooLong digits) := by
  obtain ⟨before, p, after, heq, hbefore, short, hp, hlong⟩ := h
  have hfailure : (Progress.run (Reader.enterAt file) {} (before ++ p :: after)).failure = some _ :=
    failure_of_stops hbefore short (.overlong hp hlong) after
  exact parse_of_failure (heq ▸ hfailure)

/-- **Of the failures of a reader, only an overlong index escapes.** -/
lemma parse_eq_error_iff_of_escapes {file text : String} {failure : Failure}
    (escapes : failure.Escapes) :
    parse file text = .error failure ↔
      ∃ digits, failure = .indexTooLong digits ∧ FirstOverlong (outline text) digits := by
  constructor
  · intro h
    rcases inOrder_or_stops file (outline text) with
      ⟨hrecords, short⟩ | ⟨before, p, after, failure', heq, hbefore, short, hstop⟩
    · -- only a reference can be at fault
      obtain ⟨r, hrun, -⟩ := run_of_inOrder file hrecords short
      rw [parse_of_run hrun] at h
      cases hdangling : r.graph.dangling? with
      | none => rw [hdangling] at h; cases h
      | some fault =>
          rw [hdangling] at h
          exact absurd (Except.error.inj h).symm (escapes fault)
    · have hfailure := failure_of_stops hbefore short hstop after
      have hparse := parse_of_failure (heq ▸ hfailure)
      obtain rfl := Except.error.inj (h.symm.trans hparse)
      cases hstop with
      | fault hfault =>
          obtain ⟨fault, rfl⟩ := hfault.exists_fault
          exact absurd rfl (escapes fault)
      | overlong hp hlong => exact ⟨_, rfl, before, p, after, heq, hbefore, short, hp, hlong⟩
  · rintro ⟨digits, rfl, h⟩
    exact h.parse_eq file

end Dump

/-- Where no index is overlong, reconstruction fails with a diagnostic or not at all. -/
lemma exists_fault_of_reconstruct {style : Script.Style} {file text : String} {failure : Failure}
    (short : ∀ digits, ¬ Dump.FirstOverlong (Dump.outline text) digits)
    (h : reconstruct style file text = .error failure) : ∃ fault, failure = .fault fault := by
  by_contra hnone
  have escapes : failure.Escapes := fun fault heq => hnone ⟨fault, heq⟩
  obtain ⟨digits, -, overlong⟩ := (Dump.parse_eq_error_iff_of_escapes escapes).mp
    ((reconstruct_eq_error_iff _).mp h)
  exact short digits overlong

/-! ## The command -/

namespace Cli

/-- A run that has all it needs: a level, a dump that is a text, and an output that can be
written. -/
structure Options.Provided (o : Options) (d : Folder) (text : String) : Prop where
  level : ∃ threshold, o.threshold = .ok threshold
  dumpName : holdsNul o.dump = false
  dump : dumpText (d.read o.dump) = .ok text
  outputName : ∀ path ∈ o.file?, holdsNul path = false
  output : o.writtenIn d = .ok ()

/-- How a run ends by what becomes of the dump. -/
def Ending.ofOutcome : Except Failure String → Ending
  | .ok _ => .status 0
  | .error (.fault _) => .status 1
  | .error other => .crash (.failure other)

lemma Options.ending_deliver {o : Options} (h : ∀ path ∈ o.file?, holdsNul path = false)
    (threshold : Level) (notices : List Notice) (script : String) :
    (o.deliver threshold notices script (.ok ())).ending = .status 0 := by
  rw [deliver]
  cases hfile : o.file? with
  | none => rfl
  | some path =>
      have hname := h path hfile
      simp [hname]

/-- With a script the run hands it over. -/
lemma Options.runOn_of_ok {o : Options} {text script : String}
    (h : reconstruct o.style o.dump text = .ok script) (threshold : Level)
    (written : Except PathError Unit) :
    ∃ notices, o.runOn threshold text written = o.deliver threshold notices script written := by
  rw [reconstruct] at h
  rw [runOn]
  cases hgraph : buildGraph o.dump text with
  | error failure => rw [hgraph] at h; cases h
  | ok g =>
      rw [hgraph] at h
      replace h : Script.render o.style g = .ok script := h
      simp only [h]
      exact ⟨_, rfl⟩

/-- Without one it prints nothing and writes nothing, and its last words are the diagnostic. -/
lemma Options.runOn_of_error {o : Options} {text : String} {failure : Failure}
    (h : reconstruct o.style o.dump text = .error failure) (threshold : Level)
    (written : Except PathError Unit) :
    ∃ log, o.runOn threshold text written =
      { ending := .ofOutcome (.error failure), err := log ++ failure.lastWords } := by
  refine ⟨Notice.log threshold (Notice.ofReconstruction o.style o.dump text), ?_⟩
  rw [reconstruct] at h
  rw [runOn]
  cases hgraph : buildGraph o.dump text with
  | error failure' =>
      rw [hgraph] at h
      obtain rfl : failure' = failure := Except.error.inj h
      cases failure' <;> simp [Ending.ofOutcome, Failure.lastWords]
  | ok g =>
      rw [hgraph] at h
      replace h : Script.render o.style g = .error failure := h
      cases failure <;> simp [h, Ending.ofOutcome, Failure.lastWords]

/-- **A run that has all it needs** ends as reconstruction does. -/
lemma ending_run {d : Folder} {arguments : List String} {o : Options} {text : String}
    (h : Options.parse arguments = .ok o) (provided : o.Provided d text) :
    (run d arguments).ending = .ofOutcome (reconstruct o.style o.dump text) := by
  obtain ⟨threshold, hlevel⟩ := provided.level
  have hrun : run d arguments = o.runOn threshold text (.ok ()) := by
    simp [run, h, Options.run, hlevel, provided.dumpName, provided.dump, provided.output]
  rw [hrun]
  cases houtcome : reconstruct o.style o.dump text with
  | ok script =>
      obtain ⟨notices, hdeliver⟩ := Options.runOn_of_ok houtcome threshold (.ok ())
      rw [hdeliver, Options.ending_deliver provided.outputName]
      rfl
  | error failure =>
      obtain ⟨log, hfailed⟩ := Options.runOn_of_error houtcome threshold (.ok ())
      rw [hfailed]

end Cli

/-- **What escapes is an overlong index, and nothing else.**  A failure without a diagnostic comes of
a log exactly if it is the failure of an element index of too many digits, on an edge that is the
first record which cannot be taken in; writing the script adds no such failure.  So a run of the
command that has all it needs crashes on these logs, and on all other ones it ends with the status 0
or 1. -/
theorem escapes_iff_firstOverlong (style : Script.Style) (file text : String) :
    (∀ failure : Failure, failure.Escapes →
      (Dump.parse file text = .error failure ↔
        ∃ digits, failure = .indexTooLong digits ∧
          Dump.FirstOverlong (Dump.outline text) digits) ∧
      (reconstruct style file text = .error failure ↔
        ∃ digits, failure = .indexTooLong digits ∧
          Dump.FirstOverlong (Dump.outline text) digits)) ∧
    ∀ (d : Cli.Folder) (arguments : List String) (o : Cli.Options),
      Cli.Options.parse arguments = .ok o → o.Provided d text →
      (∀ digits, Dump.FirstOverlong (Dump.outline text) digits →
        (Cli.run d arguments).ending = .crash (.failure (.indexTooLong digits))) ∧
      ((∀ digits, ¬ Dump.FirstOverlong (Dump.outline text) digits) →
        (Cli.run d arguments).ending = .status 0 ∨ (Cli.run d arguments).ending = .status 1) := by
  refine ⟨fun failure escapes => ?_, fun d arguments o hparse provided => ?_⟩
  · rw [reconstruct_eq_error_iff]
    exact ⟨Dump.parse_eq_error_iff_of_escapes escapes, Dump.parse_eq_error_iff_of_escapes escapes⟩
  · rw [Cli.ending_run hparse provided]
    constructor
    · intro digits h
      rw [reconstruct_of_parse_eq_error _ (h.parse_eq o.dump)]
      rfl
    · intro none
      cases houtcome : reconstruct o.style o.dump text with
      | ok script => exact Or.inl rfl
      | error failure =>
          obtain ⟨fault, rfl⟩ := exists_fault_of_reconstruct none houtcome
          exact Or.inr rfl

/-! ## A log that makes the command crash -/

namespace Cli

lemma decodeFrom_ascii {cs : List Char} (h : ∀ c ∈ cs, c.toNat < 0x80) (position : Nat) :
    Text.Utf8.decodeFrom position none (cs.map fun c => UInt8.ofNat c.toNat) = .ok cs := by
  induction cs generalizing position with
  | nil => rfl
  | cons c cs ih =>
      have hc : (UInt8.ofNat c.toNat).toNat = c.toNat := by
        have hlt := h c (by simp)
        rw [UInt8.toNat_ofNat']
        omega
      rw [List.map_cons, Text.Utf8.decodeFrom, hc, if_pos (h c (by simp)),
        ih fun d hd => h d (by simp [hd]), Char.ofNat_toNat]
      rfl

lemma unifyNewlines_eq_self {cs : List Char} (h : '\r' ∉ cs) : Text.unifyNewlines cs = cs := by
  fun_induction Text.unifyNewlines cs with
  | case1 => rfl
  | case2 rest ih => simp at h
  | case3 rest _ ih => simp at h
  | case4 c rest _ _ ih => rw [ih fun hr => h (List.mem_cons_of_mem _ hr)]

/-- A dump in ASCII is read as it is. -/
lemma dumpText_ascii {cs : List Char} (ascii : ∀ c ∈ cs, c.toNat < 0x80) (unified : '\r' ∉ cs) :
    dumpText (.ok (cs.map fun c => UInt8.ofNat c.toNat)) = .ok (String.ofList cs) := by
  simp only [dumpText, Text.Utf8.decode, decodeFrom_ascii ascii, unifyNewlines_eq_self unified]

/-- A folder with one file. -/
lemma read_singleton (content : List UInt8) :
    ({ files := [("heap.log", content)] } : Folder).read "heap.log" = .ok content := by
  have hparts : Folder.parts "heap.log" = ["heap.log"] := by decide +kernel
  have hfollow : ({ files := [("heap.log", content)] } : Folder).follow "heap.log" ["heap.log"]
      = .ok (.file "heap.log") := rfl
  have hslash : Folder.endsWithSlash "heap.log" = false := by decide +kernel
  simp [Folder.read, hparts, hfollow, hslash, Folder.find?]

end Cli

/-- The words of an edge to it. -/
def zerosWords (count : Nat) : List String :=
  [Dump.edgeMarker, "0x1", "B", zerosName count]

/-- The lines of a log of a scope that holds itself as its first element. -/
def zerosLines (count : Nat) : List String :=
  ["# Roots.", "0x1 B r", "==========", "0x1 B scope"] ++ [Text.unwords (zerosWords count)]

/-- The log. -/
def zerosLog (count : Nat) : String :=
  "\n".intercalate (zerosLines count)

/-- A character that nothing is cut at and that is read as it is written. -/
def isPlain (c : Char) : Bool :=
  c.toNat < 0x80 && c != ' ' && c != '\n' && c != '\r'

lemma isPlain_zerosWords {count : Nat} {w : String} (hw : w ∈ zerosWords count) :
    w.toList.all isPlain = true := by
  simp only [zerosWords, List.mem_cons, List.not_mem_nil, or_false] at hw
  rcases hw with rfl | rfl | rfl | rfl
  · rfl
  · rfl
  · rfl
  · rw [zerosName, String.toList_ofList, List.all_append, List.all_append, List.all_replicate]
    split_ifs <;> rfl

/-- The edge has the words that it was made of. -/
lemma words_zerosWords (count : Nat) :
    Text.words (Text.unwords (zerosWords count)) = zerosWords count :=
  Text.words_unwords
    (fun _ hw hc => absurd (List.all_eq_true.mp (isPlain_zerosWords hw) _ hc) (by decide))
    (List.cons_ne_nil _ _)

lemma isPlain_zerosLines {count : Nat} {line : String} (hline : line ∈ zerosLines count)
    {c : Char} (hc : c ∈ line.toList) : c = ' ' ∨ isPlain c = true := by
  rcases List.mem_append.mp hline with hline | hline
  · have hfixed : ["# Roots.", "0x1 B r", "==========", "0x1 B scope"].all
        (fun line => line.toList.all fun c => c == ' ' || isPlain c) = true := rfl
    have hplain := List.all_eq_true.mp (List.all_eq_true.mp hfixed line hline) c hc
    simpa using hplain
  · rw [List.mem_singleton.mp hline] at hc
    exact (Dump.mem_unwords hc).imp_right fun ⟨w, hw, hc⟩ =>
      List.all_eq_true.mp (isPlain_zerosWords hw) c hc

namespace Dump

lemma lines_zerosLog (count : Nat) : Text.lines (zerosLog count) = zerosLines count :=
  Text.splitOn_intercalate
    (fun _ hline hc => absurd (isPlain_zerosLines hline hc) (by decide)) (List.cons_ne_nil _ _)

lemma outline_zerosLog (count : Nat) : outline (zerosLog count) =
    [{ within := some .roots, line := ⟨2, "0x1 B r"⟩ },
      { within := some .main, line := ⟨4, "0x1 B scope"⟩ },
      { within := some .main, line := ⟨5, Text.unwords (zerosWords count)⟩ }] := by
  have hhead : (Text.unwords (zerosWords count)).toList.head? = some '>' :=
    head?_unwords_cons rfl _
  have hne : Text.unwords (zerosWords count) ≠ "" := by
    intro h
    rw [h] at hhead
    cases hhead
  have hnumbered : numberedLines (zerosLog count) = [⟨1, "# Roots."⟩, ⟨2, "0x1 B r"⟩,
      ⟨3, "=========="⟩, ⟨4, "0x1 B scope"⟩, ⟨5, Text.unwords (zerosWords count)⟩] := by
    rw [numberedLines, lines_zerosLog, zerosLines]
    simp [hne]
  have hroots : Entry.ofText "# Roots." = .header .roots := by decide +kernel
  have hroot : Entry.ofText "0x1 B r" = .record := by decide +kernel
  have hmain : Entry.ofText "==========" = .header .main := by decide +kernel
  have hscope : Entry.ofText "0x1 B scope" = .record := by decide +kernel
  have hedge : Entry.ofText (Text.unwords (zerosWords count)) = .record :=
    entry_eq_record hhead (Or.inr rfl)
  rw [outline, hnumbered]
  simp only [outlineFrom, Line.entry, hroots, hroot, hmain, hscope, hedge]

/-- **With too many zeros the edge of the log is what readers stop at.** -/
lemma firstOverlong_zerosLog {count : Nat} (h : Failure.maxIndexDigits < count) :
    FirstOverlong (outline (zerosLog count)) count := by
  have haddress : IsAddress "0x1" := isAddress_iff.mpr ⟨1, by decide +kernel⟩
  let root : Placed := { within := some .roots, line := ⟨2, "0x1 B r"⟩ }
  let scope : Placed := { within := some .main, line := ⟨4, "0x1 B scope"⟩ }
  let edge : Placed :=
    { within := some .main, line := ⟨5, Text.unwords (zerosWords count)⟩ }
  have hroot : root.words = ["0x1", "B", "r"] := by decide +kernel
  have hscope : scope.words = ["0x1", "B", "scope"] := by decide +kernel
  have hedge : edge.words = zerosWords count := words_zerosWords count
  have hnode : scope.IsNode := by decide +kernel
  have hname : edge.edgeName = zerosName count := by
    rw [Placed.edgeName, hedge]
    exact unwords_singleton (zerosName count)
  have hrootOk : root.Ok [] := .root rfl hroot haddress (Or.inl rfl)
  have hscopeOk : scope.Ok [root] :=
    .node rfl hscope haddress (Or.inl rfl) (rfl : Kind.classify "scope" _ _ = .ok .scope) fun q hq hqnode => by
      rw [List.mem_singleton.mp hq] at hqnode
      exact absurd hqnode.1 (by decide)
  have hedgeOk : edge.Ok [root, scope] := .edge rfl hedge haddress ⟨scope, by simp, hnode⟩
  have hshort : ShortIndices [root, scope] := by
    have hnone : ∀ p ∈ [root, scope], ¬ p.IsEdge := by decide +kernel
    exact fun p hp hedge => absurd hedge (hnone p hp)
  refine ⟨[root, scope], edge, [], outline_zerosLog count,
    (inOrder_nil.snoc hrootOk).snoc hscopeOk, hshort, hedgeOk,
    ⟨rfl, Placed.first_of_words hedge⟩, h, List.replicate count '0', ?_, by simp⟩
  rw [hname]
  exact elementDigits?_zerosName (by omega)

end Dump

/-- The folder with the log in one file, byte by byte. -/
def zerosFolder (count : Nat) : Cli.Folder :=
  { files := [("heap.log", (zerosLog count).toList.map fun c => UInt8.ofNat c.toNat)] }

lemma provided_zerosFolder (count : Nat) :
    ({ dump := "heap.log" } : Cli.Options).Provided (zerosFolder count) (zerosLog count) := by
  have hplain : ∀ c ∈ (zerosLog count).toList, c = '\n' ∨ c = ' ' ∨ isPlain c = true := by
    intro c hc
    rw [zerosLog, String.toList_intercalate] at hc
    rcases mem_intercalate hc with hc | ⟨l, hl, hc⟩
    · exact Or.inl (List.mem_singleton.mp hc)
    · obtain ⟨line, hline, rfl⟩ := List.mem_map.mp hl
      exact Or.inr (isPlain_zerosLines hline hc)
  have hascii : ∀ c ∈ (zerosLog count).toList, c.toNat < 0x80 := by
    intro c hc
    rcases hplain c hc with rfl | rfl | h
    · decide
    · decide
    · simp only [isPlain, Bool.and_eq_true, decide_eq_true_eq] at h
      exact h.1.1.1
  have hunified : '\r' ∉ (zerosLog count).toList :=
    fun hr => absurd (hplain _ hr) (by decide)
  refine ⟨⟨.warning, by decide +kernel⟩, by decide +kernel, ?_, by simp [Cli.Options.file?], rfl⟩
  rw [zerosFolder, Cli.read_singleton, Cli.dumpText_ascii hascii hunified, String.ofList_toList]

/-- A log that follows the grammar makes the command crash. -/
theorem zerosLog_escapes :
    Failure.Escapes (.indexTooLong 4301) ∧
      Dump.FirstOverlong (Dump.outline (zerosLog 4301)) 4301 ∧
      Dump.parse "heap.log" (zerosLog 4301) = .error (.indexTooLong 4301) ∧
      reconstruct {} "heap.log" (zerosLog 4301) = .error (.indexTooLong 4301) ∧
      Cli.Options.parse ["heap.log"] = .ok { dump := "heap.log" } ∧
      ({ dump := "heap.log" } : Cli.Options).Provided (zerosFolder 4301) (zerosLog 4301) ∧
      (Cli.run (zerosFolder 4301) ["heap.log"]).ending
        = .crash (.failure (.indexTooLong 4301)) := by
  have escapes : Failure.Escapes (.indexTooLong 4301) := by simp [Failure.Escapes]
  have overlong : Dump.FirstOverlong (Dump.outline (zerosLog 4301)) 4301 :=
    Dump.firstOverlong_zerosLog (by decide)
  have arguments : Cli.Options.parse ["heap.log"] = .ok { dump := "heap.log" } := by
    decide +kernel
  have provided := provided_zerosFolder 4301
  obtain ⟨hfailure, hrun⟩ := escapes_iff_firstOverlong {} "heap.log" (zerosLog 4301)
  exact ⟨escapes, overlong, (hfailure _ escapes).1.mpr ⟨4301, rfl, overlong⟩,
    (hfailure _ escapes).2.mpr ⟨4301, rfl, overlong⟩, arguments, provided,
    (hrun _ _ _ arguments provided).1 4301 overlong⟩

end HeapReplay
