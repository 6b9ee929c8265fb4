import HeapReplay.Text.DecimalDigit
import HeapReplay.Text.Quoted

/-!
# Command line arguments

The command takes one dump and five options.  An option has a long spelling and some have a short
one; long spellings may be cut short as long as only one option is meant, values may be attached to
an option or follow it, and a lone `--` says that no options come behind it.

**Two passes.**  First every argument is classified on its own, as an option, as something that
looks like an option, or as a plain argument; an ambiguous spelling is reported here, before
anything else.  Then the arguments are taken from left to right.  Help is given as soon as it is
reached; arguments that belong to nothing are collected and reported last.

**A value that is a lone `--`** can only be attached to its option, and then the option is left
without a value.
-/

namespace HeapReplay.Cli

/-- The options of the command. -/
inductive Switch where
  | help
  | output
  | log
  | noWrap
  | stats
deriving DecidableEq, Repr

namespace Switch

/-- All options, in the order in which messages list them. -/
def all : List Switch :=
  [help, output, log, noWrap, stats]

/-- The long spelling. -/
def long : Switch → String
  | help => "--help"
  | output => "--output"
  | log => "--log"
  | noWrap => "--no-wrap"
  | stats => "--stats"

/-- The letter of the short spelling. -/
def letter? : Switch → Option Char
  | help => some 'h'
  | output => some 'o'
  | log => some 'l'
  | noWrap | stats => none

/-- Whether the option has a value. -/
def takesValue : Switch → Bool
  | output | log => true
  | help | noWrap | stats => false

/-- All spellings, as messages show them. -/
def display (s : Switch) : String :=
  match s.letter? with
  | some c => s!"-{c}/{s.long}"
  | none => s.long

/-- The option with a letter. -/
def ofLetter? (c : Char) : Option Switch :=
  all.find? (·.letter? = some c)

/-- The option with a spelling, and whether the spelling is the short one. -/
def ofSpelling? (text : String) : Option (Switch × Bool) :=
  match text.toList with
  | ['-', c] => (ofLetter? c).map (·, true)
  | _ => (all.find? (·.long = text)).map (·, false)

/-- The options whose long spelling begins with the given characters. -/
def abbreviatedBy (opening : List Char) : List Switch :=
  all.filter fun s => opening.isPrefixOf s.long.toList

end Switch

/-- What keeps the command from being run. -/
inductive UsageError where
  /-- The beginning of several long spellings. -/
  | ambiguous (argument : String) (candidates : List Switch)
  /-- An option without its value. -/
  | valueExpected (switch : Switch)
  /-- A value at an option that has none. -/
  | valueIgnored (switch : Switch) (value : String)
  /-- No dump. -/
  | dumpRequired
  /-- Arguments that belong to nothing. -/
  | unrecognized (arguments : List String)
deriving DecidableEq, Repr

/-- The message about a wrong use of the command. -/
def UsageError.message : UsageError → String
  | ambiguous argument candidates =>
    s!"ambiguous option: {argument} could match " ++ ", ".intercalate (candidates.map Switch.long)
  | valueExpected s => s!"argument {s.display}: expected one argument"
  | valueIgnored s value =>
    s!"argument {s.display}: ignored explicit argument " ++ Text.quoted value
  | dumpRequired => "the following arguments are required: dump"
  | unrecognized arguments => "unrecognized arguments: " ++ " ".intercalate arguments

/-! ## First pass: what each argument is -/

/-- An argument on its own. -/
inductive Argument where
  /-- The `--` behind which there are no options. -/
  | separator
  | plain (text : String)
  /-- An option, whether it is spelled with its letter, and the value attached to it. -/
  | option (switch : Switch) (short : Bool) (attached : Option String)
  /-- Something that looks like an option and is none. -/
  | unknown (text : String)
deriving DecidableEq, Repr

/-- A text cut at its first equals sign, if it has one. -/
def cutAtEquals (cs : List Char) : List Char × Option String :=
  match cs.dropWhile (· ≠ '=') with
  | [] => (cs, none)
  | _ :: value => (cs.takeWhile (· ≠ '='), some (String.ofList value))

/-- Whether characters are a negative number: a minus sign and digits, where a point may stand
before the last digits.  A newline at the end is overlooked. -/
def isNegativeNumber (cs : List Char) : Bool :=
  let isNumber (ds : List Char) : Bool :=
    match ds.dropWhile Text.isDecimalDigit with
    | [] => !ds.isEmpty
    | '.' :: fraction => !fraction.isEmpty && fraction.all Text.isDecimalDigit
    | _ => false
  match cs with
  | '-' :: ds => isNumber ds || (ds.getLast? == some '\n' && isNumber ds.dropLast)
  | _ => false

/-- An argument that begins like an option and is not spelled like one. -/
def Argument.ofUnspelled (text : String) : Argument :=
  if isNegativeNumber text.toList || text.toList.contains ' ' then plain text else unknown text

/-- What an argument is that stands before any `--`. -/
def Argument.ofText (text : String) : Except UsageError Argument :=
  let (name, value) := cutAtEquals text.toList
  match Switch.ofSpelling? text, value, Switch.ofSpelling? (String.ofList name) with
  | some (s, short), _, _ => .ok (option s short none)
  | none, some value, some (s, short) => .ok (option s short (some value))
  | none, _, _ =>
    match text.toList with
    | '-' :: '-' :: _ =>
      match Switch.abbreviatedBy name with
      | [] => .ok (ofUnspelled text)
      | [s] => .ok (option s false value)
      | candidates => .error (.ambiguous text candidates)
    | '-' :: c :: rest =>
      match Switch.ofLetter? c with
      | some s => .ok (option s true (some (String.ofList rest)))
      | none => .ok (ofUnspelled text)
    | _ => .ok (plain text)

/-- What the arguments of a command line are. -/
def Argument.ofTexts : List String → Except UsageError (List Argument)
  | [] => .ok []
  | text :: rest =>
    if text = "--" then .ok (separator :: rest.map plain)
    else do
      let argument ← ofText text
      return argument :: (← ofTexts rest)

/-! ## Second pass: what the arguments ask for -/

/-- What the command is asked to do. -/
structure Options where
  dump : String
  /-- The file for the script. -/
  output : Option String := none
  /-- The name of the log level, unless the option for it was left without a value. -/
  level : Option String := some "warning"
  wrapped : Bool := true
  stats : Bool := false
deriving DecidableEq, Repr

/-- Why the command is not run. -/
inductive Stop where
  | help
  | usage (error : UsageError)
deriving DecidableEq, Repr

/-- The arguments taken so far. -/
structure Taken where
  dump : Option String := none
  output : Option String := none
  level : Option String := some "warning"
  wrapped : Bool := true
  stats : Bool := false
  /-- The arguments that belong to nothing. -/
  extras : List String := []
deriving DecidableEq, Repr

namespace Taken

/-- Takes an option with its value.  Giving help is the end of it. -/
def take (t : Taken) (s : Switch) (value : Option String) : Except Stop Taken :=
  let value := value.filter (· ≠ "--")
  match s with
  | .help => .error .help
  | .output => .ok { t with output := value }
  | .log => .ok { t with level := value }
  | .noWrap => .ok { t with wrapped := false }
  | .stats => .ok { t with stats := true }

/-- Takes options with their values, one after another. -/
def takeAll (t : Taken) (options : List (Switch × Option String)) : Except Stop Taken :=
  options.foldlM (fun t (s, value) => t.take s value) t

/-- Adds an argument that belongs to nothing. -/
def addExtra (t : Taken) (text : String) : Taken :=
  { t with extras := t.extras ++ [text] }

end Taken

/-- The options that the characters behind a letter stand for.  Behind an option with a value they
are the value; behind one without they are further letters.  `next` is the argument that follows;
the last component says whether it is used as a value. -/
def lettersOf (s : Switch) (next : Option String) :
    List Char → Except UsageError (List (Switch × Option String) × Bool)
  | [] =>
    if s.takesValue then
      match next with
      | some value => .ok ([(s, some value)], true)
      | none => .error (.valueExpected s)
    else .ok ([(s, none)], false)
  | c :: rest =>
    if s.takesValue then .ok ([(s, some (String.ofList (c :: rest)))], false)
    else
      match Switch.ofLetter? c with
      | none => .error (.valueIgnored s (String.ofList (c :: rest)))
      | some s' => do
        let (options, used) ← lettersOf s' next rest
        return ((s, none) :: options, used)

/-- The options that one argument stands for, and whether the next argument is used as a value. -/
def optionsOf (s : Switch) (short : Bool) (attached next : Option String) :
    Except UsageError (List (Switch × Option String) × Bool) :=
  match attached with
  | none => lettersOf s next []
  | some value =>
    if s.takesValue then .ok ([(s, some value)], false)
    else if short && value ≠ "" then lettersOf s next value.toList
    else .error (.valueIgnored s value)

/-- The text of the first argument if it is a plain one. -/
def nextPlain : List Argument → Option String
  | .plain text :: _ => some text
  | _ => none

/-- Takes the arguments from left to right, the first one left out if `skip` says that it is used
already.  The first plain argument is the dump, and a `--` next to it goes with it. -/
def takeArguments (t : Taken) (skip : Bool) : List Argument → Except Stop Taken
  | [] => .ok t
  | argument :: rest =>
    if skip then takeArguments t false rest
    else
      match argument with
      | .unknown text => takeArguments (t.addExtra text) false rest
      | .option s short attached =>
        match optionsOf s short attached (nextPlain rest) with
        | .error e => .error (.usage e)
        | .ok (options, used) =>
          match t.takeAll options with
          | .error stop => .error stop
          | .ok t' => takeArguments t' used rest
      | .plain text =>
        if t.dump.isNone then
          takeArguments { t with dump := some text } (rest.head? = some .separator) rest
        else takeArguments (t.addExtra text) false rest
      | .separator =>
        if t.dump.isNone && (nextPlain rest).isSome then takeArguments t false rest
        else takeArguments (t.addExtra "--") false rest

/-- What the arguments of the command ask for. -/
def Options.parse (texts : List String) : Except Stop Options :=
  match Argument.ofTexts texts with
  | .error e => .error (.usage e)
  | .ok arguments =>
    match takeArguments {} false arguments with
    | .error stop => .error stop
    | .ok t =>
      match t.dump, t.extras with
      | none, _ => .error (.usage .dumpRequired)
      | some dump, [] =>
        .ok { dump, output := t.output, level := t.level, wrapped := t.wrapped, stats := t.stats }
      | some _, extras => .error (.usage (.unrecognized extras))

end HeapReplay.Cli
