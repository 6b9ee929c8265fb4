/-!
# Log levels

A level is named in any mixture of small and capital letters.  Some levels have two names; one name
stands for no level of its own, and then the default level applies.

**Capitals are those of Unicode.**  Besides the ASCII letters there are two others whose capital is
an ASCII letter, the dotless i and the long s, so they may stand in a name as well.
-/

namespace HeapReplay.Cli

/-- How important a notice is, and how important one must be to be shown. -/
inductive Level where
  | debug
  | info
  | warning
  | error
  | critical
deriving DecidableEq, Repr

namespace Level

/-- The place of a level among the others. -/
def rank : Level → Nat
  | debug => 10
  | info => 20
  | warning => 30
  | error => 40
  | critical => 50

/-- The name of a level at the start of a log line. -/
def name : Level → String
  | debug => "DEBUG"
  | info => "INFO"
  | warning => "WARNING"
  | error => "ERROR"
  | critical => "CRITICAL"

/-- The capital of a character, if it is an ASCII letter. -/
def capital (c : Char) : Char :=
  if c = '\u0131' then 'I'
  else if c = '\u017f' then 'S'
  else c.toUpper

/-- The level with a name in capitals. -/
def ofCapitals? : String → Option Level
  | "CRITICAL" | "FATAL" => some critical
  | "ERROR" => some error
  | "WARNING" | "WARN" | "NOTSET" => some warning
  | "INFO" => some info
  | "DEBUG" => some debug
  | _ => none

/-- The level with a name. -/
def ofName? (text : String) : Option Level :=
  ofCapitals? (String.ofList (text.toList.map capital))

/-- The level that shows what both levels show. -/
def lower (a b : Level) : Level :=
  if a.rank ≤ b.rank then a else b

end Level

end HeapReplay.Cli
