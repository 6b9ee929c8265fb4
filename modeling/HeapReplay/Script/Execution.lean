import HeapReplay.Graph
import HeapReplay.Script.Number
import HeapReplay.Script.Reading
import HeapReplay.Table

/-!
# Running a script

Running the lines of a script one after another builds a heap.  Variables are bound to **values**: a
string or a symbol, each of its own, or an object, which has slots for named properties and for
elements.  The host supplies two functions that return the arrays of the black and of the gray roots.

**Names are looked up.**  A call looks for a variable of the name, then for a function of the host,
and only then for what the language itself has under it.  So a host whose collector has the name of
the function that makes symbols gets that function's calls, and what they return is its array.

**Numerals are numbers.**  An element is found by the number that its index stands for, not by the
digits of the index.

**What can go wrong.**  A line may be no statement, a variable may be read that is not bound or bound
that is bound already, a name may be called that is no function, and the function around a script
may be opened or closed in the wrong place.  A run stops at the first such line.

**What cannot.**  Setting a slot of a string or a symbol has no effect and is no fault.
-/

namespace HeapReplay.Script

/-- What a variable is bound to.  Each declaration of a string, a symbol or an object makes a value
that no other one makes; numbers tell symbols and objects apart. -/
inductive Value where
  | string (content : Nat)
  | symbol (serial : Nat)
  | object (serial : Nat)
  /-- The array in which the host collects the roots of a color. -/
  | roots (color : Color)
deriving DecidableEq, Repr

/-- A place of an object or an array that can hold a value.  Names of properties are taken to be
none of the texts of numbers; a name that ends in a digit never is. -/
inductive Slot where
  | property (name : String)
  | element (index : Number)
deriving DecidableEq, Repr

/-- What a slot holds: the placeholder that it was made with, or a value. -/
inductive Content where
  | placeholder
  | value (value : Value)
deriving DecidableEq, Repr

/-- The names by which the host knows its two collectors. -/
structure Host where
  blackCollector : String
  grayCollector : String
deriving DecidableEq, Repr

/-- The color of the roots that a function of the host collects. -/
def Host.color? (host : Host) (name : String) : Option Color :=
  if name = host.blackCollector then some .black
  else if name = host.grayCollector then some .gray
  else none

/-- The heap that a script has built so far. -/
structure Memory where
  bindings : Table String Value := []
  /-- The slots of each object, by its serial number. -/
  objects : List (Table Slot Content) := []
  /-- The number of symbols. -/
  symbols : Nat := 0
  /-- The array of the black roots. -/
  blackRoots : Table Slot Value := []
  /-- The array of the gray roots. -/
  grayRoots : Table Slot Value := []
deriving DecidableEq, Repr

/-- Why a script cannot be run. -/
inductive RunError where
  | unreadable (line : String)
  | unbound (name : String)
  | bound (name : String)
  /-- The name is called and is no function. -/
  | notCallable (name : String)
  /-- The start or the end of a function that is not around the whole script. -/
  | misplaced (statement : Statement)
deriving DecidableEq, Repr

namespace Memory

/-- The value of a variable. -/
def value (m : Memory) (name : String) : Except RunError Value :=
  match m.bindings.lookup name with
  | some v => .ok v
  | none => .error (.unbound name)

/-- Binds a variable that is not bound. -/
def bind (m : Memory) (name : String) (v : Value) : Except RunError Memory :=
  match m.bindings.lookup name with
  | some _ => .error (.bound name)
  | none => .ok { m with bindings := m.bindings ++ [(name, v)] }

/-- The array of the roots of a color. -/
def roots (m : Memory) : Color → Table Slot Value
  | .black => m.blackRoots
  | .gray => m.grayRoots

/-- Puts another array in the place of that of a color. -/
def setRoots (m : Memory) (color : Color) (t : Table Slot Value) : Memory :=
  match color with
  | .black => { m with blackRoots := t }
  | .gray => { m with grayRoots := t }

/-- Sets a slot of a value, which has an effect on objects and arrays only. -/
def setSlot (m : Memory) (v : Value) (slot : Slot) (content : Value) : Memory :=
  match v with
  | .object serial =>
    { m with objects := m.objects.modify serial (Table.set slot (.value content)) }
  | .roots color => m.setRoots color (Table.set slot content (m.roots color))
  | .string _ | .symbol _ => m

/-- What a call without arguments returns.  A variable hides the functions of its name, and a
collector of the host hides the function that makes symbols. -/
def call (host : Host) (m : Memory) (name : String) : Except RunError (Value × Memory) :=
  match m.bindings.lookup name, host.color? name with
  | some _, _ => .error (.notCallable name)
  | none, some color => .ok (.roots color, m)
  | none, none =>
    if name = "Symbol" then .ok (.symbol m.symbols, { m with symbols := m.symbols + 1 })
    else .error (.notCallable name)

/-- Runs one statement within a script. -/
def step (host : Host) (m : Memory) : Statement → Except RunError Memory
  | .blank => .ok m
  | .openFunction => .error (.misplaced .openFunction)
  | .closeFunction => .error (.misplaced .closeFunction)
  | .declareString x content => m.bind x (.string content)
  | .declareSymbol x => do
    let (v, m) ← m.call host "Symbol"
    m.bind x v
  | .declareObject x properties =>
    let slots := properties.foldl (fun t p => Table.set (.property p) .placeholder t) []
    { m with objects := m.objects ++ [slots] }.bind x (.object m.objects.length)
  | .setProperty x property y => do
    let source ← m.value x
    return m.setSlot source (.property property) (← m.value y)
  | .setElement x index y => do
    let source ← m.value x
    return m.setSlot source (.element (.ofNat index)) (← m.value y)
  | .setRoot collector position y => do
    let (array, m) ← m.call host collector
    return m.setSlot array (.element (.ofNat position)) (← m.value y)

end Memory

/-- Runs statements one after another. -/
def execute (host : Host) (statements : List Statement) (m : Memory) : Except RunError Memory :=
  statements.foldlM (Memory.step host) m

/-- The statement of a line. -/
def readLine (line : String) : Except RunError Statement :=
  match Statement.read? line with
  | some s => .ok s
  | none => .error (.unreadable line)

/-- The statements of a script without the function around them.  What opens it must come first and
what closes it last. -/
def unwrap : List Statement → Except RunError (List Statement)
  | .openFunction :: rest =>
    if rest.getLast? = some .closeFunction then .ok rest.dropLast
    else .error (.misplaced .openFunction)
  | statements => .ok statements

/-- Runs the lines of a script in an empty heap. -/
def runLines (host : Host) (lines : List String) : Except RunError Memory := do
  let statements ← lines.mapM readLine
  execute host (← unwrap statements) {}

end HeapReplay.Script
