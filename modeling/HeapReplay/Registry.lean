import HeapReplay.Offset
import HeapReplay.Table

/-!
# The address registry

Ids are handed out to addresses densely and in order of registration.  A registry keeps **two
tables**, one for each direction: from an address to its id, and from an id, which is a place, to the
address there.

**The tables are written side by side.**  Nothing in their types keeps them in step; `Agrees` says
that they are, and `Agrees.register` that registering keeps them so.  Where they agree, an address
is known to the one exactly if it is in the other (`Agrees.contains_eq_true_iff`), and its id is its
place there (`Agrees.id?_eq_idxOf?`).

**Registering and looking up.**  `register_eq_ok_iff` says that exactly the unknown addresses are
accepted, each under the next free id.  Both leave the registry as it was when they fail.
-/

namespace HeapReplay

/-- The registered addresses in both directions. -/
structure Registry where
  /-- The id of each address, in the order of registration. -/
  ids : Table Address Nat := []
  /-- The addresses; the place of an address is its id. -/
  addresses : List Address := []
deriving DecidableEq, Repr

namespace Registry

/-- The number of registered addresses, which is the next free id. -/
def size (r : Registry) : Nat :=
  r.addresses.length

/-- The id of an address. -/
def id? (r : Registry) (a : Address) : Option Nat :=
  r.ids.lookup a

/-- Whether an address is registered. -/
def contains (r : Registry) (a : Address) : Bool :=
  (r.id? a).isSome

/-- The registry with one more address, under the next id. -/
def insert (r : Registry) (a : Address) : Registry where
  ids := r.ids ++ [(a, r.size)]
  addresses := r.addresses ++ [a]

/-- Gives a fresh address the next id.  A known address is refused. -/
def register (r : Registry) (a : Address) (location : Option Location) :
    Except Fault (Nat × Registry) :=
  if r.contains a then .error (.duplicateAddress a location)
  else .ok (r.size, r.insert a)

/-- The id of an address that must be known; `context` and `location` say who asks. -/
def lookup (r : Registry) (a : Address) (context : String) (location : Option Location) :
    Except Fault Nat :=
  match r.id? a with
  | some id => .ok id
  | none => .error (.unresolvedAddress a context location)

/-- The address of an id.  A negative id counts from the end of the list. -/
def addressOf (r : Registry) (id : Int) : Except Failure Address :=
  atOffset r.addresses id

/-- The registry of some addresses, in this order. -/
def ofAddresses (addresses : List Address) : Registry where
  ids := addresses.zipIdx
  addresses

/-! ## What the operations do -/

@[simp] theorem insert_addresses (r : Registry) (a : Address) :
    (r.insert a).addresses = r.addresses ++ [a] :=
  rfl

theorem register_eq_ok_iff {r r' : Registry} {a : Address} {location : Option Location} {id : Nat} :
    r.register a location = .ok (id, r') ↔
      r.contains a = false ∧ id = r.size ∧ r' = r.insert a := by
  rw [register]
  cases r.contains a <;> simp [eq_comm]

theorem lookup_eq_ok_iff {r : Registry} {a : Address} {context : String}
    {location : Option Location} {id : Nat} :
    r.lookup a context location = .ok id ↔ r.id? a = some id := by
  rw [lookup]
  cases r.id? a <;> simp

@[simp] theorem ofAddresses_nil : ofAddresses [] = {} :=
  rfl

theorem insert_ofAddresses (addresses : List Address) (a : Address) :
    (ofAddresses addresses).insert a = ofAddresses (addresses ++ [a]) := by
  simp [ofAddresses, insert, size, List.zipIdx_append]

/-! ## The tables in step -/

/-- Both tables say the same: the id of an address is its place. -/
def Agrees (r : Registry) : Prop :=
  r.ids = r.addresses.zipIdx

namespace Agrees

variable {r r' : Registry} {a : Address}

theorem eq_ofAddresses (h : r.Agrees) : r = ofAddresses r.addresses := by
  obtain ⟨ids, addresses⟩ := r
  exact congrArg (Registry.mk · addresses) h

theorem insert (h : r.Agrees) (a : Address) : (r.insert a).Agrees := by
  rw [h.eq_ofAddresses, insert_ofAddresses]
  rfl

/-- **Registering keeps the tables in step.** -/
theorem register (h : r.Agrees) {location : Option Location} {id : Nat}
    (hr : r.register a location = .ok (id, r')) : r'.Agrees := by
  obtain ⟨-, -, rfl⟩ := register_eq_ok_iff.1 hr
  exact h.insert a

/-- **The id of an address is the place where it is first found.** -/
theorem id?_eq_idxOf? (h : r.Agrees) (a : Address) : r.id? a = r.addresses.idxOf? a := by
  rw [id?, h, lookup_zipIdx]

theorem contains_eq_true_iff (h : r.Agrees) : r.contains a = true ↔ a ∈ r.addresses := by
  rw [contains, h.id?_eq_idxOf?]
  cases hfind : r.addresses.idxOf? a with
  | some id =>
    obtain ⟨hlt, ha, -⟩ := List.idxOf?_eq_some_iff.1 hfind
    simpa using ha ▸ List.getElem_mem hlt
  | none => simpa using List.idxOf?_eq_none_iff.1 hfind

theorem contains_eq_false_iff (h : r.Agrees) : r.contains a = false ↔ a ∉ r.addresses := by
  rw [← h.contains_eq_true_iff, Bool.not_eq_true]

theorem id?_eq_none_iff (h : r.Agrees) : r.id? a = none ↔ a ∉ r.addresses := by
  rw [← h.contains_eq_false_iff, contains, Option.isSome_eq_false_iff, Option.isNone_iff_eq_none]

end Agrees

end Registry

end HeapReplay
