import HeapReplay.Fault
import HeapReplay.Table

/-!
# Edge labels

The name of an edge is never written out.  A name of the form `objectElements[N]` stands for the
array **index** N, however many leading zeros it has; every other name gets a property **key**,
numbered from zero in the order in which the names were first seen.

**The element form** is exact but for one thing: a single newline may follow the closing bracket.
A digit run of more than `Failure.maxIndexDigits` digits, leading zeros included, is not converted,
and then the interner stays as it was.

**Keys are stored** beside their names.  That they are the places of the names, `Numbered`, is what
every call keeps (`Numbered.intern`): names are only ever added at the end.
-/

namespace HeapReplay

/-- What tells the edges of one node apart. -/
inductive Label where
  /-- An element of an array. -/
  | index (n : Nat)
  /-- A named property, by the number of its name. -/
  | key (id : Nat)
deriving DecidableEq, Repr

/-- Whether a label is an array index. -/
def Label.isIndex : Label → Bool
  | index _ => true
  | key _ => false

/-- The text that opens the name of an array element. -/
def elementOpening : List Char :=
  "objectElements[".toList

/-- The digits between the brackets of an element name, or nothing if the name has another form. -/
def elementDigits? (name : String) : Option (List Char) :=
  let opening := elementOpening
  let inner := name.toList.drop opening.length
  let digits := inner.takeWhile Char.isDigit
  let closing := inner.dropWhile Char.isDigit
  if opening.isPrefixOf name.toList && !digits.isEmpty && (closing == [']'] || closing == [']', '\n'])
  then some digits
  else none

/-- The names that have keys, each with its key, first seen first. -/
structure Interner where
  entries : Table String Nat := []
deriving DecidableEq, Repr

namespace Interner

/-- The number of names that have keys, which is the next free key. -/
def size (t : Interner) : Nat :=
  t.entries.length

/-- The names that have keys, first seen first. -/
def names (t : Interner) : List String :=
  t.entries.map Prod.fst

/-- The key of a name, if it has one. -/
def key? (t : Interner) (name : String) : Option Nat :=
  t.entries.lookup name

/-- The interner with one more name, under the next key. -/
def insert (t : Interner) (name : String) : Interner where
  entries := t.entries ++ [(name, t.size)]

/-- The interner of some names, in this order. -/
def ofNames (names : List String) : Interner where
  entries := names.zipIdx

/-- The key of a name, which is given the next free one if it has none. -/
def key (t : Interner) (name : String) : Nat × Interner :=
  match t.key? name with
  | some id => (id, t)
  | none => (t.size, t.insert name)

/-- The label of a name.  Only names without an element form need to be remembered. -/
def intern (t : Interner) (name : String) : Except Failure (Label × Interner) :=
  match elementDigits? name with
  | some digits =>
    if digits.length ≤ Failure.maxIndexDigits then
      .ok (.index (Nat.ofDigitChars 10 digits 0), t)
    else .error (.indexTooLong digits.length)
  | none =>
    let (id, t') := t.key name
    .ok (.key id, t')

/-! ## What the operations do -/

@[simp] theorem length_names (t : Interner) : t.names.length = t.size :=
  List.length_map _

@[simp] theorem names_insert (t : Interner) (name : String) :
    (t.insert name).names = t.names ++ [name] := by
  simp [names, insert]

@[simp] theorem size_insert (t : Interner) (name : String) : (t.insert name).size = t.size + 1 := by
  simp [size, insert]

@[simp] theorem names_ofNames (names : List String) : (ofNames names).names = names :=
  List.zipIdx_map_fst 0 names

@[simp] theorem ofNames_nil : ofNames [] = {} :=
  rfl

theorem insert_ofNames (names : List String) (name : String) :
    (ofNames names).insert name = ofNames (names ++ [name]) := by
  simp [ofNames, insert, size, List.zipIdx_append]

theorem key?_eq_none_iff {t : Interner} {name : String} : t.key? name = none ↔ name ∉ t.names :=
  lookup_eq_none_iff_not_mem

/-! ## Keys in order -/

/-- Keys are places: each name is stored with the number of names before it. -/
def Numbered (t : Interner) : Prop :=
  t.entries = t.names.zipIdx

instance (t : Interner) : Decidable t.Numbered :=
  inferInstanceAs (Decidable (t.entries = t.names.zipIdx))

theorem numbered_empty : Numbered {} :=
  rfl

namespace Numbered

variable {t t' : Interner} {name : String}

theorem eq_ofNames (h : t.Numbered) : t = ofNames t.names := by
  obtain ⟨entries⟩ := t
  exact congrArg Interner.mk h

theorem ofNames (names : List String) : (ofNames names).Numbered := by
  rw [Numbered, names_ofNames]
  rfl

theorem insert (h : t.Numbered) (name : String) : (t.insert name).Numbered := by
  rw [h.eq_ofNames, insert_ofNames]
  exact .ofNames _

theorem key (h : t.Numbered) (name : String) : (t.key name).2.Numbered := by
  rw [Interner.key]
  split
  · exact h
  · exact h.insert name

/-- **Interning keeps the keys in order.** -/
theorem intern (h : t.Numbered) {l : Label} (hi : t.intern name = .ok (l, t')) : t'.Numbered := by
  rw [Interner.intern] at hi
  split at hi
  · split at hi
    · exact (Prod.mk.inj (Except.ok.inj hi)).2 ▸ h
    · cases hi
  · exact (Prod.mk.inj (Except.ok.inj hi)).2 ▸ h.key name

/-- No two names have the same key. -/
theorem eq_of_mem_entries (h : t.Numbered) {name' : String} {k : Nat} (hn : (name, k) ∈ t.entries)
    (hn' : (name', k) ∈ t.entries) : name = name' := by
  rw [h, List.mem_zipIdx_iff_getElem?] at hn hn'
  exact Option.some.inj (hn.symm.trans hn')

/-- **The key of a name is the place where it is first found.** -/
theorem key?_eq_idxOf? (h : t.Numbered) (name : String) :
    t.key? name = t.names.idxOf? name := by
  rw [key?, h, lookup_zipIdx]

theorem lt_size_of_key? (h : t.Numbered) {k : Nat} (hk : t.key? name = some k) : k < t.size := by
  rw [h.key?_eq_idxOf?] at hk
  obtain ⟨hlt, -, -⟩ := List.idxOf?_eq_some_iff.1 hk
  exact length_names t ▸ hlt

end Numbered

end Interner

end HeapReplay
