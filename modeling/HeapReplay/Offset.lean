import HeapReplay.Fault

/-!
# Offsets into a list

A place in a list can be counted from either end: offsets from zero on go from the front, negative
ones from the back, so that `-1` is the last element.

**Two ways to miss.**  Offsets are counted in signed words of 64 bits, which reach further than any
list that is ever stored.  A number that leads to no element is therefore reported in one of two
ways: as an offset outside the list, or as a number that cannot be an offset at all.
-/

namespace HeapReplay

/-- The element at an offset, if the offset is within the list. -/
def atOffset? {α : Type} (xs : List α) (offset : Int) : Option α :=
  match offset with
  | .ofNat n => xs[n]?
  | .negSucc n => xs.reverse[n]?

/-- Whether a number is a signed word of 64 bits. -/
def isOffset (n : Int) : Bool :=
  decide (Int64.minValue.toInt ≤ n ∧ n ≤ Int64.maxValue.toInt)

/-- The element at an offset, or why there is none. -/
def atOffset {α : Type} (xs : List α) (offset : Int) : Except Failure α :=
  match atOffset? xs offset with
  | some x => .ok x
  | none => .error (if isOffset offset then .outOfRange else .notAnOffset)

theorem atOffset?_natCast {α : Type} (xs : List α) (n : Nat) : atOffset? xs n = xs[n]? :=
  rfl

/-- Every element is found, however its place is counted. -/
theorem atOffset_eq_ok_iff {α : Type} {xs : List α} {offset : Int} {x : α} :
    atOffset xs offset = .ok x ↔ atOffset? xs offset = some x := by
  unfold atOffset
  cases atOffset? xs offset with
  | some y => simp
  | none => simp

end HeapReplay
