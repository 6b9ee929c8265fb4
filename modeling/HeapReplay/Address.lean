import HeapReplay.Numeral

/-!
# Heap addresses

An address is an unbounded integer.  A heap log writes it as `0x` and hexadecimal digits in either
case, so every address that is read from a log is at least zero; a graph that is built by hand may
hold negative ones as well, and then the sign is written between `0x` and the digits, a form that
no log line is allowed to use.

**Reading undoes writing** on the addresses that a log can hold: `parse?_render`.
-/

namespace HeapReplay

/-- The position of a node in the heap that was logged. -/
abbrev Address := Int

namespace Address

/-- The text of an address in messages and logs: `0x`, a minus sign if it is negative, and its
magnitude in lower-case hexadecimal. -/
def render (a : Address) : String :=
  "0x" ++ (if a < 0 then "-" else "") ++ String.ofList (Nat.toDigits 16 a.natAbs)

/-- The address spelled by a literal of a log line: `0x` and at least one hexadecimal digit. -/
def parse? (text : String) : Option Address :=
  match text.toList with
  | '0' :: 'x' :: digits => (Numeral.read? 16 digits).map Int.ofNat
  | _ => none

/-- **An address that is not negative reads back as itself.** -/
theorem parse?_render {a : Int} (h : 0 ≤ a) : parse? (render a) = some a := by
  have hs : (render a).toList = '0' :: 'x' :: Nat.toDigits 16 a.natAbs := by
    simp [render, Int.not_lt.2 h]
  rw [parse?, hs]
  show (Numeral.read? 16 (Nat.toDigits 16 a.natAbs)).map Int.ofNat = some a
  rw [Numeral.read?_toDigits (by decide) (by decide)]
  exact congrArg some (Int.natAbs_of_nonneg h)

end Address

end HeapReplay
