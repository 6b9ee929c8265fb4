import HeapReplay.Text.Printable

/-!
# Quoted text

A message shows a text that it was given between quotes, so that no character of it can be taken
for a part of the message.

* The quotes are single ones, or double ones if the text holds a single quote and no double one.
* A backslash goes before the quote in use and before a backslash.
* A newline, a carriage return and a tab are written `\n`, `\r` and `\t`.
* Every other character that is not printable is written as its code point in two, four or eight
  hexadecimal digits after `\x`, `\u` or `\U`, the shortest that fits.
-/

namespace HeapReplay.Text

/-- A number in hexadecimal, filled up with zeros to a width. -/
def hexPadded (width n : Nat) : List Char :=
  let digits := Nat.toDigits 16 n
  List.replicate (width - digits.length) '0' ++ digits

/-- The code point of a character after a backslash and the letter for its width. -/
def escapeCode (c : Char) : List Char :=
  if c.toNat < 0x100 then '\\' :: 'x' :: hexPadded 2 c.toNat
  else if c.toNat < 0x10000 then '\\' :: 'u' :: hexPadded 4 c.toNat
  else '\\' :: 'U' :: hexPadded 8 c.toNat

/-- A character of a text that stands between the given quotes. -/
def escapeChar (quote c : Char) : List Char :=
  if c = quote ∨ c = '\\' then ['\\', c]
  else if c = '\n' then ['\\', 'n']
  else if c = '\r' then ['\\', 'r']
  else if c = '\t' then ['\\', 't']
  else if isPrintable c then [c]
  else escapeCode c

/-- The quotes that a text is put between. -/
def quoteFor (cs : List Char) : Char :=
  if cs.contains '\x27' && !cs.contains '\x22' then '\x22' else '\x27'

/-- A text between quotes. -/
def quoted (s : String) : String :=
  let quote := quoteFor s.toList
  String.ofList (quote :: s.toList.flatMap (escapeChar quote) ++ [quote])

end HeapReplay.Text
