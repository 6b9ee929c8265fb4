/-!
# Decoding UTF-8

Bytes become characters strictly: no overlong forms, no surrogates, nothing beyond the last code
point, and no replacement for what does not fit.  A byte order mark is a character like any other.

**Where a fault lies.**  A byte that can begin no character is a fault of its own.  A sequence that
goes wrong later is at fault from its first byte up to the last byte that still fitted; the byte
that did not fit is not part of it.
-/

namespace HeapReplay.Text.Utf8

/-- What is wrong with a sequence of bytes. -/
inductive Reason where
  /-- The byte can begin no character. -/
  | start
  /-- The next byte cannot go on with the character. -/
  | continuation
  /-- The bytes end inside a character. -/
  | truncated
deriving DecidableEq, Repr

/-- The wording of a reason. -/
def Reason.text : Reason → String
  | start => "invalid start byte"
  | continuation => "invalid continuation byte"
  | truncated => "unexpected end of data"

/-- Bytes that are no character: the first of them, its position, and how many they are. -/
structure Fault where
  byte : UInt8
  position : Nat
  length : Nat
  reason : Reason
deriving DecidableEq, Repr

/-- The message about bytes that are no character. -/
def Fault.message (f : Fault) : String :=
  let digits := Nat.toDigits 16 f.byte.toNat
  let hex := String.ofList (List.replicate (2 - digits.length) '0' ++ digits)
  let place :=
    if f.length = 1 then s!"byte 0x{hex} in position {f.position}"
    else s!"bytes in position {f.position}-{f.position + f.length - 1}"
  s!"'utf-8' codec can't decode {place}: {f.reason.text}"

/-- A character that has begun: its first byte with the position, how many bytes it has so far, the
bits they hold, how many more bytes it takes, and between which two values the next one lies. -/
structure Begun where
  byte : UInt8
  position : Nat
  length : Nat
  bits : Nat
  owed : Nat
  low : Nat
  high : Nat
deriving DecidableEq, Repr

/-- The fault of a character that cannot go on. -/
def Begun.fault (b : Begun) (reason : Reason) : Fault :=
  { byte := b.byte, position := b.position, length := b.length, reason }

/-- The character that a byte beyond ASCII begins.  The bounds on the second byte are what keeps
overlong forms, surrogates and too large code points out. -/
def begin? (position : Nat) (byte : UInt8) : Option Begun :=
  let n := byte.toNat
  let sequence (bits owed low high : Nat) : Option Begun :=
    some { byte, position, length := 1, bits, owed, low, high }
  if n < 0xc2 then none
  else if n < 0xe0 then sequence (n - 0xc0) 1 0x80 0xbf
  else if n = 0xe0 then sequence 0 2 0xa0 0xbf
  else if n = 0xed then sequence 13 2 0x80 0x9f
  else if n < 0xf0 then sequence (n - 0xe0) 2 0x80 0xbf
  else if n = 0xf0 then sequence 0 3 0x90 0xbf
  else if n < 0xf4 then sequence (n - 0xf0) 3 0x80 0xbf
  else if n = 0xf4 then sequence 4 3 0x80 0x8f
  else none

/-- The characters of the bytes from a position on, where a character may have begun before. -/
def decodeFrom (position : Nat) (begun : Option Begun) : List UInt8 → Except Fault (List Char)
  | [] =>
    match begun with
    | none => .ok []
    | some b => .error (b.fault .truncated)
  | byte :: rest =>
    match begun with
    | none =>
      if byte.toNat < 0x80 then do
        return Char.ofNat byte.toNat :: (← decodeFrom (position + 1) none rest)
      else
        match begin? position byte with
        | some b => decodeFrom (position + 1) (some b) rest
        | none => .error { byte, position, length := 1, reason := .start }
    | some b =>
      if b.low ≤ byte.toNat ∧ byte.toNat ≤ b.high then
        let bits := b.bits * 0x40 + (byte.toNat - 0x80)
        if b.owed = 1 then do
          return Char.ofNat bits :: (← decodeFrom (position + 1) none rest)
        else
          let longer : Begun :=
            { b with length := b.length + 1, bits, owed := b.owed - 1, low := 0x80, high := 0xbf }
          decodeFrom (position + 1) (some longer) rest
      else .error (b.fault .continuation)

/-- The characters that some bytes encode. -/
def decode (bytes : List UInt8) : Except Fault (List Char) :=
  decodeFrom 0 none bytes

end HeapReplay.Text.Utf8
