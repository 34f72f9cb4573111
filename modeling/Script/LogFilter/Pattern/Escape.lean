import Script.LogFilter.Pattern.Reader

/-!
# Escapes

What a backslash and the characters after it stand for, and which characters may stand for
themselves.
-/

namespace Script

namespace LogFilter

/-- A single thing in a pattern, written with a backslash or as itself. -/
inductive Single where
  /-- A character, and whether it is written by two hexadecimal digits. -/
  | character (c : Char) (byHexPair : Bool)
  /-- The digits, blanks or word characters, or all others. -/
  | named (negated : Bool)
  /-- A position, and whether it is one between words. -/
  | position (betweenWords : Bool)
deriving DecidableEq, Repr

namespace Flags

/-- Whether a character may stand in a pattern. Where case is ignored none may, for lack of a table
of cases, except that patterns about bytes only know the cases of ASCII. Two hexadecimal digits
stand for a byte in those, and a byte outside ASCII is no text. -/
def admits (flags : Flags) (c : Char) (byHexPair : Bool) : Bool :=
  if flags.unicode then !flags.ignoreCase else !byHexPair || decide (c.toNat < 128)

/-- Whether a set of characters may stand in a pattern. -/
def admitsSet (flags : Flags) : CharSet → Bool
  | .bracketed negated inner =>
    if flags.unicode then !flags.ignoreCase || inner.isVacant
    else (CharSet.bracketed negated inner).isAscii
  | _ => false

end Flags

namespace Reader

/-- The value of a hexadecimal digit, in either case. -/
def hexValue? (c : Char) : Option Nat :=
  if c.isDigit then some (c.toNat - '0'.toNat)
  else if decide ('a' ≤ c) && decide (c ≤ 'f') then some (c.toNat - 'a'.toNat + 10)
  else if decide ('A' ≤ c) && decide (c ≤ 'F') then some (c.toNat - 'A'.toNat + 10)
  else none

/-- Reads so many hexadecimal digits; `value` is that of the digits before them. -/
def hexDigits : Nat → Nat → Reader Nat
  | 0, value => pure value
  | count + 1, value => do
    skipTrivia
    match hexValue? (← next) with
    | some digit => hexDigits count (16 * value + digit)
    | none => failure

/-- Reads the hexadecimal digits of a character. -/
def hexCharacter (count : Nat) : Reader Single := do
  let value ← hexDigits count 0
  require (decide value.isValidChar)
  pure (.character (Char.ofNat value) (count == 2))

/-- Whether a character stands for itself after a backslash. -/
def isEscapable (c : Char) : Bool :=
  decide (c.toNat < 128) && !c.isAlphanum && decide (c ≠ '<') && decide (c ≠ '>')

/-- Reads what follows a backslash. There are no references to groups and no classes of characters
by their properties. -/
def escape : Reader Single := do
  let c ← next
  if isEscapable c then return .character c false
  match c with
  | 'x' => hexCharacter 2
  | 'u' => hexCharacter 4
  | 'U' => hexCharacter 8
  | 'd' | 's' | 'w' => pure (.named false)
  | 'D' | 'S' | 'W' => pure (.named true)
  | 'a' => pure (.character '\x07' false)
  | 't' => pure (.character '\t' false)
  | 'n' => pure (.character '\n' false)
  | 'v' => pure (.character '\x0b' false)
  | 'f' => pure (.character '\x0c' false)
  | 'r' => pure (.character '\r' false)
  | 'A' | 'z' => pure (.position false)
  | 'b' | 'B' | '<' | '>' => pure (.position true)
  | _ => failure

end Reader

end LogFilter

end Script
