import Script.Text.Invisible
import Script.Text.Marks

/-!
# Quoted texts

A text between quotes, in which quotes, backslashes and characters that do not show by themselves
are written as escapes, so that the text can be told exactly.
-/

namespace Script

namespace Text

/-- The escape of a character by the number of its code point. -/
def numericEscape (c : Char) : List Char :=
  ['\\', 'u', '{'] ++ Nat.toDigits 16 c.toNat ++ ['}']

/-- A character as it is written between quotes. -/
def escape (c : Char) : List Char :=
  match c with
  | '"' => ['\\', '"']
  | '\\' => ['\\', '\\']
  | '\n' => ['\\', 'n']
  | '\r' => ['\\', 'r']
  | '\t' => ['\\', 't']
  | _ =>
    if c.toNat = 0 then ['\\', '0']
    else if isInvisible c || isMark c then numericEscape c
    else [c]

/-- A text between quotes, in which what would end it or would not show is escaped. -/
def quoted (text : String) : String :=
  String.ofList ('"' :: text.toList.flatMap escape ++ ['"'])

end Text

end Script
