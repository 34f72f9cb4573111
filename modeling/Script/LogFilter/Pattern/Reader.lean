import Script.LogFilter.Pattern.Basic
import Script.Text.Blank

/-!
# Reading patterns

A reader takes characters off a text and changes the flags on its way. It fails on a text that is
no pattern; every such text is rejected in the same words, so that a failure carries no reason.
-/

namespace Script

namespace LogFilter

/-- Where a reader stands: the text that is left, and what has been read before that still
matters. -/
structure ReaderState where
  rest : List Char
  flags : Flags
  /-- The names of the groups so far. -/
  names : List (List Char)
deriving DecidableEq, Repr

/-- Readers of patterns and their parts. They fail without a reason, since all faults of a pattern
are reported alike. -/
abbrev Reader := StateT ReaderState Option

namespace Reader

/-- The next character, if there is one. -/
def peek : Reader (Option Char) := return (← get).rest.head?

/-- Takes the next character off the text, which must not be at its end. -/
def next : Reader Char := fun s =>
  match s.rest with
  | [] => none
  | c :: rest => some (c, { s with rest := rest })

/-- Takes the next character off the text if it is this one, and tells whether it was. -/
def accept (c : Char) : Reader Bool := fun s =>
  match s.rest with
  | [] => some (false, s)
  | d :: rest => some (if c = d then (true, { s with rest := rest }) else (false, s))

/-- Takes these characters off the text if it goes on with them, and tells whether it did. -/
def acceptAll (text : List Char) : Reader Bool := fun s =>
  some (if text.isPrefixOf s.rest then (true, { s with rest := s.rest.drop text.length })
    else (false, s))

/-- Fails unless a condition holds that the pattern has to meet at this place. -/
def require (condition : Bool) : Reader Unit := if condition then pure () else failure

/-! ## Blanks and comments -/

/-- A text without the blanks and comments at its beginning, or inside a comment without the rest of
that. A comment goes from a number sign to the end of the line. -/
def dropTrivia (inComment : Bool) : List Char → List Char
  | [] => []
  | c :: rest =>
    if inComment then dropTrivia (decide (c ≠ '\n')) rest
    else if Text.isBlank c then dropTrivia false rest
    else if c = '#' then dropTrivia true rest
    else c :: rest

/-- Skips blanks and comments if they mean nothing. -/
def skipTrivia : Reader Unit :=
  modify fun s => if s.flags.verbose then { s with rest := dropTrivia false s.rest } else s

/-- The character that tells whether a hyphen makes a range: the next one, or the next one after
blanks if those mean nothing. Of a comment only the number sign is passed over. -/
def afterHyphen (verbose : Bool) (rest : List Char) : Option Char :=
  if verbose then
    let ahead := rest.dropWhile Text.isBlank
    let ahead := match ahead with
      | '#' :: comment => comment.dropWhile Text.isBlank
      | _ => ahead
    ahead.head?.or rest.head?
  else rest.head?

end Reader

end LogFilter

end Script
