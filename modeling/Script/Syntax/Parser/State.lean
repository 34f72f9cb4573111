import Script.Syntax.Parser.Error

/-!
# The state of the parser

The parser looks one token ahead. An end-of-file token is never consumed, so that the parser may
ask for more tokens at the end of the input; a row of tokens that lacks one ends as if there were
one. The functions below are the only ones that look at the remaining tokens.

Every parsing function takes a bound on the number of nested calls. `outOfFuel` is the outcome of
a bound that was too small; it is no verdict about the tokens.
-/

namespace Script

namespace Parser

/-- The tokens not consumed yet, the place of the last one consumed, and the errors found so
far. -/
structure State where
  rest : List Token
  last : Span
  errors : List SyntaxError
deriving DecidableEq, Repr

/-- Why a parsing function gave up. The second reason is none that a user gets to see: the fuel is
chosen large enough. -/
inductive Stop where
  | syntaxError (error : SyntaxError)
  | outOfFuel
deriving DecidableEq, Repr

end Parser

/-- A parsing function: it moves forward in the tokens and yields a result, or gives up at the
place that it has reached. -/
abbrev Parser := EStateM Parser.Stop Parser.State

namespace Parser

/-- The kind of the next token; end of file when there is none. -/
def State.nextKind (s : State) : TokenKind :=
  match s.rest with
  | [] => .endOfFile
  | token :: _ => token.kind

/-- The place of the next token; that of the last one consumed when there is none. -/
def State.nextSpan (s : State) : Span :=
  match s.rest with
  | [] => s.last
  | token :: _ => token.span

/-- The kind of the next token, which is not consumed. -/
def peek : Parser TokenKind := fun s => .ok s.nextKind s

/-- Consumes the next token if it is of one of these kinds. -/
def accept (kinds : List TokenKind) : Parser (Option Token) := fun s =>
  match s.rest with
  | [] => .ok none s
  | token :: rest =>
    if token.kind ∈ kinds then .ok (some token) { s with rest := rest, last := token.span }
    else .ok none s

/-- Gives up at the next token, which is not what the grammar expects. -/
def reject (expected : Expectation) : Parser α := fun s =>
  .error (.syntaxError ⟨.unexpected expected s.nextKind, s.nextSpan⟩) s

/-- Consumes the next token, which has to be of this kind. -/
def expect (kind : TokenKind) (expected : Expectation) : Parser Token := do
  match ← accept [kind] with
  | some token => pure token
  | none => reject expected

/-- Notes an error and goes on, where the parser still knows what it reads. -/
def report (error : SyntaxError) : Parser Unit := fun s =>
  .ok () { s with errors := s.errors ++ [error] }

/-- The outcome of a bound on nested calls that was too small. -/
def exhausted : Parser α := fun s => .error .outOfFuel s

/-! ## Recovery -/

/-- The keywords that start a declaration or a statement. -/
def startsStatement (kind : TokenKind) : Bool :=
  kind ∈ [.kwClass, .kwFun, .kwVar, .kwFor, .kwIf, .kwWhile, .kwPrint, .kwReturn]

/-- Skips to a place where a statement may begin: just past a semicolon, before a keyword that
starts a statement, or before the end. Yields the place of the last token skipped, `last` if there
is none, and the remaining tokens. -/
def skipStatement (last : Span) : List Token → Span × List Token
  | [] => (last, [])
  | token :: rest =>
    -- The keyword is left for the next statement, while the semicolon belongs to the one skipped.
    if token.kind = .endOfFile || startsStatement token.kind then (last, token :: rest)
    else if token.kind = .semicolon then (token.span, rest)
    else skipStatement token.span rest

/-- Skips to a place where a statement may begin. -/
def synchronize : Parser Unit := fun s =>
  let (last, rest) := skipStatement s.last s.rest
  .ok () { s with rest := rest, last := last }

/-- Runs `parser`; a syntax error is noted, and parsing can go on at the next statement. -/
def recovering (parser : Parser α) : Parser (Option α) := fun s =>
  match parser s with
  | .ok a s => .ok (some a) s
  | .error (.syntaxError error) s => (do report error; synchronize; pure none) s
  | .error .outOfFuel s => .error .outOfFuel s

end Parser

end Script
