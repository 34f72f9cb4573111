import Script.Number.Basic
import Script.Source.Span

/-!
# Tokens

The words of the language: punctuation, operators, identifiers, literals and keywords, each kept
with its text and its place in the source.
-/

namespace Script

/-- The kinds of token: punctuation and operators, what carries a text of its own, keywords, and the
end of the input. -/
inductive TokenKind where
  | leftParen | rightParen | leftBrace | rightBrace
  | comma | dot | minus | plus | semicolon | slash | star
  | bang | bangEqual | equal | equalEqual
  | greater | greaterEqual | less | lessEqual
  | identifier | string | number
  | kwAnd | kwClass | kwElse | kwFalse | kwFun | kwFor | kwIf | kwNil
  | kwOr | kwPrint | kwReturn | kwSuper | kwThis | kwTrue | kwVar | kwWhile
  | endOfFile
deriving DecidableEq, Repr

namespace TokenKind

/-- The kinds that have one spelling only, with that spelling. -/
def spellings : List (TokenKind × String) :=
  [(leftParen, "("), (rightParen, ")"), (leftBrace, "\x7b"), (rightBrace, "\x7d"),
   (comma, ","), (dot, "."), (minus, "-"), (plus, "+"), (semicolon, ";"), (slash, "/"),
   (star, "*"), (bang, "!"), (bangEqual, "!="), (equal, "="), (equalEqual, "=="),
   (greater, ">"), (greaterEqual, ">="), (less, "<"), (lessEqual, "<="),
   (kwAnd, "and"), (kwClass, "class"), (kwElse, "else"), (kwFalse, "false"), (kwFun, "fun"),
   (kwFor, "for"), (kwIf, "if"), (kwNil, "nil"), (kwOr, "or"), (kwPrint, "print"),
   (kwReturn, "return"), (kwSuper, "super"), (kwThis, "this"), (kwTrue, "true"),
   (kwVar, "var"), (kwWhile, "while")]

/-- The spelling of a kind, unless its tokens may be spelled in several ways. -/
def spelling? (kind : TokenKind) : Option String :=
  (spellings.find? fun entry => entry.1 = kind).map (·.2)

/-- How a report names a kind: the spelling between quotes, or a word for the kind. -/
def description : TokenKind → String
  | identifier => "identifier"
  | string => "string"
  | number => "number"
  | endOfFile => "end of file"
  | kind => "'" ++ kind.spelling?.getD "" ++ "'"

end TokenKind

/-- What a literal token stands for. The literal `nil` carries nothing and is told by its kind. -/
inductive Literal where
  | number (value : Number)
  | string (value : String)
  | boolean (value : Bool)
deriving DecidableEq, Repr

/-- A word of the source. `literal` is present for numbers, strings, `true` and `false`. -/
structure Token where
  kind : TokenKind
  lexeme : String
  literal : Option Literal
  span : Span
deriving DecidableEq, Repr

namespace Token

/-- The token that marks the end of a source, an empty text at `span`. -/
def endOfFile (span : Span) : Token := ⟨.endOfFile, "", none, span⟩

end Token

end Script
