import Script.Number.Decimal
import Script.Token.Basic

/-!
# Scanning

A source is cut into *pieces*, each as long as the rules allow: tokens, blanks and comments, and
the two things that are neither. The pieces tile the source: nothing of it is lost, and none of it
is in two pieces (`text_pieces`). Their byte offsets are then the running sums of their lengths,
blanks and comments are dropped, and an end-of-file token closes the list.
-/

namespace Script

/-! ## Character classes

The language is written in ASCII; other characters occur only in strings and comments. -/

def isBlank (c : Char) : Bool := c = ' ' || c = '\t' || c = '\r' || c = '\n'

def isLetter (c : Char) : Bool :=
  decide ('a' ≤ c) && decide (c ≤ 'z') || decide ('A' ≤ c) && decide (c ≤ 'Z') || c = '_'

def isWordCharacter (c : Char) : Bool := isLetter c || Decimal.isDigit c

/-! ## Pieces -/

/-- What a piece of the source is. -/
inductive Shape where
  /-- A blank or a comment. -/
  | trivia
  | token (kind : TokenKind)
  /-- A character that starts no token. -/
  | unexpected (character : Char)
  /-- A quote that no later quote closes, with everything after it. -/
  | openString
deriving DecidableEq, Repr

/-- A piece of the source and its text. -/
structure Piece where
  shape : Shape
  text : List Char
deriving DecidableEq, Repr

/-- The kinds whose tokens are one character that no longer token starts with. -/
def punctuation? : Char → Option TokenKind
  | '(' => some .leftParen
  | ')' => some .rightParen
  | '{' => some .leftBrace
  | '}' => some .rightBrace
  | ',' => some .comma
  | '.' => some .dot
  | '-' => some .minus
  | '+' => some .plus
  | ';' => some .semicolon
  | '*' => some .star
  | '/' => some .slash
  | _ => none

/-- The kinds of the operators that an equals sign may extend: alone, and extended. -/
def extendable? : Char → Option (TokenKind × TokenKind)
  | '!' => some (.bang, .bangEqual)
  | '=' => some (.equal, .equalEqual)
  | '<' => some (.less, .lessEqual)
  | '>' => some (.greater, .greaterEqual)
  | _ => none

/-- The keyword with this spelling. All other words are identifiers. -/
def keyword? : String → Option TokenKind
  | "and" => some .kwAnd
  | "class" => some .kwClass
  | "else" => some .kwElse
  | "false" => some .kwFalse
  | "fun" => some .kwFun
  | "for" => some .kwFor
  | "if" => some .kwIf
  | "nil" => some .kwNil
  | "or" => some .kwOr
  | "print" => some .kwPrint
  | "return" => some .kwReturn
  | "super" => some .kwSuper
  | "this" => some .kwThis
  | "true" => some .kwTrue
  | "var" => some .kwVar
  | "while" => some .kwWhile
  | _ => none

/-- The kind of the token that a whole word is. -/
def wordKind (word : List Char) : TokenKind :=
  (keyword? (String.ofList word)).getD .identifier

/-- How many of the characters after a first digit belong to the same numeral: the digits, and a
point with the digits after it when there is at least one. -/
def numeralExtent (rest : List Char) : Nat :=
  let whole := (rest.takeWhile Decimal.isDigit).length
  match rest.drop whole with
  | '.' :: fraction =>
    match (fraction.takeWhile Decimal.isDigit).length with
    | 0 => whole
    | digits => whole + 1 + digits
  | _ => whole

/-- The shape of the piece that starts with the character `c` before `rest`, and how many
characters of `rest` belong to it. -/
def firstPiece (c : Char) (rest : List Char) : Shape × Nat :=
  if isBlank c then (.trivia, 0)
  else if c = '/' ∧ rest.head? = some '/' then (.trivia, (rest.takeWhile (· ≠ '\n')).length)
  else if c = '"' then
    let inside := (rest.takeWhile (· ≠ '"')).length
    if inside < rest.length then (.token .string, inside + 1) else (.openString, inside)
  else if Decimal.isDigit c then (.token .number, numeralExtent rest)
  else if isLetter c then
    let others := (rest.takeWhile isWordCharacter).length
    (.token (wordKind (c :: rest.take others)), others)
  else match punctuation? c, extendable? c with
    | some kind, _ => (.token kind, 0)
    | none, some (alone, extended) =>
      if rest.head? = some '=' then (.token extended, 1) else (.token alone, 0)
    | none, none => (.unexpected c, 0)

/-- Cuts a text into pieces, which put together give the text again. The first character decides
what kind of piece begins, and each piece has one character at least. -/
def pieces : List Char → List Piece
  | [] => []
  | c :: rest =>
    let (shape, extent) := firstPiece c rest
    ⟨shape, c :: rest.take extent⟩ :: pieces (rest.drop extent)
termination_by text => text.length
decreasing_by simp only [List.length_drop, List.length_cons]; omega

/-- The pieces of a text, one after the other, are the text. -/
theorem text_pieces (text : List Char) : (pieces text).flatMap Piece.text = text := by
  fun_induction pieces text with
  | case1 => rfl
  | case2 c rest shape extent _ ih => simp [ih]

/-! ## Items -/

/-- Why a part of a source is no token. -/
inductive ScanError where
  | unexpectedCharacter (character : Char)
  | unterminatedString
deriving DecidableEq, Repr

namespace ScanError

/-- The wording of the error, without its place. -/
def message : ScanError → String
  | unexpectedCharacter character => "Unexpected character '" ++ character.toString ++ "'"
  | unterminatedString => "Unterminated string"

end ScanError

/-- What scanning finds, in the order of the source: tokens, and errors with their places. -/
inductive ScanItem where
  | token (token : Token)
  | error (error : ScanError) (span : Span)
deriving DecidableEq, Repr

/-- What a token of this kind and text stands for, if it is a literal. -/
def literal? (kind : TokenKind) (text : List Char) : Option Literal :=
  match kind with
  | .number => some (.number (Decimal.ofText text).nearest)
  | .string => some (.string (String.ofList text.tail.dropLast))
  | .kwTrue => some (.boolean true)
  | .kwFalse => some (.boolean false)
  | _ => none

/-- The item that a piece at this place is, if it is not skipped. -/
def Piece.item? (piece : Piece) (span : Span) : Option ScanItem :=
  match piece.shape with
  | .trivia => none
  | .token kind =>
    some (.token ⟨kind, String.ofList piece.text, literal? kind piece.text, span⟩)
  | .unexpected character => some (.error (.unexpectedCharacter character) span)
  | .openString => some (.error .unterminatedString span)

/-- The items of pieces that start at the byte `start`, with an end-of-file token after them. -/
def itemsFrom (start : Nat) : List Piece → List ScanItem
  | [] => [.token (.endOfFile ⟨start, start⟩)]
  | piece :: rest =>
    let stop := start + utf8Length piece.text
    (piece.item? ⟨start, stop⟩).toList ++ itemsFrom stop rest

/-- Everything that scanning a source finds, ending with the end-of-file token. -/
def scan (source : String) : List ScanItem := itemsFrom 0 (pieces source.toList)

/-- The token of an item, if it is one. -/
def ScanItem.token? : ScanItem → Option Token
  | .token t => some t
  | .error _ _ => none

/-- The error of an item, if it is one. -/
def ScanItem.error? : ScanItem → Option (ScanError × Span)
  | .token _ => none
  | .error e span => some (e, span)

/-- The tokens of a source, in order. -/
def tokens (source : String) : List Token := (scan source).filterMap ScanItem.token?

/-- The scan errors of a source, in order. -/
def scanErrors (source : String) : List (ScanError × Span) :=
  (scan source).filterMap ScanItem.error?

end Script
