import Script.Source.Span

/-!
# Positions

Reports name a place by line and column. Both count from one; a column counts characters, not
bytes, and only a line feed ends a line.
-/

namespace Script

/-- A line and a column, both counted from one. -/
structure Position where
  line : Nat
  column : Nat
deriving DecidableEq, Repr

namespace Position

/-- The position of the first character of every source. -/
def first : Position := ⟨1, 1⟩

/-- The position just after a character that stands at `p`. -/
def after (p : Position) (c : Char) : Position :=
  if c = '\n' then ⟨p.line + 1, 1⟩ else ⟨p.line, p.column + 1⟩

/--
The position that the byte `offset` of `text` has, when `text` itself starts at `p`. A byte inside
a character has the position of the character, and a byte past the end that of the end.
-/
def locateFrom (p : Position) : List Char → Nat → Position
  | [], _ => p
  | c :: text, offset =>
    if offset < c.utf8Size then p else locateFrom (p.after c) text (offset - c.utf8Size)

/-- The position of the byte `offset` of a source. -/
def locate (source : String) (offset : Nat) : Position :=
  locateFrom first source.toList offset

end Position

/-- The report of `message` about the place where `span` starts in `source`. -/
def Span.report (span : Span) (source : String) (message : String) : String :=
  let position := Position.locate source span.start
  "[line " ++ toString position.line ++ ", column " ++ toString position.column ++ "] Error: "
    ++ message

end Script
