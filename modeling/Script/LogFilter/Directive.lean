import Script.LogFilter.Field
import Script.Source.Span

/-!
# Directives

A log filter is a row of directives with commas between them. A directive is a level alone, or it
says which part of the program it is for, as in `target[span{field}]=level`. A directive that does
not have this form is ignored, with a warning.

Blanks around a directive do not matter for its form. But its parts are looked for in the directive
as it was given, at the bytes where they are without the blanks. A part that would start or end
inside a character ends the program.
-/

namespace Script

namespace LogFilter

/-- Why a directive is ignored. The other directives of the filter still count. -/
inductive DirectiveError where
  | malformed
  | unknownLevel
  | field (error : PatternError)
deriving DecidableEq, Repr

namespace DirectiveError

/-- The wording of the error, which is printed as a warning. -/
def message : DirectiveError → String
  | malformed => "invalid filter directive"
  | unknownLevel =>
    "error parsing level filter: expected one of \"off\", \"error\", \"warn\", \"info\", " ++
      "\"debug\", \"trace\", or a number 0-5"
  | field error => "invalid field filter: " ++ error.message

end DirectiveError

/-- What keeps a directive from being used. -/
inductive DirectiveFault where
  | ignored (error : DirectiveError)
  /-- A part starts or ends inside a character. -/
  | torn
deriving DecidableEq, Repr

/-! ## Parts -/

/-- The part of a directive from one byte on up to another. -/
def cut (directive : List Char) (start stop : Nat) : Except DirectiveFault (List Char) :=
  match (dropBytes? start directive).bind (takeBytes? (stop - start)) with
  | some text => .ok text
  | none => .error .torn

/-- The words for levels, from the one that lets nothing through to the one that lets everything
through. A number from 0 to 5 may stand in their place. -/
def levelWords : List String := ["off", "error", "warn", "info", "debug", "trace"]

/-- Whether a text is the number of a level. -/
def isLevelNumber (text : List Char) : Bool :=
  let digits := match text with
    | '+' :: digits => digits
    | _ => text
  match digits.reverse with
  | last :: zeros => zeros.all (· = '0') && decide ('0' ≤ last) && decide (last ≤ '5')
  | [] => false

/-- Whether a text is a level. A word may be in any case of letters. -/
def isLevel (text : List Char) : Bool :=
  levelWords.contains (String.ofList (text.map Char.toLower)) || isLevelNumber text

/-! ## Directives -/

/-- How far a directive has been read. Parts that have to be cut out start at a byte. -/
inductive DirectivePart where
  | start
  /-- A target, or a level alone. -/
  | name
  | span (first : Nat)
  | field (first : Nat)
  | afterField
  | afterSpan
  /-- The level after an equals sign. -/
  | level (first : Nat)
deriving DecidableEq, Repr

namespace DirectivePart

/-- The part that a character at some byte belongs to, or that it opens. A part that it closes is
cut out of the directive. -/
def next (directive : List Char) (part : DirectivePart) (offset : Nat) (c : Char) :
    Except DirectiveFault DirectivePart :=
  let malformed := .error (.ignored .malformed)
  match part, c with
  | start, '[' => .ok (span 1)
  | start, _ =>
    if c = '-' ∨ c = ':' ∨ c = '_' ∨ Text.isAlphanumeric c then .ok name else malformed
  | name, '=' => (cut directive 0 offset).map fun _ => level (offset + 1)
  | name, '[' => (cut directive 0 offset).map fun _ => span (offset + 1)
  | name, _ => .ok name
  | span first, ']' => (cut directive first offset).map fun _ => afterSpan
  | span first, '{' => (cut directive first offset).map fun _ => field (offset + 1)
  | span first, _ => .ok (span first)
  | field first, '}' => do
    let text ← cut directive first offset
    if text = [] then malformed
    else
      match fieldError? text with
      | some error => .error (.ignored (.field error))
      | none => .ok afterField
  | field first, _ => .ok (field first)
  | afterField, ']' => .ok afterSpan
  | afterField, _ => malformed
  | afterSpan, '=' => .ok (level (offset + 1))
  | afterSpan, _ => malformed
  | level first, _ => .ok (level first)

/-- The part in which a text ends that goes on at some byte. -/
def last (directive : List Char) (part : DirectivePart) (offset : Nat) :
    List Char → Except DirectiveFault DirectivePart
  | [] => .ok part
  | c :: rest => do
    let part ← part.next directive offset c
    part.last directive (offset + c.utf8Size) rest

end DirectivePart

/-- Reads a directive, and fails unless it can be used. -/
def checkDirective (directive : List Char) : Except DirectiveFault Unit := do
  match ← DirectivePart.start.last directive 0 (Text.trim directive) with
  | .name | .afterSpan => .ok ()
  | .level first =>
    let level ← cut directive first (utf8Length directive)
    if level = [] ∨ isLevel level then .ok () else .error (.ignored .unknownLevel)
  | _ => .error (.ignored .malformed)

/-! ## Filters -/

/-- The warnings about the directives of a filter that are ignored, and whether a torn one ended
the reading. -/
def readDirectives : List String → List String × Bool
  | [] => ([], false)
  | directive :: rest =>
    match checkDirective directive.toList with
    | .ok () => readDirectives rest
    | .error (.ignored error) =>
      let (warnings, torn) := readDirectives rest
      (("ignoring `" ++ directive ++ "`: " ++ error.message) :: warnings, torn)
    | .error .torn => ([], true)

/-- Reads a filter. Nothing between two commas is no directive. -/
def readFilter (filter : String) : List String × Bool :=
  readDirectives ((filter.splitOn ",").filter (· ≠ ""))

end LogFilter

end Script
