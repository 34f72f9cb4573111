import Script.Syntax.Parser.State
import Script.Syntax.Tree

/-!
# Parsing expressions

From the loosest to the tightest: assignment, the six levels of binary operators, unary operators,
calls and property accesses, and primary expressions. Assignment groups to the right, the binary
operators to the left.
-/

namespace Script

namespace Parser

/-- The binary operators by level, the loosest level first. -/
def operatorLevels : List (List TokenKind) :=
  [[.kwOr], [.kwAnd], [.bangEqual, .equalEqual], [.greater, .greaterEqual, .lessEqual, .less],
   [.plus, .minus], [.star, .slash]]

/-- The kinds of the tokens that start a primary expression. -/
def primaryKinds : List TokenKind :=
  [.kwFalse, .kwTrue, .kwNil, .number, .string, .identifier, .kwThis, .kwSuper, .leftParen]

mutual

/-- An assignment, or an expression of a tighter level. What stands left of `=` is known to be no
target only after it has been parsed; the error does not stop the parser. -/
def expression : Nat → Parser Expr
  | 0 => exhausted
  | fuel + 1 => do
    let target ← binary fuel operatorLevels
    match ← accept [.equal] with
    | none => pure target
    | some equals =>
      let value ← expression fuel
      match target with
      -- A variable keeps its equals sign as an operator; only properties have a node of their own.
      | .variable name => pure (.binary (.variable name) equals value)
      | .get object name => pure (.set object name value)
      -- The value has been read already, so the parser goes on behind it.
      | other =>
        report ⟨.invalidAssignmentTarget, equals.span⟩
        pure other

/-- Operands joined by the operators of the first of these levels, each operand an expression of
the levels after it. -/
def binary : Nat → List (List TokenKind) → Parser Expr
  | 0, _ => exhausted
  | fuel + 1, [] => unary fuel
  | fuel + 1, operators :: tighter => do
    let first ← binary fuel tighter
    binaryRest fuel operators tighter first

/-- What follows the first operand of a level; `left` is the tree of what came before. -/
def binaryRest : Nat → List TokenKind → List (List TokenKind) → Expr → Parser Expr
  | 0, _, _, _ => exhausted
  | fuel + 1, operators, tighter, left => do
    match ← accept operators with
    | none => pure left
    | some operator =>
      let right ← binary fuel tighter
      -- The operators of a level group to the left.
      binaryRest fuel operators tighter (.binary left operator right)

/-- A call chain with unary operators before it. -/
def unary : Nat → Parser Expr
  | 0 => exhausted
  | fuel + 1 => do
    match ← accept [.bang, .minus] with
    | some operator =>
      -- Operators group to the right.
      let operand ← unary fuel
      pure (.unary operator operand)
    | none =>
      let first ← primary fuel
      chain fuel first

/-- The calls and property accesses that follow a primary expression. -/
def chain : Nat → Expr → Parser Expr
  | 0, _ => exhausted
  | fuel + 1, callee => do
    match ← accept [.leftParen, .dot] with
    | none => pure callee
    | some token =>
      if token.kind = .leftParen then
        let arguments ← arguments fuel
        chain fuel (.call callee token arguments)
      else
        let name ← expect .identifier .propertyName
        chain fuel (.get callee name)

/-- The arguments of a call, after its opening parenthesis, and the closing one. -/
def arguments : Nat → Parser (List Expr)
  | 0 => exhausted
  | fuel + 1 => do
    match ← accept [.rightParen] with
    | some _ => pure []
    | none => argumentRow fuel

/-- One or more arguments with commas between them, and the closing parenthesis. -/
def argumentRow : Nat → Parser (List Expr)
  | 0 => exhausted
  | fuel + 1 => do
    let first ← expression fuel
    match ← accept [.comma] with
    | some _ =>
      let others ← argumentRow fuel
      pure (first :: others)
    | none =>
      let _ ← expect .rightParen .argumentsEnd
      pure [first]

/-- A literal, a name, `this`, a member of the superclass, or an expression in parentheses. -/
def primary : Nat → Parser Expr
  | 0 => exhausted
  | fuel + 1 => do
    match ← accept primaryKinds with
    | none => reject .expression
    | some token =>
      match token.kind with
      | .identifier => pure (.variable token)
      | .kwThis => pure (.this token)
      | .kwSuper => superMember fuel token
      | .leftParen =>
        let inner ← expression fuel
        let _ ← expect .rightParen .groupingEnd
        pure (.grouping inner)
      | _ => pure (.literal token)

/-- What follows the keyword `super`: a point and the name of a method, or the arguments of the
constructor above. The keyword alone is no expression. -/
def superMember : Nat → Token → Parser Expr
  | 0, _ => exhausted
  | fuel + 1, keyword => do
    match ← accept [.dot, .leftParen] with
    | none => reject .superMember
    | some token =>
      if token.kind = .dot then
        let method ← expect .identifier .superMethodName
        pure (.superGet keyword method)
      else
        let arguments ← arguments fuel
        pure (.superCall keyword arguments)

end

end Parser

end Script
