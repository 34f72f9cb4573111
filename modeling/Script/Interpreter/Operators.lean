import Script.Interpreter.State

/-!
# Operators

What the unary and the binary operators compute from the values of their operands. Arithmetic and
order are for numbers only; equality is for all values.
-/

namespace Script

/-- The value of a literal token; `nil` for a token that carries none. -/
def Token.value (token : Token) : Value :=
  match token.literal with
  | some (.number n) => .number n
  | some (.string s) => .string s
  | some (.boolean b) => .boolean b
  | none => .nil

/-- What an operator on numbers computes: a number for arithmetic and a truth value for an order.
Other operators have no entry. -/
def numericOperator? : TokenKind → Option (Number → Number → Value)
  | .plus => some fun a b => .number (a.add b)
  | .minus => some fun a b => .number (a.sub b)
  | .star => some fun a b => .number (a.mul b)
  | .slash => some fun a b => .number (a.div b)
  | .greater => some fun a b => .boolean (b.less a)
  | .greaterEqual => some fun a b => .boolean (b.lessOrEqual a)
  | .less => some fun a b => .boolean (a.less b)
  | .lessEqual => some fun a b => .boolean (a.lessOrEqual b)
  | _ => none

/-- Applies a unary operator. A minus sign takes numbers only, and an exclamation mark every value,
by whether it counts as true. -/
def applyUnary (operator : Token) (operand : Value) : Eval Value :=
  match operator.kind with
  | .minus =>
    match operand with
    | .number n => pure (.number n.neg)
    | other => .fail (.typeMismatch operator.lexeme [other.type])
  | .bang => pure (.boolean !operand.isTruthy)
  | _ => .malformed

/-- Applies a binary operator that evaluates both of its operands. Where one of them is no number,
the report names the operator and the kinds of both. -/
def applyBinary (left : Value) (operator : Token) (right : Value) : Eval Value :=
  match operator.kind with
  | .equalEqual => pure (.boolean (left.equal right))
  | .bangEqual => pure (.boolean !left.equal right)
  | kind =>
    match numericOperator? kind with
    | none => .malformed
    | some compute =>
      match left, right with
      | .number a, .number b => pure (compute a b)
      | _, _ => .fail (.typeMismatch operator.lexeme [left.type, right.type])

end Script
