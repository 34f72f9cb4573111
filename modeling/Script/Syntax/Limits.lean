import Script.Syntax.Tree

/-!
# Size limits

A call passes at most 255 arguments and a function takes at most 255 parameters. The check finds
every node of a program that exceeds its limit, in the order in which the nodes' places stand in
the source.
-/

namespace Script

/-- The largest number of arguments, and of parameters. -/
def maxArity : Nat := 255

/-- What exceeds its limit, and how many there are. -/
inductive LimitError where
  | tooManyArguments (count : Nat)
  | tooManyParameters (count : Nat)
deriving DecidableEq, Repr

namespace LimitError

/-- The wording of the error, with the number that was counted. -/
def message : LimitError → String
  | tooManyArguments count =>
    "Semantic Error: Too many arguments. Max arguments size is 255, got: " ++ toString count
  | tooManyParameters count =>
    "Semantic Error: Too many parameters. Max parameters size is 255, got: " ++ toString count

end LimitError

/-- The error of a row of `count` arguments whose place is `span`, if there are too many. -/
def argumentErrors (count : Nat) (span : Span) : List (LimitError × Span) :=
  if maxArity < count then [(.tooManyArguments count, span)] else []

/-- The error of a row of `count` parameters whose place is `span`, if there are too many. -/
def parameterErrors (count : Nat) (span : Span) : List (LimitError × Span) :=
  if maxArity < count then [(.tooManyParameters count, span)] else []

mutual

/-- The limits that an expression exceeds. A call is reported before the calls in its arguments. -/
def Expr.limitErrors : Expr → List (LimitError × Span)
  | .literal _ => []
  | .variable _ => []
  | .grouping inner => inner.limitErrors
  | .unary _ operand => operand.limitErrors
  | .binary left _ right => left.limitErrors ++ right.limitErrors
  | .call callee paren arguments =>
    callee.limitErrors ++ argumentErrors arguments.length paren.span
      ++ Expr.limitErrorsOfAll arguments
  | .get object _ => object.limitErrors
  | .set object _ value => object.limitErrors ++ value.limitErrors
  | .this _ => []
  | .superGet _ _ => []
  | .superCall keyword arguments =>
    argumentErrors arguments.length keyword.span ++ Expr.limitErrorsOfAll arguments

/-- The limits that expressions exceed, one after the other. -/
def Expr.limitErrorsOfAll : List Expr → List (LimitError × Span)
  | [] => []
  | expr :: rest => expr.limitErrors ++ Expr.limitErrorsOfAll rest

end

/-- The limits that a clause exceeds, if it is there. -/
def clauseLimitErrors : Option Expr → List (LimitError × Span)
  | none => []
  | some expr => expr.limitErrors

mutual

/-- The limits that a statement exceeds, in the order in which its parts are gone through. -/
def Stmt.limitErrors : Stmt → List (LimitError × Span)
  | .expression expr => expr.limitErrors
  | .print expr => expr.limitErrors
  | .varDecl _ init => clauseLimitErrors init
  | .block body => Stmt.limitErrorsOfAll body
  | .ifElse condition thenBranch none => condition.limitErrors ++ thenBranch.limitErrors
  | .ifElse condition thenBranch (some elseBranch) =>
    condition.limitErrors ++ thenBranch.limitErrors ++ elseBranch.limitErrors
  | .whileLoop condition body => condition.limitErrors ++ body.limitErrors
  | .forLoop none condition post body =>
    clauseLimitErrors condition ++ clauseLimitErrors post ++ body.limitErrors
  | .forLoop (some init) condition post body =>
    init.limitErrors ++ clauseLimitErrors condition ++ clauseLimitErrors post ++ body.limitErrors
  | .function decl => decl.limitErrors
  | .returnValue _ value => clauseLimitErrors value
  | .classDecl _ _ methods => FunctionDecl.limitErrorsOfAll methods

/-- The limits that statements exceed, one after the other. -/
def Stmt.limitErrorsOfAll : List Stmt → List (LimitError × Span)
  | [] => []
  | stmt :: rest => stmt.limitErrors ++ Stmt.limitErrorsOfAll rest

/-- The limits that a function exceeds: its own, placed at its name, and those of its body. -/
def FunctionDecl.limitErrors : FunctionDecl → List (LimitError × Span)
  | ⟨name, params, body⟩ =>
    parameterErrors params.length name.span ++ Stmt.limitErrorsOfAll body

/-- The limits that methods exceed, one after the other. -/
def FunctionDecl.limitErrorsOfAll : List FunctionDecl → List (LimitError × Span)
  | [] => []
  | decl :: rest => decl.limitErrors ++ FunctionDecl.limitErrorsOfAll rest

end

end Script
