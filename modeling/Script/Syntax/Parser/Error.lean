import Script.Token.Basic

/-!
# Syntax errors

What the grammar expected where it found something else, and the wording of the reports.
-/

namespace Script

/-- A function declaration stands on its own or in a class body. -/
inductive FunctionRole where
  | function
  | method
deriving DecidableEq, Repr

namespace FunctionRole

/-- The word for the role in a report. -/
def word : FunctionRole → String
  | function => "function"
  | method => "method"

end FunctionRole

/-- What the grammar may find missing. Each place that asks for a token has its own words for it. -/
inductive Expectation where
  | className | superclassName | classBodyStart | classBodyEnd
  | functionKeyword (role : FunctionRole)
  | functionName (role : FunctionRole)
  | parametersStart (role : FunctionRole)
  | parameterName | parametersEnd
  | functionBodyStart (role : FunctionRole)
  | variableName | variableEnd
  | printEnd | expressionEnd | returnEnd | blockEnd
  | ifConditionStart | ifConditionEnd
  | whileConditionStart | whileConditionEnd
  | forClausesStart | forConditionEnd | forClausesEnd
  | expression | groupingEnd | argumentsEnd
  | propertyName | superMember | superMethodName
deriving DecidableEq, Repr

namespace Expectation

/-- The wording of an expectation, to which the token that was found is added. -/
def text : Expectation → String
  | className => "Expect class name"
  | superclassName => "Expect superclass name"
  | classBodyStart => "Expect '\x7b' before class body"
  | classBodyEnd => "Expect '\x7d' after class body"
  | functionKeyword role => "Expect 'fun' before " ++ role.word
  | functionName role => "Expect " ++ role.word ++ " name"
  | parametersStart role => "Expect '(' after " ++ role.word ++ " name"
  | parameterName => "Expect parameter name"
  | parametersEnd => "Expect ')' after parameters"
  | functionBodyStart role => "Expect '\x7b' before " ++ role.word ++ " body"
  | variableName => "Expect variable name"
  | variableEnd => "Expect ';' after variable declaration"
  | printEnd => "Expect ';' after value"
  | expressionEnd => "Expect ';' after expression"
  | returnEnd => "Expect ';' after return value"
  | blockEnd => "Expect '\x7d' after block"
  | ifConditionStart => "Expect '(' after 'if'"
  | ifConditionEnd => "Expect ')' after if condition"
  | whileConditionStart => "Expect '(' after 'while'"
  | whileConditionEnd => "Expect ')' after condition"
  | forClausesStart => "Expect '(' after 'for'"
  | forConditionEnd => "Expect ';' after loop condition"
  | forClausesEnd => "Expect ')' after for clauses"
  | expression => "Expect expression"
  | groupingEnd => "Expect ')' after expression"
  | argumentsEnd => "Expect ')' after arguments"
  | propertyName => "Expect property name after '.'"
  | superMember => "Expect '.' or '(' after 'super'"
  | superMethodName => "Expect superclass method name"

end Expectation

/-- What is wrong with a row of tokens. -/
inductive SyntaxFault where
  /-- The grammar allows no token of this kind here. -/
  | unexpected (expected : Expectation) (found : TokenKind)
  /-- The left side of an assignment is neither a variable nor a property. -/
  | invalidAssignmentTarget
deriving DecidableEq, Repr

/-- A fault and the place of the token that it was found at. -/
structure SyntaxError where
  fault : SyntaxFault
  span : Span
deriving DecidableEq, Repr

namespace SyntaxError

/-- The wording of the error, without its place. -/
def message (error : SyntaxError) : String :=
  match error.fault with
  | .unexpected expected found => expected.text ++ " but found " ++ found.description
  | .invalidAssignmentTarget => "Invalid assignment target"

end SyntaxError

end Script
