import Script.Value

/-!
# Runtime errors

Why a running program fails, and the wording of the reports.
-/

namespace Script

/-- Why a running program fails. Each kind carries the names, numbers or kinds of value that its
message tells. -/
inductive RuntimeError where
  /-- The scope already holds the name. -/
  | redeclaredVariable (name : String)
  /-- No scope around holds the name. -/
  | undefinedVariable (name : String)
  /-- The operator does not apply to operands of these kinds. -/
  | typeMismatch (operator : String) (operands : List ValueType)
  /-- Values of this kind have no properties to set. -/
  | immutableTarget (type : ValueType)
  /-- Values of this kind cannot be called. -/
  | notCallable (type : ValueType)
  /-- A call passes the wrong number of arguments. -/
  | arityMismatch (expected actual : Nat)
  /-- The keyword stands for nothing where no method is running. -/
  | unboundThis (keyword : String)
  /-- A `return` that is not inside a function. -/
  | illegalReturn
  /-- The name given as a superclass stands for something else. -/
  | notAClass (name : String)
  /-- The output did not take what was printed. -/
  | output (reason : String)
deriving DecidableEq, Repr

namespace RuntimeError

/-- What went wrong, without the prefix that all messages share. -/
def cause : RuntimeError → String
  | redeclaredVariable name => "Redeclared variable '" ++ name ++ "'"
  | undefinedVariable name => "Undefined variable '" ++ name ++ "'"
  | typeMismatch operator operands =>
    "Unsupported operator '" ++ operator ++ "' on "
      ++ " and ".intercalate (operands.map ValueType.name)
  | immutableTarget type => type.name ++ " is immutable"
  | notCallable type => "Value of type " ++ type.name ++ " is not callable"
  | arityMismatch expected actual =>
    "Expected " ++ toString expected ++ " argument(s) but got " ++ toString actual
  | unboundThis keyword => "Cannot access \x60" ++ keyword ++ "\x60 inside an unbound function"
  | illegalReturn => "Cannot \x60return\x60 outside a function body"
  | notAClass name => "Superclass '" ++ name ++ "' is not a class"
  | output reason => "Failed to write output: " ++ reason

/-- The wording of the error, as it is reported to the user. -/
def message (error : RuntimeError) : String := "Runtime error: " ++ error.cause

end RuntimeError

end Script
