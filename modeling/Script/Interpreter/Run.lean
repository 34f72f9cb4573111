import Script.Interpreter.Evaluate

/-!
# Running programs

A program is run statement by statement in one scope. A run either stops at the first statement
that fails, or goes on after each failure and reports it. What a failed statement has done stays
done.
-/

namespace Script

/-- The failure of a statement, and how much the program had printed by then. -/
structure Failure where
  error : RuntimeError
  outputSize : Nat
deriving DecidableEq, Repr

namespace Eval

/-- Runs a statement that is in no function, where `return` is an error. -/
def runStatement (fuel : Nat) (scope : ScopeId) (stmt : Stmt) : Eval Value := do
  match ← execute fuel scope stmt with
  | .normal value => pure value
  | .returned _ => fail .illegalReturn

/-- Runs statements up to the first that fails. The value is that of the last statement. -/
def run (fuel : Nat) (scope : ScopeId) (statements : List Stmt) : Eval Value :=
  statements.foldlM (fun _ stmt => runStatement fuel scope stmt) .nil

/-- Runs all statements, the ones after a failure too, and yields the failures. -/
def runEach (fuel : Nat) (scope : ScopeId) : List Stmt → Eval (List Failure)
  | [] => pure []
  | stmt :: rest => do
    match ← attempt (runStatement fuel scope stmt) with
    | .ok _ => runEach fuel scope rest
    | .error error =>
      let size ← outputSize
      let others ← runEach fuel scope rest
      pure (⟨error, size⟩ :: others)

end Eval

end Script
