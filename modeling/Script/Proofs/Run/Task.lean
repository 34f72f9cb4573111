import Script.Interpreter.Run

/-!
# Tasks

The functions of the evaluator call each other with less and less fuel. A *task* is a call of one
of them without its fuel, so that a statement about all of these functions is one statement about
`Task.run`.
-/

namespace Script

/-- What the evaluator can be asked to do. -/
inductive Task where
  | evaluate (scope : ScopeId) (expr : Expr)
  | evaluateAll (scope : ScopeId) (exprs : List Expr)
  | evaluateOption (scope : ScopeId) (expr : Option Expr)
  | call (callee : Value) (arguments : List Value)
  | construct (id : InstanceId) (start : Option ClassId) (arguments : List Value)
  | invoke (id : FunctionId) (binding : Option (InstanceId × ClassId)) (arguments : List Value)
  | execute (scope : ScopeId) (stmt : Stmt)
  | executeAll (scope : ScopeId) (statements : List Stmt)
  | whileLoop (scope : ScopeId) (condition : Expr) (body : Stmt)
  | forLoop (clauses : ScopeId) (condition post : Option Expr) (body : Stmt)

namespace Task

/-- The type of what a task yields. -/
abbrev Result : Task → Type
  | .evaluate _ _ => Value
  | .evaluateAll _ _ => List Value
  | .evaluateOption _ _ => Value
  | .call _ _ => Value
  | .construct _ _ _ => Unit
  | .invoke _ _ _ => Value
  | .execute _ _ => Completion
  | .executeAll _ _ => Completion
  | .whileLoop _ _ _ => Completion
  | .forLoop _ _ _ _ => Completion

/-- Does what the task asks for, with the function of the evaluator that it stands for. -/
def run (fuel : Nat) : (task : Task) → Eval task.Result
  | .evaluate scope expr => Eval.evaluate fuel scope expr
  | .evaluateAll scope exprs => Eval.evaluateAll fuel scope exprs
  | .evaluateOption scope expr => Eval.evaluateOption fuel scope expr
  | .call callee arguments => Eval.call fuel callee arguments
  | .construct id start arguments => Eval.construct fuel id start arguments
  | .invoke id binding arguments => Eval.invoke fuel id binding arguments
  | .execute scope stmt => Eval.execute fuel scope stmt
  | .executeAll scope statements => Eval.executeAll fuel scope statements
  | .whileLoop scope condition body => Eval.whileLoop fuel scope condition body
  | .forLoop clauses condition post body => Eval.forLoop fuel clauses condition post body

/-- Without fuel no task is begun. -/
theorem run_zero (task : Task) (s : State) : task.run 0 s = .error .outOfFuel s := by
  cases task <;> simp only [run, Eval.evaluate, Eval.evaluateAll, Eval.evaluateOption, Eval.call,
    Eval.construct, Eval.invoke, Eval.execute, Eval.executeAll, Eval.whileLoop, Eval.forLoop,
    Eval.exhausted]

end Task

/-- How an evaluation ended, and in which state. -/
abbrev Outcome (α : Type) := EStateM.Result Interrupt State α

/-- The state that an evaluation ended in. -/
def finalState {α : Type} : Outcome α → State
  | .ok _ s => s
  | .error _ s => s

/-- A result comes with the state that it was computed in. -/
@[simp] theorem finalState_ok {α : Type} (a : α) (s : State) :
    finalState (.ok a s : Outcome α) = s := rfl

/-- So does an error: what has been done stays done. -/
@[simp] theorem finalState_error {α : Type} (interrupt : Interrupt) (s : State) :
    finalState (.error interrupt s : Outcome α) = s := rfl

/-- After a result the second evaluation begins, in the state that the first one has left. -/
theorem Eval.bind_of_ok {α β : Type} {x : Eval α} {k : α → Eval β} {a : α} {s s' : State}
    (h : x s = .ok a s') : (x >>= k) s = k a s' := by
  show EStateM.bind x k s = _
  unfold EStateM.bind
  rw [h]

/-- After an error the second evaluation does not begin, and the state is the one that the error has
left. -/
theorem Eval.bind_of_error {α β : Type} {x : Eval α} {k : α → Eval β} {interrupt : Interrupt}
    {s s' : State} (h : x s = .error interrupt s') : (x >>= k) s = .error interrupt s' := by
  show EStateM.bind x k s = _
  unfold EStateM.bind
  rw [h]

/-- Two evaluations in a row have a result if each of them has one. -/
theorem Eval.bind_eq_ok {α β : Type} {x : Eval α} {k : α → Eval β} {b : β} {s s' : State} :
    (x >>= k) s = .ok b s' ↔ ∃ a s₁, x s = .ok a s₁ ∧ k a s₁ = .ok b s' := by
  show EStateM.bind x k s = .ok b s' ↔ _
  unfold EStateM.bind
  cases x s with
  | ok a s₁ =>
    constructor
    · exact fun h => ⟨a, s₁, rfl, h⟩
    · rintro ⟨a', s₁', hx, h⟩
      obtain ⟨rfl, rfl⟩ := EStateM.Result.ok.inj hx
      exact h
  | error interrupt s₁ => simp

end Script
