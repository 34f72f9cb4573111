import Script.Proofs.Run.Task

/-!
# Plans

What a task does by itself, before the tasks that it calls are looked into. A *plan* is a sequence
of single actions on the state and of calls of other tasks; `Task.body` gives the plan of every
task, and `Task.run_succ` says that the evaluator carries it out.

Plans say explicitly what a property of all runs has to be checked for: every action changes the
state in a known way, and every call is the run of another task with less fuel. The actions that
open a scope tell what the scope is for.
-/

namespace Script

/-- What a scope is opened for. Evaluation makes no use of it; it tells the scopes of a trace
apart. -/
inductive Opening where
  /-- The body of a block. -/
  | block (body : List Stmt)
  /-- A branch of an `if`, or one run of the body of a loop. -/
  | branch (stmt : Stmt)
  /-- The clauses of a `for` that starts in this way. -/
  | header (init : Option Stmt)
  /-- The parameters of a function, and the receiver of a method. -/
  | parameters (decl : FunctionDecl) (function : FunctionId)
      (binding : Option (InstanceId × ClassId))
  /-- The body of a function. -/
  | body (decl : FunctionDecl)

/-- What is to be noted about an action. -/
inductive Event where
  | opens (opening : Opening)
  | acts

/-- A sequence of actions and of calls that yields an `α`. -/
inductive Plan (α : Type) : Type 1 where
  | done (a : α)
  | step {β : Type} (event : Event) (action : Eval β) (next : β → Plan α)
  | sub (task : Task) (next : task.Result → Plan α)

namespace Plan

variable {α β : Type}

/-- One plan after the other: the second one begins where the first one is done, with its result. -/
def bind : Plan α → (α → Plan β) → Plan β
  | .done a, f => f a
  | .step event action next, f => .step event action fun b => (next b).bind f
  | .sub task next, f => .sub task fun b => (next b).bind f

instance : Monad Plan where
  pure := .done
  bind := .bind

/-- Carries the plan out, with `run` for the tasks that it calls. -/
def eval (run : (task : Task) → Eval task.Result) : Plan α → Eval α
  | .done a => pure a
  | .step _ action next => do
    let b ← action
    (next b).eval run
  | .sub task next => do
    let b ← run task
    (next b).eval run

/-- The plan of a single action that opens no scope. -/
def act (action : Eval α) : Plan α := .step .acts action .done

/-- The plan of a single call, whose result is the result of the plan. -/
def perform (task : Task) : Plan task.Result := .sub task .done

/-- The plan that opens a scope inside `parent`, with these variables in it. -/
def openScope (opening : Opening) (parent : ScopeId) (bindings : Table Value) : Plan ScopeId :=
  .step (.opens opening) (Eval.allocate fun store => store.newChild parent bindings) .done

/-- A new scope without variables inside `parent`. -/
def child (opening : Opening) (parent : ScopeId) : Plan ScopeId := openScope opening parent .empty

/-! ## Parts of plans

Pieces of plans that stand for functions of the evaluator, or that occur in more than one plan. -/

/-- How a function is entered: a scope for its parameters, and one for its body. -/
def enter (id : FunctionId) (function : UserFunction) (binding : Option (InstanceId × ClassId))
    (arguments : List Value) : Plan ScopeId := do
  let bindings ← act (Eval.read fun store => Eval.callBindings store function binding arguments)
  match Table.empty.addDistinct bindings with
  | .error name => act (Eval.fail (.redeclaredVariable name))
  | .ok table =>
    let parameters ← openScope (.parameters function.decl id binding) function.closure table
    child (.body function.decl) parameters

/-- The superclass that a class declaration names. -/
def parentClass (scope : ScopeId) : Option Token → Plan ClassId
  | none => pure Store.rootClass
  | some parent => do
    match ← act (Eval.lookup scope parent.lexeme) with
    | .classRef id => pure id
    | _ => act (Eval.fail (.notAClass parent.lexeme))

/-- How a class is declared: first the superclass is found, then the methods and the class are made,
and the name is declared last. -/
def declareClass (scope : ScopeId) (name : Token) (superclass : Option Token)
    (methods : List FunctionDecl) : Plan Unit := do
  let parent ← parentClass scope superclass
  let functions ← act (Eval.allocate fun store => store.newFunctions scope methods)
  let id ← act (Eval.allocate fun store =>
    store.declareClass name.lexeme (some parent) functions)
  act (Eval.define scope name.lexeme (.classRef id))

/-- How a bound method is read off the class that the search for it starts in. -/
def superProperty (id : InstanceId) (name : String) : Option ClassId → Plan Value
  | none => pure .nil
  | some parent => do
    match ← act (Eval.read fun store => store.method? parent name) with
    | none => pure .nil
    | some resolution => act (Eval.allocate fun store => store.bindMethod resolution id)

/-- Whether a loop goes on, which takes no action where no condition is given. -/
def goesOn (scope : ScopeId) : Option Expr → Plan Bool
  | none => pure true
  | some condition => do
    let value ← perform (.evaluate scope condition)
    pure value.isTruthy

end Plan

namespace Task

open Plan

/-- What evaluating an expression takes. It follows `Eval.evaluate` with a call of a task in place
of each nested evaluation. -/
def evaluateBody (scope : ScopeId) : Expr → Plan Value
  | .literal token => pure token.value
  | .variable name => act (Eval.lookup scope name.lexeme)
  | .grouping inner => perform (.evaluate scope inner)
  | .unary operator operand => do
    let value ← perform (.evaluate scope operand)
    act (applyUnary operator value)
  | .binary left operator right =>
    match operator.kind with
    | .equal =>
      match left with
      | .variable name => do
        let value ← perform (.evaluate scope right)
        act (Eval.assign scope name.lexeme value)
        pure value
      | _ => act Eval.malformed
    | .kwOr => do
      let value ← perform (.evaluate scope left)
      if value.isTruthy then pure value else perform (.evaluate scope right)
    | .kwAnd => do
      let value ← perform (.evaluate scope left)
      if value.isTruthy then perform (.evaluate scope right) else pure value
    | _ => do
      let leftValue ← perform (.evaluate scope left)
      let rightValue ← perform (.evaluate scope right)
      act (applyBinary leftValue operator rightValue)
  | .call callee _ arguments => do
    let function ← perform (.evaluate scope callee)
    let values ← perform (.evaluateAll scope arguments)
    perform (.call function values)
  | .get object name => do
    let value ← perform (.evaluate scope object)
    act (Eval.property value name.lexeme)
  | .set object name value => do
    let target ← perform (.evaluate scope object)
    let result ← perform (.evaluate scope value)
    act (Eval.setProperty target name.lexeme result)
    pure result
  | .this _ => do
    let id ← act (Eval.receiver scope thisName)
    pure (.instanceRef id)
  | .superGet _ method => do
    let id ← act (Eval.receiver scope superName)
    let parent ← act (Eval.superclass scope)
    superProperty id method.lexeme parent
  | .superCall _ arguments => do
    let id ← act (Eval.receiver scope superName)
    let parent ← act (Eval.superclass scope)
    let values ← perform (.evaluateAll scope arguments)
    perform (.construct id parent values)
    pure .nil

/-- What calling a value takes, as in `Eval.call`. -/
def callBody (arguments : List Value) : Value → Plan Value
  | .function ref => do
    let arity ← act (Eval.read fun store => store.arity ref)
    act (Eval.checkArity arity arguments.length)
    match ref with
    | .native function => act (Eval.native function arguments)
    | .user id => perform (.invoke id none arguments)
    | .bound id => do
      let bound ← act (Eval.read fun store => store.boundMethod id)
      perform (.invoke bound.method (some (bound.receiver, bound.declaringClass)) arguments)
  | .classRef id => do
    let created ← act (Eval.allocate fun store => store.newInstance id)
    perform (.construct created (some id) arguments)
    pure (.instanceRef created)
  | other => act (Eval.fail (.notCallable other.type))

/-- What initialising an instance takes, as in `Eval.construct`. -/
def constructBody (id : InstanceId) (start : Option ClassId) (arguments : List Value) :
    Plan Unit := do
  let found ← act (Eval.read fun store =>
    start.bind fun start => store.method? start constructorName)
  match found with
  | none => act (Eval.checkArity 0 arguments.length)
  | some resolution =>
    let arity ← act (Eval.read fun store => store.arity (.user resolution.method))
    act (Eval.checkArity arity arguments.length)
    let _ ← perform (.invoke resolution.method (some (id, resolution.declaringClass)) arguments)
    pure ()

/-- What running a function takes, as in `Eval.invoke`. The number of arguments has been checked
before. -/
def invokeBody (id : FunctionId) (binding : Option (InstanceId × ClassId))
    (arguments : List Value) : Plan Value := do
  let function ← act (Eval.read fun store => store.function id)
  let body ← enter id function binding arguments
  match ← perform (.executeAll body function.decl.body) with
  | .returned value => pure value
  | .normal _ => pure .nil

/-- What executing a statement takes, as in `Eval.execute`. -/
def executeBody (scope : ScopeId) : Stmt → Plan Completion
  | .expression expr => do
    let value ← perform (.evaluate scope expr)
    pure (.normal value)
  | .print expr => do
    let value ← perform (.evaluate scope expr)
    let text ← act (Eval.read fun store => store.display value)
    act (Eval.write (text ++ "\n"))
    pure (.normal .nil)
  | .varDecl name init => do
    let value ← perform (.evaluateOption scope init)
    act (Eval.define scope name.lexeme value)
    pure (.normal .nil)
  | .block body => do
    let inner ← child (.block body) scope
    perform (.executeAll inner body)
  | .ifElse condition thenBranch elseBranch => do
    let value ← perform (.evaluate scope condition)
    if value.isTruthy then
      let inner ← child (.branch thenBranch) scope
      perform (.execute inner thenBranch)
    else
      match elseBranch with
      | none => pure (.normal .nil)
      | some elseBranch =>
        let inner ← child (.branch elseBranch) scope
        perform (.execute inner elseBranch)
  | .whileLoop condition body => perform (.whileLoop scope condition body)
  | .forLoop init condition post body => do
    let clauses ← child (.header init) scope
    match init with
    | none => perform (.forLoop clauses condition post body)
    | some init =>
      let _ ← perform (.execute clauses init)
      perform (.forLoop clauses condition post body)
  | .function decl => do
    let id ← act (Eval.allocate fun store => store.newFunction decl scope)
    act (Eval.define scope decl.name.lexeme (.function (.user id)))
    pure (.normal .nil)
  | .returnValue _ value => do
    let result ← perform (.evaluateOption scope value)
    pure (.returned result)
  | .classDecl name superclass methods => do
    declareClass scope name superclass methods
    pure (.normal .nil)

/-- What evaluating a row of expressions takes. -/
def evaluateAllBody (scope : ScopeId) : List Expr → Plan (List Value)
  | [] => pure []
  | expr :: rest => do
    let value ← perform (.evaluate scope expr)
    let others ← perform (.evaluateAll scope rest)
    pure (value :: others)

/-- What evaluating an expression that may be missing takes. -/
def evaluateOptionBody (scope : ScopeId) : Option Expr → Plan Value
  | none => pure .nil
  | some expr => perform (.evaluate scope expr)

/-- What executing a row of statements takes. -/
def executeAllBody (scope : ScopeId) : List Stmt → Plan Completion
  | [] => pure (.normal .nil)
  | [last] => perform (.execute scope last)
  | stmt :: next :: rest => do
    match ← perform (.execute scope stmt) with
    | .returned value => pure (.returned value)
    | .normal _ => perform (.executeAll scope (next :: rest))

/-- What one round of a `while` loop takes. -/
def whileLoopBody (scope : ScopeId) (condition : Expr) (body : Stmt) : Plan Completion := do
  let value ← perform (.evaluate scope condition)
  if value.isTruthy then
    let inner ← child (.branch body) scope
    match ← perform (.execute inner body) with
    | .returned value => pure (.returned value)
    | .normal _ => perform (.whileLoop scope condition body)
  else pure (.normal .nil)

/-- What one round of a `for` loop takes. -/
def forLoopBody (clauses : ScopeId) (condition post : Option Expr) (body : Stmt) :
    Plan Completion := do
  if ← goesOn clauses condition then
    let inner ← child (.branch body) clauses
    match ← perform (.execute inner body) with
    | .returned value => pure (.returned value)
    | .normal _ =>
      let _ ← perform (.evaluateOption clauses post)
      perform (.forLoop clauses condition post body)
  else pure (.normal .nil)

/-- What a task does by itself, and which tasks it calls. -/
def body : (task : Task) → Plan task.Result
  | .evaluate scope expr => evaluateBody scope expr
  | .evaluateAll scope exprs => evaluateAllBody scope exprs
  | .evaluateOption scope expr => evaluateOptionBody scope expr
  | .call callee arguments => callBody arguments callee
  | .construct id start arguments => constructBody id start arguments
  | .invoke id binding arguments => invokeBody id binding arguments
  | .execute scope stmt => executeBody scope stmt
  | .executeAll scope statements => executeAllBody scope statements
  | .whileLoop scope condition body => whileLoopBody scope condition body
  | .forLoop clauses condition post body => forLoopBody clauses condition post body

end Task

/-! ## The evaluator carries out plans

The plans were written down by hand, so this has to be shown: unfolded by one step, the evaluator
does what the plan says, one kind of task after the other. Both sides are sequences with the same
actions, and differ in that calls are written as functions on the one side and as tasks on the
other. -/

namespace Plan

variable {α β : Type} {run : (task : Task) → Eval task.Result}

theorem eval_pure (a : α) : (pure a : Plan α).eval run = pure a := rfl

/-- Plans one after the other are carried out one after the other. -/
theorem eval_bind (plan : Plan α) (f : α → Plan β) :
    (plan >>= f).eval run = plan.eval run >>= fun a => (f a).eval run := by
  show (plan.bind f).eval run = _
  induction plan with
  | done a => simp [Plan.bind, eval]
  | step event action next ih => simp [Plan.bind, eval, ih]
  | sub task next ih => simp [Plan.bind, eval, ih]

theorem eval_act (action : Eval α) : (act action).eval run = action := by
  simp [act, eval]

theorem eval_perform (task : Task) : (perform task).eval run = run task := by
  simp [perform, eval]

theorem eval_child (opening : Opening) (parent : ScopeId) :
    (child opening parent).eval run = Eval.child parent := by
  simp [child, openScope, eval, Eval.child]

theorem eval_enter (id : FunctionId) (function : UserFunction)
    (binding : Option (InstanceId × ClassId)) (arguments : List Value) :
    (enter id function binding arguments).eval run = Eval.enter function binding arguments := by
  unfold enter Eval.enter
  rw [eval_bind, eval_act]
  congr
  funext bindings
  cases Table.empty.addDistinct bindings with
  | error name => exact eval_act _
  | ok table =>
    rw [eval_bind]
    simp only [eval_child, openScope, eval, bind_pure]

theorem eval_declareClass (scope : ScopeId) (name : Token) (superclass : Option Token)
    (methods : List FunctionDecl) :
    (declareClass scope name superclass methods).eval run =
      Eval.declareClass scope name superclass methods := by
  unfold declareClass Eval.declareClass parentClass
  rw [eval_bind]
  congr
  · cases superclass with
    | none => rfl
    | some parent =>
      dsimp only
      rw [eval_bind, eval_act]
      congr
      funext value
      cases value <;> simp only [eval_pure, eval_act]
  · funext parent
    simp only [eval_bind, eval_act]

/-- A method is read off a superclass, if there is one. -/
theorem eval_superProperty (id : InstanceId) (name : String) :
    ∀ start : Option ClassId, (superProperty id name start).eval run =
      (match start with
      | none => pure .nil
      | some parent => do
        match ← Eval.read fun store => store.method? parent name with
        | none => pure .nil
        | some resolution => Eval.allocate fun store => store.bindMethod resolution id)
  | none => rfl
  | some parent => by
    unfold superProperty
    rw [eval_bind, eval_act]
    congr
    funext found
    cases found with
    | none => rfl
    | some resolution => exact eval_act _

end Plan

namespace Task

open Plan

section

variable (run : (task : Task) → Eval task.Result) (scope : ScopeId)

/-! `eval_perform` once for each kind of task: only then do the types of the results compute. -/

theorem eval_evaluate (expr : Expr) :
    @eval Value run (perform (.evaluate scope expr)) = run (.evaluate scope expr) := eval_perform _

theorem eval_evaluateAll (exprs : List Expr) :
    @eval (List Value) run (perform (.evaluateAll scope exprs)) = run (.evaluateAll scope exprs) :=
  eval_perform _

theorem eval_evaluateOption (expr : Option Expr) :
    @eval Value run (perform (.evaluateOption scope expr)) = run (.evaluateOption scope expr) :=
  eval_perform _

theorem eval_call (callee : Value) (arguments : List Value) :
    @eval Value run (perform (.call callee arguments)) = run (.call callee arguments) :=
  eval_perform _

theorem eval_construct (id : InstanceId) (start : Option ClassId) (arguments : List Value) :
    @eval Unit run (perform (.construct id start arguments)) =
      run (.construct id start arguments) := eval_perform _

theorem eval_invoke (id : FunctionId) (binding : Option (InstanceId × ClassId))
    (arguments : List Value) :
    @eval Value run (perform (.invoke id binding arguments)) =
      run (.invoke id binding arguments) := eval_perform _

theorem eval_execute (stmt : Stmt) :
    @eval Completion run (perform (.execute scope stmt)) = run (.execute scope stmt) :=
  eval_perform _

theorem eval_executeAll (statements : List Stmt) :
    @eval Completion run (perform (.executeAll scope statements)) =
      run (.executeAll scope statements) := eval_perform _

theorem eval_whileLoop (condition : Expr) (body : Stmt) :
    @eval Completion run (perform (.whileLoop scope condition body)) =
      run (.whileLoop scope condition body) := eval_perform _

theorem eval_forLoop (condition post : Option Expr) (body : Stmt) :
    @eval Completion run (perform (.forLoop scope condition post body)) =
      run (.forLoop scope condition post body) := eval_perform _

end

variable (fuel : Nat) (scope : ScopeId)

/-- The evaluator evaluates each kind of expression as its plan says. `simp` follows both sides as
long as they take the same steps; a match on a value is split on both sides at once. -/
theorem run_evaluate_succ (expr : Expr) :
    (Task.evaluate scope expr).run (fuel + 1) =
      (evaluateBody scope expr).eval fun task => task.run fuel := by
  show Eval.evaluate (fuel + 1) scope expr = _
  cases expr with
  | literal => rfl
  | «variable» => simp only [Eval.evaluate, evaluateBody, eval_act]
  | grouping =>
    simp only [Eval.evaluate, evaluateBody, eval_evaluate]
    rfl
  | unary =>
    simp only [Eval.evaluate, evaluateBody, eval_bind, eval_act, eval_evaluate]
    rfl
  -- The plan branches on the kind of the operator, as the evaluator does.
  | binary left operator right =>
    unfold Eval.evaluate evaluateBody
    dsimp only
    generalize operator.kind = kind
    cases kind with
    | equal =>
      cases left <;> simp only [eval_bind, eval_act, eval_evaluate, eval_pure]
      rfl
    | kwOr =>
      simp only [eval_bind, eval_evaluate]
      congr
      funext value
      split
      · rfl
      · simp only [eval_evaluate]
        rfl
    | kwAnd =>
      simp only [eval_bind, eval_evaluate]
      congr
      funext value
      split
      · simp only [eval_evaluate]
        rfl
      · rfl
    | _ =>
      simp only [eval_bind, eval_act, eval_evaluate]
      rfl
  | call =>
    simp only [Eval.evaluate, evaluateBody, eval_bind, eval_evaluate, eval_evaluateAll, eval_call]
    rfl
  | get =>
    simp only [Eval.evaluate, evaluateBody, eval_bind, eval_act, eval_evaluate]
    rfl
  | set =>
    simp only [Eval.evaluate, evaluateBody, eval_bind, eval_act, eval_evaluate, eval_pure]
    rfl
  | this => simp only [Eval.evaluate, evaluateBody, eval_bind, eval_act, eval_pure]
  -- The last part is a plan of its own, which is carried out as `eval_superProperty` says.
  | superGet keyword method =>
    simp only [Eval.evaluate, evaluateBody, eval_bind, eval_act]
    congr
    funext id
    congr
    funext parent
    exact (eval_superProperty id method.lexeme parent).symm
  | superCall =>
    simp only [Eval.evaluate, evaluateBody, eval_bind, eval_act, eval_evaluateAll, eval_construct,
      eval_pure]
    rfl

/-- The evaluator calls a value as the plan says: after the arity it turns to the kind of the
function, and a class is called by way of a new instance. -/
theorem run_call_succ (callee : Value) (arguments : List Value) :
    (Task.call callee arguments).run (fuel + 1) =
      (callBody arguments callee).eval fun task => task.run fuel := by
  show Eval.call (fuel + 1) callee arguments = _
  cases callee with
  | function ref =>
    simp only [Eval.call, callBody, eval_bind, eval_act]
    congr
    funext arity
    congr
    funext _
    cases ref <;> simp only [eval_bind, eval_act, eval_invoke] <;> rfl
  | classRef id =>
    simp only [Eval.call, callBody, eval_bind, eval_act, eval_construct, eval_pure]
    rfl
  | nil => simp only [Eval.call, callBody, eval_act]
  | boolean => simp only [Eval.call, callBody, eval_act]
  | number => simp only [Eval.call, callBody, eval_act]
  | string => simp only [Eval.call, callBody, eval_act]
  | instanceRef => simp only [Eval.call, callBody, eval_act]

theorem run_construct_succ (id : InstanceId) (start : Option ClassId) (arguments : List Value) :
    (Task.construct id start arguments).run (fuel + 1) =
      (constructBody id start arguments).eval fun task => task.run fuel := by
  show Eval.construct (fuel + 1) id start arguments = _
  unfold Eval.construct constructBody
  rw [eval_bind, eval_act]
  congr
  funext found
  cases found with
  | none => exact (eval_act _).symm
  | some resolution =>
    simp only [eval_bind, eval_act, eval_invoke, eval_pure]
    rfl

theorem run_invoke_succ (id : FunctionId) (binding : Option (InstanceId × ClassId))
    (arguments : List Value) :
    (Task.invoke id binding arguments).run (fuel + 1) =
      (invokeBody id binding arguments).eval fun task => task.run fuel := by
  show Eval.invoke (fuel + 1) id binding arguments = _
  unfold Eval.invoke invokeBody
  simp only [eval_bind, eval_act, eval_enter, eval_executeAll]
  congr
  funext function
  congr
  funext body
  congr
  funext completion
  cases completion <;> rfl

theorem run_execute_succ (stmt : Stmt) :
    (Task.execute scope stmt).run (fuel + 1) =
      (executeBody scope stmt).eval fun task => task.run fuel := by
  show Eval.execute (fuel + 1) scope stmt = _
  cases stmt with
  | expression =>
    simp only [Eval.execute, executeBody, eval_bind, eval_evaluate, eval_pure]
    rfl
  | print =>
    simp only [Eval.execute, executeBody, eval_bind, eval_act, eval_evaluate, eval_pure]
    rfl
  | varDecl =>
    simp only [Eval.execute, executeBody, eval_bind, eval_act, eval_evaluateOption, eval_pure]
    rfl
  | block =>
    simp only [Eval.execute, executeBody, eval_bind, eval_child, eval_executeAll]
    rfl
  | ifElse condition thenBranch elseBranch =>
    simp only [Eval.execute, executeBody, eval_bind, eval_evaluate]
    congr
    funext value
    split
    · simp only [eval_bind, eval_child, eval_execute]
      rfl
    · cases elseBranch with
      | none => rfl
      | some elseBranch =>
        simp only [eval_bind, eval_child, eval_execute]
        rfl
  | whileLoop =>
    simp only [Eval.execute, executeBody, eval_whileLoop]
    rfl
  | forLoop init condition post body =>
    simp only [Eval.execute, executeBody, eval_bind, eval_child]
    congr
    funext clauses
    -- With an initialiser there is one task more before the loop.
    cases init with
    | none =>
      simp only [eval_forLoop]
      rfl
    | some init =>
      simp only [eval_bind, eval_execute, eval_forLoop]
      rfl
  | function => simp only [Eval.execute, executeBody, eval_bind, eval_act, eval_pure]
  | returnValue =>
    simp only [Eval.execute, executeBody, eval_bind, eval_evaluateOption, eval_pure]
    rfl
  | classDecl =>
    simp only [Eval.execute, executeBody, eval_bind, eval_declareClass, eval_pure]

theorem run_executeAll_succ (statements : List Stmt) :
    (Task.executeAll scope statements).run (fuel + 1) =
      (executeAllBody scope statements).eval fun task => task.run fuel := by
  show Eval.executeAll (fuel + 1) scope statements = _
  match statements with
  | [] => rfl
  | [last] =>
    simp only [Eval.executeAll, executeAllBody, eval_execute]
    rfl
  | stmt :: next :: rest =>
    simp only [Eval.executeAll, executeAllBody, eval_bind, eval_execute]
    congr
    funext completion
    cases completion with
    | returned value => rfl
    | normal value =>
      simp only [eval_executeAll]
      rfl

/-- The evaluator runs a `while` as the plan says, turn by turn. A turn that returns ends the loop,
and after any other one the loop is a task of its own with less fuel. -/
theorem run_whileLoop_succ (condition : Expr) (body : Stmt) :
    (Task.whileLoop scope condition body).run (fuel + 1) =
      (whileLoopBody scope condition body).eval fun task => task.run fuel := by
  show Eval.whileLoop (fuel + 1) scope condition body = _
  unfold Eval.whileLoop whileLoopBody
  simp only [eval_bind, eval_evaluate]
  congr
  funext value
  split
  · simp only [eval_bind, eval_child, eval_execute]
    congr
    funext inner
    congr
    funext completion
    cases completion with
    | returned value => rfl
    | normal value =>
      simp only [eval_whileLoop]
      rfl
  · rfl

/-- The evaluator runs the turns of a `for` as the plan says. Where there is no condition the plan
goes on without a task, as the evaluator does. -/
theorem run_forLoop_succ (condition post : Option Expr) (body : Stmt) :
    (Task.forLoop scope condition post body).run (fuel + 1) =
      (forLoopBody scope condition post body).eval fun task => task.run fuel := by
  show Eval.forLoop (fuel + 1) scope condition post body = _
  unfold Eval.forLoop forLoopBody
  rw [eval_bind]
  congr
  · cases condition with
    | none => rfl
    | some condition =>
      simp only [goesOn, eval_bind, eval_evaluate, eval_pure]
      rfl
  · funext goOn
    split
    · simp only [eval_bind, eval_child, eval_execute]
      congr
      funext inner
      congr
      funext completion
      cases completion with
      | returned value => rfl
      | normal value =>
        simp only [eval_bind, eval_evaluateOption, eval_forLoop]
        rfl
    · rfl

/-- With fuel the evaluator carries out the plan of the task, and runs the tasks that it calls with
one unit of fuel less. Everything that is shown of runs by following plans rests on this equation,
the only place where the two are compared. -/
theorem run_succ (fuel : Nat) (task : Task) :
    task.run (fuel + 1) = task.body.eval fun task => task.run fuel := by
  cases task with
  | evaluate scope expr => exact run_evaluate_succ fuel scope expr
  | evaluateAll scope exprs =>
    cases exprs with
    | nil => rfl
    | cons expr rest =>
      show Eval.evaluateAll (fuel + 1) scope (expr :: rest) =
        @eval (List Value) _ (evaluateAllBody scope (expr :: rest))
      simp only [Eval.evaluateAll, evaluateAllBody, eval_bind, eval_evaluate, eval_evaluateAll,
        eval_pure]
      rfl
  | evaluateOption scope expr =>
    cases expr with
    | none => rfl
    | some => exact (eval_perform _).symm
  | call callee arguments => exact run_call_succ fuel callee arguments
  | construct id start arguments => exact run_construct_succ fuel id start arguments
  | invoke id binding arguments => exact run_invoke_succ fuel id binding arguments
  | execute scope stmt => exact run_execute_succ fuel scope stmt
  | executeAll scope statements => exact run_executeAll_succ fuel scope statements
  | whileLoop scope condition body => exact run_whileLoop_succ fuel scope condition body
  | forLoop clauses condition post body =>
    exact run_forLoop_succ fuel clauses condition post body

end Task

end Script
