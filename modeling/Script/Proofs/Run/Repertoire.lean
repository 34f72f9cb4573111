import Script.Proofs.Run.Plan

/-!
# The repertoire of the evaluator

All that a task can do. `Task.Acts` lists the actions of its plan and `Task.Calls` the tasks that
the plan calls; `Task.madeOf` says that the lists are complete. The plans are opened for it once,
and a property of all runs that asks only which actions there are, and which tasks lead to which,
is checked against the two lists.

Among the calls, `Task.Encloses` are those by which a statement runs the statements inside it. So
a path of such calls stays in the body of one function.
-/

namespace Script

namespace Plan

variable {α β : Type} {Inv : State → Prop} {A : {β : Type} → Eval β → Prop} {T : Task → Prop}

/-- All actions of the plan are among `A`, and all tasks that it calls among `T`. What comes after
an action need only be looked at for the values that the action yields in the states `Inv`. -/
def MadeOf (Inv : State → Prop) (A : {β : Type} → Eval β → Prop) (T : Task → Prop) :
    Plan α → Prop
  | .done _ => True
  | .step _ action next =>
    A action ∧ ∀ s b s', Inv s → action s = .ok b s' → (next b).MadeOf Inv A T
  | .sub task next => T task ∧ ∀ b, (next b).MadeOf Inv A T

/-- A plan that is done does nothing. -/
theorem madeOf_pure (a : α) : (pure a : Plan α).MadeOf Inv A T := trivial

theorem madeOf_act {action : Eval α} (h : A action) : (act action).MadeOf Inv A T :=
  ⟨h, fun _ _ _ _ _ => trivial⟩

theorem madeOf_perform {task : Task} (h : T task) : (perform task).MadeOf Inv A T :=
  ⟨h, fun _ => trivial⟩

/-- Plans that are made of what is listed may follow each other. -/
theorem MadeOf.bind {plan : Plan α} {f : α → Plan β} (h : plan.MadeOf Inv A T)
    (hf : ∀ a, (f a).MadeOf Inv A T) : (plan >>= f).MadeOf Inv A T := by
  show (plan.bind f).MadeOf Inv A T
  induction plan with
  | done a => exact hf a
  | step event action next ih =>
    exact ⟨h.1, fun s b s' hinv hrun => ih b (h.2 s b s' hinv hrun)⟩
  | sub task next ih => exact ⟨h.1, fun b => ih b (h.2 b)⟩

/-- The rest of a plan after an action, for the values that the action really yields. -/
theorem madeOf_act_bind {action : Eval α} {f : α → Plan β} (h : A action)
    (hf : ∀ s a s', Inv s → action s = .ok a s' → (f a).MadeOf Inv A T) :
    (act action >>= f).MadeOf Inv A T :=
  ⟨h, hf⟩

end Plan

/-- What an action may fail with. No action reports a `return`, and none refuses to call a function
or a class. -/
def RuntimeError.OfAction : RuntimeError → Prop
  | .illegalReturn | .notCallable .function | .notCallable .classType => False
  | _ => True

namespace Task

/-! ## Actions and calls -/

/-- What the task may do to the state, or ask it. -/
inductive Acts : Task → {β : Type} → Eval β → Prop
  -- Actions that leave the state as it is.
  | read {task : Task} {β : Type} (f : Store → β) : Acts task (Eval.read f)
  | lookup {task : Task} (scope : ScopeId) (name : String) : Acts task (Eval.lookup scope name)
  | receiver {task : Task} (scope : ScopeId) (keyword : String) :
    Acts task (Eval.receiver scope keyword)
  | superclass {task : Task} (scope : ScopeId) : Acts task (Eval.superclass scope)
  | fail {task : Task} {β : Type} {error : RuntimeError} (herror : error.OfAction) :
    Acts task (Eval.fail error : Eval β)
  | checkArity {task : Task} (expected actual : Nat) : Acts task (Eval.checkArity expected actual)
  | unary (scope : ScopeId) (operator : Token) (operand : Expr) (value : Value) :
    Acts (.evaluate scope (.unary operator operand)) (applyUnary operator value)
  | binary (scope : ScopeId) (left : Expr) {operator : Token} (right : Expr)
    (hkind : operator.kind ≠ .equal ∧ operator.kind ≠ .kwOr ∧ operator.kind ≠ .kwAnd)
    (leftValue rightValue : Value) :
    Acts (.evaluate scope (.binary left operator right)) (applyBinary leftValue operator rightValue)
  | malformed (scope : ScopeId) {left : Expr} {operator : Token} (right : Expr)
    (hkind : operator.kind = .equal) (hleft : ∀ name, left ≠ .variable name) :
    Acts (.evaluate scope (.binary left operator right)) (Eval.malformed : Eval Value)
  -- Actions on the output and the clock.
  | write {task : Task} (text : String) : Acts task (Eval.write text)
  | native {task : Task} (function : Native) (arguments : List Value) :
    Acts task (Eval.native function arguments)
  -- Actions on what is there in the store.
  | define {task : Task} (scope : ScopeId) (name : String) (value : Value) :
    Acts task (Eval.define scope name value)
  | assign {task : Task} (scope : ScopeId) (name : String) (value : Value) :
    Acts task (Eval.assign scope name value)
  | property {task : Task} (object : Value) (name : String) :
    Acts task (Eval.property object name)
  | setProperty (scope : ScopeId) (object : Expr) (name : Token) (value : Expr)
    (target result : Value) :
    Acts (.evaluate scope (.set object name value)) (Eval.setProperty target name.lexeme result)
  -- Actions that add something to the store.
  | newChild {task : Task} (parent : ScopeId) (bindings : Table Value) :
    Acts task (Eval.allocate fun store => store.newChild parent bindings)
  | newFunction (scope : ScopeId) (decl : FunctionDecl) :
    Acts (.execute scope (.function decl))
      (Eval.allocate fun store => store.newFunction decl scope)
  | newFunctions (scope : ScopeId) (name : Token) (superclass : Option Token)
    (methods : List FunctionDecl) :
    Acts (.execute scope (.classDecl name superclass methods))
      (Eval.allocate fun store => store.newFunctions scope methods)
  | declareClass {task : Task} (name : String) (superclass : Option ClassId)
    (methods : List (String × FunctionId)) :
    Acts task (Eval.allocate fun store => store.declareClass name superclass methods)
  | newInstance {task : Task} (id : ClassId) :
    Acts task (Eval.allocate fun store => store.newInstance id)
  | bindMethod {task : Task} (resolution : MethodResolution) (id : InstanceId) :
    Acts task (Eval.allocate fun store => store.bindMethod resolution id)

/-- By running the second task, the first one runs statements that stand inside its own. -/
inductive Encloses : Task → Task → Prop
  | block (scope inner : ScopeId) (body : List Stmt) :
    Encloses (.execute scope (.block body)) (.executeAll inner body)
  | thenBranch (scope inner : ScopeId) (condition : Expr) (thenBranch : Stmt)
    (elseBranch : Option Stmt) :
    Encloses (.execute scope (.ifElse condition thenBranch elseBranch)) (.execute inner thenBranch)
  | elseBranch (scope inner : ScopeId) (condition : Expr) (thenBranch elseBranch : Stmt) :
    Encloses (.execute scope (.ifElse condition thenBranch (some elseBranch)))
      (.execute inner elseBranch)
  | whileStmt (scope : ScopeId) (condition : Expr) (body : Stmt) :
    Encloses (.execute scope (.whileLoop condition body)) (.whileLoop scope condition body)
  | forStmt (scope clauses : ScopeId) (init : Option Stmt) (condition post : Option Expr)
    (body : Stmt) :
    Encloses (.execute scope (.forLoop init condition post body))
      (.forLoop clauses condition post body)
  | first (scope : ScopeId) (stmt : Stmt) (rest : List Stmt) :
    Encloses (.executeAll scope (stmt :: rest)) (.execute scope stmt)
  | rest (scope : ScopeId) (stmt next : Stmt) (rest : List Stmt) :
    Encloses (.executeAll scope (stmt :: next :: rest)) (.executeAll scope (next :: rest))
  | whileBody (scope inner : ScopeId) (condition : Expr) (body : Stmt) :
    Encloses (.whileLoop scope condition body) (.execute inner body)
  | whileAgain (scope : ScopeId) (condition : Expr) (body : Stmt) :
    Encloses (.whileLoop scope condition body) (.whileLoop scope condition body)
  | forBody (clauses inner : ScopeId) (condition post : Option Expr) (body : Stmt) :
    Encloses (.forLoop clauses condition post body) (.execute inner body)
  | forAgain (clauses : ScopeId) (condition post : Option Expr) (body : Stmt) :
    Encloses (.forLoop clauses condition post body) (.forLoop clauses condition post body)

/-- In the states `Inv`, the first task may call the second. -/
inductive Calls (Inv : State → Prop) : Task → Task → Prop
  | inside {task other : Task} (h : task.Encloses other) : Calls Inv task other
  -- From a statement to what stands in it beside statements.
  | init (scope clauses : ScopeId) (init : Stmt) (condition post : Option Expr) (body : Stmt) :
    Calls Inv (.execute scope (.forLoop (some init) condition post body)) (.execute clauses init)
  | expression (scope : ScopeId) (expr : Expr) :
    Calls Inv (.execute scope (.expression expr)) (.evaluate scope expr)
  | print (scope : ScopeId) (expr : Expr) :
    Calls Inv (.execute scope (.print expr)) (.evaluate scope expr)
  | varDecl (scope : ScopeId) (name : Token) (init : Option Expr) :
    Calls Inv (.execute scope (.varDecl name init)) (.evaluateOption scope init)
  | condition (scope : ScopeId) (condition : Expr) (thenBranch : Stmt) (elseBranch : Option Stmt) :
    Calls Inv (.execute scope (.ifElse condition thenBranch elseBranch)) (.evaluate scope condition)
  | returned (scope : ScopeId) (keyword : Token) (value : Option Expr) :
    Calls Inv (.execute scope (.returnValue keyword value)) (.evaluateOption scope value)
  | whileCondition (scope : ScopeId) (condition : Expr) (body : Stmt) :
    Calls Inv (.whileLoop scope condition body) (.evaluate scope condition)
  | forCondition (clauses : ScopeId) (condition : Expr) (post : Option Expr) (body : Stmt) :
    Calls Inv (.forLoop clauses (some condition) post body) (.evaluate clauses condition)
  | post (clauses : ScopeId) (condition post : Option Expr) (body : Stmt) :
    Calls Inv (.forLoop clauses condition post body) (.evaluateOption clauses post)
  -- From an expression to its parts.
  | grouping (scope : ScopeId) (inner : Expr) :
    Calls Inv (.evaluate scope (.grouping inner)) (.evaluate scope inner)
  | operand (scope : ScopeId) (operator : Token) (operand : Expr) :
    Calls Inv (.evaluate scope (.unary operator operand)) (.evaluate scope operand)
  | left (scope : ScopeId) (left : Expr) (operator : Token) (right : Expr) :
    Calls Inv (.evaluate scope (.binary left operator right)) (.evaluate scope left)
  | right (scope : ScopeId) (left : Expr) (operator : Token) (right : Expr) :
    Calls Inv (.evaluate scope (.binary left operator right)) (.evaluate scope right)
  | callee (scope : ScopeId) (callee : Expr) (paren : Token) (arguments : List Expr) :
    Calls Inv (.evaluate scope (.call callee paren arguments)) (.evaluate scope callee)
  | arguments (scope : ScopeId) (callee : Expr) (paren : Token) (arguments : List Expr) :
    Calls Inv (.evaluate scope (.call callee paren arguments)) (.evaluateAll scope arguments)
  | object (scope : ScopeId) (object : Expr) (name : Token) :
    Calls Inv (.evaluate scope (.get object name)) (.evaluate scope object)
  | target (scope : ScopeId) (object : Expr) (name : Token) (value : Expr) :
    Calls Inv (.evaluate scope (.set object name value)) (.evaluate scope object)
  | assigned (scope : ScopeId) (object : Expr) (name : Token) (value : Expr) :
    Calls Inv (.evaluate scope (.set object name value)) (.evaluate scope value)
  | superArguments (scope : ScopeId) (keyword : Token) (arguments : List Expr) :
    Calls Inv (.evaluate scope (.superCall keyword arguments)) (.evaluateAll scope arguments)
  | firstOf (scope : ScopeId) (expr : Expr) (rest : List Expr) :
    Calls Inv (.evaluateAll scope (expr :: rest)) (.evaluate scope expr)
  | restOf (scope : ScopeId) (expr : Expr) (rest : List Expr) :
    Calls Inv (.evaluateAll scope (expr :: rest)) (.evaluateAll scope rest)
  | given (scope : ScopeId) (expr : Expr) :
    Calls Inv (.evaluateOption scope (some expr)) (.evaluate scope expr)
  -- To a function, and from there to its body.
  | call {task : Task} (callee : Value) (arguments : List Value) :
    Calls Inv task (.call callee arguments)
  | construct {task : Task} (id : InstanceId) (start : Option ClassId) (arguments : List Value) :
    Calls Inv task (.construct id start arguments)
  | invoke {task : Task} (id : FunctionId) (binding : Option (InstanceId × ClassId))
    (arguments : List Value) : Calls Inv task (.invoke id binding arguments)
  | body {s : State} (hinv : Inv s) (id : FunctionId) (binding : Option (InstanceId × ClassId))
    (arguments : List Value) (scope : ScopeId) :
    Calls Inv (.invoke id binding arguments) (.executeAll scope (s.store.function id).decl.body)

/-! ## The lists are complete

For every kind of task the plan is gone through, and at each action and call the entry of the list
is named. Where a plan branches, each branch is gone through. -/

/-- The plan does nothing but what `task` can do. -/
abbrev CanDo {α : Type} (Inv : State → Prop) (task : Task) (plan : Plan α) : Prop :=
  plan.MadeOf Inv task.Acts (task.Calls Inv)

section

open Plan

variable {Inv : State → Prop} {task : Task}

theorem canDo_child (opening : Opening) (parent : ScopeId) :
    CanDo Inv task (child opening parent) :=
  ⟨.newChild parent .empty, fun _ _ _ _ _ => trivial⟩

/-- Entering a function, which may fail if two parameters have one name. -/
theorem canDo_enter (id : FunctionId) (function : UserFunction)
    (binding : Option (InstanceId × ClassId)) (arguments : List Value) :
    CanDo Inv task (enter id function binding arguments) := by
  refine (madeOf_act (.read _)).bind fun bindings => ?_
  cases Table.empty.addDistinct bindings with
  | error name => exact madeOf_act (.fail trivial)
  | ok table =>
    refine MadeOf.bind ?_ fun parameters => canDo_child _ parameters
    exact ⟨.newChild function.closure table, fun _ _ _ _ _ => trivial⟩

/-- Looking up a superclass, which may fail if the name stands for no class. -/
theorem canDo_parentClass (scope : ScopeId) (superclass : Option Token) :
    CanDo Inv task (parentClass scope superclass) := by
  cases superclass with
  | none => exact madeOf_pure _
  | some parent =>
    refine (madeOf_act (.lookup scope parent.lexeme)).bind fun value => ?_
    cases value with
    | classRef id => exact madeOf_pure id
    | _ => exact madeOf_act (.fail trivial)

theorem canDo_declareClass (scope : ScopeId) (name : Token) (superclass : Option Token)
    (methods : List FunctionDecl) :
    CanDo Inv (.execute scope (.classDecl name superclass methods))
      (declareClass scope name superclass methods) := by
  refine (canDo_parentClass scope superclass).bind fun parent => ?_
  refine (madeOf_act (.newFunctions scope name superclass methods)).bind fun functions => ?_
  refine (madeOf_act (.declareClass name.lexeme _ functions)).bind fun id => ?_
  exact madeOf_act (.define scope name.lexeme _)

theorem canDo_superProperty (id : InstanceId) (name : String) (start : Option ClassId) :
    CanDo Inv task (superProperty id name start) := by
  cases start with
  | none => exact madeOf_pure _
  | some parent =>
    refine (madeOf_act (.read _)).bind fun found => ?_
    cases found with
    | none => exact madeOf_pure _
    | some resolution => exact madeOf_act (.bindMethod resolution id)

/-- Operators between two operands: assignments, the two that may skip their right side, and the
others. -/
theorem canDo_binary (scope : ScopeId) (left : Expr) (operator : Token) (right : Expr) :
    CanDo Inv (.evaluate scope (.binary left operator right))
      (evaluateBody scope (.binary left operator right)) := by
  have hleft : CanDo Inv (.evaluate scope (.binary left operator right))
      (perform (.evaluate scope left)) := madeOf_perform (.left scope left operator right)
  have hright : CanDo Inv (.evaluate scope (.binary left operator right))
      (perform (.evaluate scope right)) := madeOf_perform (.right scope left operator right)
  unfold evaluateBody
  dsimp only
  split
  -- An assignment evaluates its right side only. Its left side is a name, or the tree is none that
  -- the parser builds.
  case h_1 hkind =>
    split
    · refine hright.bind fun value => ?_
      exact (madeOf_act (.assign scope _ value)).bind fun _ => madeOf_pure value
    case h_2 hvariable => exact madeOf_act (.malformed scope right hkind hvariable)
  -- For `or` and `and` the left side decides whether the right one is evaluated.
  case h_2 hkind =>
    refine hleft.bind fun value => ?_
    split
    · exact madeOf_pure value
    · exact hright
  case h_3 hkind =>
    refine hleft.bind fun value => ?_
    split
    · exact hright
    · exact madeOf_pure value
  case h_4 hequal hor hand =>
    refine hleft.bind fun leftValue => hright.bind fun rightValue => ?_
    exact madeOf_act (.binary scope left right ⟨hequal, hor, hand⟩ leftValue rightValue)

/-- What an expression can do: its plan is made of the actions and the calls that are listed for it.
There is one case for each kind, and each step of its plan names the entry in the list. -/
theorem canDo_evaluate (scope : ScopeId) (expr : Expr) :
    CanDo Inv (.evaluate scope expr) (evaluateBody scope expr) := by
  cases expr with
  | literal token => exact madeOf_pure _
  | «variable» name => exact madeOf_act (.lookup scope name.lexeme)
  | grouping inner => exact madeOf_perform (.grouping scope inner)
  | unary operator operand =>
    refine (madeOf_perform (.operand scope operator operand)).bind fun value => ?_
    exact madeOf_act (.unary scope operator operand value)
  | binary left operator right => exact canDo_binary scope left operator right
  | call callee paren arguments =>
    refine (madeOf_perform (.callee scope callee paren arguments)).bind fun function => ?_
    refine (madeOf_perform (.arguments scope callee paren arguments)).bind fun values => ?_
    exact madeOf_perform (.call function values)
  | get object name =>
    refine (madeOf_perform (.object scope object name)).bind fun value => ?_
    exact madeOf_act (.property value name.lexeme)
  | set object name value =>
    refine (madeOf_perform (.target scope object name value)).bind fun target => ?_
    refine (madeOf_perform (.assigned scope object name value)).bind fun result => ?_
    refine (madeOf_act (.setProperty scope object name value target result)).bind fun _ => ?_
    exact madeOf_pure result
  | this keyword =>
    exact (madeOf_act (.receiver scope thisName)).bind fun id => madeOf_pure _
  | superGet keyword method =>
    refine (madeOf_act (.receiver scope superName)).bind fun id => ?_
    refine (madeOf_act (.superclass scope)).bind fun parent => ?_
    exact canDo_superProperty id method.lexeme parent
  | superCall keyword arguments =>
    refine (madeOf_act (.receiver scope superName)).bind fun id => ?_
    refine (madeOf_act (.superclass scope)).bind fun parent => ?_
    refine (madeOf_perform (.superArguments scope keyword arguments)).bind fun values => ?_
    exact (madeOf_perform (.construct id parent values)).bind fun _ => madeOf_pure _

/-- What a row of expressions can do. -/
theorem canDo_evaluateAll (scope : ScopeId) (exprs : List Expr) :
    CanDo Inv (.evaluateAll scope exprs) (evaluateAllBody scope exprs) := by
  cases exprs with
  | nil => exact madeOf_pure _
  | cons expr rest =>
    refine (madeOf_perform (.firstOf scope expr rest)).bind fun value => ?_
    exact (madeOf_perform (.restOf scope expr rest)).bind fun others => madeOf_pure _

theorem canDo_call (callee : Value) (arguments : List Value) :
    CanDo Inv (.call callee arguments) (callBody arguments callee) := by
  cases callee with
  | function ref =>
    refine (madeOf_act (.read _)).bind fun arity => ?_
    refine (madeOf_act (.checkArity arity arguments.length)).bind fun _ => ?_
    cases ref with
    | native function => exact madeOf_act (.native function arguments)
    | user id => exact madeOf_perform (.invoke id none arguments)
    | bound id =>
      exact (madeOf_act (.read _)).bind fun bound => madeOf_perform (.invoke _ _ arguments)
  | classRef id =>
    refine (madeOf_act (.newInstance id)).bind fun created => ?_
    exact (madeOf_perform (.construct created (some id) arguments)).bind fun _ => madeOf_pure _
  | _ => exact madeOf_act (.fail trivial)

theorem canDo_construct (id : InstanceId) (start : Option ClassId) (arguments : List Value) :
    CanDo Inv (.construct id start arguments) (constructBody id start arguments) := by
  refine (madeOf_act (.read _)).bind fun found => ?_
  cases found with
  | none => exact madeOf_act (.checkArity 0 arguments.length)
  | some resolution =>
    refine (madeOf_act (.read _)).bind fun arity => ?_
    refine (madeOf_act (.checkArity arity arguments.length)).bind fun _ => ?_
    exact (madeOf_perform (.invoke _ _ arguments)).bind fun _ => madeOf_pure _

/-- The only body that an invocation runs is that of the function in the store. -/
theorem canDo_invoke (id : FunctionId) (binding : Option (InstanceId × ClassId))
    (arguments : List Value) :
    CanDo Inv (.invoke id binding arguments) (invokeBody id binding arguments) := by
  refine madeOf_act_bind (.read _) fun s function s' hinv hread => ?_
  obtain ⟨rfl, -⟩ := EStateM.Result.ok.inj hread
  refine (canDo_enter id _ binding arguments).bind fun scope => ?_
  refine (madeOf_perform (.body hinv id binding arguments scope)).bind fun completion => ?_
  cases completion <;> exact madeOf_pure _

theorem canDo_execute (scope : ScopeId) (stmt : Stmt) :
    CanDo Inv (.execute scope stmt) (executeBody scope stmt) := by
  cases stmt with
  | expression expr =>
    exact (madeOf_perform (.expression scope expr)).bind fun value => madeOf_pure _
  | print expr =>
    refine (madeOf_perform (.print scope expr)).bind fun value => ?_
    refine (madeOf_act (.read _)).bind fun text => ?_
    exact (madeOf_act (.write _)).bind fun _ => madeOf_pure _
  | varDecl name init =>
    refine (madeOf_perform (.varDecl scope name init)).bind fun value => ?_
    exact (madeOf_act (.define scope name.lexeme value)).bind fun _ => madeOf_pure _
  | block body =>
    exact (canDo_child _ scope).bind fun inner => madeOf_perform (.inside (.block scope inner body))
  | ifElse condition thenBranch elseBranch =>
    refine (madeOf_perform (.condition scope condition thenBranch elseBranch)).bind fun value => ?_
    split
    · exact (canDo_child _ scope).bind fun inner =>
        madeOf_perform (.inside (.thenBranch scope inner condition thenBranch elseBranch))
    · cases elseBranch with
      | none => exact madeOf_pure _
      | some elseBranch =>
        exact (canDo_child _ scope).bind fun inner =>
          madeOf_perform (.inside (.elseBranch scope inner condition thenBranch elseBranch))
  | whileLoop condition body => exact madeOf_perform (.inside (.whileStmt scope condition body))
  | forLoop init condition post body =>
    refine (canDo_child _ scope).bind fun clauses => ?_
    -- With or without an initialiser, the loop is what comes last.
    have hloop : CanDo Inv (.execute scope (.forLoop init condition post body))
        (perform (.forLoop clauses condition post body)) :=
      madeOf_perform (.inside (.forStmt scope clauses init condition post body))
    cases init with
    | none => exact hloop
    | some init =>
      exact (madeOf_perform (.init scope clauses init condition post body)).bind fun _ => hloop
  | function decl =>
    refine (madeOf_act (.newFunction scope decl)).bind fun id => ?_
    exact (madeOf_act (.define scope decl.name.lexeme _)).bind fun _ => madeOf_pure _
  | returnValue keyword value =>
    exact (madeOf_perform (.returned scope keyword value)).bind fun result => madeOf_pure _
  | classDecl name superclass methods =>
    exact (canDo_declareClass scope name superclass methods).bind fun _ => madeOf_pure _

/-- What a row of statements can do. -/
theorem canDo_executeAll (scope : ScopeId) (statements : List Stmt) :
    CanDo Inv (.executeAll scope statements) (executeAllBody scope statements) := by
  match statements with
  | [] => exact madeOf_pure _
  | [last] => exact madeOf_perform (.inside (.first scope last []))
  | stmt :: next :: rest =>
    refine (madeOf_perform (.inside (.first scope stmt (next :: rest)))).bind fun completion => ?_
    cases completion with
    | returned value => exact madeOf_pure _
    | normal value => exact madeOf_perform (.inside (.rest scope stmt next rest))

/-- What one turn of a `while` can do. -/
theorem canDo_whileLoop (scope : ScopeId) (condition : Expr) (body : Stmt) :
    CanDo Inv (.whileLoop scope condition body) (whileLoopBody scope condition body) := by
  refine (madeOf_perform (.whileCondition scope condition body)).bind fun value => ?_
  split
  · refine (canDo_child _ scope).bind fun inner => ?_
    refine (madeOf_perform (.inside (.whileBody scope inner condition body))).bind
      fun completion => ?_
    cases completion with
    | returned value => exact madeOf_pure _
    | normal value => exact madeOf_perform (.inside (.whileAgain scope condition body))
  · exact madeOf_pure _

/-- What one turn of a `for` can do. -/
theorem canDo_forLoop (clauses : ScopeId) (condition post : Option Expr) (body : Stmt) :
    CanDo Inv (.forLoop clauses condition post body) (forLoopBody clauses condition post body) := by
  have hgoesOn : CanDo Inv (.forLoop clauses condition post body) (goesOn clauses condition) := by
    cases condition with
    | none => exact madeOf_pure _
    | some condition =>
      exact (madeOf_perform (.forCondition clauses condition post body)).bind fun _ => madeOf_pure _
  refine hgoesOn.bind fun goOn => ?_
  split
  · refine (canDo_child _ clauses).bind fun inner => ?_
    refine (madeOf_perform (.inside (.forBody clauses inner condition post body))).bind
      fun completion => ?_
    cases completion with
    | returned value => exact madeOf_pure _
    | normal value =>
      refine (madeOf_perform (.post clauses condition post body)).bind fun _ => ?_
      exact madeOf_perform (.inside (.forAgain clauses condition post body))
  · exact madeOf_pure _

end

/-- The plan of a task is made of what the task can do. -/
theorem madeOf (Inv : State → Prop) (task : Task) :
    task.body.MadeOf Inv task.Acts (task.Calls Inv) := by
  cases task with
  | evaluate scope expr => exact canDo_evaluate scope expr
  | evaluateAll scope exprs => exact canDo_evaluateAll scope exprs
  | evaluateOption scope expr =>
    cases expr with
    | none => exact Plan.madeOf_pure _
    | some expr => exact Plan.madeOf_perform (.given scope expr)
  | call callee arguments => exact canDo_call callee arguments
  | construct id start arguments => exact canDo_construct id start arguments
  | invoke id binding arguments => exact canDo_invoke id binding arguments
  | execute scope stmt => exact canDo_execute scope stmt
  | executeAll scope statements => exact canDo_executeAll scope statements
  | whileLoop scope condition body => exact canDo_whileLoop scope condition body
  | forLoop clauses condition post body => exact canDo_forLoop clauses condition post body

end Task

end Script
