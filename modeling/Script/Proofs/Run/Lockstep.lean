import Script.Proofs.Run.Fuel
import Script.Proofs.Run.Twins

/-!
# Twins run in lockstep

The plans of twins act alike and call twins (`Task.Twin.body`). By induction on the fuel, twins come
to the same outcome with the same fuel, and leave states that are the same but for blank scopes
(`Task.Twin.run`). Where the second one has more fuel, this holds unless the first one gives out
(`Task.Twin.approximates`).
-/

namespace Script

variable {W : Pairing} {i j : ScopeId}

namespace Plan

/-- Scopes that are the same in what comes next. -/
abbrev SameScope : Pairing → ScopeId → ScopeId → Prop := fun W => W.same

/-- Scopes without variables that are opened for the same. -/
theorem twin_child (opening : Opening) (h : W.near i j) :
    (child opening i).Twin SameScope W (child opening j) :=
  twin_openScope opening h .empty

/-! ## Parts of plans

Entering a function and declaring a class, which are long enough to be looked at by themselves. -/

/-- A function is entered in its closure. The two closures are the same scope, and so are the new
scopes. -/
theorem twin_enter (id : FunctionId) {function function' : UserFunction}
    (hfunction : function.Paired W function') (binding : Option (InstanceId × ClassId))
    (arguments : List Value) :
    (enter id function binding arguments).Twin SameScope W
      (enter id function' binding arguments) := by
  -- What is bound for the call are the arguments and classes, which are no scopes.
  have hbindings : ∀ a b : Store, a.Paired W b → Eval.callBindings b function' binding arguments =
      Eval.callBindings a function binding arguments := by
    intro a b hstore
    unfold Eval.callBindings
    rw [hfunction.decl]
    cases binding with
    | none => rfl
    | some binding => simp only [hstore.superclass?]
  unfold enter
  refine (twin_readSame hbindings).bind fun W' bindings _ hle hsame => ?_
  subst hsame
  rw [hfunction.decl]
  cases Table.empty.addDistinct bindings with
  | error name => exact twin_fail _
  | ok table =>
    have hclosure := W'.near_of_same (hle.same hfunction.closure)
    exact (twin_openScope _ hclosure table).bind fun W'' parameters parameters' _ hparameters =>
      twin_child _ (W''.near_of_same hparameters)

/-- A class is declared with the same name, ancestors and methods, in scopes that are the same. -/
theorem twin_declareClass (h : W.same i j) (name : Token) (superclass : Option Token)
    (methods : List FunctionDecl) :
    (declareClass i name superclass methods).Twin Equal W
      (declareClass j name superclass methods) := by
  -- Classes have no scopes of their own, so the two runs look up the very same class.
  have hparent : (parentClass i superclass).Twin Equal W (parentClass j superclass) := by
    cases superclass with
    | none => exact twin_pure rfl
    | some parent =>
      refine (twin_lookup (W.near_of_same h) parent.lexeme).bind fun W' value _ _ hvalue => ?_
      subst hvalue
      cases value with
      | classRef id => exact twin_pure rfl
      | _ => exact twin_fail _
  unfold declareClass
  refine hparent.bind fun W₁ parent _ hle₁ hsame => ?_
  subst hsame
  have hfunctions : (act (Eval.allocate fun store => store.newFunctions i methods)).Twin Equal W₁
      (act (Eval.allocate fun store => store.newFunctions j methods)) :=
    twin_allocate fun _ _ hstore => hstore.newFunctions (hle₁.same h) methods
  refine hfunctions.bind fun W₂ functions _ hle₂ hsame => ?_
  subst hsame
  refine (twin_allocate fun _ _ hstore => hstore.declareClass _ _ _).bind
    fun W₃ id _ hle₃ hsame => ?_
  subst hsame
  exact twin_define (hle₃.same (hle₂.same (hle₁.same h))) _ _

theorem twin_superProperty (id : InstanceId) (name : String) (start : Option ClassId) :
    (superProperty id name start).Twin Equal W (superProperty id name start) := by
  cases start with
  | none => exact twin_pure rfl
  | some parent =>
    have hfound : ∀ a b : Store, a.Paired W b → b.method? parent name = a.method? parent name :=
      fun _ _ hstore => hstore.method? parent name
    refine (twin_readSame hfound).bind fun W' found _ _ hsame => ?_
    subst hsame
    cases found with
    | none => exact twin_pure rfl
    | some resolution => exact twin_allocate fun _ _ hstore => hstore.bindMethod resolution id

theorem twin_goesOn (h : W.near i j) (condition : Option Expr) :
    (goesOn i condition).Twin Equal W (goesOn j condition) := by
  cases condition with
  | none => exact twin_pure rfl
  | some condition =>
    refine (twin_evaluate h condition).bind fun _ value _ _ hsame => ?_
    subst hsame
    exact twin_pure rfl

end Plan

open Plan

/-! ## The plans of tasks

One lemma for each kind of task. Each follows the plan and shows at every action and call that the
scopes used there are near to each other, or the same where a name is declared. `subst hsame`
replaces a result of the second plan by that of the first one, to which it is equal. -/

namespace Task

theorem evaluateBody_twin (h : W.near i j) (expr : Expr) :
    (evaluateBody i expr).Twin Equal W (evaluateBody j expr) := by
  cases expr with
  | literal token => exact twin_pure rfl
  | «variable» name => exact twin_lookup h name.lexeme
  | grouping inner => exact twin_evaluate h inner
  | unary operator operand =>
    refine (twin_evaluate h operand).bind fun _ value _ _ hsame => ?_
    subst hsame
    exact twin_unary operator value
  | binary left operator right =>
    -- The operator decides what is evaluated at all: of an assignment only the right side, of the
    -- logical operators the right side only where the left one leaves it open.
    unfold evaluateBody
    dsimp only
    split
    · split
      · refine (twin_evaluate h right).bind fun W' value _ hle hsame => ?_
        subst hsame
        exact (twin_assign (hle.near h) _ value).bind fun _ _ _ _ _ => twin_pure rfl
      · exact twin_malformed
    · refine (twin_evaluate h left).bind fun W' value _ hle hsame => ?_
      subst hsame
      split
      · exact twin_pure rfl
      · exact twin_evaluate (hle.near h) right
    · refine (twin_evaluate h left).bind fun W' value _ hle hsame => ?_
      subst hsame
      split
      · exact twin_evaluate (hle.near h) right
      · exact twin_pure rfl
    · refine (twin_evaluate h left).bind fun W' leftValue _ hle hsame => ?_
      subst hsame
      refine (twin_evaluate (hle.near h) right).bind fun _ rightValue _ _ hsame => ?_
      subst hsame
      exact twin_binary leftValue operator rightValue
  | call callee paren arguments =>
    refine (twin_evaluate h callee).bind fun W' function _ hle hsame => ?_
    subst hsame
    refine (twin_evaluateAll (hle.near h) arguments).bind fun _ values _ _ hsame => ?_
    subst hsame
    exact twin_call function values
  | get object name =>
    refine (twin_evaluate h object).bind fun _ value _ _ hsame => ?_
    subst hsame
    exact twin_allocate fun _ _ hstore => hstore.property value name.lexeme
  | set object name value =>
    refine (twin_evaluate h object).bind fun W' target _ hle hsame => ?_
    subst hsame
    refine (twin_evaluate (hle.near h) value).bind fun _ result _ _ hsame => ?_
    subst hsame
    refine (twin_update fun _ _ hstore => hstore.setProperty target name.lexeme result).bind
      fun _ _ _ _ _ => twin_pure rfl
  | this keyword =>
    refine (twin_receiver h thisName).bind fun _ id _ _ hsame => ?_
    subst hsame
    exact twin_pure rfl
  | superGet keyword method =>
    refine (twin_receiver h superName).bind fun W' id _ hle hsame => ?_
    subst hsame
    refine (twin_superclass (hle.near h)).bind fun _ parent _ _ hsame => ?_
    subst hsame
    exact twin_superProperty id method.lexeme parent
  -- Each step has to find the scopes near to each other still, since the one before it may have
  -- added some.
  | superCall keyword arguments =>
    refine (twin_receiver h superName).bind fun W₁ id _ hle₁ hsame => ?_
    subst hsame
    refine (twin_superclass (hle₁.near h)).bind fun W₂ parent _ hle₂ hsame => ?_
    subst hsame
    refine (twin_evaluateAll (hle₂.near (hle₁.near h)) arguments).bind
      fun _ values _ _ hsame => ?_
    subst hsame
    exact (twin_construct id parent values).bind fun _ _ _ _ _ => twin_pure rfl

/-- The plans for a call of the same value. What is called is known by a reference, under which both
stores hold the same function up to its closure, so arity, receiver and body agree. -/
theorem callBody_twin (arguments : List Value) (callee : Value) :
    (callBody arguments callee).Twin Equal W (callBody arguments callee) := by
  cases callee with
  | function ref =>
    have harity : ∀ a b : Store, a.Paired W b → b.arity ref = a.arity ref :=
      fun _ _ hstore => hstore.arity ref
    refine (twin_readSame harity).bind fun _ arity _ _ hsame => ?_
    subst hsame
    refine (twin_checkArity arity arguments.length).bind fun W' _ _ _ _ => ?_
    cases ref with
    | native function => exact twin_native function arguments
    | user id => exact twin_invoke id none arguments
    | bound id =>
      -- The pairing may have grown while the arity was checked, so the method is compared anew.
      have hbound : ∀ a b : Store, a.Paired W' b → b.boundMethod id = a.boundMethod id :=
        fun _ _ hstore => hstore.boundMethod id
      refine (twin_readSame hbound).bind fun _ bound _ _ hsame => ?_
      subst hsame
      exact twin_invoke _ _ arguments
  | classRef id =>
    refine (twin_allocate fun _ _ hstore => hstore.newInstance id).bind
      fun _ created _ _ hsame => ?_
    subst hsame
    exact (twin_construct created (some id) arguments).bind fun _ _ _ _ _ => twin_pure rfl
  | nil | boolean | number | string | instanceRef => exact twin_fail _

/-- The plans for the construction of the same instance. The search for a constructor goes along
classes, which the pairing leaves alone, and finds the same method or none in both stores. -/
theorem constructBody_twin (id : InstanceId) (start : Option ClassId) (arguments : List Value) :
    (constructBody id start arguments).Twin Equal W (constructBody id start arguments) := by
  unfold constructBody
  have hfound : ∀ a b : Store, a.Paired W b →
      (start.bind fun start => b.method? start constructorName) =
        start.bind fun start => a.method? start constructorName := by
    intro a b hstore
    cases start with
    | none => rfl
    | some start => exact hstore.method? start constructorName
  refine (twin_readSame hfound).bind fun W' found _ _ hsame => ?_
  subst hsame
  cases found with
  | none => exact twin_checkArity 0 arguments.length
  | some resolution =>
    have harity : ∀ a b : Store, a.Paired W' b →
        b.arity (.user resolution.method) = a.arity (.user resolution.method) :=
      fun _ _ hstore => hstore.arity _
    refine (twin_readSame harity).bind fun _ arity _ _ hsame => ?_
    subst hsame
    refine (twin_checkArity arity arguments.length).bind fun _ _ _ _ _ => ?_
    exact (twin_invoke _ _ arguments).bind fun _ _ _ _ _ => twin_pure rfl

/-- The plans for running the same function. The functions have the same declaration and closures
that are the same scope, so the scopes that are opened for the call are the same again. -/
theorem invokeBody_twin (id : FunctionId) (binding : Option (InstanceId × ClassId))
    (arguments : List Value) :
    (invokeBody id binding arguments).Twin Equal W (invokeBody id binding arguments) := by
  unfold invokeBody
  -- The two functions have the same declaration, and closures that are the same scope.
  have hfunction : (act (Eval.read fun store => store.function id)).Twin
      (fun W f g => f.Paired W g) W (act (Eval.read fun store => store.function id)) :=
    twin_read fun _ _ hstore => hstore.function id
  refine hfunction.bind fun W₁ function function' _ hpair => ?_
  refine (twin_enter id hpair binding arguments).bind fun W₂ body body' _ hsame => ?_
  rw [hpair.decl]
  refine (twin_executeAll hsame _).bind fun _ completion _ _ hsame => ?_
  subst hsame
  cases completion with
  | returned value => exact twin_pure rfl
  | normal value => exact twin_pure rfl

/-- A branch, or one run of the body of a loop. -/
theorem branch_twin (h : W.near i j) (opening : Opening) (stmt : Stmt) :
    (do
      let inner ← child opening i
      perform (.execute inner stmt) : Plan Completion).Twin Equal W
      (do
        let inner ← child opening j
        perform (.execute inner stmt) : Plan Completion) :=
  (twin_child opening h).bind fun W' _ _ _ hsame =>
    twin_execute (W'.near_of_same hsame) fun _ => hsame

theorem executeBody_twin (h : W.near i j) {stmt : Stmt}
    (hdeclares : stmt.isDeclaration = true → W.same i j) :
    (executeBody i stmt).Twin Equal W (executeBody j stmt) := by
  cases stmt with
  | expression expr =>
    refine (twin_evaluate h expr).bind fun _ value _ _ hsame => ?_
    subst hsame
    exact twin_pure rfl
  | print expr =>
    refine (twin_evaluate h expr).bind fun W' value _ _ hsame => ?_
    subst hsame
    have htext : ∀ a b : Store, a.Paired W' b → b.display value = a.display value :=
      fun _ _ hstore => hstore.display value
    refine (twin_readSame htext).bind fun _ text _ _ hsame => ?_
    subst hsame
    exact (twin_write _).bind fun _ _ _ _ _ => twin_pure rfl
  | varDecl name init =>
    refine (twin_evaluateOption h init).bind fun W' value _ hle hsame => ?_
    subst hsame
    exact (twin_define (hle.same (hdeclares rfl)) _ value).bind fun _ _ _ _ _ => twin_pure rfl
  -- From here on the scopes are new, and so they are the same even if the ones outside are only
  -- near.
  | block body =>
    exact (twin_child _ h).bind fun _ _ _ _ hsame => twin_executeAll hsame body
  | ifElse condition thenBranch elseBranch =>
    refine (twin_evaluate h condition).bind fun W' value _ hle hsame => ?_
    subst hsame
    split
    · exact branch_twin (hle.near h) _ thenBranch
    · cases elseBranch with
      | none => exact twin_pure rfl
      | some elseBranch => exact branch_twin (hle.near h) _ elseBranch
  | whileLoop condition body => exact twin_whileLoop h condition body
  | forLoop init condition post body =>
    refine (twin_child _ h).bind fun W₁ clauses clauses' _ hsame => ?_
    have hclauses := W₁.near_of_same hsame
    cases init with
    | none => exact twin_forLoop hclauses condition post body
    | some init =>
      exact (twin_execute hclauses fun _ => hsame).bind fun _ _ _ hle _ =>
        twin_forLoop (hle.near hclauses) condition post body
  | function decl =>
    have hscope := hdeclares rfl
    refine (twin_allocate fun _ _ hstore => hstore.newFunction hscope decl).bind
      fun _ id _ hle hsame => ?_
    subst hsame
    exact (twin_define (hle.same hscope) _ _).bind fun _ _ _ _ _ => twin_pure rfl
  | returnValue keyword value =>
    refine (twin_evaluateOption h value).bind fun _ result _ _ hsame => ?_
    subst hsame
    exact twin_pure rfl
  | classDecl name superclass methods =>
    exact (twin_declareClass (hdeclares rfl) name superclass methods).bind
      fun _ _ _ _ _ => twin_pure rfl

/-- The plans for a row of expressions, of which the rest is evaluated in scopes that are still
near. -/
theorem evaluateAllBody_twin (h : W.near i j) (exprs : List Expr) :
    (evaluateAllBody i exprs).Twin Equal W (evaluateAllBody j exprs) := by
  cases exprs with
  | nil => exact twin_pure rfl
  | cons expr rest =>
    refine (twin_evaluate h expr).bind fun _ value _ hle hsame => ?_
    subst hsame
    refine (twin_evaluateAll (hle.near h) rest).bind fun _ others _ _ hsame => ?_
    subst hsame
    exact twin_pure rfl

/-- The plans for a row of statements. What one statement declares is seen by the next, so the
scopes must be the same and not only near. -/
theorem executeAllBody_twin (h : W.same i j) (statements : List Stmt) :
    (executeAllBody i statements).Twin Equal W (executeAllBody j statements) := by
  have hnear := W.near_of_same h
  match statements with
  | [] => exact twin_pure rfl
  | [last] => exact twin_execute hnear fun _ => h
  | stmt :: next :: rest =>
    refine (twin_execute hnear fun _ => h).bind fun _ completion _ hle hsame => ?_
    subst hsame
    cases completion with
    | returned value => exact twin_pure rfl
    | normal value => exact twin_executeAll (hle.same h) (next :: rest)

/-- The plans for one turn of a `while`. -/
theorem whileLoopBody_twin (h : W.near i j) (condition : Expr) (body : Stmt) :
    (whileLoopBody i condition body).Twin Equal W (whileLoopBody j condition body) := by
  refine (twin_evaluate h condition).bind fun W₁ value _ hle₁ hsame => ?_
  subst hsame
  split
  · refine (twin_child _ (hle₁.near h)).bind fun W₂ inner inner' hle₂ hsame => ?_
    refine (twin_execute (W₂.near_of_same hsame) fun _ => hsame).bind
      fun W₃ completion _ hle₃ hsame => ?_
    subst hsame
    cases completion with
    | returned value => exact twin_pure rfl
    | normal value => exact twin_whileLoop (hle₃.near (hle₂.near (hle₁.near h))) condition body
  · exact twin_pure rfl

/-- The plans for one turn of a `for`. -/
theorem forLoopBody_twin (h : W.near i j) (condition post : Option Expr) (body : Stmt) :
    (forLoopBody i condition post body).Twin Equal W (forLoopBody j condition post body) := by
  refine (twin_goesOn h condition).bind fun W₁ goOn _ hle₁ hsame => ?_
  subst hsame
  split
  · refine (twin_child _ (hle₁.near h)).bind fun W₂ inner inner' hle₂ hsame => ?_
    refine (twin_execute (W₂.near_of_same hsame) fun _ => hsame).bind
      fun W₃ completion _ hle₃ hsame => ?_
    subst hsame
    cases completion with
    | returned value => exact twin_pure rfl
    | normal value =>
      have hnear := hle₃.near (hle₂.near (hle₁.near h))
      exact (twin_evaluateOption hnear post).bind fun _ _ _ hle₄ _ =>
        twin_forLoop (hle₄.near hnear) condition post body
  · exact twin_pure rfl

/-- The plans of twins act alike and call twins. This is the step lemma of the simulation, with one
case for each way in which two tasks can be twins. -/
theorem Twin.body {task task' : Task} (h : task.Twin W task') :
    task.body.Twin (fun _ a b => HEq a b) W task'.body := by
  -- The results of a task have a type that depends on it, so equality of results is stated as
  -- `HEq`, although in each case the two types are the same.
  have hequal : ∀ {α : Type} {plan plan' : Plan α}, plan.Twin Equal W plan' →
      plan.Twin (fun _ a b => HEq a b) W plan' := by
    intro α plan plan' hplan
    exact hplan.mono fun _ _ _ hsame => heq_of_eq hsame
  cases h with
  | evaluate h expr => exact hequal (evaluateBody_twin h expr)
  | evaluateAll h exprs => exact hequal (evaluateAllBody_twin h exprs)
  | evaluateOption h expr =>
    cases expr with
    | none => exact hequal (twin_pure rfl)
    | some expr => exact hequal (twin_evaluate h expr)
  | call callee arguments => exact hequal (callBody_twin arguments callee)
  | construct id start arguments => exact hequal (constructBody_twin id start arguments)
  | invoke id binding arguments => exact hequal (invokeBody_twin id binding arguments)
  | execute h hdeclares => exact hequal (executeBody_twin h hdeclares)
  | executeAll h statements => exact hequal (executeAllBody_twin h statements)
  | whileLoop h condition body => exact hequal (whileLoopBody_twin h condition body)
  | forLoop h condition post body => exact hequal (forLoopBody_twin h condition post body)

end Task

/-! ## Runs

The plans are put together by induction on the fuel, which bounds how deep calls are nested. -/

/-- Plans that are twins are carried out in lockstep, if the tasks that they call are. -/
theorem Plan.Twin.eval {α β : Type} {Q : Pairing → α → β → Prop} {plan : Plan α} {plan' : Plan β}
    {run : (task : Task) → Eval task.Result} (h : plan.Twin Q W plan')
    (hrun : ∀ {W task task'} {s t : State}, task.Twin W task' → s.Paired W t →
      Twinned W (fun _ a b => HEq a b) (run task s) (run task' t))
    {s t : State} (hstate : s.Paired W t) : Twinned W Q (plan.eval run s) (plan'.eval run t) := by
  induction plan generalizing W plan' s t with
  | done a =>
    cases plan' with
    | done b => exact .ok W.le_refl hstate h
    -- Plans of different shape are no twins.
    | _ => exact h.elim
  | step event action next ih =>
    cases plan' with
    | step event' action' next' =>
      exact (h s t hstate).bind fun W' a b s' t' _ hstate' hnext => ih a hnext hstate'
    | _ => exact h.elim
  | sub task next ih =>
    cases plan' with
    | sub task' next' =>
      exact (hrun h.1 hstate).bind fun W' r r' s' t' hle hstate' hresult =>
        ih r (h.2 W' r r' hle hresult) hstate'
    | _ => exact h.elim

/-- Twins run in lockstep: with the same fuel they come to the same outcome, and the states are
still the same but for blank scopes. -/
theorem Task.Twin.run {task task' : Task} (h : task.Twin W task') (fuel : Nat) {s t : State}
    (hstate : s.Paired W t) :
    Twinned W (fun _ a b => HEq a b) (task.run fuel s) (task'.run fuel t) := by
  induction fuel generalizing W task task' s t with
  | zero =>
    rw [run_zero, run_zero]
    exact .error W.le_refl hstate
  | succ fuel ih =>
    rw [run_succ, run_succ]
    exact h.body.eval (fun htask hstate => ih htask hstate) hstate

/-! ## Runs with different bounds

A run may give out where one with more fuel goes on. What it has printed by then is the beginning of
what the other one prints, so that printing can be compared even for runs that never end. -/

section

variable {α β γ δ : Type} {W W' : Pairing} {Q : Pairing → α → β → Prop}
  {outcome : Outcome α} {outcome' : Outcome β}

/-- Twins have printed the same, whether they succeed or fail. -/
theorem Twinned.output_eq (h : Twinned W Q outcome outcome') :
    (finalState outcome').output = (finalState outcome).output := by
  cases h with
  | ok hle hstate h => exact hstate.output
  | error hle hstate => exact hstate.output

/-- The outcomes are those of twins, or the first run has given out, and the second one has printed
what the first one has, with more after it maybe. -/
def Approximates (W : Pairing) (Q : Pairing → α → β → Prop) (outcome : Outcome α)
    (outcome' : Outcome β) : Prop :=
  Twinned W Q outcome outcome' ∨
    ∃ s, outcome = .error .outOfFuel s ∧ s.PrintsOn (finalState outcome')

namespace Approximates

theorem of_le (h : Approximates W' Q outcome outcome') (hle : W ≤ W') :
    Approximates W Q outcome outcome' :=
  h.imp (fun htwins => htwins.of_le hle) id

/-- What the first run has printed, the second one has printed as well. -/
theorem printsOn (h : Approximates W Q outcome outcome') :
    (finalState outcome).PrintsOn (finalState outcome') := by
  rcases h with htwins | ⟨s, rfl, houtput⟩
  · exact .of_output_eq htwins.output_eq
  · exact houtput

/-- What a run approximates, the run with less fuel approximates as well. -/
theorem of_more {less : Outcome α} (h : Approximates W Q outcome outcome')
    (hmore : More less outcome) : Approximates W Q less outcome' := by
  rcases hmore with hsame | ⟨s, hexhausted, houtput⟩
  · rwa [← hsame]
  · exact .inr ⟨s, hexhausted, houtput.trans h.printsOn⟩

/-- Two evaluations one after the other, where those of the second run never take back what was
printed. -/
theorem bind {Q' : Pairing → γ → δ → Prop} {x : Eval α} {y : Eval β} {k : α → Eval γ}
    {l : β → Eval δ} {s t : State} (h : Approximates W Q (x s) (y t))
    (hk : ∀ W' a b s' t', W ≤ W' → s'.Paired W' t' → Q W' a b →
      Approximates W' Q' (k a s') (l b t'))
    (hprints : ∀ b, Prints (l b)) : Approximates W Q' ((x >>= k) s) ((y >>= l) t) := by
  rcases h with htwins | ⟨s₁, hexhausted, houtput⟩
  · -- The first evaluations end alike, and what follows starts in paired states.
    generalize hx : x s = outcome at htwins
    generalize hy : y t = outcome' at htwins
    cases htwins with
    | ok hle hstate h =>
      rw [Eval.bind_of_ok hx, Eval.bind_of_ok hy]
      exact (hk _ _ _ _ _ hle hstate h).of_le hle
    | error hle hstate =>
      rw [Eval.bind_of_error hx, Eval.bind_of_error hy]
      exact .inl (.error hle hstate)
  · -- The first run is out of fuel: it ends here, and the second one only adds to what it has
    -- printed.
    refine .inr ⟨s₁, Eval.bind_of_error hexhausted, houtput.trans ?_⟩
    cases hy : y t with
    | ok b t' =>
      rw [Eval.bind_of_ok hy]
      exact (hprints b).printsOn t'
    | error interrupt t' =>
      rw [Eval.bind_of_error hy]
      exact .refl t'

end Approximates

end

/-- Twins run in lockstep, with more fuel for the second one. -/
theorem Task.Twin.approximates {W : Pairing} {task task' : Task} (h : task.Twin W task')
    {fuel fuel' : Nat} (hle : fuel ≤ fuel') {s t : State} (hstate : s.Paired W t) :
    Approximates W (fun _ a b => HEq a b) (task.run fuel s) (task'.run fuel' t) := by
  have htwins := h.run fuel hstate
  rcases task'.run_more hle t with hsame | ⟨t', hexhausted, houtput⟩
  · rw [hsame]
    exact .inl htwins
  -- The second run gives out with the fuel of the first one, so the first one does.
  · rw [hexhausted] at htwins
    generalize task.run fuel s = outcome at htwins ⊢
    cases htwins with
    | error hle hstate' => exact .inr ⟨_, rfl, .trans (.of_output_eq hstate'.output) houtput⟩

end Script
