import Script.Proofs.Renaming.Actions

/-!
# The evaluator under other names

Evaluating a tree under other names, in a store under other names, goes exactly as it goes
otherwise: with the same results, the same output, and the same errors up to the name that they
carry. The functions of the evaluator are treated one by one, by induction on the fuel
(`disguised`). Only of what is defined with `fun` and `class` the names must be the same, since they
show in display texts.
-/

namespace Script

section

variable {d : Disguise} {fuel : Nat}

/-! ## Calls and classes

Two functions of the evaluator call no other ones with less fuel, so they come before the
induction. -/

/-- A body is entered in a scope with the parameters under their new names. A parameter that is
there twice is reported under the new name. -/
theorem enter_disguised (f : UserFunction) (binding : Option (InstanceId × ClassId))
    (arguments : List Value) :
    Corresponds d id (Eval.enter f binding arguments)
      (Eval.enter (d.function f) binding arguments) := by
  have hbindings : ∀ store, Eval.callBindings (d.store store) (d.function f) binding arguments =
      (Eval.callBindings store f binding arguments).map (Prod.map d.name id) := by
    intro store
    have hparams : ((d.function f).decl.params.map Token.lexeme).zip arguments =
        ((f.decl.params.map Token.lexeme).zip arguments).map (Prod.map d.name id) := by
      rw [d.function_params, List.map_map, ← List.zip_map_left, List.map_map]
      rfl
    unfold Eval.callBindings
    rw [hparams, List.map_append]
    cases binding with
    | none => rfl
    | some binding =>
      -- The receiver and the superclass are kept under names that stay.
      simp only [d.store_superclass?, List.map_cons, List.map_nil, Prod.map_apply,
        d.own thisName (by decide), d.own superName (by decide), id]
  unfold Eval.enter
  refine (corresponds_read fun store _ => hbindings store).bind fun bindings => ?_
  have htable : Table.empty.addDistinct (bindings.map (Prod.map d.name id)) =
      ((Table.empty.addDistinct bindings).map (Table.rename d.name)).mapError d.name :=
    Table.addDistinct_rename d.injective .empty bindings
  rw [htable]
  cases Table.empty.addDistinct bindings with
  | error name => exact corresponds_fail _ _
  | ok table =>
    exact (corresponds_newChild f.closure table).bind fun parameters => corresponds_child parameters

/-- A class is declared if it and its methods define nothing under a new name; its superclass may be
found under one. -/
theorem declareClass_disguised (scope : ScopeId) {name : Token}
    (hname : d.name name.lexeme = name.lexeme) (superclass : Option Token)
    {methods : List FunctionDecl} (hmethods : d.Keeps (FunctionDecl.definitionsOfAll methods)) :
    Corresponds d id (Eval.declareClass scope name superclass methods)
      (Eval.declareClass scope (name.rename d.recast) (superclass.map (Token.rename d.recast))
        (FunctionDecl.recastAll d.recast methods)) := by
  unfold Eval.declareClass
  refine Corresponds.bind (f := id) ?_ fun parent => ?_
  · cases superclass with
    | none => exact corresponds_pure rfl
    | some parent =>
      -- The superclass is a variable, whose name may change.
      refine (corresponds_lookup scope parent.lexeme).bind fun value => ?_
      cases value with
      | classRef id => exact corresponds_pure rfl
      | _ => exact corresponds_fail _ _
  · refine (corresponds_allocate (fun store => d.store_newFunctions store scope methods)
      fun _ hsuits => hsuits.newFunctions hmethods scope).bind fun functions => ?_
    refine (corresponds_allocate (f := id)
      (fun store => d.store_declareClass store name.lexeme (some parent) functions)
      fun _ hsuits => hsuits.declareClass hname _ _).bind fun id => ?_
    exact corresponds_define scope name.lexeme (.classRef id)

/-! ## The evaluator

For the functions that take a statement the hypothesis is about the definitions in it, and it is
split where the statement is. -/

/-- With this fuel the functions of the evaluator do not see the disguise. -/
structure Disguised (d : Disguise) (fuel : Nat) : Prop where
  evaluate : ∀ scope expr, Corresponds d id (Eval.evaluate fuel scope expr)
    (Eval.evaluate fuel scope (expr.recast d.recast))
  evaluateAll : ∀ scope exprs, Corresponds d id (Eval.evaluateAll fuel scope exprs)
    (Eval.evaluateAll fuel scope (Expr.recastAll d.recast exprs))
  evaluateOption : ∀ scope expr, Corresponds d id (Eval.evaluateOption fuel scope expr)
    (Eval.evaluateOption fuel scope (recastClause d.recast expr))
  call : ∀ callee arguments, Corresponds d id (Eval.call fuel callee arguments)
    (Eval.call fuel callee arguments)
  construct : ∀ created start arguments,
    Corresponds d id (Eval.construct fuel created start arguments)
      (Eval.construct fuel created start arguments)
  invoke : ∀ function binding arguments,
    Corresponds d id (Eval.invoke fuel function binding arguments)
      (Eval.invoke fuel function binding arguments)
  execute : ∀ scope {stmt}, d.Keeps stmt.definitions →
    Corresponds d id (Eval.execute fuel scope stmt)
      (Eval.execute fuel scope (stmt.recast d.recast))
  executeAll : ∀ scope {statements}, d.Keeps (Stmt.definitionsOfAll statements) →
    Corresponds d id (Eval.executeAll fuel scope statements)
      (Eval.executeAll fuel scope (Stmt.recastAll d.recast statements))
  whileLoop : ∀ scope condition {body}, d.Keeps body.definitions →
    Corresponds d id (Eval.whileLoop fuel scope condition body)
      (Eval.whileLoop fuel scope (condition.recast d.recast) (body.recast d.recast))
  forLoop : ∀ clauses condition post {body}, d.Keeps body.definitions →
    Corresponds d id (Eval.forLoop fuel clauses condition post body)
      (Eval.forLoop fuel clauses (recastClause d.recast condition)
        (recastClause d.recast post) (body.recast d.recast))

/-- Assignments and operators: the second operand of `and` and `or` is evaluated in both or in
neither. -/
theorem binary_disguised (ih : Disguised d fuel) (scope : ScopeId) (left : Expr) (operator : Token)
    (right : Expr) :
    Corresponds d id (Eval.evaluate (fuel + 1) scope (.binary left operator right))
      (Eval.evaluate (fuel + 1) scope ((Expr.binary left operator right).recast d.recast)) := by
  rw [Expr.recast]
  unfold Eval.evaluate
  dsimp only [Token.relocate_kind]
  -- Operators are told apart by their kinds, which places and names leave alone.
  generalize operator.kind = kind
  cases kind with
  | equal =>
    cases left with
    | «variable» name =>
      refine (ih.evaluate scope right).bind fun value => ?_
      exact (corresponds_assign scope name.lexeme value).bind fun _ => corresponds_pure rfl
    | _ => exact corresponds_malformed _
  | kwOr =>
    refine (ih.evaluate scope left).bind fun value => ?_
    exact corresponds_ite (corresponds_pure rfl) (ih.evaluate scope right)
  | kwAnd =>
    refine (ih.evaluate scope left).bind fun value => ?_
    exact corresponds_ite (ih.evaluate scope right) (corresponds_pure rfl)
  | _ =>
    refine (ih.evaluate scope left).bind fun leftValue => ?_
    refine (ih.evaluate scope right).bind fun rightValue => ?_
    exact corresponds_applyBinary leftValue operator rightValue

/-- A method of the superclass is found under its new name and bound to the same object. -/
theorem superGet_disguised (scope : ScopeId) (keyword method : Token) :
    Corresponds d id (Eval.evaluate (fuel + 1) scope (.superGet keyword method))
      (Eval.evaluate (fuel + 1) scope ((Expr.superGet keyword method).recast d.recast)) := by
  rw [Expr.recast, Eval.evaluate, Eval.evaluate]
  refine (corresponds_receiver scope superName).bind fun receiver => ?_
  refine (corresponds_superclass scope).bind fun parent => ?_
  cases parent with
  | none => exact corresponds_pure rfl
  | some parent =>
    refine (corresponds_read (f := id) fun store _ =>
      d.store_method? store parent method.lexeme).bind fun found => ?_
    cases found with
    | none => exact corresponds_pure rfl
    | some resolution => exact corresponds_bindMethod resolution receiver

/-- Any expression is evaluated alike under its new names. There is one case for each kind; the
actions correspond, and nested expressions do by the hypothesis. -/
theorem evaluate_disguised (ih : Disguised d fuel) (scope : ScopeId) (expr : Expr) :
    Corresponds d id (Eval.evaluate (fuel + 1) scope expr)
      (Eval.evaluate (fuel + 1) scope (expr.recast d.recast)) := by
  cases expr with
  -- A disguise changes no literal, and no value other than by the names in the store.
  | literal token =>
    rw [Expr.recast, Eval.evaluate, Eval.evaluate]
    exact corresponds_pure rfl
  | «variable» name =>
    rw [Expr.recast, Eval.evaluate, Eval.evaluate]
    exact corresponds_lookup scope name.lexeme
  | grouping inner =>
    rw [Expr.recast, Eval.evaluate, Eval.evaluate]
    exact ih.evaluate scope inner
  | unary operator operand =>
    rw [Expr.recast, Eval.evaluate, Eval.evaluate]
    refine (ih.evaluate scope operand).bind fun value => ?_
    exact corresponds_applyUnary operator value
  | binary left operator right => exact binary_disguised ih scope left operator right
  | call callee paren arguments =>
    rw [Expr.recast, Eval.evaluate, Eval.evaluate]
    refine (ih.evaluate scope callee).bind fun function => ?_
    refine (ih.evaluateAll scope arguments).bind fun values => ?_
    exact ih.call function values
  | get object name =>
    rw [Expr.recast, Eval.evaluate, Eval.evaluate]
    refine (ih.evaluate scope object).bind fun value => ?_
    exact corresponds_property value name.lexeme
  | set object name value =>
    rw [Expr.recast, Eval.evaluate, Eval.evaluate]
    refine (ih.evaluate scope object).bind fun target => ?_
    refine (ih.evaluate scope value).bind fun result => ?_
    exact (corresponds_setProperty target name.lexeme result).bind fun _ => corresponds_pure rfl
  | this keyword =>
    rw [Expr.recast, Eval.evaluate, Eval.evaluate]
    exact (corresponds_receiver scope thisName).bind fun receiver => corresponds_pure rfl
  | superGet keyword method => exact superGet_disguised scope keyword method
  | superCall keyword arguments =>
    rw [Expr.recast, Eval.evaluate, Eval.evaluate]
    refine (corresponds_receiver scope superName).bind fun receiver => ?_
    refine (corresponds_superclass scope).bind fun parent => ?_
    refine (ih.evaluateAll scope arguments).bind fun values => ?_
    exact (ih.construct receiver parent values).bind fun _ => corresponds_pure rfl

/-- Arguments are evaluated from left to right in both runs. -/
theorem evaluateAll_disguised (ih : Disguised d fuel) (scope : ScopeId) (exprs : List Expr) :
    Corresponds d id (Eval.evaluateAll (fuel + 1) scope exprs)
      (Eval.evaluateAll (fuel + 1) scope (Expr.recastAll d.recast exprs)) := by
  cases exprs with
  | nil => exact corresponds_pure rfl
  | cons expr rest =>
    rw [Expr.recastAll, Eval.evaluateAll, Eval.evaluateAll]
    refine (ih.evaluate scope expr).bind fun value => ?_
    exact (ih.evaluateAll scope rest).bind fun others => corresponds_pure rfl

theorem evaluateOption_disguised (ih : Disguised d fuel) (scope : ScopeId) (expr : Option Expr) :
    Corresponds d id (Eval.evaluateOption (fuel + 1) scope expr)
      (Eval.evaluateOption (fuel + 1) scope (recastClause d.recast expr)) := by
  cases expr with
  | none => exact corresponds_pure rfl
  | some expr => exact ih.evaluate scope expr

/-- A call of a value corresponds to itself: no names come up in the call, and the functions and
classes that are called stand at the same references in both stores. -/
theorem call_disguised (ih : Disguised d fuel) (callee : Value) (arguments : List Value) :
    Corresponds d id (Eval.call (fuel + 1) callee arguments)
      (Eval.call (fuel + 1) callee arguments) := by
  cases callee with
  | function ref =>
    unfold Eval.call
    refine (corresponds_arity ref).bind fun arity => ?_
    refine (corresponds_checkArity arity arguments.length).bind fun _ => ?_
    cases ref with
    | native function => exact corresponds_native function arguments
    | user function => exact ih.invoke function none arguments
    | bound method =>
      refine (corresponds_read fun store _ => d.store_boundMethod store method).bind
        fun bound => ?_
      exact ih.invoke bound.method (some (bound.receiver, bound.declaringClass)) arguments
  | classRef id =>
    rw [Eval.call]
    refine (corresponds_newInstance id).bind fun created => ?_
    exact (ih.construct created (some id) arguments).bind fun _ => corresponds_pure rfl
  | _ => exact corresponds_fail _ _

/-- An object is constructed by the constructor of its class. -/
theorem construct_disguised (ih : Disguised d fuel) (created : InstanceId) (start : Option ClassId)
    (arguments : List Value) :
    Corresponds d id (Eval.construct (fuel + 1) created start arguments)
      (Eval.construct (fuel + 1) created start arguments) := by
  have hfound : ∀ store : Store,
      (start.bind fun start => (d.store store).method? start constructorName) =
        id (start.bind fun start => store.method? start constructorName) := by
    intro store
    -- The evaluator looks for a constructor by a name of its own, not by one of the program.
    have hmethod := fun start => d.store_method? store start constructorName
    rw [d.own constructorName (by decide)] at hmethod
    simp only [hmethod, id]
  rw [Eval.construct]
  refine (corresponds_read fun store _ => hfound store).bind fun found => ?_
  cases found with
  | none => exact corresponds_checkArity 0 arguments.length
  | some resolution =>
    refine (corresponds_arity _).bind fun arity => ?_
    refine (corresponds_checkArity arity arguments.length).bind fun _ => ?_
    exact (ih.invoke resolution.method (some (created, resolution.declaringClass)) arguments).bind
      fun _ => corresponds_pure rfl

/-- A function is invoked: its body is that of the store, under the new names. -/
theorem invoke_disguised (ih : Disguised d fuel) (function : FunctionId)
    (binding : Option (InstanceId × ClassId)) (arguments : List Value) :
    Corresponds d id (Eval.invoke (fuel + 1) function binding arguments)
      (Eval.invoke (fuel + 1) function binding arguments) := by
  rw [Eval.invoke]
  -- That the body defines nothing under a new name is only known of functions in the store.
  refine Corresponds.read_bind (fun store _ => d.store_function store function)
    fun store hsuits => ?_
  have hbody := (hsuits.functions function).body
  generalize store.function function = f at hbody ⊢
  refine (enter_disguised f binding arguments).bind fun scope => ?_
  rw [show (d.function f).decl.body = Stmt.recastAll d.recast f.decl.body by
    rw [Disguise.function, FunctionDecl.recast_eq]]
  refine (ih.executeAll scope hbody).bind fun completion => ?_
  cases completion <;> exact corresponds_pure rfl

/-- An `if` takes the same branch in both. Renaming changes no value that is a truth value, so the
conditions agree on the branch, and the branches correspond by the hypothesis. -/
theorem ifElse_disguised (ih : Disguised d fuel) (scope : ScopeId) (condition : Expr)
    {thenBranch : Stmt} {elseBranch : Option Stmt}
    (h : d.Keeps (Stmt.ifElse condition thenBranch elseBranch).definitions) :
    Corresponds d id (Eval.execute (fuel + 1) scope (.ifElse condition thenBranch elseBranch))
      (Eval.execute (fuel + 1) scope
        ((Stmt.ifElse condition thenBranch elseBranch).recast d.recast)) := by
  rw [Stmt.recast_ifElse]
  unfold Eval.execute
  cases elseBranch with
  | none =>
    rw [Stmt.definitions] at h
    refine (ih.evaluate scope condition).bind fun value =>
      corresponds_ite ?_ (corresponds_pure rfl)
    exact (corresponds_child scope).bind fun inner => ih.execute inner h
  | some elseBranch =>
    rw [Stmt.definitions] at h
    obtain ⟨hthen, helse⟩ := Disguise.keeps_append.mp h
    refine (ih.evaluate scope condition).bind fun value => corresponds_ite ?_ ?_
    · exact (corresponds_child scope).bind fun inner => ih.execute inner hthen
    · exact (corresponds_child scope).bind fun inner => ih.execute inner helse

/-- Any statement is executed alike under its new names, if the functions and classes that it
defines keep theirs: these are the names that show. -/
theorem execute_disguised (ih : Disguised d fuel) (scope : ScopeId) {stmt : Stmt}
    (h : d.Keeps stmt.definitions) :
    Corresponds d id (Eval.execute (fuel + 1) scope stmt)
      (Eval.execute (fuel + 1) scope (stmt.recast d.recast)) := by
  cases stmt with
  | expression expr =>
    rw [Stmt.recast, Eval.execute, Eval.execute]
    exact (ih.evaluate scope expr).bind fun value => corresponds_pure rfl
  | print expr =>
    rw [Stmt.recast, Eval.execute, Eval.execute]
    refine (ih.evaluate scope expr).bind fun value => ?_
    refine (corresponds_display value).bind fun text => ?_
    exact (corresponds_write _).bind fun _ => corresponds_pure rfl
  | varDecl name init =>
    rw [Stmt.recast, Eval.execute, Eval.execute]
    refine (ih.evaluateOption scope init).bind fun value => ?_
    exact (corresponds_define scope name.lexeme value).bind fun _ => corresponds_pure rfl
  -- Names that are declared inside have to be kept too.
  | block body =>
    rw [Stmt.definitions] at h
    rw [Stmt.recast, Eval.execute, Eval.execute]
    exact (corresponds_child scope).bind fun inner => ih.executeAll inner h
  | ifElse condition thenBranch elseBranch => exact ifElse_disguised ih scope condition h
  | whileLoop condition body =>
    rw [Stmt.definitions] at h
    rw [Stmt.recast, Eval.execute, Eval.execute]
    exact ih.whileLoop scope condition h
  | forLoop init condition post body =>
    cases init with
    | none =>
      rw [Stmt.definitions] at h
      rw [Stmt.recast, Eval.execute, Eval.execute]
      exact (corresponds_child scope).bind fun clauses => ih.forLoop clauses condition post h
    | some init =>
      rw [Stmt.definitions] at h
      obtain ⟨hinit, hbody⟩ := Disguise.keeps_append.mp h
      rw [Stmt.recast, Eval.execute, Eval.execute]
      refine (corresponds_child scope).bind fun clauses => ?_
      exact (ih.execute clauses hinit).bind fun _ => ih.forLoop clauses condition post hbody
  -- The body stays in the store, so its names have to be ones that the disguise keeps.
  | function decl =>
    rw [Stmt.definitions] at h
    rw [Stmt.recast, Eval.execute, Eval.execute]
    refine (corresponds_allocate (f := id) (fun store => d.store_newFunction store decl scope)
      fun _ hsuits => hsuits.newFunction h scope).bind fun created => ?_
    rw [FunctionDecl.recast_eq]
    exact (corresponds_define scope decl.name.lexeme _).bind fun _ => corresponds_pure rfl
  | returnValue keyword value =>
    rw [Stmt.recast, Eval.execute, Eval.execute]
    exact (ih.evaluateOption scope value).bind fun result => corresponds_pure rfl
  | classDecl name superclass methods =>
    rw [Stmt.definitions] at h
    obtain ⟨hname, hmethods⟩ := List.forall_mem_cons.mp h
    rw [Stmt.recast, Eval.execute, Eval.execute]
    exact (declareClass_disguised scope hname superclass hmethods).bind
      fun _ => corresponds_pure rfl

/-- Statements in a row, up to the first that returns. -/
theorem executeAll_disguised (ih : Disguised d fuel) (scope : ScopeId) {statements : List Stmt}
    (h : d.Keeps (Stmt.definitionsOfAll statements)) :
    Corresponds d id (Eval.executeAll (fuel + 1) scope statements)
      (Eval.executeAll (fuel + 1) scope (Stmt.recastAll d.recast statements)) := by
  match statements with
  | [] => exact corresponds_pure rfl
  -- The value of a row is that of its last statement, so that one is not followed by anything.
  | [last] =>
    rw [Stmt.definitionsOfAll, Stmt.definitionsOfAll, List.append_nil] at h
    rw [Stmt.recastAll, Stmt.recastAll, Eval.executeAll, Eval.executeAll]
    exact ih.execute scope h
  | stmt :: next :: rest =>
    rw [Stmt.definitionsOfAll] at h
    obtain ⟨hstmt, hrest⟩ := Disguise.keeps_append.mp h
    rw [Stmt.recastAll, Stmt.recastAll, Eval.executeAll, Eval.executeAll]
    · refine (ih.execute scope hstmt).bind fun completion => ?_
      cases completion with
      | returned value => exact corresponds_pure rfl
      | normal value => exact ih.executeAll scope hrest
    -- Neither row of statements has a single one.
    · simp
    · simp

/-- A `while` goes on in both or stops in both. -/
theorem whileLoop_disguised (ih : Disguised d fuel) (scope : ScopeId) (condition : Expr)
    {body : Stmt} (h : d.Keeps body.definitions) :
    Corresponds d id (Eval.whileLoop (fuel + 1) scope condition body)
      (Eval.whileLoop (fuel + 1) scope (condition.recast d.recast) (body.recast d.recast)) := by
  rw [Eval.whileLoop, Eval.whileLoop]
  refine (ih.evaluate scope condition).bind fun value =>
    corresponds_ite ?_ (corresponds_pure rfl)
  refine (corresponds_child scope).bind fun inner => ?_
  refine (ih.execute inner h).bind fun completion => ?_
  cases completion with
  | returned value => exact corresponds_pure rfl
  | normal value => exact ih.whileLoop scope condition h

/-- A `for` goes on in both or stops in both. -/
theorem forLoop_disguised (ih : Disguised d fuel) (clauses : ScopeId)
    (condition post : Option Expr) {body : Stmt} (h : d.Keeps body.definitions) :
    Corresponds d id (Eval.forLoop (fuel + 1) clauses condition post body)
      (Eval.forLoop (fuel + 1) clauses (recastClause d.recast condition)
        (recastClause d.recast post) (body.recast d.recast)) := by
  unfold Eval.forLoop
  refine Corresponds.bind (f := id) ?_ fun goOn => corresponds_ite ?_ (corresponds_pure rfl)
  · cases condition with
    | none => exact corresponds_pure rfl
    | some condition =>
      exact (ih.evaluate clauses condition).bind fun value => corresponds_pure rfl
  · refine (corresponds_child clauses).bind fun inner => ?_
    refine (ih.execute inner h).bind fun completion => ?_
    cases completion with
    | returned value => exact corresponds_pure rfl
    | normal value =>
      refine (ih.evaluateOption clauses post).bind fun _ => ?_
      exact ih.forLoop clauses condition post h

/-- What happens under the disguise is what happens without it. -/
theorem disguised (d : Disguise) (fuel : Nat) : Disguised d fuel := by
  induction fuel with
  -- Without fuel both do nothing.
  | zero => constructor <;> intros <;> exact corresponds_exhausted _
  | succ fuel ih =>
    exact
      { evaluate := evaluate_disguised ih
        evaluateAll := evaluateAll_disguised ih
        evaluateOption := evaluateOption_disguised ih
        call := call_disguised ih
        construct := construct_disguised ih
        invoke := invoke_disguised ih
        execute := execute_disguised ih
        executeAll := executeAll_disguised ih
        whileLoop := whileLoop_disguised ih
        forLoop := forLoop_disguised ih }

/-! ## Programs

At the top level statements are run one after the other, and a `return` is an error there. -/

/-- A statement at the top level is run alike. A `return` there is reported without a name. -/
theorem runStatement_disguised (scope : ScopeId) {stmt : Stmt} (h : d.Keeps stmt.definitions) :
    Corresponds d id (Eval.runStatement fuel scope stmt)
      (Eval.runStatement fuel scope (stmt.recast d.recast)) := by
  unfold Eval.runStatement
  refine ((disguised d fuel).execute scope h).bind fun completion => ?_
  cases completion with
  | normal value => exact corresponds_pure rfl
  | returned value => exact corresponds_fail _ _

/-- A program is run under other names as it is run under its own. -/
theorem run_disguised (scope : ScopeId) {statements : List Stmt}
    (h : d.Keeps (Stmt.definitionsOfAll statements)) :
    Corresponds d id (Eval.run fuel scope statements)
      (Eval.run fuel scope (Stmt.recastAll d.recast statements)) := by
  unfold Eval.run
  -- The value of an empty rest is that of the statement before, so the induction is on any value.
  generalize Value.nil = first
  induction statements generalizing first with
  | nil => exact corresponds_pure rfl
  | cons stmt rest ih =>
    rw [Stmt.definitionsOfAll] at h
    obtain ⟨hstmt, hrest⟩ := Disguise.keeps_append.mp h
    rw [Stmt.recastAll, List.foldlM_cons, List.foldlM_cons]
    exact (runStatement_disguised scope hstmt).bind fun value => ih hrest value

end

end Script
