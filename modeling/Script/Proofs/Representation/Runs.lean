import Script.Proofs.Representation.Reading
import Script.Proofs.Representation.Stores
import Script.Proofs.Run.Receivers
import Script.Proofs.Store.Writes

/-!
# Representations of what programs produce

Strings come into a run from literals and from display texts, and no operator makes new ones. So
the store stays free of quotes, and every value that a task yields is (`quotelessRuns`). Whatever a
program produces that is `nil`, a boolean, a string or a finite number is therefore read back from
its representation (`Produced`).
-/

namespace Script

open Plan

/-! ## Tasks -/

/-- The trees that the task runs and the arguments that it passes are without quotes. -/
def Task.Quoteless : Task → Prop
  | .evaluate _ expr => expr.Quoteless
  | .evaluateAll _ exprs => Expr.AllQuoteless exprs
  | .evaluateOption _ expr => QuotelessClause expr
  | .call _ arguments => ∀ value ∈ arguments, value.Quoteless
  | .construct _ _ arguments => ∀ value ∈ arguments, value.Quoteless
  | .invoke _ _ arguments => ∀ value ∈ arguments, value.Quoteless
  | .execute _ stmt => stmt.Quoteless
  | .executeAll _ statements => Stmt.AllQuoteless statements
  | .whileLoop _ condition body => condition.Quoteless ∧ body.Quoteless
  | .forLoop _ condition post body =>
    QuotelessClause condition ∧ QuotelessClause post ∧ body.Quoteless

/-- The plan keeps the store free of quotes, and `Q` holds of its result. -/
abbrev Plan.Quoteless {α : Type} (plan : Plan α) (Q : α → Prop) : Prop :=
  plan.Maintains (fun s => s.store.Quoteless) Task.Quoteless Value.Quoteless Q

/-- What a statement ends with is without quotes. -/
abbrev Completion.Quoteless (completion : Completion) : Prop :=
  ∀ value ∈ completion.yields, value.Quoteless

/-- A statement that ends with such a value ends without quotes. -/
theorem Completion.quoteless_normal {value : Value} (h : value.Quoteless) :
    (Completion.normal value).Quoteless :=
  List.forall_mem_singleton.mpr h

theorem Completion.quoteless_returned {value : Value} (h : value.Quoteless) :
    (Completion.returned value).Quoteless :=
  List.forall_mem_singleton.mpr h

/-- Numbers and booleans are no strings. -/
theorem Value.quoteless_of_type {value : Value} (h : value.type = .number ∨ value.type = .boolean) :
    value.Quoteless := by
  cases value with
  | string => rcases h with h | h <;> cases h
  | _ => trivial

namespace Quoteless

/-! ## Actions

Each action keeps the store free of quotes and yields a value without any. The operators yield
numbers and booleans only; `toString` is the one action that makes a string. -/

/-- A variable is declared with a value without quotes. -/
theorem act_define {scope : ScopeId} {name : String} {value : Value} (hvalue : value.Quoteless) :
    (act (Eval.define scope name value)).Quoteless fun _ => True :=
  maintains_update fun _ _ hstore hresult => Store.Quoteless.define hstore hvalue hresult

theorem act_assign {scope : ScopeId} {name : String} {value : Value} (hvalue : value.Quoteless) :
    (act (Eval.assign scope name value)).Quoteless fun _ => True :=
  maintains_update fun _ _ hstore hresult => Store.Quoteless.assign hstore hvalue hresult

theorem act_setProperty {object : Value} {name : String} {value : Value}
    (hvalue : value.Quoteless) :
    (act (Eval.setProperty object name value)).Quoteless fun _ => True :=
  maintains_update fun _ _ hstore hresult => Store.Quoteless.setProperty hstore hvalue hresult

/-- A variable that is found holds a value without quotes, as all variables of such a store do. -/
theorem act_lookup (scope : ScopeId) (name : String) :
    (act (Eval.lookup scope name)).Quoteless Value.Quoteless :=
  maintains_readOrFail fun _ _ hstore hfound => hstore.lookup hfound

/-- A property that is found is a value without quotes, be it a field or a method. -/
theorem act_property (object : Value) (name : String) :
    (act (Eval.property object name)).Quoteless Value.Quoteless :=
  maintains_allocate (fun _ hstore => (hstore.property object name).2)
    fun _ hstore => (hstore.property object name).1

/-- The object for `this` is found or the action fails. -/
theorem act_receiver (scope : ScopeId) (keyword : String) :
    (act (Eval.receiver scope keyword)).Quoteless fun _ => True :=
  maintains_readOrFail fun _ _ _ _ => trivial

/-- The superclass is found or the action fails. -/
theorem act_superclass (scope : ScopeId) :
    (act (Eval.superclass scope)).Quoteless fun _ => True :=
  maintains_readOrFail fun _ _ _ _ => trivial

/-- An operator leaves the store as it is and yields a number or a boolean. -/
theorem act_computes {action : Eval Value} (h : Contract.Computes action) :
    (act action).Quoteless Value.Quoteless := by
  refine maintains_act (fun s hstore => ?_) fun s value s' _ hrun => ?_
  · rwa [h.same s]
  · rcases h s with ⟨value', hrun', htype⟩ | ⟨interrupt, hrun'⟩
    · obtain ⟨rfl, -⟩ := EStateM.Result.ok.inj (hrun'.symm.trans hrun)
      exact Value.quoteless_of_type htype
    · cases hrun'.symm.trans hrun

/-- Printing leaves the store as it is. -/
theorem act_write (text : String) : (act (Eval.write text)).Quoteless fun _ => True := by
  refine maintains_act (fun s hstore => ?_) fun _ _ _ _ _ => trivial
  rwa [Contract.write_store]

/-- The texts of arguments are the only new strings that a native function makes. -/
theorem act_native {function : Native} {arguments : List Value}
    (h : ∀ value ∈ arguments, value.Quoteless) :
    (act (Eval.native function arguments)).Quoteless Value.Quoteless := by
  refine maintains_act (fun s hstore => ?_) fun s value s' hstore hrun => ?_
  · rwa [Contract.native_store]
  · unfold Eval.native at hrun
    -- The clock yields a number, `toString` the text of its argument; anything else has failed.
    split at hrun
    · obtain ⟨rfl, -⟩ := EStateM.Result.ok.inj hrun
      trivial
    · obtain ⟨rfl, -⟩ := EStateM.Result.ok.inj hrun
      exact hstore.display (h _ (.head _))
    · cases hrun

/-- A scope is opened for variables whose values are without quotes. -/
theorem openScope (opening : Opening) (parent : ScopeId) {bindings : Table Value}
    (h : bindings.Quoteless) : (Plan.openScope opening parent bindings).Quoteless fun _ => True :=
  maintains_step (fun _ hstore => Store.Quoteless.newChild hstore parent h) fun _ _ _ _ _ => trivial

theorem child (opening : Opening) (parent : ScopeId) :
    (Plan.child opening parent).Quoteless fun _ => True :=
  openScope opening parent (Table.holds_empty _)

/-! ## Parts of plans

The values of the arguments come from outside of the plan and the object and the class from the
call, so all that is bound when a body is entered is without quotes. -/

/-- What is bound for a call is without quotes. -/
theorem callBindings {store : Store} {function : UserFunction}
    {binding : Option (InstanceId × ClassId)} {arguments : List Value}
    (h : ∀ value ∈ arguments, value.Quoteless) :
    ∀ entry ∈ Eval.callBindings store function binding arguments, Value.Quoteless entry.2 := by
  have hpassed : ∀ entry ∈ (function.decl.params.map Token.lexeme).zip arguments,
      Value.Quoteless entry.2 := fun entry hmem => h _ (List.of_mem_zip hmem).2
  unfold Eval.callBindings
  dsimp only
  intro entry hmem
  rcases List.mem_append.mp hmem with hmem | hmem
  · cases binding with
    | none => cases hmem
    | some receiver =>
      dsimp only at hmem
      -- The receiver is an object and the superclass is a class or `nil`.
      rcases List.mem_cons.mp hmem with rfl | hmem
      · trivial
      · obtain rfl := List.mem_singleton.mp hmem
        dsimp only
        split <;> trivial
  · exact hpassed entry hmem

/-- A body is entered with arguments without quotes. -/
theorem enter {id : FunctionId} {function : UserFunction}
    {binding : Option (InstanceId × ClassId)} {arguments : List Value}
    (h : ∀ value ∈ arguments, value.Quoteless) :
    (Plan.enter id function binding arguments).Quoteless fun _ => True := by
  unfold Plan.enter
  have hread : (act (Eval.read fun store =>
      Eval.callBindings store function binding arguments)).Quoteless
        fun bindings => ∀ entry ∈ bindings, Value.Quoteless entry.2 :=
    maintains_read fun _ _ => callBindings h
  refine hread.bind fun bindings hbindings => ?_
  cases htable : Table.empty.addDistinct bindings with
  | error name => exact maintains_fail _
  | ok table =>
    have hquoteless := (Table.holds_empty _).addDistinct hbindings htable
    exact (openScope _ _ hquoteless).bind fun parameters _ => child _ parameters

/-- A class is declared if its name and its methods are without quotes. -/
theorem declareClass {scope : ScopeId} {name : Token} {superclass : Option Token}
    {methods : List FunctionDecl} (hname : Script.Quoteless name.lexeme)
    (hmethods : FunctionDecl.AllQuoteless methods) :
    (Plan.declareClass scope name superclass methods).Quoteless fun _ => True := by
  -- The superclass is looked up, which changes nothing; methods and class then enter the store,
  -- each with names that come from the source.
  have hparent : (parentClass scope superclass).Quoteless fun _ => True := by
    cases superclass with
    | none => exact maintains_pure trivial
    | some parent =>
      refine (act_lookup scope parent.lexeme).bind fun value _ => ?_
      cases value <;> first
        | exact maintains_pure trivial
        | exact maintains_fail _
  unfold Plan.declareClass
  refine hparent.bind fun parent _ => ?_
  have hfunctions : (act (Eval.allocate fun store =>
      store.newFunctions scope methods)).Quoteless fun _ => True :=
    maintains_allocate (fun _ hstore => hstore.newFunctions hmethods scope) fun _ _ => trivial
  refine hfunctions.bind fun functions _ => ?_
  have hclass : (act (Eval.allocate fun store =>
      store.declareClass name.lexeme (some parent) functions)).Quoteless fun _ => True :=
    maintains_allocate (fun _ hstore =>
      Store.Quoteless.declareClass hstore hname (some parent) functions) fun _ _ => trivial
  refine hclass.bind fun id _ => ?_
  have hvalue : (Value.classRef id).Quoteless := trivial
  exact act_define hvalue

/-- A method of the superclass is bound, or `nil` if there is none. -/
theorem superProperty (id : InstanceId) (name : String) (start : Option ClassId) :
    (Plan.superProperty id name start).Quoteless Value.Quoteless := by
  cases start with
  | none => exact maintains_pure trivial
  | some parent =>
    refine Maintains.bind (maintains_read fun _ _ => trivial) fun found (_ : True) => ?_
    cases found with
    | none => exact maintains_pure trivial
    | some resolution =>
      exact maintains_allocate (fun _ hstore => hstore.bindMethod resolution id) fun _ _ => trivial

/-- The condition of a loop is evaluated and its value forgotten. -/
theorem goesOn {scope : ScopeId} {condition : Option Expr} (h : QuotelessClause condition) :
    (Plan.goesOn scope condition).Quoteless fun _ => True := by
  cases condition with
  | none => exact maintains_pure trivial
  | some condition => exact (maintains_evaluate h).bind fun _ _ => maintains_pure trivial

/-! ## The plans of tasks

One lemma for each kind of task. A plan is followed from its first action on; what is known of each
result is carried to the rest. -/

/-- An expression yields a value without quotes. Strings come from literals, from variables and
fields, or from native functions. -/
theorem evaluateBody {scope : ScopeId} {expr : Expr} (h : expr.Quoteless) :
    (Task.evaluateBody scope expr).Quoteless Value.Quoteless := by
  cases expr with
  -- This is where strings of the program come in.
  | literal token => exact maintains_pure h
  | «variable» name => exact act_lookup scope name.lexeme
  | grouping inner => exact maintains_evaluate h
  | unary operator operand =>
    exact (maintains_evaluate h).bind fun value _ =>
      act_computes (Contract.computes_applyUnary operator value)
  | binary left operator right =>
    obtain ⟨hleft, hright⟩ := h
    unfold Task.evaluateBody
    dsimp only
    split
    · split
      · exact (maintains_evaluate hright).bind fun value hvalue =>
          (act_assign hvalue).bind fun _ _ => maintains_pure hvalue
      · exact maintains_act (fun _ hstore => hstore) fun _ _ _ _ hrun => by cases hrun
    · refine (maintains_evaluate hleft).bind fun value hvalue => ?_
      split
      · exact maintains_pure hvalue
      · exact maintains_evaluate hright
    · refine (maintains_evaluate hleft).bind fun value hvalue => ?_
      split
      · exact maintains_evaluate hright
      · exact maintains_pure hvalue
    · exact (maintains_evaluate hleft).bind fun left _ =>
        (maintains_evaluate hright).bind fun right _ =>
          act_computes (Contract.computes_applyBinary left operator right)
  | call callee paren arguments =>
    exact (maintains_evaluate h.1).bind fun function _ =>
      (maintains_evaluateAll h.2).bind fun values hvalues => maintains_call hvalues
  | get object name =>
    exact (maintains_evaluate h).bind fun value _ => act_property value name.lexeme
  | set object name value =>
    exact (maintains_evaluate h.1).bind fun target _ =>
      (maintains_evaluate h.2).bind fun result hresult =>
        (act_setProperty hresult).bind fun _ _ => maintains_pure hresult
  | this keyword =>
    exact (act_receiver scope thisName).bind fun id _ => maintains_pure trivial
  | superGet keyword method =>
    exact (act_receiver scope superName).bind fun id _ =>
      (act_superclass scope).bind fun parent _ => superProperty id method.lexeme parent
  | superCall keyword arguments =>
    exact (act_receiver scope superName).bind fun id _ =>
      (act_superclass scope).bind fun parent _ =>
        (maintains_evaluateAll h).bind fun values hvalues =>
          (maintains_construct hvalues).bind fun _ _ => maintains_pure trivial

/-- A call yields a value without quotes. What is called finds its arguments without quotes and
leaves a store without quotes, and a class yields a reference to the new instance. -/
theorem callBody {callee : Value} {arguments : List Value}
    (h : ∀ value ∈ arguments, value.Quoteless) :
    (Task.callBody arguments callee).Quoteless Value.Quoteless := by
  cases callee with
  | function ref =>
    refine Maintains.bind (maintains_read fun _ _ => trivial) fun arity (_ : True) => ?_
    refine (maintains_checkArity arity arguments.length).bind fun _ _ => ?_
    cases ref with
    | native function => exact act_native h
    | user id => exact maintains_invoke h
    | bound id =>
      exact Maintains.bind (maintains_read fun _ _ => trivial) fun bound (_ : True) =>
        maintains_invoke h
  | classRef id =>
    have hcreated : (act (Eval.allocate fun store => store.newInstance id)).Quoteless
        fun _ => True :=
      maintains_allocate (fun _ hstore => Store.Quoteless.newInstance hstore id) fun _ _ => trivial
    exact hcreated.bind fun created _ =>
      (maintains_construct h).bind fun _ _ => maintains_pure trivial
  | nil | boolean | number | string | instanceRef => exact maintains_fail _

/-- A constructor is called with the arguments given; what it yields is dropped. -/
theorem constructBody {id : InstanceId} {start : Option ClassId} {arguments : List Value}
    (h : ∀ value ∈ arguments, value.Quoteless) :
    (Task.constructBody id start arguments).Quoteless fun _ => True := by
  unfold Task.constructBody
  refine Maintains.bind (maintains_read fun _ _ => trivial) fun found (_ : True) => ?_
  cases found with
  | none => exact maintains_checkArity 0 arguments.length
  | some resolution =>
    refine Maintains.bind (maintains_read fun _ _ => trivial) fun arity (_ : True) => ?_
    refine (maintains_checkArity arity arguments.length).bind fun _ _ => ?_
    exact (maintains_invoke h).bind fun _ _ => maintains_pure trivial

/-- A function yields what its body returns. The body is part of the store, and so it is without
quotes itself. -/
theorem invokeBody {id : FunctionId} {binding : Option (InstanceId × ClassId)}
    {arguments : List Value} (h : ∀ value ∈ arguments, value.Quoteless) :
    (Task.invokeBody id binding arguments).Quoteless Value.Quoteless := by
  unfold Task.invokeBody
  have hfunction : (act (Eval.read fun store => store.function id)).Quoteless
      fun function => function.decl.Quoteless :=
    maintains_read fun _ hstore => (hstore.functions id.index).decl
  refine hfunction.bind fun function hdecl => (enter h).bind fun body _ => ?_
  refine (maintains_executeAll hdecl.body).bind fun completion hyields => ?_
  cases completion with
  | returned value => exact maintains_pure (hyields value (.head _))
  | normal value => exact maintains_pure trivial

/-- A statement ends with a value without quotes. -/
theorem executeBody {scope : ScopeId} {stmt : Stmt} (h : stmt.Quoteless) :
    (Task.executeBody scope stmt).Quoteless Completion.Quoteless := by
  have hnil : Completion.Quoteless (.normal .nil) := Completion.quoteless_normal trivial
  cases stmt with
  | expression expr =>
    exact (maintains_evaluate h).bind fun value hvalue =>
      maintains_pure (Completion.quoteless_normal hvalue)
  | print expr =>
    refine (maintains_evaluate h).bind fun value _ => ?_
    -- The text that is printed may have quotes. It is no value.
    refine Maintains.bind (maintains_read fun _ _ => trivial) fun text (_ : True) => ?_
    exact (act_write _).bind fun _ _ => maintains_pure hnil
  | varDecl name init =>
    exact (maintains_evaluateOption h).bind fun value hvalue =>
      (act_define hvalue).bind fun _ _ => maintains_pure hnil
  | block body => exact (child _ scope).bind fun inner _ => maintains_executeAll h
  | ifElse condition thenBranch elseBranch =>
    cases elseBranch with
    | none =>
      refine (maintains_evaluate h.1).bind fun value _ => ?_
      split
      · exact (child _ scope).bind fun inner _ => maintains_execute h.2
      · exact maintains_pure hnil
    | some elseBranch =>
      refine (maintains_evaluate h.1).bind fun value _ => ?_
      split
      · exact (child _ scope).bind fun inner _ => maintains_execute h.2.1
      · exact (child _ scope).bind fun inner _ => maintains_execute h.2.2
  | whileLoop condition body => exact maintains_whileLoop h
  | forLoop init condition post body =>
    cases init with
    | none => exact (child _ scope).bind fun clauses _ => maintains_forLoop h
    | some init =>
      exact (child _ scope).bind fun clauses _ =>
        (maintains_execute h.1).bind fun _ _ => maintains_forLoop h.2
  | function decl =>
    have hfunction : (act (Eval.allocate fun store => store.newFunction decl scope)).Quoteless
        fun _ => True :=
      maintains_allocate (fun _ hstore => hstore.newFunction h scope) fun _ _ => trivial
    refine hfunction.bind fun id _ => ?_
    -- A function is no string, and its fields are still empty.
    have hvalue : (Value.function (.user id)).Quoteless := trivial
    exact (act_define hvalue).bind fun _ _ => maintains_pure hnil
  | returnValue keyword value =>
    exact (maintains_evaluateOption h).bind fun result hresult =>
      maintains_pure (Completion.quoteless_returned hresult)
  | classDecl name superclass methods =>
    exact (declareClass h.1 h.2).bind fun _ _ => maintains_pure hnil

theorem evaluateAllBody {scope : ScopeId} {exprs : List Expr} (h : Expr.AllQuoteless exprs) :
    (Task.evaluateAllBody scope exprs).Quoteless fun values =>
      ∀ value ∈ values, value.Quoteless := by
  cases exprs with
  | nil => exact maintains_pure fun _ hmem => absurd hmem List.not_mem_nil
  | cons expr rest =>
    exact (maintains_evaluate h.1).bind fun value hvalue =>
      (maintains_evaluateAll h.2).bind fun others hothers =>
        maintains_pure (List.forall_mem_cons.mpr ⟨hvalue, hothers⟩)

/-- Statements in a row end with a value without quotes. -/
theorem executeAllBody {scope : ScopeId} {statements : List Stmt}
    (h : Stmt.AllQuoteless statements) :
    (Task.executeAllBody scope statements).Quoteless Completion.Quoteless := by
  match statements, h with
  | [], _ => exact maintains_pure (Completion.quoteless_normal trivial)
  | [last], h => exact maintains_execute h.1
  | stmt :: next :: rest, h =>
    refine (maintains_execute h.1).bind fun completion hyields => ?_
    cases completion with
    | returned value => exact maintains_pure hyields
    | normal value => exact maintains_executeAll h.2

/-- A `while` ends with a value without quotes, that of a `return` in its body or `nil`. -/
theorem whileLoopBody {scope : ScopeId} {condition : Expr} {body : Stmt}
    (h : condition.Quoteless ∧ body.Quoteless) :
    (Task.whileLoopBody scope condition body).Quoteless Completion.Quoteless := by
  unfold Task.whileLoopBody
  refine (maintains_evaluate h.1).bind fun value _ => ?_
  split
  · refine (child _ scope).bind fun inner _ => ?_
    refine (maintains_execute h.2).bind fun completion hyields => ?_
    cases completion with
    | returned value => exact maintains_pure hyields
    | normal value => exact maintains_whileLoop h
  · exact maintains_pure (Completion.quoteless_normal trivial)

/-- A `for` ends with a value without quotes, that of a `return` in its body or `nil`. -/
theorem forLoopBody {clauses : ScopeId} {condition post : Option Expr} {body : Stmt}
    (h : QuotelessClause condition ∧ QuotelessClause post ∧ body.Quoteless) :
    (Task.forLoopBody clauses condition post body).Quoteless Completion.Quoteless := by
  unfold Task.forLoopBody
  refine (goesOn h.1).bind fun goOn _ => ?_
  split
  · refine (child _ clauses).bind fun inner _ => ?_
    refine (maintains_execute h.2.2).bind fun completion hyields => ?_
    cases completion with
    | returned value => exact maintains_pure hyields
    | normal value =>
      exact (maintains_evaluateOption h.2.1).bind fun _ _ => maintains_forLoop h
  · exact maintains_pure (Completion.quoteless_normal trivial)

end Quoteless

open Quoteless

/-- Runs keep the store free of quotes, and so is what they yield. There is one case for each kind
of task, and it is shown of the plan of the task; that a whole run keeps what each plan keeps is
shown once for all (`Maintained`). -/
theorem quotelessRuns :
    Maintained (fun s => s.store.Quoteless) Task.Quoteless Value.Quoteless where
  body := by
    intro task h
    cases task with
    | evaluate scope expr =>
      exact (evaluateBody h).mono fun _ => List.forall_mem_singleton.mpr
    | evaluateAll scope exprs => exact evaluateAllBody h
    | evaluateOption scope expr =>
      cases expr with
      | none => exact maintains_pure (List.forall_mem_singleton.mpr trivial)
      | some expr => exact (maintains_evaluate h).mono fun _ => List.forall_mem_singleton.mpr
    | call callee arguments => exact (callBody h).mono fun _ => List.forall_mem_singleton.mpr
    | construct id start arguments =>
      exact (constructBody h).mono fun _ _ _ hmem => absurd hmem List.not_mem_nil
    | invoke id binding arguments =>
      exact (invokeBody h).mono fun _ => List.forall_mem_singleton.mpr
    | execute scope stmt => exact executeBody h
    | executeAll scope statements => exact executeAllBody h
    | whileLoop scope condition body => exact whileLoopBody h
    | forLoop clauses condition post body => exact forLoopBody h

/-! ## What programs produce

A value is produced wherever a program could show it: as a result, as a variable, as a property, or
as what the program ends with. -/

/-- Values that come about when a program is run. -/
inductive Produced (fuel : Nat) (program : List Stmt) (s : State) : Value → Prop where
  /-- A task of the run yields the value: it is what an expression evaluates to, what a call
  returns, or what a statement ends with. -/
  | yielded {fuel' : Nat} {task : Task} {state s' : State} {result : task.Result} {value : Value}
      (hvisit : .visit fuel' task state ∈ programTrace fuel program s)
      (hrun : task.run fuel' state = .ok result s') (hvalue : value ∈ task.yields result) :
      Produced fuel program s value
  /-- In some state a scope holds the value under some name. -/
  | bound {state : State} {scope : ScopeId} {name : String} {value : Value}
      (hstate : state ∈ programStates fuel program s)
      (hvalue : (state.store.bindings scope).get? name = some value) :
      Produced fuel program s value
  /-- In some state a property of something has the value. -/
  | held {state : State} {object : Value} {name : String} {value : Value}
      (hstate : state ∈ programStates fuel program s)
      (hvalue : (state.store.fieldsOf object).get? name = some value) :
      Produced fuel program s value
  /-- The program ends with the value. -/
  | last {s' : State} {value : Value}
      (hrun : Eval.run fuel Store.globalScope program s = .ok value s') :
      Produced fuel program s value

/-- The value is `nil`, a boolean, a string or a finite number. -/
def Value.IsPlain : Value → Prop
  | .nil | .boolean _ | .string _ => True
  | .number n => n.isFinite = true
  | .function _ | .classRef _ | .instanceRef _ => False

/-- A plain value without quotes has a notation. -/
theorem Value.IsPlain.hasNotation {value : Value} (h : value.IsPlain)
    (hquoteless : value.Quoteless) : value.HasNotation := by
  cases value with
  | string text => exact hquoteless
  | _ => exact h

/-- The fields of any value are without quotes. -/
theorem Store.Quoteless.fieldsOf {store : Store} (h : store.Quoteless) (object : Value) :
    (store.fieldsOf object).Quoteless := by
  cases object with
  | function ref => exact h.fields ref
  | classRef id => exact (h.classes id.index).fields
  | instanceRef id => exact h.instances id.index
  | _ => exact Table.holds_empty _

variable {source : String} {program : List Stmt}

/-- Whatever the program of a source produces is without quotes. -/
theorem Produced.quoteless (h : readProgram source = .ok program) {fuel : Nat} {output : Sink}
    {clock : Clock} {value : Value}
    (hproduced : Produced fuel program (.initial output clock) value) :
    value.Quoteless := by
  have hprogram : ∀ stmt ∈ program, (Task.execute Store.globalScope stmt).Quoteless :=
    quoteless_of_read h
  -- The session keeps the store of every state free of quotes, and so are the results of its tasks.
  obtain ⟨hstates, hyields⟩ := @Maintained.session _ _ _ quotelessRuns Store.globalScope program
    (.initial output clock) hprogram Store.quoteless_initial fuel
  cases hproduced with
  | yielded hvisit hrun hvalue => exact hyields _ _ _ hvisit _ _ hrun _ hvalue
  | bound hstate hvalue => exact (hstates _ hstate).scopes _ _ _ hvalue
  | held hstate hvalue => exact (hstates _ hstate).fieldsOf _ _ _ hvalue
  | last hrun => exact quotelessRuns.run hprogram Store.quoteless_initial trivial hrun

/-- Whatever the program of a source produces from the start, no string has a quote in it, and the
representation of every value that is `nil`, a boolean, a string or a finite number is read back as
this value. No string has a quote because scanning makes none that has, and evaluation only joins
strings. -/
theorem produced_denotes (h : readProgram source = .ok program) {fuel : Nat} {output : Sink}
    {clock : Clock} {value : Value}
    (hproduced : Produced fuel program (.initial output clock) value) :
    (∀ text, value = .string text → '"' ∉ text.toList) ∧
      (value.IsPlain → ∀ store : Store, Denotes (store.repr value ++ ";") value) := by
  have hquoteless := hproduced.quoteless h
  constructor
  · rintro text rfl
    exact hquoteless
  · exact fun hplain store => denotes_repr (hplain.hasNotation hquoteless) store

/-- What the program ends with, run from the start with an output that takes everything. -/
def lastValue? (fuel : Nat) (program : List Stmt) : Option Value :=
  match Eval.run fuel Store.globalScope program (.initial .unlimited ⟨fun _ => ⟨0⟩⟩) with
  | .ok value _ => some value
  | .error _ _ => none

/-- What the program ends with is produced by it. -/
theorem produced_of_lastValue? {fuel : Nat} {value : Value}
    (h : lastValue? fuel program = some value) :
    Produced fuel program (.initial .unlimited ⟨fun _ => ⟨0⟩⟩) value := by
  unfold lastValue? at h
  split at h
  · next hrun =>
    obtain rfl := Option.some.inj h
    exact .last hrun
  · cases h

/-- The text of a class, made by a function that a program declares. -/
theorem produced_denotes_classText :
    ∃ program, readProgram "fun text(x) { return toString(x); } text(Object);" = .ok program ∧
      Produced 20 program (.initial .unlimited ⟨fun _ => ⟨0⟩⟩) (.string "<class Object>") ∧
      Denotes (Store.initial.repr (.string "<class Object>") ++ ";")
        (.string "<class Object>") := by
  obtain ⟨program, hread, hlast⟩ :=
    @exists_read "fun text(x) { return toString(x); } text(Object);"
      (fun program => lastValue? 20 program = some (.string "<class Object>")) _
      (by decide +kernel)
  have hproduced := produced_of_lastValue? hlast
  exact ⟨program, hread, hproduced, (produced_denotes hread hproduced).2 trivial _⟩

end Script
