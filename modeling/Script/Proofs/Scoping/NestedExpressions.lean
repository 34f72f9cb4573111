import Script.Proofs.Scoping.QuietPlans

/-!
# Expressions and calls keep the nesting

The plans of expressions are quiet, and so is everything else that declares nothing. A call runs
the body of the function in a scope inside the one that the declaration stood in, with a scope for
the parameters in between: what happens there follows the text of the function.
-/

namespace Script

open Contract Plan

section

variable {U : List Occurrence} {Occurs : Moment → Prop} {scope? : Option ScopeId} {scope : ScopeId}
  {context : Context} {fuel : Nat} {s : State} {α β : Type}

/-! ## Silent actions

The primitive steps of the evaluator, one lemma for each kind: those that read or fail leave the
store as it is, and the others are silent if the operation on the store is. -/

/-- An action that leaves the store alone is silent. -/
theorem silent_of_store {action : Eval α}
    (h : ∀ s : State, (finalState (action s)).store = s.store) : Silent action := by
  intro s
  rw [h s]
  exact .refl s.store

/-- Reading, failing, and reading what may not be there leave it alone. -/
theorem silent_read (f : Store → α) : Silent (Eval.read f) := silent_of_store fun _ => rfl

/-- To fail leaves the store as it is. -/
theorem silent_fail (error : RuntimeError) : Silent (Eval.fail error : Eval α) :=
  silent_of_store fun _ => rfl

/-- So does reading, whether it fails or not. -/
theorem silent_readOrFail (f : Store → Except RuntimeError α) : Silent (Eval.readOrFail f) := by
  refine silent_of_store fun s => ?_
  unfold Eval.readOrFail
  cases f s.store <;> rfl

/-- Putting something into the store is silent if it adds no name. -/
theorem silent_allocate {f : Store → α × Store} (h : ∀ store : Store, store.SameNames (f store).2) :
    Silent (Eval.allocate f) := fun s => h s.store

/-- The same for changes that may be refused; if they are, nothing happens. -/
theorem silent_update {f : Store → Except RuntimeError Store}
    (h : ∀ store store' : Store, f store = .ok store' → store.SameNames store') :
    Silent (Eval.update f) := by
  intro s
  unfold Eval.update
  cases hf : f s.store with
  | ok store => exact h s.store store hf
  | error error => exact .refl s.store

/-- Operators compute on values and know no scope. -/
theorem silent_computes {action : Eval Value} (h : Computes action) : Silent action :=
  silent_of_store fun s => congrArg State.store (h.same s)

/-! ## Quiet parts of plans

The tasks that evaluate expressions, each for the place where the expression stands. -/

theorem quiet_pure (a : α) : (pure a : Plan α).Quiet U scope? context := trivial

/-- A call for the same place that declares nothing. -/
theorem quiet_perform {task : Task} (hscope : task.scope? = some scope)
    (hwithin : task.occurrences context ⊆ U) (hdeclared : task.declared = [])
    (hbalanced : ∀ store, task.Balanced store) :
    (perform task).Quiet U (some scope) context :=
  ⟨.inl ⟨hscope, hwithin⟩, hdeclared, hbalanced, fun _ => trivial⟩

/-- Evaluating an expression, a row of them, or one that may be missing declares nothing. -/
theorem quiet_evaluate {expr : Expr} (hwithin : context.place expr.uses ⊆ U) :
    (perform (.evaluate scope expr)).Quiet U (some scope) context :=
  quiet_perform rfl hwithin rfl fun _ => trivial

/-- A row of expressions is evaluated at the place at which it stands. -/
theorem quiet_evaluateAll {exprs : List Expr}
    (hwithin : context.place (Expr.usesOfAll exprs) ⊆ U) :
    (perform (.evaluateAll scope exprs)).Quiet U (some scope) context :=
  quiet_perform rfl hwithin rfl fun _ => trivial

theorem quiet_evaluateOption {expr : Option Expr} (hwithin : context.place (clauseUses expr) ⊆ U) :
    (perform (.evaluateOption scope expr)).Quiet U (some scope) context :=
  quiet_perform rfl hwithin rfl fun _ => trivial

/-! ## Expressions

By the form of the expression. Each case follows the plan of its form: the operands are evaluated at
the same place, and what is done with their values is silent. Calls are for no place, whatever they
are calls of. -/

/-- Binary operators, among them the assignment, `and` and `or`. The operand on the left of an
assignment is not evaluated, and its name is found among the targets. -/
theorem binary_quiet {left right : Expr} {operator : Token}
    (hwithin : context.place (Expr.binary left operator right).uses ⊆ U) :
    (Task.evaluateBody scope (.binary left operator right)).Quiet U (some scope) context := by
  rw [Expr.uses] at hwithin
  have hright : (perform (.evaluate scope right)).Quiet U (some scope) context :=
    quiet_evaluate (place_append_right hwithin)
  unfold Task.evaluateBody
  dsimp only
  split
  · -- An assignment changes a variable that is there.
    split
    · refine hright.bind fun value => (quiet_act ?_).bind fun _ => quiet_pure value
      exact silent_update fun _ _ => Store.sameNames_assign
    · exact quiet_act (silent_of_store fun _ => rfl)
  · next hkind =>
    -- The operator is no equals sign, so the left operand is read.
    rw [if_neg (by rw [hkind]; decide)] at hwithin
    refine (quiet_evaluate (place_append_left hwithin)).bind fun value => ?_
    split
    · exact quiet_pure value
    · exact hright
  · next hkind =>
    rw [if_neg (by rw [hkind]; decide)] at hwithin
    refine (quiet_evaluate (place_append_left hwithin)).bind fun value => ?_
    split
    · exact hright
    · exact quiet_pure value
  · next hequal _ _ =>
    rw [if_neg hequal] at hwithin
    refine (quiet_evaluate (place_append_left hwithin)).bind fun leftValue => ?_
    exact hright.bind fun rightValue =>
      quiet_act (silent_computes (computes_applyBinary leftValue operator rightValue))

/-- Looking for a method above the class and binding it is quiet. -/
theorem superProperty_quiet (id : InstanceId) (name : String) (parent : Option ClassId) :
    (superProperty id name parent).Quiet U scope? context := by
  cases parent with
  | none => exact quiet_pure _
  | some parent =>
    refine (quiet_act (silent_read _)).bind fun found => ?_
    cases found with
    | none => exact quiet_pure _
    | some resolution =>
      exact quiet_act (silent_allocate fun store => Store.sameNames_newBoundMethod store _ _ _)

/-- Every expression has a quiet plan: expressions declare nothing in the scope that they are
evaluated in. What calls declare, they declare in scopes of their own. -/
theorem evaluate_quiet {expr : Expr} (hwithin : context.place expr.uses ⊆ U) :
    (Task.evaluateBody scope expr).Quiet U (some scope) context := by
  cases expr with
  | literal token => exact quiet_pure _
  | «variable» name => exact quiet_act (silent_readOrFail _)
  | grouping inner => exact quiet_evaluate hwithin
  | unary operator operand =>
    exact (quiet_evaluate hwithin).bind fun value =>
      quiet_act (silent_computes (computes_applyUnary operator value))
  | binary left operator right => exact binary_quiet hwithin
  | call callee paren arguments =>
    rw [Expr.uses] at hwithin
    refine (quiet_evaluate (place_append_left hwithin)).bind fun function => ?_
    refine (quiet_evaluateAll (place_append_right hwithin)).bind fun values => ?_
    -- The call itself is a task of its own: what it declares, it declares elsewhere.
    exact ⟨.inr rfl, rfl, fun _ => trivial, fun _ => trivial⟩
  | get object name =>
    refine (quiet_evaluate hwithin).bind fun value => quiet_act ?_
    exact silent_allocate fun store => Store.sameNames_property store value name.lexeme
  | set object name value =>
    rw [Expr.uses] at hwithin
    refine (quiet_evaluate (place_append_left hwithin)).bind fun target => ?_
    refine (quiet_evaluate (place_append_right hwithin)).bind fun result => ?_
    refine (quiet_act ?_).bind fun _ => quiet_pure result
    exact silent_update fun _ _ => Store.sameNames_setProperty
  | this keyword => exact (quiet_act (silent_readOrFail _)).bind fun _ => quiet_pure _
  | superGet keyword method =>
    refine (quiet_act (silent_readOrFail _)).bind fun id => ?_
    exact (quiet_act (silent_readOrFail _)).bind fun parent => superProperty_quiet ..
  | superCall keyword arguments =>
    rw [Expr.uses] at hwithin
    have harguments := place_cons_right hwithin
    refine (quiet_act (silent_readOrFail _)).bind fun id => ?_
    refine (quiet_act (silent_readOrFail _)).bind fun parent => ?_
    refine (quiet_evaluateAll harguments).bind fun values => ?_
    exact ⟨.inr rfl, rfl, fun _ => trivial, fun _ => trivial⟩

/-- A row of expressions is evaluated one after the other. -/
theorem evaluateAll_quiet {exprs : List Expr}
    (hwithin : context.place (Expr.usesOfAll exprs) ⊆ U) :
    (Task.evaluateAllBody scope exprs).Quiet U (some scope) context := by
  cases exprs with
  | nil => exact quiet_pure _
  | cons expr rest =>
    rw [Expr.usesOfAll] at hwithin
    refine (quiet_evaluate (place_append_left hwithin)).bind fun value => ?_
    exact (quiet_evaluateAll (place_append_right hwithin)).bind fun others => quiet_pure _

/-- A clause is quiet, and one that is missing has nothing to do. -/
theorem evaluateOption_quiet {expr : Option Expr}
    (hwithin : context.place (clauseUses expr) ⊆ U) :
    (Task.evaluateOptionBody scope expr).Quiet U (some scope) context := by
  cases expr with
  | none => exact quiet_pure _
  | some expr => exact quiet_evaluate hwithin

/-! ## Calls

Before a function is entered, its callee is looked at, the arguments are counted, and for a class an
instance is made and a constructor is searched; none of this touches a name. The arguments have been
counted when the function is invoked, and that is when the numbers are known to agree. -/

section

variable (hfacts : ∀ moment, Occurs moment → (soundness U Occurs).Fact moment)
include hfacts

/-- Everything that the plan of a call does before the function is entered is quiet. -/
theorem invoke_call {id : FunctionId} {binding : Option (InstanceId × ClassId)}
    {arguments : List Value} (hnested : Nested U Occurs s.store)
    (hlength : (s.store.function id).decl.params.length = arguments.length) :
    (nesting U Occurs).Meets Occurs fuel (perform (.invoke id binding arguments)) s
      fun outcome => Reaches U Occurs none [] s.store (finalState outcome).store := by
  refine layer_perform hfacts (fun _ _ => ⟨hnested, ?_, hlength⟩) ?_
  · exact fun _ hscope => nomatch hscope
  · rintro outcome - - ⟨hreaches, -⟩
    exact hreaches

/-- Calling a value keeps the nesting, whatever the value is. What is called runs in scopes of its
own, which stand where the function was declared, so no context of the caller is carried into the
call. -/
theorem call_nested {callee : Value} {arguments : List Value} (h : SoundStore U Occurs s.store)
    (hnested : Nested U Occurs s.store) :
    (nesting U Occurs).Meets Occurs fuel (Task.callBody arguments callee) s
      fun outcome => Reaches U Occurs none [] s.store (finalState outcome).store := by
  have hrefl : Reaches U Occurs none [] s.store s.store := .refl hnested
  have hplace : ∀ scope ∈ (none : Option ScopeId), At Occurs s.store scope [] :=
    fun _ hscope => nomatch hscope
  cases callee with
  | function ref =>
    refine meets_bind (meets_read h trivial ?_)
    refine meets_bind (meets_checkArity h trivial (fun hlength => ?_) hrefl)
    cases ref with
    | native function =>
      refine meets_quiet hfacts (quiet_act ?_) hnested hplace
      exact silent_of_store (native_store function arguments)
    | user id => exact invoke_call hfacts hnested hlength
    | bound id =>
      refine meets_bind (meets_read h trivial ?_)
      exact invoke_call hfacts hnested hlength
  -- The constructor is searched for in a task of its own.
  | classRef id =>
    refine meets_quiet hfacts ?_ hnested hplace
    refine (quiet_act (silent_allocate fun store => Store.sameNames_newInstance store id)).bind ?_
    exact fun created => ⟨.inr rfl, rfl, fun _ => trivial, fun _ => trivial⟩
  | _ => exact meets_fail h trivial hrefl

/-- Constructing an instance: without a constructor only the arguments are counted. -/
theorem construct_nested {id : InstanceId} {start : Option ClassId} {arguments : List Value}
    (h : SoundStore U Occurs s.store) (hnested : Nested U Occurs s.store) :
    (nesting U Occurs).Meets Occurs fuel (Task.constructBody id start arguments) s
      fun outcome => Reaches U Occurs none [] s.store (finalState outcome).store := by
  have hrefl : Reaches U Occurs none [] s.store s.store := .refl hnested
  refine meets_bind (meets_read h trivial ?_)
  dsimp only [andThen]
  split
  · exact meets_checkArity h trivial (fun _ => hrefl) hrefl
  · next resolution _ =>
    refine meets_bind (meets_read h trivial ?_)
    refine meets_bind (meets_checkArity h trivial (fun hlength => ?_) hrefl)
    refine meets_bind ((invoke_call hfacts hnested hlength).mono fun outcome houtcome => ?_)
    cases outcome with
    | ok value s' => exact houtcome
    | error interrupt s' => exact houtcome

/-- A new scope for a region inside a scope that follows the text. -/
theorem child_nested (honce : OpensOnce Occurs) {opening : Opening} {region : Region}
    {parent : ScopeId} {outer : Context} {Q : Outcome ScopeId → Prop}
    (hnested : Nested U Occurs s.store) (hparent : Follows Occurs s.store parent outer)
    (hregion : opening.For region)
    (hok : ∀ inner s', s.store.scopes.size ≤ inner.index →
      Reaches U Occurs none [] s.store s'.store →
      At Occurs s'.store inner (outer.enter region) → Q (.ok inner s')) :
    (nesting U Occurs).Meets Occurs fuel (child opening parent) s Q := by
  refine layer_step hfacts fun hoccurs _ _ hgrows => ?_
  have hopened : Opened Occurs ⟨s.store.scopes.size⟩ opening := ⟨_, _, hoccurs, rfl⟩
  -- The new scope has no names, so it holds none that it should not.
  have hempty : ∀ name, (Table.empty : Table Value).contains name = true → False := by
    intro name hname
    unfold Table.contains at hname
    rw [Table.get?_empty] at hname
    cases hname
  have hnew : Nested U Occurs (s.store.newChild parent .empty).2 :=
    hnested.newChild honce hopened fun name hname => (hempty name hname).elim
  have hat : At Occurs (s.store.newChild parent .empty).2 ⟨s.store.scopes.size⟩
      (outer.enter region) := by
    refine At.newChild hparent hopened hregion (fun _ hmem => nomatch hmem) ?_
    exact fun name hname => (hempty name hname).elim
  refine hok ⟨s.store.scopes.size⟩ _ (Nat.le_refl _) ⟨hgrows, hnew, ?_⟩ hat
  intro id hid name hname
  left
  rw [← declares_newChild_of_lt hid]
  exact hname

/-! ## Entering a function

A function knows the scope of its declaration, and this scope follows the text around the
declaration (`Nested.placed`). The two new scopes follow the text of the function in it: that of its
parameters, with the names of the call, and the empty one of its body. -/

omit hfacts in
/-- The names of a call are those of the parameters, and `this` and `super` if there is a
receiver. -/
theorem callBindings_names {store : Store} {function : UserFunction}
    {binding : Option (InstanceId × ClassId)} {arguments : List Value}
    (hlength : function.decl.params.length = arguments.length) :
    (Eval.callBindings store function binding arguments).map Prod.fst =
      (if binding.isSome then reservedNames else []) ++ function.decl.params.map Token.lexeme := by
  have hzip : ((function.decl.params.map Token.lexeme).zip arguments).map Prod.fst =
      function.decl.params.map Token.lexeme := by
    have hlength : (function.decl.params.map Token.lexeme).length = arguments.length := by
      rw [List.length_map, hlength]
    exact List.map_fst_zip (Nat.le_of_eq hlength)
  unfold Eval.callBindings
  rw [List.map_append, hzip]
  cases binding <;> rfl

/-- The body of a function is entered in scopes that follow its text. -/
theorem enter_nested (honce : OpensOnce Occurs) {id : FunctionId}
    {binding : Option (InstanceId × ClassId)} {arguments : List Value}
    {Q : Outcome ScopeId → Prop} (h : SoundStore U Occurs s.store)
    (hnested : Nested U Occurs s.store) (hid : id.index < s.store.functions.size)
    (hbinding : ∀ b ∈ binding, s.store.Dispatches id b.1 b.2)
    (hlength : (s.store.function id).decl.params.length = arguments.length)
    (herror : ∀ interrupt s', Reaches U Occurs none [] s.store s'.store → Q (.error interrupt s'))
    (hok : ∀ body s' context isMethod, s.store.scopes.size ≤ body.index →
      Reaches U Occurs none [] s.store s'.store →
      At Occurs s'.store body (context.enterFunction (s.store.function id).decl isMethod) →
      (s.store.function id).decl.occurrences context isMethod ⊆ U → Q (.ok body s')) :
    (nesting U Occurs).Meets Occurs fuel (enter id (s.store.function id) binding arguments) s
      Q := by
  obtain ⟨context, isMethod, hclosure, hwithin, hmethod⟩ := hnested.placed id hid
  refine meets_bind (meets_read h trivial ?_)
  dsimp only [andThen]
  split
  · exact meets_fail h trivial (herror _ _ (.refl hnested))
  · next table htable =>
    refine meets_bind (layer_step hfacts fun hoccurs hsound hsound₁ hgrows₁ => ?_)
    have hopened : Opened Occurs ⟨s.store.scopes.size⟩
        (.parameters (s.store.function id).decl id binding) := ⟨_, _, hoccurs, rfl⟩
    -- Only a function that a class declares is called on a receiver.
    have hregion : Opening.For (.parameters (s.store.function id).decl id binding)
        (.parameters (s.store.function id).decl isMethod) := by
      refine .parameters _ _ fun hsome => ?_
      obtain ⟨b, rfl⟩ := Option.isSome_iff_exists.mp hsome
      have hdispatches := hbinding b rfl
      exact hmethod b.2 (hdispatches.declaringClass_lt h.consistent) hdispatches.declares
    -- The scope has the parameters at least, and at most the two names of a receiver besides.
    have hparameters : ∀ name ∈ (s.store.function id).decl.params.map Token.lexeme,
        table.contains name = true := by
      intro name hname
      rw [Table.contains_of_addDistinct htable, callBindings_names hlength]
      exact List.mem_append_right _ hname
    have hnames : ∀ name, table.contains name = true →
        name ∈ (s.store.function id).decl.params.map Token.lexeme ∨ name ∈ reservedNames := by
      intro name hname
      rw [Table.contains_of_addDistinct htable, callBindings_names hlength] at hname
      rcases List.mem_append.mp hname with hreserved | hparameter
      · split at hreserved
        · exact .inr hreserved
        · cases hreserved
      · exact .inl hparameter
    have hnested₁ : Nested U Occurs (s.store.newChild (s.store.function id).closure table).2 :=
      hnested.newChild honce hopened hnames
    have hat := At.newChild hclosure hopened hregion hparameters hnames
    have hreaches₁ : Reaches U Occurs none [] s.store
        (s.store.newChild (s.store.function id).closure table).2 := by
      refine ⟨hgrows₁, hnested₁, fun id hid name hname => .inl ?_⟩
      rw [← declares_newChild_of_lt hid]
      exact hname
    refine child_nested hfacts honce hnested₁ hat.follows (.body (s.store.function id).decl) ?_
    intro body s' hbody hreaches hat'
    refine hok body s' context isMethod ?_ (hreaches₁.quiet hreaches) hat' hwithin
    exact Nat.le_trans hgrows₁.scopes.size hbody

/-- The body is run at a place that follows its text. What it declares is in a new scope, so the
caller sees no new names. -/
theorem invoke_nested (honce : OpensOnce Occurs) {id : FunctionId}
    {binding : Option (InstanceId × ClassId)} {arguments : List Value}
    (h : SoundStore U Occurs s.store) (hnested : Nested U Occurs s.store)
    (hid : id.index < s.store.functions.size)
    (hbinding : ∀ b ∈ binding, s.store.Dispatches id b.1 b.2)
    (hlength : (s.store.function id).decl.params.length = arguments.length) :
    (nesting U Occurs).Meets Occurs fuel (Task.invokeBody id binding arguments) s
      fun outcome => Reaches U Occurs none [] s.store (finalState outcome).store := by
  refine meets_bind (meets_read h trivial ?_)
  refine meets_bind (enter_nested hfacts honce h hnested hid hbinding hlength
    (fun _ _ hreaches => hreaches) ?_)
  intro body s₁ context isMethod hbody hreaches₁ hat hwithin
  -- The parameters come first among the occurrences of a function, and then its body.
  have hstatements : Stmt.occurrencesOfAll
      (context.enterFunction (s.store.function id).decl isMethod)
      (s.store.function id).decl.body ⊆ U := by
    rw [FunctionDecl.occurrences_eq] at hwithin
    exact (List.append_subset.mp hwithin).2
  have hbegins : (Task.executeAll body (s.store.function id).decl.body).Begins U Occurs s₁.store :=
    Task.begins_at rfl hreaches₁.nested hat hstatements (Context.hasRoom_enter _ _) trivial
  refine layer_sub hfacts (fun _ _ => hbegins) ?_ ?_
  · rintro interrupt s₂ - - ⟨hreaches₂, -⟩
    exact hreaches₁.inside hbody hreaches₂
  · rintro completion s₂ - - ⟨hreaches₂, -⟩
    cases completion with
    | normal value => exact hreaches₁.inside hbody hreaches₂
    | returned value => exact hreaches₁.inside hbody hreaches₂

end

end

end Script
