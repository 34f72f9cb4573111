import Script.Proofs.Run.SoundStore

/-!
# Sound runs

The contract that the store stays sound and only grows, and that what is yielded is valid. Every
task of a run is shown to keep it: expressions and calls first, then statements.
-/

namespace Script

variable {U : List Occurrence} {Occurs : Moment → Prop} {store store' : Store}

/-! ## Changes of a sound store

Of the changes that an expression or a statement makes, none opens a scope. So each of them keeps
the store sound if it keeps it consistent and makes it grow. -/

/-- Binding a name opens no scope. -/
theorem Store.bind_scopes_size (store : Store) (scope : ScopeId) (name : String) (value : Value) :
    (store.bind scope name value).scopes.size = store.scopes.size :=
  Arena.size_modify ..

/-- Binding a name that is not reserved keeps the store sound: the names that calls bring in keep
their values. -/
theorem SoundStore.bind (h : SoundStore U Occurs store) {scope : ScopeId} {name : String}
    {value : Value} (hname : name ∉ reservedNames) (hvalue : store.Valid value) :
    SoundStore U Occurs (store.bind scope name value) :=
  h.change (Store.grows_bind store scope value hname) (h.consistent.bind hname hvalue)
    (store.bind_scopes_size scope name value)

/-- Declaring a name that is not reserved keeps the store sound, if it succeeds. -/
theorem SoundStore.define (h : SoundStore U Occurs store) {scope : ScopeId} {name : String}
    {value : Value} (hname : name ∉ reservedNames) (hvalue : store.Valid value)
    (hdefine : store.define scope name value = .ok store') : SoundStore U Occurs store' := by
  obtain ⟨-, rfl⟩ := Store.define_eq_ok.mp hdefine
  exact h.bind hname hvalue

/-- Assigning to a name that is not reserved. -/
theorem SoundStore.assign (h : SoundStore U Occurs store) {scope : ScopeId} {name : String}
    {value : Value} (hname : name ∉ reservedNames) (hvalue : store.Valid value)
    (hassign : store.assign scope name value = .ok store') : SoundStore U Occurs store' := by
  obtain ⟨owner, -, rfl⟩ := Store.assign_eq_ok.mp hassign
  exact h.bind hname hvalue

theorem Store.newFunctions_scopes (closure : ScopeId) (decls : List FunctionDecl) (store : Store) :
    (store.newFunctions closure decls).2.scopes = store.scopes := by
  induction decls generalizing store with
  | nil => rfl
  | cons decl rest ih => exact ih (store.newFunction decl closure).2

theorem Store.newFunctions_classes (closure : ScopeId) (decls : List FunctionDecl)
    (store : Store) : (store.newFunctions closure decls).2.classes = store.classes := by
  induction decls generalizing store with
  | nil => rfl
  | cons decl rest ih => exact ih (store.newFunction decl closure).2

/-- Reading a property leaves the scopes alone. -/
theorem Store.property_scopes (store : Store) (object : Value) (name : String) :
    (store.property object name).2.scopes = store.scopes := by
  rcases store.property_cases object name with hsame | ⟨resolution, receiver, hbound⟩
  · rw [hsame]
  · rw [hbound]
    rfl

/-- Setting a property leaves the scopes alone. -/
theorem Store.setProperty_scopes {object value : Value} {name : String}
    (h : store.setProperty object name value = .ok store') : store'.scopes = store.scopes := by
  rcases Store.setProperty_eq_ok.mp h with ⟨id, -, rfl⟩ | ⟨id, -, rfl⟩ | ⟨ref, -, rfl⟩
  · rfl
  · rfl
  · cases ref <;> rfl

/-! ## The contract

The precondition is that the task refers to things of the store and has its names among those of the
program; the postcondition that it yields valid values. That the store is sound is asked for between
any two actions. -/

/-- What the outcome yields, if anything, has the property. -/
def Yields {α : Type} (P : α → State → Prop) : Outcome α → Prop
  | .ok a s => P a s
  | .error _ _ => True

/-- What an expression comes to is valid. -/
abbrev ValidValue : Outcome Value → Prop := Yields fun value s => s.store.Valid value

/-- A scope that is opened is new; one that is opened for a call of a method holds its receiver. -/
def Event.Sound (Occurs : Moment → Prop) (a b : Store) : Event → Prop
  | .acts => True
  | .opens opening =>
    b.scopes.size = a.scopes.size + 1 ∧
      ∀ decl method receiver declaringClass,
        opening = .parameters decl method (some (receiver, declaringClass)) →
        ∃ parent, MethodCall.Sound Occurs b
          ⟨⟨a.scopes.size⟩, method, receiver, declaringClass, parent⟩

/-- The contract that the lemmas of this and the next modules are about. Where a scope is opened for
a call of a method, it records the receiver, so that later it is known what `this` stands for in
that scope. -/
def soundness (U : List Occurrence) (Occurs : Moment → Prop) : Contract where
  invariant s := SoundStore U Occurs s.store
  later s s' := s.store.Grows s'.store
  pre task s := task.Valid s.store ∧ task.Within U
  post task _ := Yields fun result s => task.ValidResult s.store result
  action event s s' := event.Sound Occurs s.store s'.store
  later_refl s := Store.Grows.refl s.store
  later_trans := Store.Grows.trans

section

open Contract Plan

variable {fuel : Nat} {s : State}
  {context : Context}

/-- Numbers and truth values refer to nothing. -/
theorem Store.valid_of_type {value : Value} (h : value.type = .number ∨ value.type = .boolean) :
    store.Valid value := by
  cases value <;> first | trivial | (rcases h with h | h <;> cases h)

/-- Literals refer to nothing. -/
theorem Store.valid_literal (token : Token) : store.Valid token.value := by
  unfold Token.value
  split <;> trivial

/-! ## Expressions

For each kind of expression the plan is followed from action to action. What was read before a
subexpression is run is valid after it as well, since the store has only grown. -/

/-- An operator leaves the store alone and comes to a number or a truth value, or fails. -/
theorem computes_sound {action : Eval Value} (haction : Computes action)
    (h : SoundStore U Occurs s.store) :
    (soundness U Occurs).Meets Occurs fuel (act action) s ValidValue := by
  apply meets_same (haction.same s) h trivial
  rcases haction s with ⟨result, hrun, htype⟩ | ⟨interrupt, hrun⟩
  · rw [hrun]
    exact Store.valid_of_type htype
  · rw [hrun]
    trivial

/-- The receiver is an instance, and the superclass after it one that it inherits from. -/
theorem receiver_sound {α : Type} {scope : ScopeId} {keyword : String} {f : InstanceId → Plan α}
    {Q : Outcome α → Prop} (h : SoundStore U Occurs s.store)
    (hscope : scope.index < s.store.scopes.size)
    (herror : ∀ interrupt, Q (.error interrupt s))
    (hok : ∀ (call : MethodCall) (inner outer : List ScopeId),
      s.store.chain scope = inner ++ call.scope :: outer →
      (∀ id ∈ inner, s.store.declares id thisName = false) → call.Sound Occurs s.store →
      s.store.lookup scope superName = .ok (.classRef call.parent) →
      (soundness U Occurs).Meets Occurs fuel (f call.receiver) s Q) :
    (soundness U Occurs).Meets Occurs fuel (act (Eval.receiver scope keyword) >>= f) s Q := by
  refine meets_bind (meets_readOrFail h trivial ?_ fun _ _ => herror _)
  intro id hid
  rcases h.resolve hscope with ⟨hthis, -⟩ | ⟨call, inner, outer, hchain, hinner, hcall, hthis,
    hsuper⟩
  · rw [hthis] at hid
    cases hid
  · rw [hthis] at hid
    obtain rfl := Except.ok.inj hid
    exact hok call inner outer hchain hinner hcall hsuper

/-- The superclass is looked up where the receiver has been found, and is the one of that call. -/
theorem superclass_sound {α : Type} {scope : ScopeId} {parent : ClassId}
    {f : Option ClassId → Plan α} {Q : Outcome α → Prop} (h : SoundStore U Occurs s.store)
    (hsuper : s.store.lookup scope superName = .ok (.classRef parent))
    (hok : (soundness U Occurs).Meets Occurs fuel (f (some parent)) s Q) :
    (soundness U Occurs).Meets Occurs fuel (act (Eval.superclass scope) >>= f) s Q := by
  refine meets_bind (meets_readOrFail h trivial ?_ ?_)
  · intro found hfound
    rw [hsuper] at hfound
    obtain rfl := Except.ok.inj hfound
    exact hok
  · intro error herror
    rw [hsuper] at herror
    cases herror

/-- A method above the class of the running method may be bound to the receiver. -/
theorem superProperty_sound {id : InstanceId} {parent : ClassId} {name : String}
    (h : SoundStore U Occurs s.store) (hid : id.index < s.store.instances.size)
    (hparent : parent ∈ s.store.lineage (s.store.instanceOf id).ofClass) :
    (soundness U Occurs).Meets Occurs fuel (superProperty id name (some parent)) s
      ValidValue := by
  refine meets_bind (meets_read h trivial ?_)
  dsimp only [andThen]
  cases hfound : s.store.method? parent name with
  | none => trivial
  | some resolution =>
    obtain ⟨hconsistent, hvalid⟩ := h.consistent.bindMethod hid hparent hfound
    have hgrows := Store.grows_bindMethod s.store resolution id
    exact meets_allocate (h.change hgrows hconsistent rfl) hgrows trivial hvalid

/-- Arguments are evaluated one after the other, in the same scope. -/
theorem evaluateAll_sound {scope : ScopeId} {exprs : List Expr}
    (hscope : scope.index < s.store.scopes.size)
    (hwithin : context.place (Expr.usesOfAll exprs) ⊆ U) :
    (soundness U Occurs).Meets Occurs fuel (Task.evaluateAllBody scope exprs) s
      (Yields fun values s => ∀ value ∈ values, s.store.Valid value) := by
  cases exprs with
  | nil => exact fun _ hmem => nomatch hmem
  | cons expr rest =>
    rw [Expr.usesOfAll] at hwithin
    have hfirst := place_append_left hwithin
    have hrest := place_append_right hwithin
    refine meets_perform_bind ⟨hscope, context, hfirst⟩ (fun _ _ _ _ _ _ => trivial) ?_
    intro value s₁ _ _ hgrows₁ hvalue
    have hscope₁ := Nat.lt_of_lt_of_le hscope hgrows₁.scopes.size
    refine meets_perform_bind ⟨hscope₁, context, hrest⟩ (fun _ _ _ _ _ _ => trivial) ?_
    intro others s₂ _ _ hgrows₂ hothers other hother
    rcases List.mem_cons.mp hother with rfl | hother
    · -- The first value is still valid when the others have been evaluated.
      exact Store.Valid.mono hgrows₂ hvalue
    · exact hothers other hother

/-- An expression that may be absent comes to `nil` if it is. -/
theorem evaluateOption_sound {scope : ScopeId} {expr : Option Expr}
    (hscope : scope.index < s.store.scopes.size) (hwithin : context.place (clauseUses expr) ⊆ U) :
    (soundness U Occurs).Meets Occurs fuel (Task.evaluateOptionBody scope expr) s
      ValidValue := by
  cases expr with
  | none => trivial
  | some expr => exact meets_perform ⟨hscope, context, hwithin⟩ fun _ _ hvalue => hvalue

/-- An expression, and another one after it if the plan comes to that. -/
theorem then_sound {scope : ScopeId} {left right : Expr} {f : Value → Plan Value}
    {Q : Outcome Value → Prop} (herror : ∀ interrupt s, Q (.error interrupt s))
    (hscope : scope.index < s.store.scopes.size)
    (hwithin : context.place (left.uses ++ right.uses) ⊆ U)
    (hok : ∀ value s₁, s.store.Grows s₁.store → SoundStore U Occurs s₁.store →
      scope.index < s₁.store.scopes.size → s₁.store.Valid value →
      context.place right.uses ⊆ U → (soundness U Occurs).Meets Occurs fuel (f value) s₁ Q) :
    (soundness U Occurs).Meets Occurs fuel (perform (.evaluate scope left) >>= f) s Q := by
  have hleft := place_append_left hwithin
  have hright := place_append_right hwithin
  refine meets_perform_bind ⟨hscope, context, hleft⟩ (fun _ _ _ _ _ _ => herror _ _) ?_
  intro value s₁ _ h₁ hgrows₁ hvalue
  exact hok value s₁ hgrows₁ h₁ (Nat.lt_of_lt_of_le hscope hgrows₁.scopes.size) hvalue hright

/-- An assignment never changes a reserved variable: the grammar lets only identifiers stand on the
left. -/
theorem assignment_sound (hU : KeepsReserved U) {scope : ScopeId} {name : Token} {value : Expr}
    (hscope : scope.index < s.store.scopes.size)
    (hwithin : context.place ((.assigned, name) :: value.uses) ⊆ U) :
    (soundness U Occurs).Meets Occurs fuel
      (do
        let result ← perform (.evaluate scope value)
        act (Eval.assign scope name.lexeme result)
        pure result) s
      ValidValue := by
  have hname : name.lexeme ∉ reservedNames := hU _ (hwithin (.head _)) (by intro h; cases h)
  have hvalue := place_cons_right hwithin
  refine meets_perform_bind ⟨hscope, context, hvalue⟩ (fun _ _ _ _ _ _ => trivial) ?_
  intro result s₁ _ h₁ _ hresult
  refine meets_bind (meets_update h₁ trivial ?_ fun _ _ => trivial)
  intro store hassign
  have hgrows := Store.grows_assign hname hassign
  exact ⟨h₁.assign hname hresult hassign, hgrows, trivial, hresult.mono hgrows⟩

/-- Operators: an equals sign, the two that may skip their right side, and all others. -/
theorem binary_body_sound (hU : KeepsReserved U) {scope : ScopeId} {left right : Expr}
    {operator : Token} (h : SoundStore U Occurs s.store)
    (hscope : scope.index < s.store.scopes.size)
    (hwithin : context.place (Expr.binary left operator right).uses ⊆ U) :
    (soundness U Occurs).Meets Occurs fuel
      (Task.evaluateBody scope (.binary left operator right)) s
      ValidValue := by
  rw [Expr.uses] at hwithin
  unfold Task.evaluateBody
  dsimp only
  split
  · -- The left side of an assignment is no expression to evaluate, but a name.
    next hkind =>
    rw [if_pos hkind] at hwithin
    split
    · exact assignment_sound hU hscope hwithin
    · exact meets_same rfl h trivial trivial
  · -- For the two logical operators, the right side is evaluated where the left one leaves it open.
    next hkind =>
    rw [if_neg (by rw [hkind]; decide)] at hwithin
    refine then_sound (fun _ _ => trivial) hscope hwithin ?_
    intro value s₁ _ _ hscope₁ hvalue hright
    split
    · exact hvalue
    · exact meets_perform ⟨hscope₁, context, hright⟩ fun _ _ hvalue => hvalue
  · next hkind =>
    rw [if_neg (by rw [hkind]; decide)] at hwithin
    refine then_sound (fun _ _ => trivial) hscope hwithin ?_
    intro value s₁ _ _ hscope₁ hvalue hright
    split
    · exact meets_perform ⟨hscope₁, context, hright⟩ fun _ _ hvalue => hvalue
    · exact hvalue
  · -- Both sides are evaluated, and the operator is applied to their values.
    next hequal _ _ =>
    rw [if_neg hequal] at hwithin
    refine then_sound (fun _ _ => trivial) hscope hwithin ?_
    intro leftValue s₁ _ _ hscope₁ _ hright
    refine meets_perform_bind ⟨hscope₁, context, hright⟩ (fun _ _ _ _ _ _ => trivial) ?_
    intro rightValue s₂ _ h₂ _ _
    exact computes_sound (computes_applyBinary _ _ _) h₂

/-- A call evaluates the callee and the arguments, and hands the values over. -/
theorem callExpr_sound {scope : ScopeId} {callee : Expr} {paren : Token} {arguments : List Expr}
    (hscope : scope.index < s.store.scopes.size)
    (hwithin : context.place (Expr.call callee paren arguments).uses ⊆ U) :
    (soundness U Occurs).Meets Occurs fuel
      (Task.evaluateBody scope (.call callee paren arguments)) s ValidValue := by
  rw [Expr.uses] at hwithin
  have hcallee := place_append_left hwithin
  have harguments := place_append_right hwithin
  refine meets_perform_bind ⟨hscope, context, hcallee⟩ (fun _ _ _ _ _ _ => trivial) ?_
  intro function s₁ _ _ hgrows₁ hfunction
  have hscope₁ := Nat.lt_of_lt_of_le hscope hgrows₁.scopes.size
  refine meets_perform_bind ⟨hscope₁, context, harguments⟩ (fun _ _ _ _ _ _ => trivial) ?_
  intro values s₂ _ _ hgrows₂ hvalues
  have hfunction₂ := Store.Valid.mono hgrows₂ hfunction
  exact meets_perform ⟨⟨hfunction₂, hvalues⟩, [], List.nil_subset U⟩ fun _ _ hvalue => hvalue

/-- Reading a property may bind a method, whose receiver is the instance that was read. -/
theorem get_sound {scope : ScopeId} {object : Expr} {name : Token}
    (hscope : scope.index < s.store.scopes.size)
    (hwithin : context.place (Expr.get object name).uses ⊆ U) :
    (soundness U Occurs).Meets Occurs fuel (Task.evaluateBody scope (.get object name)) s
      ValidValue := by
  refine meets_perform_bind ⟨hscope, context, hwithin⟩ (fun _ _ _ _ _ _ => trivial) ?_
  intro value s₁ _ h₁ _ hvalue
  obtain ⟨hconsistent, hresult⟩ := h₁.consistent.property hvalue name.lexeme
  have hgrows := Store.grows_property s₁.store value name.lexeme
  have hsize := congrArg Arena.size (Store.property_scopes s₁.store value name.lexeme)
  exact meets_allocate (h₁.change hgrows hconsistent hsize) hgrows trivial hresult

/-- Setting a property stores a value that is valid by then. -/
theorem set_sound {scope : ScopeId} {object value : Expr} {name : Token}
    (hscope : scope.index < s.store.scopes.size)
    (hwithin : context.place (Expr.set object name value).uses ⊆ U) :
    (soundness U Occurs).Meets Occurs fuel (Task.evaluateBody scope (.set object name value)) s
      ValidValue := by
  rw [Expr.uses] at hwithin
  refine then_sound (fun _ _ => trivial) hscope hwithin ?_
  intro target s₁ _ _ hscope₁ _ hright
  refine meets_perform_bind ⟨hscope₁, context, hright⟩ (fun _ _ _ _ _ _ => trivial) ?_
  intro result s₂ _ h₂ _ hresult
  refine meets_bind (meets_update h₂ trivial ?_ fun _ _ => trivial)
  intro store hset
  have hgrows := Store.grows_setProperty hset
  have hconsistent := h₂.consistent.setProperty hresult hset
  have hsize := congrArg Arena.size (Store.setProperty_scopes hset)
  exact ⟨h₂.change hgrows hconsistent hsize, hgrows, trivial, Store.Valid.mono hgrows hresult⟩

/-- A constructor above the class of the running method is run on the receiver. -/
theorem superCall_sound {scope : ScopeId} {keyword : Token} {arguments : List Expr}
    (h : SoundStore U Occurs s.store) (hscope : scope.index < s.store.scopes.size)
    (hwithin : context.place (Expr.superCall keyword arguments).uses ⊆ U) :
    (soundness U Occurs).Meets Occurs fuel
      (Task.evaluateBody scope (.superCall keyword arguments)) s ValidValue := by
  rw [Expr.uses] at hwithin
  have harguments := place_cons_right hwithin
  refine receiver_sound h hscope (fun _ => trivial) ?_
  intro call _ _ _ _ hcall hsuper
  refine superclass_sound h hsuper ?_
  refine meets_perform_bind ⟨hscope, context, harguments⟩ (fun _ _ _ _ _ _ => trivial) ?_
  intro values s₁ _ h₁ hgrows₁ hvalues
  -- The store has grown since the receiver was read, but the call is still a sound one.
  have hdispatches := hcall.dispatches.mono h.consistent hgrows₁
  have hparent : call.parent ∈ s₁.store.lineage (s₁.store.instanceOf call.receiver).ofClass := by
    have hreceiver := hcall.dispatches.exists_receiver
    rw [hgrows₁.ofClass hreceiver, hgrows₁.lineage (h.consistent.receiver_class hreceiver)]
    exact hcall.parent_inherited h.consistent
  refine meets_perform_bind
    ⟨⟨hdispatches.exists_receiver, ⟨_, rfl, hparent⟩, hvalues⟩, [], List.nil_subset U⟩
    (fun _ _ _ _ _ _ => trivial) ?_
  intro _ s₂ _ _ _ _
  trivial

/-- All expressions, by their kind. The values that a sound store yields are valid in it, and `this`
and `super` are found with the receiver and the class that the call brought in. -/
theorem evaluate_sound (hU : KeepsReserved U) {scope : ScopeId} {expr : Expr}
    (h : SoundStore U Occurs s.store) (hscope : scope.index < s.store.scopes.size)
    (hwithin : context.place expr.uses ⊆ U) :
    (soundness U Occurs).Meets Occurs fuel (Task.evaluateBody scope expr) s ValidValue := by
  cases expr with
  | literal token => exact Store.valid_literal token
  | «variable» name =>
    exact meets_readOrFail h trivial (fun _ hvalue => h.consistent.lookup_valid hscope hvalue)
      fun _ _ => trivial
  | grouping inner => exact meets_perform ⟨hscope, context, hwithin⟩ fun _ _ hvalue => hvalue
  | unary operator operand =>
    refine meets_perform_bind ⟨hscope, context, hwithin⟩ (fun _ _ _ _ _ _ => trivial) ?_
    intro value s₁ _ h₁ _ _
    exact computes_sound (computes_applyUnary _ _) h₁
  | binary left operator right => exact binary_body_sound hU h hscope hwithin
  | call callee paren arguments => exact callExpr_sound hscope hwithin
  | get object name => exact get_sound hscope hwithin
  | set object name value => exact set_sound hscope hwithin
  | this keyword =>
    refine receiver_sound h hscope (fun _ => trivial) ?_
    intro call _ _ _ _ hcall _
    exact hcall.dispatches.exists_receiver
  | superGet keyword method =>
    refine receiver_sound h hscope (fun _ => trivial) ?_
    intro call _ _ _ _ hcall hsuper
    exact superclass_sound h hsuper (superProperty_sound h hcall.dispatches.exists_receiver
      (hcall.parent_inherited h.consistent))
  | superCall keyword arguments => exact superCall_sound h hscope hwithin

end

end Script
