import Script.Proofs.Run.SoundCalls

/-!
# Sound statements

Statements keep the store sound as well, and with them all tasks do.
-/

namespace Script

open Contract Plan

variable {U : List Occurrence} {Occurs : Moment → Prop} {store : Store} {fuel : Nat} {s : State}
  {context : Context}

/-! ## Statements

The parts of statements that several of them share: a scope for a branch, the declaration of a name,
and what makes up the declaration of a class. -/

/-- One run of a branch or of the body of a loop, in a scope of its own. -/
theorem branch_sound {scope : ScopeId} {stmt : Stmt} {Q : Outcome Completion → Prop}
    (h : SoundStore U Occurs s.store) (hscope : scope.index < s.store.scopes.size)
    (hwithin : stmt.occurrences (context.enter (.branch stmt)) ⊆ U)
    (herror : ∀ interrupt s₁, Q (.error interrupt s₁))
    (hok : ∀ completion s₁, SoundStore U Occurs s₁.store → s.store.Grows s₁.store →
      s₁.store.Valid completion.value → Q (.ok completion s₁)) :
    (soundness U Occurs).Meets Occurs fuel
      (do
        let inner ← child (.branch stmt) scope
        perform (.execute inner stmt)) s Q := by
  refine meets_bind (child_sound h hscope (by intro _ _ _ h; cases h) ?_)
  intro inner s₁ _ _ _ hgrows₁ hinner
  refine meets_perform ⟨hinner, _, hwithin⟩ fun h₂ hgrows₂ hvalue => ?_
  cases hrun : (Task.execute inner stmt).run fuel s₁ with
  | error interrupt s₂ => exact herror _ _
  | ok completion s₂ =>
    rw [hrun] at h₂ hgrows₂ hvalue
    exact hok completion s₂ h₂ (hgrows₁.trans hgrows₂) hvalue

/-- A name is declared that is not reserved, for a valid value. -/
theorem define_sound {scope : ScopeId} {name : String} {value : Value} {Q : Outcome Unit → Prop}
    (h : SoundStore U Occurs s.store) (hname : name ∉ reservedNames)
    (hvalue : s.store.Valid value) (hQ : ∀ outcome, Q outcome) :
    (soundness U Occurs).Meets Occurs fuel (act (Eval.define scope name value)) s Q := by
  refine meets_update h trivial ?_ fun _ _ => hQ _
  intro store hdefine
  exact ⟨h.define hname hvalue hdefine, Store.grows_define hname hdefine, trivial, hQ _⟩

/-- The functions of a program are known where the text declares them. -/
theorem known_of_mem {decls : List FunctionDecl} {context : Context}
    (h : FunctionDecl.occurrencesOfAll context decls ⊆ U) : ∀ decl ∈ decls, KnownIn U decl :=
  fun _ hdecl => ⟨context, true, List.Subset.trans (occurrences_subset_methods hdecl) h⟩

/-- A statement declares no name that is reserved. -/
theorem declared_not_reserved (hU : KeepsReserved U) {name : Token} {others : List Occurrence}
    (h : context.placeDeclared [name] ++ others ⊆ U) : name.lexeme ∉ reservedNames := by
  have hplaced : ⟨.declared, name, context⟩ ∈ context.placeDeclared [name] := .head _
  refine hU _ (h (List.mem_append_left _ hplaced)) ?_
  intro hrole
  cases hrole

/-- The superclass is a class of the store: the root class if none is named, or the class that the
name stands for. -/
theorem parentClass_sound {scope : ScopeId} {superclass : Option Token}
    {Q : Outcome ClassId → Prop} (h : SoundStore U Occurs s.store)
    (hscope : scope.index < s.store.scopes.size) (herror : ∀ interrupt, Q (.error interrupt s))
    (hok : ∀ parent : ClassId, parent.index < s.store.classes.size → Q (.ok parent s)) :
    (soundness U Occurs).Meets Occurs fuel (parentClass scope superclass) s Q := by
  cases superclass with
  | none => exact hok _ h.consistent.rootClass
  | some parent =>
    refine meets_bind (meets_readOrFail h trivial ?_ fun _ _ => herror _)
    intro value hvalue
    have hvalid := h.consistent.lookup_valid hscope hvalue
    cases value with
    | classRef id => exact hok id hvalid
    | _ =>
      show (soundness U Occurs).Meets Occurs fuel (act (Eval.fail _)) s Q
      exact meets_fail h trivial (herror _)

/-- A class is made of its superclass and its methods, and gets its name. -/
theorem declareClass_sound (hU : KeepsReserved U) {scope : ScopeId} {name : Token}
    {superclass : Option Token} {methods : List FunctionDecl} {Q : Outcome Unit → Prop}
    (h : SoundStore U Occurs s.store) (hscope : scope.index < s.store.scopes.size)
    (hwithin : (Stmt.classDecl name superclass methods).occurrences context ⊆ U)
    (hQ : ∀ outcome, Q outcome) :
    (soundness U Occurs).Meets Occurs fuel (declareClass scope name superclass methods) s Q := by
  rw [Stmt.occurrences, List.append_assoc] at hwithin
  have hname := declared_not_reserved hU hwithin
  have hknown := known_of_mem (List.append_subset.mp (List.append_subset.mp hwithin).2).2
  refine meets_bind (parentClass_sound h hscope (fun _ => hQ _) ?_)
  intro parent hparent
  -- The methods come into being first, then the class.
  obtain ⟨hconsistent₁, hids⟩ := h.consistent.newFunctions hknown hscope
  have hgrows₁ := Store.grows_newFunctions scope methods s.store
  have h₁ := h.change hgrows₁ hconsistent₁
    (congrArg Arena.size (Store.newFunctions_scopes scope methods s.store))
  refine meets_bind (meets_allocate h₁ hgrows₁ trivial ?_)
  have hparent₁ := Nat.lt_of_lt_of_le hparent hgrows₁.classes.size
  have hgrows₂ := Store.grows_newClass (s.store.newFunctions scope methods).2 name.lexeme
    ((s.store.newFunctions scope methods).2.lineage parent)
    (.ofList (s.store.newFunctions scope methods).1)
  have h₂ := h₁.change hgrows₂
    (hconsistent₁.declareClass hparent₁ fun entry hentry => (hids entry hentry).2) rfl
  refine meets_bind (meets_allocate h₂ hgrows₂ trivial ?_)
  refine define_sound h₂ hname ?_ hQ
  exact Nat.lt_of_lt_of_eq (Nat.lt_succ_self _) (Arena.size_push ..).symm

/-- The names of a conditional are those of the condition and of the branches. -/
theorem within_ifElse {condition : Expr} {thenBranch : Stmt} {elseBranch : Option Stmt}
    (h : (Stmt.ifElse condition thenBranch elseBranch).occurrences context ⊆ U) :
    context.place condition.uses ⊆ U ∧
      thenBranch.occurrences (context.enter (.branch thenBranch)) ⊆ U ∧
      ∀ stmt ∈ elseBranch, stmt.occurrences (context.enter (.branch stmt)) ⊆ U := by
  cases elseBranch with
  | none =>
    rw [Stmt.occurrences] at h
    refine ⟨(List.append_subset.mp h).1, (List.append_subset.mp h).2, ?_⟩
    intro stmt hstmt
    cases hstmt
  | some stmt =>
    rw [Stmt.occurrences, List.append_assoc] at h
    have hbranches := (List.append_subset.mp h).2
    refine ⟨(List.append_subset.mp h).1, (List.append_subset.mp hbranches).1, ?_⟩
    intro other hother
    obtain rfl := Option.some.inj hother
    exact (List.append_subset.mp hbranches).2

/-- The names of a `for` are those of what stands first, and those of the loop, which stand where
its variable is declared. -/
theorem within_forLoop {init : Stmt} {condition post : Option Expr} {body : Stmt}
    (h : (Stmt.forLoop (some init) condition post body).occurrences context ⊆ U) :
    init.occurrences (context.enter (.header (some init))) ⊆ U ∧
      ∀ clauses, (Task.forLoop clauses condition post body).occurrences
        (Context.declare init.declared (context.enter (.header (some init)))) ⊆ U := by
  rw [Stmt.occurrences, List.append_assoc, List.append_assoc,
    ← List.append_assoc (Context.place _ _)] at h
  exact ⟨(List.append_subset.mp h).1, fun _ => (List.append_subset.mp h).2⟩

/-! ## One statement

Each statement is followed through its plan. The scope that it runs in stays valid, however much the
store grows in between. -/

/-- What a statement comes to is valid. -/
abbrev ValidCompletion : Outcome Completion → Prop :=
  Yields fun completion s => s.store.Valid completion.value

/-- Writing changes the output and not the store. -/
theorem print_sound {scope : ScopeId} {expr : Expr} (hscope : scope.index < s.store.scopes.size)
    (hwithin : (Stmt.print expr).occurrences context ⊆ U) :
    (soundness U Occurs).Meets Occurs fuel (Task.executeBody scope (.print expr)) s
      ValidCompletion := by
  rw [Stmt.occurrences] at hwithin
  refine meets_perform_bind ⟨hscope, context, hwithin⟩ (fun _ _ _ _ _ _ => trivial) ?_
  intro value s₁ _ h₁ _ _
  refine meets_bind (meets_read h₁ trivial ?_)
  have hstore := write_store (s₁.store.display value ++ "\n") s₁
  refine meets_bind (meets_act ?_ ?_ trivial ?_)
  · show SoundStore U Occurs _
    rwa [hstore]
  · show Store.Grows _ _
    rw [hstore]
    exact Store.Grows.refl _
  · cases Eval.write (s₁.store.display value ++ "\n") s₁ <;> trivial

/-- A variable is declared when its value is known. -/
theorem varDecl_sound (hU : KeepsReserved U) {scope : ScopeId} {name : Token}
    {init : Option Expr} (hscope : scope.index < s.store.scopes.size)
    (hwithin : (Stmt.varDecl name init).occurrences context ⊆ U) :
    (soundness U Occurs).Meets Occurs fuel (Task.executeBody scope (.varDecl name init)) s
      ValidCompletion := by
  rw [Stmt.occurrences] at hwithin
  have hname := declared_not_reserved hU hwithin
  have hinit := (List.append_subset.mp hwithin).2
  refine meets_perform_bind ⟨hscope, context, hinit⟩ (fun _ _ _ _ _ _ => trivial) ?_
  intro value s₁ _ h₁ _ hvalue
  refine meets_bind (define_sound h₁ hname hvalue ?_)
  intro outcome
  cases outcome <;> trivial

/-- A conditional runs at most one of its branches. -/
theorem ifElse_sound {scope : ScopeId} {condition : Expr} {thenBranch : Stmt}
    {elseBranch : Option Stmt} (hscope : scope.index < s.store.scopes.size)
    (hwithin : (Stmt.ifElse condition thenBranch elseBranch).occurrences context ⊆ U) :
    (soundness U Occurs).Meets Occurs fuel
      (Task.executeBody scope (.ifElse condition thenBranch elseBranch)) s ValidCompletion := by
  obtain ⟨hcondition, hthen, helse⟩ := within_ifElse hwithin
  refine meets_perform_bind ⟨hscope, context, hcondition⟩ (fun _ _ _ _ _ _ => trivial) ?_
  intro value s₁ _ h₁ hgrows₁ _
  have hscope₁ := Nat.lt_of_lt_of_le hscope hgrows₁.scopes.size
  split
  · exact branch_sound h₁ hscope₁ hthen (fun _ _ => trivial) fun _ _ _ _ hvalue => hvalue
  · cases elseBranch with
    | none => trivial
    | some elseBranch =>
      exact branch_sound h₁ hscope₁ (helse _ rfl) (fun _ _ => trivial)
        fun _ _ _ _ hvalue => hvalue

/-- The clauses of a `for` have a scope of their own. -/
theorem forStatement_sound {scope : ScopeId} {init : Option Stmt} {condition post : Option Expr}
    {body : Stmt} (h : SoundStore U Occurs s.store) (hscope : scope.index < s.store.scopes.size)
    (hwithin : (Stmt.forLoop init condition post body).occurrences context ⊆ U) :
    (soundness U Occurs).Meets Occurs fuel
      (Task.executeBody scope (.forLoop init condition post body)) s ValidCompletion := by
  refine meets_bind (child_sound h hscope (by intro _ _ _ h; cases h) ?_)
  intro clauses s₁ _ _ _ _ hclauses
  cases init with
  | none =>
    rw [Stmt.occurrences] at hwithin
    exact meets_perform ⟨hclauses, _, hwithin⟩ fun _ _ hvalue => hvalue
  | some init =>
    -- What stands first is run once, and the loop after it.
    obtain ⟨hinit, hloop⟩ := within_forLoop hwithin
    refine meets_perform_bind ⟨hclauses, _, hinit⟩ (fun _ _ _ _ _ _ => trivial) ?_
    intro _ s₂ _ _ hgrows₂ _
    have hclauses₂ := Nat.lt_of_lt_of_le hclauses hgrows₂.scopes.size
    exact meets_perform ⟨hclauses₂, _, hloop clauses⟩ fun _ _ hvalue => hvalue

/-- A function is made, and then its name is declared. -/
theorem function_sound (hU : KeepsReserved U) {scope : ScopeId} {decl : FunctionDecl}
    (h : SoundStore U Occurs s.store) (hscope : scope.index < s.store.scopes.size)
    (hwithin : (Stmt.function decl).occurrences context ⊆ U) :
    (soundness U Occurs).Meets Occurs fuel (Task.executeBody scope (.function decl)) s
      ValidCompletion := by
  rw [Stmt.occurrences] at hwithin
  have hname := declared_not_reserved hU hwithin
  have hknown : KnownIn U decl := ⟨_, _, (List.append_subset.mp hwithin).2⟩
  have hgrows := Store.grows_newFunction s.store decl scope
  have h₁ := h.change hgrows (h.consistent.newFunction hknown hscope) rfl
  refine meets_bind (meets_allocate h₁ hgrows trivial ?_)
  have hvalid : (s.store.newFunction decl scope).2.Valid
      (.function (.user ⟨s.store.functions.size⟩)) :=
    Nat.lt_of_lt_of_eq (Nat.lt_succ_self _) (Arena.size_push ..).symm
  refine meets_bind (define_sound h₁ hname hvalid ?_)
  intro outcome
  cases outcome <;> trivial

/-- All statements, by their kind. Those that only hand on to a task are done here, and the others
have a lemma of their own above. -/
theorem execute_sound (hU : KeepsReserved U) {scope : ScopeId} {stmt : Stmt}
    (h : SoundStore U Occurs s.store) (hscope : scope.index < s.store.scopes.size)
    (hwithin : stmt.occurrences context ⊆ U) :
    (soundness U Occurs).Meets Occurs fuel (Task.executeBody scope stmt) s ValidCompletion := by
  cases stmt with
  | expression expr =>
    rw [Stmt.occurrences] at hwithin
    exact meets_perform_bind ⟨hscope, context, hwithin⟩ (fun _ _ _ _ _ _ => trivial)
      fun _ _ _ _ _ hvalue => hvalue
  | print expr => exact print_sound hscope hwithin
  | varDecl name init => exact varDecl_sound hU hscope hwithin
  | block body =>
    rw [Stmt.occurrences] at hwithin
    refine meets_bind (child_sound h hscope (by intro _ _ _ h; cases h) ?_)
    intro inner s₁ _ _ _ _ hinner
    exact meets_perform ⟨hinner, _, hwithin⟩ fun _ _ hvalue => hvalue
  | ifElse condition thenBranch elseBranch => exact ifElse_sound hscope hwithin
  | whileLoop condition body =>
    rw [Stmt.occurrences] at hwithin
    exact meets_perform ⟨hscope, context, hwithin⟩ fun _ _ hvalue => hvalue
  | forLoop init condition post body => exact forStatement_sound h hscope hwithin
  | function decl => exact function_sound hU h hscope hwithin
  | returnValue keyword value =>
    rw [Stmt.occurrences] at hwithin
    exact meets_perform_bind ⟨hscope, context, hwithin⟩ (fun _ _ _ _ _ _ => trivial)
      fun _ _ _ _ _ hvalue => hvalue
  | classDecl name superclass methods =>
    refine meets_bind (declareClass_sound hU h hscope hwithin ?_)
    intro outcome
    cases outcome <;> trivial

/-- A row of statements, which ends early where a statement returns. The rest of the row runs in the
same scope, which is still there since stores only grow. -/
theorem executeAll_sound {scope : ScopeId} {statements : List Stmt}
    (hscope : scope.index < s.store.scopes.size)
    (hwithin : Stmt.occurrencesOfAll context statements ⊆ U) :
    (soundness U Occurs).Meets Occurs fuel (Task.executeAllBody scope statements) s
      ValidCompletion := by
  cases statements with
  | nil => trivial
  | cons stmt rest =>
    rw [Stmt.occurrencesOfAll] at hwithin
    have hstmt := (List.append_subset.mp hwithin).1
    have hrest := (List.append_subset.mp hwithin).2
    cases rest with
    | nil => exact meets_perform ⟨hscope, context, hstmt⟩ fun _ _ hvalue => hvalue
    | cons next rest =>
      refine meets_perform_bind ⟨hscope, context, hstmt⟩ (fun _ _ _ _ _ _ => trivial) ?_
      intro completion s₁ _ _ hgrows₁ hcompletion
      cases completion with
      | returned value => exact hcompletion
      | normal value =>
        have hscope₁ := Nat.lt_of_lt_of_le hscope hgrows₁.scopes.size
        exact meets_perform ⟨hscope₁, _, hrest⟩ fun _ _ hvalue => hvalue

/-! ## Loops

A loop is a task of its own, so what is left after one turn is covered by the contract; only the
turn itself has to be followed. -/

/-- One turn of a loop, and what is left of the loop after it. -/
theorem turn_sound {scope : ScopeId} {stmt : Stmt} {f : Completion → Plan Completion}
    (h : SoundStore U Occurs s.store) (hscope : scope.index < s.store.scopes.size)
    (hwithin : stmt.occurrences (context.enter (.branch stmt)) ⊆ U)
    (hf : ∀ completion s₁, ValidCompletion (.ok completion s₁) →
      scope.index < s₁.store.scopes.size →
      (soundness U Occurs).Meets Occurs fuel (f completion) s₁ ValidCompletion) :
    (soundness U Occurs).Meets Occurs fuel
      (do
        let inner ← child (.branch stmt) scope
        let completion ← perform (.execute inner stmt)
        f completion) s ValidCompletion := by
  refine meets_bind (child_sound h hscope (by intro _ _ _ h; cases h) ?_)
  intro inner s₁ _ _ _ hgrows₁ hinner
  refine meets_perform_bind ⟨hinner, _, hwithin⟩ (fun _ _ _ _ _ _ => trivial) ?_
  intro completion s₂ _ _ hgrows₂ hcompletion
  apply hf completion s₂ hcompletion
  exact Nat.lt_of_lt_of_le hscope (hgrows₁.trans hgrows₂).scopes.size

/-- The turns of a `while`. What is left after a turn is the same loop in a store that has grown. -/
theorem whileLoop_sound {scope : ScopeId} {condition : Expr} {body : Stmt}
    (hscope : scope.index < s.store.scopes.size)
    (hwithin : context.place condition.uses ++
      body.occurrences (context.enter (.branch body)) ⊆ U) :
    (soundness U Occurs).Meets Occurs fuel (Task.whileLoopBody scope condition body) s
      ValidCompletion := by
  have hcondition := (List.append_subset.mp hwithin).1
  have hbody := (List.append_subset.mp hwithin).2
  refine meets_perform_bind ⟨hscope, context, hcondition⟩ (fun _ _ _ _ _ _ => trivial) ?_
  intro value s₁ _ h₁ hgrows₁ _
  have hscope₁ := Nat.lt_of_lt_of_le hscope hgrows₁.scopes.size
  split
  · refine turn_sound h₁ hscope₁ hbody fun completion s₂ hcompletion hscope₂ => ?_
    cases completion with
    | returned value => exact hcompletion
    | normal value => exact meets_perform ⟨hscope₂, context, hwithin⟩ fun _ _ hvalue => hvalue
  · trivial

/-- The condition of a `for`, which holds if it is absent. -/
theorem goesOn_sound {scope : ScopeId} {condition : Option Expr} {Q : Outcome Bool → Prop}
    (h : SoundStore U Occurs s.store) (hscope : scope.index < s.store.scopes.size)
    (hwithin : context.place (clauseUses condition) ⊆ U)
    (herror : ∀ interrupt s₁, Q (.error interrupt s₁))
    (hok : ∀ b s₁, SoundStore U Occurs s₁.store → s.store.Grows s₁.store → Q (.ok b s₁)) :
    (soundness U Occurs).Meets Occurs fuel (goesOn scope condition) s Q := by
  cases condition with
  | none => exact hok _ _ h (Store.Grows.refl _)
  | some condition =>
    refine meets_perform_bind ⟨hscope, context, hwithin⟩ (fun _ _ _ _ _ _ => herror _ _) ?_
    intro value s₁ _ h₁ hgrows₁ _
    exact hok _ _ h₁ hgrows₁

/-- The turns of a `for`, with the last clause after each of them. The names of the three parts are
those of the loop, which is why the next turn is met by the contract of the same loop. -/
theorem forLoop_sound {scope : ScopeId} {condition post : Option Expr} {body : Stmt}
    (h : SoundStore U Occurs s.store) (hscope : scope.index < s.store.scopes.size)
    (hwithin : context.place (clauseUses condition) ++ context.place (clauseUses post) ++
      body.occurrences (context.enter (.branch body)) ⊆ U) :
    (soundness U Occurs).Meets Occurs fuel (Task.forLoopBody scope condition post body) s
      ValidCompletion := by
  have hclauses := (List.append_subset.mp hwithin).1
  have hcondition := (List.append_subset.mp hclauses).1
  have hpost := (List.append_subset.mp hclauses).2
  have hbody := (List.append_subset.mp hwithin).2
  refine meets_bind (goesOn_sound h hscope hcondition (fun _ _ => trivial) ?_)
  intro goOn s₁ h₁ hgrows₁
  have hscope₁ := Nat.lt_of_lt_of_le hscope hgrows₁.scopes.size
  dsimp only [andThen]
  split
  · refine turn_sound h₁ hscope₁ hbody fun completion s₂ hcompletion hscope₂ => ?_
    cases completion with
    | returned value => exact hcompletion
    | normal value =>
      refine meets_perform_bind ⟨hscope₂, context, hpost⟩ (fun _ _ _ _ _ _ => trivial) ?_
      intro _ s₃ _ _ hgrows₃ _
      have hscope₃ := Nat.lt_of_lt_of_le hscope₂ hgrows₃.scopes.size
      exact meets_perform ⟨hscope₃, context, hwithin⟩ fun _ _ hvalue => hvalue
  · trivial

/-! ## All tasks -/

/-- All tasks keep the contract, if the tasks inside them do. -/
theorem soundness_kept (hU : KeepsReserved U) : (soundness U Occurs).Kept Occurs where
  exhausted := fun _ _ => trivial
  body := by
    intro fuel task s _ h hpre
    obtain ⟨hvalid, context, hwithin⟩ := hpre
    cases task with
    | evaluate scope expr => exact evaluate_sound hU h hvalid hwithin
    | evaluateAll scope exprs => exact evaluateAll_sound hvalid hwithin
    | evaluateOption scope expr => exact evaluateOption_sound hvalid hwithin
    | call callee arguments => exact call_sound h hvalid.1 hvalid.2
    | construct id start arguments => exact construct_sound h hvalid.1 hvalid.2.1 hvalid.2.2
    | invoke id binding arguments => exact invoke_sound hU h hvalid.1 hvalid.2.1 hvalid.2.2
    | execute scope stmt => exact execute_sound hU h hvalid hwithin
    | executeAll scope statements => exact executeAll_sound hvalid hwithin
    | whileLoop scope condition body => exact whileLoop_sound hvalid hwithin
    | forLoop scope condition post body => exact forLoop_sound h hvalid hwithin

end Script
