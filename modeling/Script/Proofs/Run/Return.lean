import Script.Proofs.Run.Uniform

/-!
# Returns

A `return` ends the call of the function that its statement stands in, whatever blocks, branches and
loops are around it. Control comes to such a statement along calls by which statements run the ones
inside them (`Arrives`). Each of the tasks on this way ends as soon as the one inside it has
returned, with the same value and in the same state (`Returns.leaves`), and none of them returns
otherwise (`returns_of_returned`).

The same holds at top level, where a `return` is reported as an error. So it is reported only if a
`return` stands outside all functions (`return_exits`).
-/

namespace Script

/-! ## Results that end a plan

A `return` shows as a result of a task that the task around it answers at once. Which results are
answered so can be read off a plan, with no regard to what a run does. -/

namespace Plan

variable {α : Type} {run : (task : Task) → Eval task.Result}
  {exits : (task : Task) → task.Result → α → Prop} {ends : α → Prop}

/-- The tasks that are called when the plan is carried out, with the states in which they begin. -/
def calls (run : (task : Task) → Eval task.Result) : Plan α → State → List (Task × State)
  | .done _, _ => []
  | .step _ action next, s =>
    match action s with
    | .ok b s' => (next b).calls run s'
    | .error _ _ => []
  | .sub task next, s =>
    (task, s) ::
      match run task s with
      | .ok b s' => (next b).calls run s'
      | .error _ _ => []

/-- Some results of the tasks that the plan calls are exits: they end the plan at once, and
`exits task b a` relates such a result `b` to the result `a` of the plan. The plan goes on with all
others, and if it comes to its end, its result is one of `ends`. -/
def Exits (exits : (task : Task) → task.Result → α → Prop) (ends : α → Prop) : Plan α → Prop
  | .done a => ends a
  | .step _ _ next => ∀ b, (next b).Exits exits ends
  | .sub task next => ∀ b,
    (∃ a, next b = .done a ∧ exits task b a) ∨
      (∀ a, ¬ exits task b a) ∧ (next b).Exits exits ends

/-- After an exit nothing happens any more: the plan yields the result of the exit in the state that
the task has left, and the trace of the plan ends with that of the task. -/
theorem Exits.leaves {plan : Plan α} (h : plan.Exits exits ends) {task : Task} {b : task.Result}
    {s s₁ s' : State} (hcall : (task, s₁) ∈ plan.calls run s) (hrun : run task s₁ = .ok b s')
    (hexit : ∃ a, exits task b a) (sub : Task → State → List Moment) :
    (∃ a, exits task b a ∧ plan.eval run s = .ok a s') ∧
      sub task s₁ <:+ plan.trace run sub s := by
  induction plan generalizing s with
  | done a => cases hcall
  | step event action next ih =>
    rw [calls] at hcall
    rw [trace]
    -- The call comes later, so the action before it has succeeded.
    cases haction : action s with
    | error interrupt s₂ =>
      rw [haction] at hcall
      cases hcall
    | ok c s₂ =>
      rw [haction] at hcall
      obtain ⟨heval, htrace⟩ := ih c (h c) hcall
      rw [eval, Eval.bind_of_ok haction]
      exact ⟨heval, htrace.trans (List.suffix_cons _ _)⟩
  | sub other next ih =>
    rw [calls] at hcall
    rw [trace]
    rcases List.mem_cons.mp hcall with hhead | hcall
    -- The exit is the result of this very call.
    · obtain ⟨rfl, rfl⟩ := Prod.mk.inj hhead
      rcases h b with ⟨a, hdone, ha⟩ | ⟨hnone, -⟩
      · rw [eval, Eval.bind_of_ok hrun, hrun]
        dsimp only
        rw [hdone]
        exact ⟨⟨a, ha, rfl⟩, by simp [trace]⟩
      · obtain ⟨a, ha⟩ := hexit
        exact absurd ha (hnone a)
    · -- The exit comes later. Then the result of this call is none, and the plan goes on.
      cases hother : run other s with
      | error interrupt s₂ =>
        rw [hother] at hcall
        cases hcall
      | ok c s₂ =>
        rw [hother] at hcall
        dsimp only at hcall
        rcases h c with ⟨a, hdone, -⟩ | ⟨-, hnext⟩
        · rw [hdone] at hcall
          cases hcall
        · obtain ⟨heval, htrace⟩ := ih c hnext hcall
          rw [eval, Eval.bind_of_ok hother]
          exact ⟨heval, htrace.trans (List.suffix_append _ _)⟩

/-- A plan ends with an exit, or by itself. The exit is a task that the plan has called and that
yielded what the plan then yields, in the very state in which the plan ends. -/
theorem Exits.cases {plan : Plan α} (h : plan.Exits exits ends) {a : α} {s s' : State}
    (hrun : plan.eval run s = .ok a s') :
    ends a ∨ ∃ (task : Task) (s₁ : State) (b : task.Result), (task, s₁) ∈ plan.calls run s ∧
      run task s₁ = .ok b s' ∧ exits task b a := by
  induction plan generalizing s with
  | done a' =>
    obtain ⟨rfl, -⟩ := EStateM.Result.ok.inj hrun
    exact .inl h
  | step event action next ih =>
    obtain ⟨b, s₁, haction, hnext⟩ := Eval.bind_eq_ok.mp hrun
    rw [calls, haction]
    exact ih b (h b) hnext
  | sub task next ih =>
    obtain ⟨b, s₁, hsub, hnext⟩ := Eval.bind_eq_ok.mp hrun
    rw [calls, hsub]
    -- After this call the plan is either done with an exit or may go on, where the rest has its own
    -- calls behind this one.
    rcases h b with ⟨a', hdone, ha⟩ | ⟨-, hgoes⟩
    · rw [hdone] at hnext
      obtain ⟨rfl, rfl⟩ := EStateM.Result.ok.inj hnext
      exact .inr ⟨task, s, b, .head _, hsub, ha⟩
    · rcases ih b hgoes hnext with hends | ⟨other, s₂, c, hcall, hother, hexit⟩
      · exact .inl hends
      · exact .inr ⟨other, s₂, c, .tail _ hcall, hother, hexit⟩

end Plan

namespace Task

/-- The tasks that this one calls when it is run, with the states in which they begin. -/
def callsFrom (fuel : Nat) (task : Task) (s : State) : List (Task × State) :=
  task.body.calls (fun other => other.run fuel) s

/-- The value with which the task leaves the function around it, if it does. -/
def returned? : (task : Task) → task.Result → Option Value
  | .execute _ _, .returned value => some value
  | .executeAll _ _, .returned value => some value
  | .whileLoop _ _ _, .returned value => some value
  | .forLoop _ _ _ _, .returned value => some value
  | _, _ => none

/-! ## Statements around a return

It is read off the plans of the four kinds of tasks that run statements, one lemma for each. -/

/-- Whether the task runs statements, but for a `return` itself. -/
def IsCompound : Task → Prop
  | .execute _ (.returnValue _ _) => False
  | .execute _ _ | .executeAll _ _ | .whileLoop _ _ _ | .forLoop _ _ _ _ => True
  | _ => False

/-- Only tasks that run statements have statements inside them. -/
theorem Encloses.isCompound {task sub : Task} (h : task.Encloses sub) : task.IsCompound := by
  cases h <;> trivial

/-- Where a value is returned, there is a `return`, or statements that may hold one. -/
theorem isCompound_of_returned {task : Task} {b : task.Result} {value : Value}
    (h : task.returned? b = some value) : task.IsCompound ∨
      ∃ scope keyword expr, task = .execute scope (.returnValue keyword expr) := by
  cases task with
  | execute scope stmt =>
    cases stmt with
    | returnValue keyword expr => exact .inr ⟨scope, keyword, expr, rfl⟩
    | _ => exact .inl trivial
  | executeAll => exact .inl trivial
  | whileLoop => exact .inl trivial
  | forLoop => exact .inl trivial
  | _ => cases h

/-- The second task runs inside the first one, and returns; the first one returns the same value. -/
def PassesOn (task sub : Task) (b : sub.Result) (a : task.Result) : Prop :=
  task.Encloses sub ∧ ∃ value, sub.returned? b = some value ∧ task.returned? a = some value

/-- The plan passes on the returns inside it, and does not return otherwise. -/
abbrev Relays (task : Task) (plan : Plan task.Result) : Prop :=
  plan.Exits task.PassesOn fun a => task.returned? a = none

section

open Plan

variable {task sub : Task} {next : sub.Result → Plan task.Result}

/-- A statement inside another one, when the plan says what it does after either completion. -/
theorem relays_inside (hencl : task.Encloses sub)
    (h : ∀ b, (∃ value a, sub.returned? b = some value ∧ next b = .done a ∧
        task.returned? a = some value) ∨
      sub.returned? b = none ∧ Relays task (next b)) : Relays task (.sub sub next) := by
  intro b
  rcases h b with ⟨value, a, hb, hdone, ha⟩ | ⟨hnone, hnext⟩
  · exact .inl ⟨a, hdone, hencl, value, hb, ha⟩
  · refine .inr ⟨fun a hpasses => ?_, hnext⟩
    obtain ⟨-, value, hb, -⟩ := hpasses
    rw [hnone] at hb
    cases hb

/-- A statement inside another one that is the last thing the other does. -/
theorem relays_last (hencl : task.Encloses sub)
    (h : ∀ b, ∃ a, next b = .done a ∧ task.returned? a = sub.returned? b) :
    Relays task (.sub sub next) := by
  refine relays_inside hencl fun b => ?_
  obtain ⟨a, hdone, ha⟩ := h b
  cases hb : sub.returned? b with
  | none =>
    refine .inr ⟨rfl, ?_⟩
    rw [hdone]
    exact ha.trans hb
  | some value => exact .inl ⟨value, a, rfl, hdone, ha.trans hb⟩

/-- Tasks that are no statements inside this one do not make it return. -/
theorem relays_beside (hbeside : ¬ task.Encloses sub) (h : ∀ b, Relays task (next b)) :
    Relays task (.sub sub next) :=
  fun b => .inr ⟨fun _ hpasses => hbeside hpasses.1, h b⟩

/-- Statements: the body of a block, a branch or a loop is the last thing that they do. -/
theorem relays_execute (scope : ScopeId) (stmt : Stmt)
    (hcompound : (Task.execute scope stmt).IsCompound) :
    Relays (.execute scope stmt) (executeBody scope stmt) := by
  cases stmt with
  -- No statement stands inside these.
  | expression expr => exact relays_beside nofun fun value => rfl
  | print expr => exact relays_beside nofun fun value text _ => rfl
  | varDecl name init => exact relays_beside nofun fun value _ => rfl
  | block body =>
    intro inner
    refine relays_last (.block scope inner body) fun completion => ⟨completion, rfl, ?_⟩
    cases completion <;> rfl
  | ifElse condition thenBranch elseBranch =>
    refine relays_beside nofun fun value => ?_
    show Relays _ (if Value.isTruthy value then _ else _)
    split
    · intro inner
      refine relays_last (.thenBranch scope inner condition thenBranch elseBranch)
        fun completion => ⟨completion, rfl, ?_⟩
      cases completion <;> rfl
    · cases elseBranch with
      | none => rfl
      | some elseBranch =>
        intro inner
        refine relays_last (.elseBranch scope inner condition thenBranch elseBranch)
          fun completion => ⟨completion, rfl, ?_⟩
        cases completion <;> rfl
  | whileLoop condition body =>
    refine relays_last (.whileStmt scope condition body) fun completion => ⟨completion, rfl, ?_⟩
    cases completion <;> rfl
  | forLoop init condition post body =>
    intro clauses
    -- What starts the loop is run beside it, as the condition of an `if` is.
    have hloop : Relays (.execute scope (.forLoop init condition post body))
        (perform (.forLoop clauses condition post body)) := by
      refine relays_last (.forStmt scope clauses init condition post body)
        fun completion => ⟨completion, rfl, ?_⟩
      cases completion <;> rfl
    cases init with
    | none => exact hloop
    | some init => exact relays_beside nofun fun _ => hloop
  | function decl => exact fun id _ => rfl
  | returnValue keyword value => cases hcompound
  | classDecl name superclass methods =>
    cases superclass with
    | none => exact fun functions id _ => rfl
    | some parent =>
      intro value
      cases value with
      | classRef id => exact fun functions id _ => rfl
      | _ => exact fun parent functions id _ => rfl

/-- Lists of statements: a return is passed on at once, and any other completion is forgotten, but
for the last one. -/
theorem relays_executeAll (scope : ScopeId) (statements : List Stmt) :
    Relays (.executeAll scope statements) (executeAllBody scope statements) := by
  match statements with
  | [] => rfl
  | [last] =>
    refine relays_last (.first scope last []) fun completion => ⟨completion, rfl, ?_⟩
    cases completion <;> rfl
  | stmt :: next :: rest =>
    refine relays_inside (.first scope stmt (next :: rest)) fun completion => ?_
    cases completion with
    | returned value => exact .inl ⟨value, _, rfl, rfl, rfl⟩
    | normal value =>
      refine .inr ⟨rfl, ?_⟩
      refine relays_last (.rest scope stmt next rest) fun completion => ⟨completion, rfl, ?_⟩
      cases completion <;> rfl

/-- Loops: a return of the body is passed on, and then there is no further round. -/
theorem relays_whileLoop (scope : ScopeId) (condition : Expr) (body : Stmt) :
    Relays (.whileLoop scope condition body) (whileLoopBody scope condition body) := by
  refine relays_beside nofun fun value => ?_
  show Relays _ (if Value.isTruthy value then _ else _)
  split
  · intro inner
    refine relays_inside (.whileBody scope inner condition body) fun completion => ?_
    cases completion with
    | returned value => exact .inl ⟨value, _, rfl, rfl, rfl⟩
    | normal value =>
      refine .inr ⟨rfl, ?_⟩
      refine relays_last (.whileAgain scope condition body) fun completion => ⟨completion, rfl, ?_⟩
      cases completion <;> rfl
  · rfl

/-- The condition of a `for` is run beside the loop. -/
theorem relays_goesOn {scope : ScopeId} {condition : Option Expr}
    (hbeside : ∀ expr, ¬ task.Encloses (.evaluate scope expr)) {next : Bool → Plan task.Result}
    (h : ∀ goOn, Relays task (next goOn)) : Relays task (goesOn scope condition >>= next) := by
  cases condition with
  | none => exact h true
  | some condition => exact relays_beside (hbeside condition) fun value => h value.isTruthy

/-- Here the post-expression comes between two rounds. It is no statement. -/
theorem relays_forLoop (clauses : ScopeId) (condition post : Option Expr) (body : Stmt) :
    Relays (.forLoop clauses condition post body) (forLoopBody clauses condition post body) := by
  have hbeside : ∀ expr, ¬ (Task.forLoop clauses condition post body).Encloses
      (.evaluate clauses expr) := fun _ => nofun
  refine relays_goesOn hbeside fun goOn => ?_
  split
  · intro inner
    refine relays_inside (.forBody clauses inner condition post body) fun completion => ?_
    cases completion with
    | returned value => exact .inl ⟨value, _, rfl, rfl, rfl⟩
    | normal value =>
      refine .inr ⟨rfl, relays_beside nofun fun _ => ?_⟩
      refine relays_last (.forAgain clauses condition post body)
        fun completion => ⟨completion, rfl, ?_⟩
      cases completion <;> rfl
  · rfl

/-- So all tasks that run statements relay the returns inside them. -/
theorem relays (hcompound : task.IsCompound) : Relays task task.body := by
  cases task with
  | execute scope stmt => exact relays_execute scope stmt hcompound
  | executeAll scope statements => exact relays_executeAll scope statements
  | whileLoop scope condition body => exact relays_whileLoop scope condition body
  | forLoop clauses condition post body => exact relays_forLoop clauses condition post body
  | _ => cases hcompound

end

/-- A task that runs statements can return every value. -/
theorem IsCompound.exists_returned {task : Task} (h : task.IsCompound) (value : Value) :
    ∃ a, task.returned? a = some value := by
  cases task with
  | execute | executeAll | whileLoop | forLoop => exact ⟨.returned value, rfl⟩
  | _ => cases h

/-- A statement is left at once when one inside it has returned. -/
theorem Encloses.leaves {task sub : Task} (h : task.Encloses sub) {fuel : Nat} {s s₁ s' : State}
    {b : sub.Result} {value : Value} (hcall : (sub, s₁) ∈ task.callsFrom fuel s)
    (hrun : sub.run fuel s₁ = .ok b s') (hreturned : sub.returned? b = some value) :
    (∃ a, task.run (fuel + 1) s = .ok a s' ∧ task.returned? a = some value) ∧
      sub.trace fuel s₁ <:+ task.trace (fuel + 1) s := by
  obtain ⟨a, ha⟩ := h.isCompound.exists_returned value
  have hexit : ∃ a, task.PassesOn sub b a := ⟨a, h, value, hreturned, ha⟩
  -- The plan may end with another result than this one, but with one that returns the same value.
  obtain ⟨⟨a', hpasses, heval⟩, htrace⟩ := (relays h.isCompound).leaves hcall hrun hexit
    fun other => other.trace fuel
  obtain ⟨-, other, hb, ha'⟩ := hpasses
  rw [hreturned] at hb
  obtain rfl := Option.some.inj hb
  rw [run_succ, trace]
  exact ⟨⟨a', heval, ha'⟩, htrace.trans (List.suffix_cons _ _)⟩

end Task

/-! ## The way to a return

The way is a chain of calls, each of a statement inside the one before it. Outward along the chain
every task is left; inward from a task that has returned there is such a chain. -/

/-- In the run of the first task, control comes to the second one along statements that run the
statements inside them. -/
inductive Arrives : Nat → Task → State → Nat → Task → State → Prop
  | here (fuel : Nat) (task : Task) (s : State) : Arrives fuel task s fuel task s
  | inside {fuel fuel' : Nat} {task sub other : Task} {s s₁ s' : State}
    (hencl : task.Encloses sub) (hcall : (sub, s₁) ∈ task.callsFrom fuel s)
    (harrives : Arrives fuel sub s₁ fuel' other s') : Arrives (fuel + 1) task s fuel' other s'

/-- In the run of the task, control comes to a `return` of the same function body, and the value of
the `return` has been computed in the state `s'`; `moments` is what has happened for that. -/
def Returns (fuel : Nat) (task : Task) (s : State) (value : Value) (s' : State)
    (moments : List Moment) : Prop :=
  ∃ fuel' scope keyword expr s₁,
    Arrives fuel task s (fuel' + 1) (.execute scope (.returnValue keyword expr)) s₁ ∧
      (Task.evaluateOption scope expr).run fuel' s₁ = .ok value s' ∧
      moments = (Task.evaluateOption scope expr).trace fuel' s₁

/-- A `return` returns the value of its expression. -/
theorem Task.run_returnValue {fuel : Nat} {scope : ScopeId} {keyword : Token} {expr : Option Expr}
    {s s' : State} {value : Value}
    (h : (Task.evaluateOption scope expr).run fuel s = .ok value s') :
    (Task.execute scope (.returnValue keyword expr)).run (fuel + 1) s =
      .ok (.returned value) s' := by
  have h : Eval.evaluateOption fuel scope expr s = .ok value s' := h
  show Eval.execute (fuel + 1) scope (.returnValue keyword expr) s = _
  rw [Eval.execute, Eval.bind_of_ok h]
  rfl

/-- Computing its value is the last thing that a `return` does. -/
theorem Task.trace_returnValue {fuel : Nat} {scope : ScopeId} {keyword : Token}
    {expr : Option Expr} {s s' : State} {value : Value}
    (h : (Task.evaluateOption scope expr).run fuel s = .ok value s') :
    (Task.execute scope (.returnValue keyword expr)).trace (fuel + 1) s =
      .visit (fuel + 1) (.execute scope (.returnValue keyword expr)) s ::
        (Task.evaluateOption scope expr).trace fuel s := by
  have hbody : (Task.execute scope (.returnValue keyword expr)).body =
      .sub (.evaluateOption scope expr) fun result => .done (.returned result) := rfl
  rw [Task.trace, hbody, Plan.trace, h]
  dsimp only
  rw [Plan.trace, List.append_nil]

/-- The run of the task ends where the value of the `return` has been computed. -/
theorem Returns.leaves {fuel : Nat} {task : Task} {s s' : State} {value : Value}
    {moments : List Moment} (h : Returns fuel task s value s' moments) :
    (∃ a, task.run fuel s = .ok a s' ∧ task.returned? a = some value) ∧
      moments <:+ task.trace fuel s := by
  obtain ⟨fuel', scope, keyword, expr, s₁, harrives, hvalue, rfl⟩ := h
  generalize hlast : fuel' + 1 = last at harrives
  generalize htask : Task.execute scope (.returnValue keyword expr) = other at harrives
  -- Along the way from the `return` outward.
  induction harrives with
  | here fuel task s =>
    subst hlast htask
    refine ⟨⟨.returned value, Task.run_returnValue hvalue, rfl⟩, ?_⟩
    rw [Task.trace_returnValue hvalue]
    exact List.suffix_cons _ _
  | inside hencl hcall harrives ih =>
    obtain ⟨⟨b, hrun, hreturned⟩, htrace⟩ := ih hvalue hlast htask
    obtain ⟨hleaves, htrace'⟩ := hencl.leaves hcall hrun hreturned
    exact ⟨hleaves, htrace.trans htrace'⟩

/-- No statement returns but because of a `return` inside it. -/
theorem returns_of_returned {fuel : Nat} {task : Task} {s s' : State} {a : task.Result}
    {value : Value} (hrun : task.run fuel s = .ok a s') (ha : task.returned? a = some value) :
    ∃ moments, Returns fuel task s value s' moments := by
  -- Inward: the task is a `return` itself, or one of the tasks that it calls has returned.
  induction fuel generalizing task s with
  | zero =>
    rw [Task.run_zero] at hrun
    cases hrun
  | succ fuel ih =>
    rcases Task.isCompound_of_returned ha with hcompound | ⟨scope, keyword, expr, rfl⟩
    · rw [Task.run_succ] at hrun
      rcases (Task.relays hcompound).cases hrun with
        hnone | ⟨sub, s₁, b, hcall, hsub, hencl, other, hb, ha'⟩
      · rw [ha] at hnone
        cases hnone
      · rw [ha] at ha'
        obtain rfl := Option.some.inj ha'
        obtain ⟨moments, fuel', scope, keyword, expr, s₂, harrives, hreturn⟩ := ih hsub hb
        exact ⟨moments, fuel', scope, keyword, expr, s₂, .inside hencl hcall harrives, hreturn⟩
    · have hexecute : Eval.execute (fuel + 1) scope (.returnValue keyword expr) s = .ok a s' := hrun
      rw [Eval.execute] at hexecute
      obtain ⟨result, s₁, hvalue, hpure⟩ := Eval.bind_eq_ok.mp hexecute
      obtain ⟨rfl, rfl⟩ := EStateM.Result.ok.inj hpure
      obtain rfl := Option.some.inj ha
      exact ⟨_, fuel, scope, keyword, expr, s, .here _ _ _, hvalue, rfl⟩

/-! ## Calls of functions

A function is the next thing around its statements, and makes a value of their completion. The
callers pass this value on, or drop it if the function is a constructor. -/

namespace Task

open Plan

/-- The first task calls the second one in a run that begins in `s`. When the second one has ended
with `b`, nothing happens any more, and the first one ends with `a`. -/
def EndsWith (fuel : Nat) (s : State) (task sub : Task) (b : sub.Result) (a : task.Result) :
    Prop :=
  ∀ s₁ s', (sub, s₁) ∈ task.callsFrom fuel s → sub.run fuel s₁ = .ok b s' →
    task.run (fuel + 1) s = .ok a s' ∧ sub.trace fuel s₁ <:+ task.trace (fuel + 1) s

/-- A task ends with the answer that it makes of the result of another one. -/
theorem endsWith (task : Task) {sub : Task}
    {answer : (other : Task) → other.Result → Option task.Result} {ends : task.Result → Prop}
    (h : task.body.Exits (fun other b a => answer other b = some a) ends) {fuel : Nat} {s : State}
    {b : sub.Result} {a : task.Result} (hanswer : answer sub b = some a) :
    task.EndsWith fuel s sub b a := by
  intro s₁ s' hcall hrun
  obtain ⟨⟨a', ha', heval⟩, htrace⟩ :=
    h.leaves hcall hrun ⟨a, hanswer⟩ fun other => other.trace fuel
  have heq : answer sub b = some a' := ha'
  rw [hanswer] at heq
  obtain rfl := Option.some.inj heq
  rw [run_succ, trace]
  exact ⟨heval, htrace.trans (List.suffix_cons _ _)⟩

/-- What a function yields when its body, if the task is one, has come to this end. -/
def yielded? : (task : Task) → task.Result → Option Value
  | .executeAll _ _, .returned value => some value
  | .executeAll _ _, .normal _ => some .nil
  | _, _ => none

/-- The value that a function yields, if the task runs one. -/
def invoked? : (task : Task) → task.Result → Option Value
  | .invoke _ _ _, value => some value
  | _, _ => none

/-- The value that a call yields, if the task is one. -/
def called? : (task : Task) → task.Result → Option Value
  | .call _ _, value => some value
  | _, _ => none

/-- The instance on which a constructor has run, if the task runs one. -/
def constructed? : (task : Task) → task.Result → Option InstanceId
  | .construct id _ _, _ => some id
  | _, _ => none

/-- Nothing is called while a function is entered. -/
theorem enter_exits {α : Type} {exits : (task : Task) → task.Result → α → Prop} {ends : α → Prop}
    {id : FunctionId} {function : UserFunction} {binding : Option (InstanceId × ClassId)}
    {arguments : List Value} {next : ScopeId → Plan α}
    (h : ∀ scope, (next scope).Exits exits ends) :
    (enter id function binding arguments >>= next).Exits exits ends := by
  intro bindings
  dsimp only [Plan.bind]
  cases Table.empty.addDistinct bindings with
  | error name => exact h
  | ok table => exact fun parameters => h

/-- A function yields what its body returns, and `nil` if it does not return. -/
theorem invoke_exits (id : FunctionId) (binding : Option (InstanceId × ClassId))
    (arguments : List Value) :
    (Task.invoke id binding arguments).body.Exits
      (fun other b value => other.yielded? b = some value) fun _ => False := by
  intro function
  refine enter_exits fun scope completion => ?_
  cases completion with
  | returned value => exact .inl ⟨value, rfl, rfl⟩
  | normal value => exact .inl ⟨.nil, rfl, rfl⟩

/-- The call of a function yields what the function yields. -/
theorem call_exits (ref : FunctionRef) (arguments : List Value) :
    (Task.call (.function ref) arguments).body.Exits
      (fun other b value => other.invoked? b = some value) fun _ => True := by
  intro arity _
  cases ref with
  | native function => exact fun value => trivial
  | user id => exact fun value => .inl ⟨value, rfl, rfl⟩
  | bound id => exact fun bound value => .inl ⟨value, rfl, rfl⟩

/-- A call that stands in an expression has the value that the call yields. -/
theorem evaluateCall_exits (scope : ScopeId) (callee : Expr) (paren : Token)
    (arguments : List Expr) :
    (Task.evaluate scope (.call callee paren arguments)).body.Exits
      (fun other b value => other.called? b = some value) fun _ => True :=
  fun _ => .inr ⟨fun _ hnone => (nomatch hnone), fun _ =>
    .inr ⟨fun _ hnone => (nomatch hnone), fun value => .inl ⟨value, rfl, rfl⟩⟩⟩

/-- What a constructor returns is dropped: the task that constructs an instance is done after it,
whatever the value is. -/
theorem construct_exits (id : InstanceId) (start : Option ClassId) (arguments : List Value) :
    (Task.construct id start arguments).body.Exits
      (fun other b result => (other.invoked? b).map (fun _ => ()) = some result) fun _ => True := by
  intro found
  cases found with
  | none => exact fun _ => trivial
  | some resolution => exact fun arity _ value => .inl ⟨(), rfl, rfl⟩

/-- The call of a class yields the new instance. -/
theorem instantiate_exits (id : ClassId) (arguments : List Value) :
    (Task.call (.classRef id) arguments).body.Exits
      (fun other b value => (other.constructed? b).map .instanceRef = some value) fun _ => True :=
  fun created _ => .inl ⟨.instanceRef created, rfl, rfl⟩

/-- The call of the constructor of a superclass yields `nil`. -/
theorem superCall_exits (scope : ScopeId) (keyword : Token) (arguments : List Expr) :
    (Task.evaluate scope (.superCall keyword arguments)).body.Exits
      (fun other b value => (other.constructed? b).map (fun _ => .nil) = some value)
      fun _ => True :=
  fun _ _ _ => .inr ⟨fun _ hnone => (nomatch hnone), fun _ => .inl ⟨.nil, rfl, rfl⟩⟩

end Task

/-- In the run of the function, control comes to a `return` of its body. -/
def CallReturns (fuel : Nat) (id : FunctionId) (binding : Option (InstanceId × ClassId))
    (arguments : List Value) (s : State) (value : Value) (s' : State) (moments : List Moment) :
    Prop :=
  ∃ scope statements s₁,
    (.executeAll scope statements, s₁) ∈ (Task.invoke id binding arguments).callsFrom fuel s ∧
      Returns fuel (.executeAll scope statements) s₁ value s' moments

section

variable {fuel : Nat} {id : FunctionId} {binding : Option (InstanceId × ClassId)}
  {arguments : List Value} {s s' : State} {value : Value} {moments : List Moment}

/-- The body of a function is the last thing in its run. -/
theorem invoke_of_body {scope : ScopeId} {statements : List Stmt} {s₁ : State}
    {completion : Completion}
    (hcall : (.executeAll scope statements, s₁) ∈
      (Task.invoke id binding arguments).callsFrom fuel s)
    (hrun : (Task.executeAll scope statements).run fuel s₁ = .ok completion s')
    (hvalue : (Task.executeAll scope statements).yielded? completion = some value) :
    (Task.invoke id binding arguments).run (fuel + 1) s = .ok value s' ∧
      (Task.executeAll scope statements).trace fuel s₁ <:+
        (Task.invoke id binding arguments).trace (fuel + 1) s :=
  (Task.invoke id binding arguments).endsWith (Task.invoke_exits id binding arguments) hvalue s₁ s'
    hcall hrun

/-- A `return` in its body ends the function, with the value. -/
theorem CallReturns.leaves (h : CallReturns fuel id binding arguments s value s' moments) :
    (Task.invoke id binding arguments).run (fuel + 1) s = .ok value s' ∧
      moments <:+ (Task.invoke id binding arguments).trace (fuel + 1) s := by
  obtain ⟨scope, statements, s₁, hcall, hreturns⟩ := h
  obtain ⟨⟨completion, hrun, hreturned⟩, htrace⟩ := hreturns.leaves
  have hvalue : (Task.executeAll scope statements).yielded? completion = some value := by
    cases completion with
    | returned other => exact hreturned
    | normal other => cases hreturned
  obtain ⟨hinvoke, htrace'⟩ := invoke_of_body hcall hrun hvalue
  exact ⟨hinvoke, htrace.trans htrace'⟩

/-- A body that comes to its end without a `return` makes the function yield `nil`. -/
theorem nil_of_body {scope : ScopeId} {statements : List Stmt} {s₁ : State}
    {completion : Completion}
    (hcall : (.executeAll scope statements, s₁) ∈
      (Task.invoke id binding arguments).callsFrom fuel s)
    (hnone : ∀ other s₂ others,
      ¬ Returns fuel (.executeAll scope statements) s₁ other s₂ others)
    (hrun : (Task.executeAll scope statements).run fuel s₁ = .ok completion s') :
    (Task.invoke id binding arguments).run (fuel + 1) s = .ok .nil s' := by
  cases completion with
  | normal value => exact (invoke_of_body hcall hrun rfl).1
  | returned value =>
    obtain ⟨moments, hreturns⟩ := returns_of_returned hrun rfl
    exact absurd hreturns (hnone value s' moments)

/-- A function yields a value because of a `return` in its body, or it yields `nil`. -/
theorem callReturns_or_nil
    (h : (Task.invoke id binding arguments).run (fuel + 1) s = .ok value s') :
    (∃ moments, CallReturns fuel id binding arguments s value s' moments) ∨ value = .nil := by
  rw [Task.run_succ] at h
  rcases Plan.Exits.cases (Task.invoke_exits id binding arguments) h with
    hnone | ⟨sub, s₁, b, hcall, hrun, hyielded⟩
  · exact hnone.elim
  cases sub with
  | executeAll scope statements =>
    have hyielded : (Task.executeAll scope statements).yielded? b = some value := hyielded
    cases b with
    | normal other =>
      obtain rfl := Option.some.inj hyielded
      exact .inr rfl
    | returned other =>
      obtain rfl := Option.some.inj hyielded
      obtain ⟨moments, hreturns⟩ := returns_of_returned hrun rfl
      exact .inl ⟨moments, scope, statements, s₁, hcall, hreturns⟩
  | _ => cases hyielded

end

/-! ## Returns outside functions

Whether a program can return at top level is seen from its text: `Stmt.returns` does not look into
the functions. -/

mutual

/-- Whether a `return` stands in the statement, outside the functions in it. -/
def Stmt.returns : Stmt → Bool
  | .returnValue _ _ => true
  | .block body => Stmt.anyReturns body
  | .ifElse _ thenBranch none => thenBranch.returns
  | .ifElse _ thenBranch (some elseBranch) => thenBranch.returns || elseBranch.returns
  | .whileLoop _ body => body.returns
  | .forLoop none _ _ body => body.returns
  | .forLoop (some init) _ _ body => init.returns || body.returns
  | .expression _ | .print _ | .varDecl _ _ | .function _ | .classDecl _ _ _ => false

/-- `Stmt.returns` for one of these statements. -/
def Stmt.anyReturns : List Stmt → Bool
  | [] => false
  | stmt :: rest => stmt.returns || Stmt.anyReturns rest

end

/-- Whether a `return` stands in the statements that the task runs, outside the functions in
them. -/
def Task.returns : Task → Bool
  | .execute _ stmt => stmt.returns
  | .executeAll _ statements => Stmt.anyReturns statements
  | .whileLoop _ _ body | .forLoop _ _ _ body => body.returns
  | _ => false

/-- What stands in an inner statement stands in the outer one, so that a statement with a `return`
in one of its parts has one itself. -/
theorem Task.Encloses.returns {task sub : Task} (h : task.Encloses sub)
    (hreturns : sub.returns = true) : task.returns = true := by
  cases h with
  | thenBranch scope inner condition thenBranch elseBranch =>
    have hthen : thenBranch.returns = true := hreturns
    cases elseBranch <;> simp [Task.returns, Stmt.returns, hthen]
  | elseBranch scope inner condition thenBranch elseBranch =>
    have helse : elseBranch.returns = true := hreturns
    simp [Task.returns, Stmt.returns, helse]
  | forStmt scope clauses init condition post body =>
    have hbody : body.returns = true := hreturns
    cases init <;> simp [Task.returns, Stmt.returns, hbody]
  | first scope stmt rest =>
    have hstmt : stmt.returns = true := hreturns
    simp [Task.returns, Stmt.anyReturns, hstmt]
  | rest scope stmt next rest =>
    have hrest : Stmt.anyReturns (next :: rest) = true := hreturns
    show (stmt.returns || Stmt.anyReturns (next :: rest)) = true
    rw [hrest, Bool.or_true]
  | _ => exact hreturns

/-- So it stands in every statement on the way there. -/
theorem Arrives.returns {fuel fuel' : Nat} {task other : Task} {s s' : State}
    (h : Arrives fuel task s fuel' other s') (hreturns : other.returns = true) :
    task.returns = true := by
  induction h with
  | here fuel task s => exact hreturns
  | inside hencl _ _ ih => exact hencl.returns (ih hreturns)

/-- Control comes to a `return` only in statements in which one stands. -/
theorem Returns.returns {fuel : Nat} {task : Task} {s s' : State} {value : Value}
    {moments : List Moment} (h : Returns fuel task s value s' moments) : task.returns = true := by
  obtain ⟨fuel', scope, keyword, expr, s₁, harrives, -, -⟩ := h
  exact harrives.returns rfl

/-! ## Top level

At top level there is no function to leave, and the completion is turned into an error. -/

/-- No task reports a `return` by itself. The report comes from the top level, where a statement is
run in no function. -/
theorem uniform_illegalReturn : Uniform (fun _ => True) (fun _ _ => True)
    (· ≠ .error .illegalReturn) fun _ => True where
  exhausted := nofun
  keeps := fun _ _ _ => ⟨trivial, trivial⟩
  fails := fun _ hfails => by
    cases hfails with
    | error herror =>
      intro hillegal
      rw [Interrupt.error.inj hillegal] at herror
      exact herror
    | malformed => exact nofun
  calls := fun _ _ => trivial

section

variable {fuel : Nat} {scope : ScopeId} {stmt : Stmt} {s s' : State}

/-- A `return` at top level is reported, after what has happened for its value. -/
theorem Returns.illegal {value : Value} {moments : List Moment}
    (h : Returns fuel (.execute scope stmt) s value s' moments) :
    Eval.runStatement fuel scope stmt s = .error (.error .illegalReturn) s' ∧
      moments <:+ (Task.execute scope stmt).trace fuel s := by
  obtain ⟨⟨completion, hrun, hreturned⟩, htrace⟩ := h.leaves
  refine ⟨?_, htrace⟩
  have hexecute : Eval.execute fuel scope stmt s = .ok completion s' := hrun
  rw [Eval.runStatement, Eval.bind_of_ok hexecute]
  cases completion with
  | normal value => cases hreturned
  | returned value => rfl

/-- Only a `return` is reported so: where a statement at the top level fails in this way, its
execution has arrived at one. -/
theorem returns_of_illegal
    (h : Eval.runStatement fuel scope stmt s = .error (.error .illegalReturn) s') :
    ∃ value moments, Returns fuel (.execute scope stmt) s value s' moments := by
  -- The statement itself does not report it.
  have hfails : FailsFor (· ≠ .error .illegalReturn) (Eval.execute fuel scope stmt s) :=
    (@Uniform.safe _ _ _ _ uniform_illegalReturn fuel (.execute scope stmt) trivial s trivial).1
  cases hexecute : Eval.execute fuel scope stmt s with
  | error interrupt s₁ =>
    rw [hexecute, failsFor_error] at hfails
    rw [Eval.runStatement, Eval.bind_of_error hexecute] at h
    exact absurd (EStateM.Result.error.inj h).1 hfails
  | ok completion s₁ =>
    rw [Eval.runStatement, Eval.bind_of_ok hexecute] at h
    cases completion with
    | normal value => cases h
    | returned value =>
      obtain ⟨-, rfl⟩ := EStateM.Result.error.inj h
      have hrun : (Task.execute scope stmt).run fuel s = .ok (.returned value) s₁ := hexecute
      obtain ⟨moments, hreturns⟩ := returns_of_returned hrun rfl
      exact ⟨value, moments, hreturns⟩

/-- So a statement without one is never reported. -/
theorem runStatement_legal (hstmt : stmt.returns = false) :
    Eval.runStatement fuel scope stmt s ≠ .error (.error .illegalReturn) s' := by
  intro hillegal
  obtain ⟨value, moments, hreturns⟩ := returns_of_illegal hillegal
  have htrue : stmt.returns = true := hreturns.returns
  rw [hstmt] at htrue
  cases htrue

/-- If a `return` stands only in functions, no run of the statement reports one. -/
theorem safe_of_legal (hstmt : stmt.returns = false) :
    Safe (fun _ => True) (· ≠ .error .illegalReturn) (Eval.runStatement fuel scope stmt) := by
  refine fun s _ => ⟨fun interrupt s' herror hillegal => ?_, trivial⟩
  rw [hillegal] at herror
  exact runStatement_legal hstmt herror

end

/-! ## All ways out of a function -/

/-- What a `return` does to a run that begins in the state `s`. -/
structure ReturnExits (fuel : Nat) (s : State) : Prop where
  /-- Nothing is visited after the value of the `return` has been computed, and the function yields
  the value in the state in which it was computed. -/
  leaves : ∀ {id binding arguments value s' moments},
    CallReturns fuel id binding arguments s value s' moments →
      (Task.invoke id binding arguments).run (fuel + 1) s = .ok value s' ∧
        moments <:+ (Task.invoke id binding arguments).trace (fuel + 1) s
  /-- A function yields `nil` when its body comes to its end without a `return`. -/
  finishes : ∀ {id binding arguments scope statements s₁ completion s'},
    (.executeAll scope statements, s₁) ∈ (Task.invoke id binding arguments).callsFrom fuel s →
    (∀ value s₂ moments, ¬ Returns fuel (.executeAll scope statements) s₁ value s₂ moments) →
    (Task.executeAll scope statements).run fuel s₁ = .ok completion s' →
      (Task.invoke id binding arguments).run (fuel + 1) s = .ok .nil s'
  /-- No function yields anything else. -/
  onlySo : ∀ {id binding arguments value s'},
    (Task.invoke id binding arguments).run (fuel + 1) s = .ok value s' →
      (∃ moments, CallReturns fuel id binding arguments s value s' moments) ∨ value = .nil
  /-- The value is that of the call. -/
  called : ∀ {ref arguments id binding passed value},
    Task.EndsWith fuel s (.call (.function ref) arguments) (.invoke id binding passed) value value
  evaluated : ∀ {scope callee paren exprs function arguments value},
    Task.EndsWith fuel s (.evaluate scope (.call callee paren exprs)) (.call function arguments)
      value value
  /-- What a constructor returns is dropped. -/
  constructed : ∀ {created start arguments id binding passed value},
    Task.EndsWith fuel s (.construct created start arguments) (.invoke id binding passed) value ()
  instantiated : ∀ {ofClass arguments created start passed},
    Task.EndsWith fuel s (.call (.classRef ofClass) arguments) (.construct created start passed) ()
      (.instanceRef created)
  superCalled : ∀ {scope keyword exprs receiver start arguments},
    Task.EndsWith fuel s (.evaluate scope (.superCall keyword exprs))
      (.construct receiver start arguments) () .nil
  /-- At top level the `return` is an error, and what has been done before it stays done. -/
  illegal : ∀ {scope stmt value s' moments},
    Returns fuel (.execute scope stmt) s value s' moments →
      Eval.runStatement fuel scope stmt s = .error (.error .illegalReturn) s' ∧
        moments <:+ (Task.execute scope stmt).trace fuel s
  onlyIllegal : ∀ {scope stmt s'},
    Eval.runStatement fuel scope stmt s = .error (.error .illegalReturn) s' →
      ∃ value moments, Returns fuel (.execute scope stmt) s value s' moments
  /-- A program in which every `return` stands in a function never reports one, whether it stops at
  the first error or goes on after all of them. -/
  legal : ∀ {scope program}, (∀ stmt ∈ program, stmt.returns = false) →
    FailsFor (· ≠ .error .illegalReturn) (Eval.run fuel scope program s) ∧
    FailsFor (· ≠ .error .illegalReturn) (Eval.runEach fuel scope program s) ∧
      ∀ failures s', Eval.runEach fuel scope program s = .ok failures s' →
        ∀ failure ∈ failures, failure.error ≠ .illegalReturn

/-- A `return` leaves the function that it stands in, and nothing else: the statements around it end
with it, the function ends with them, and whoever has called the function goes on with the value. -/
theorem return_exits (fuel : Nat) (s : State) : ReturnExits fuel s where
  leaves := CallReturns.leaves
  finishes := nil_of_body
  onlySo := callReturns_or_nil
  called := Task.endsWith (.call (.function _) _) (Task.call_exits _ _) rfl
  evaluated := Task.endsWith (.evaluate _ (.call _ _ _)) (Task.evaluateCall_exits _ _ _ _) rfl
  constructed := Task.endsWith (.construct _ _ _) (Task.construct_exits _ _ _) rfl
  instantiated := Task.endsWith (.call (.classRef _) _) (Task.instantiate_exits _ _) rfl
  superCalled := Task.endsWith (.evaluate _ (.superCall _ _)) (Task.superCall_exits _ _ _) rfl
  illegal := Returns.illegal
  onlyIllegal := returns_of_illegal
  legal := by
    intro scope program hprogram
    have hsafe : ∀ stmt ∈ program, Safe (fun _ => True) (· ≠ .error .illegalReturn)
        (Eval.runStatement fuel scope stmt) := fun stmt hmem => safe_of_legal (hprogram stmt hmem)
    refine ⟨(safe_run hsafe s trivial).1, (safe_runEach hsafe s trivial).1, ?_⟩
    intro failures s' hrun failure hmem hillegal
    apply runEach_failures hsafe trivial hrun failure hmem
    rw [hillegal]

end Script
