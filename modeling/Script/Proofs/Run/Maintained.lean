import Script.Proofs.Run.Actions

/-!
# Maintained properties

Some properties ask nothing about how a state came about and nothing about the store that a value
belongs to: an invariant of states together with a property of values. What a plan *maintains* can
then be computed from the plan alone, with an obligation for each action and for each call
(`Plan.Maintains`). If the plan of every task maintains the properties, given that the tasks it
calls do, all runs maintain them (`Maintained.session`).
-/

namespace Script

/-! ## What tasks yield

The property is asked of the values in a result, so the result of each kind of task is listed as
values. -/

/-- The value that a statement ends with. -/
abbrev Completion.yields : Completion → List Value
  | .normal value => [value]
  | .returned value => [value]

/-- The values that a task yields, as a list for all kinds of task. Constructing an instance yields
none. -/
def Task.yields : (task : Task) → task.Result → List Value
  | .evaluate _ _, value => [value]
  | .evaluateAll _ _, values => values
  | .evaluateOption _ _, value => [value]
  | .call _ _, value => [value]
  | .construct _ _ _, _ => []
  | .invoke _ _ _, value => [value]
  | .execute _ _, completion => completion.yields
  | .executeAll _ _, completion => completion.yields
  | .whileLoop _ _ _, completion => completion.yields
  | .forLoop _ _ _ _, completion => completion.yields

/-! ## Plans

An action is run in any state that the invariant holds of, and a task may yield anything that the
property holds of. Nothing else is known of either. -/

namespace Plan

variable {α β : Type} {Inv : State → Prop} {T : Task → Prop} {V : Value → Prop}
  {P : α → Prop} {Q : β → Prop}

/-- Every action of the plan keeps the states in `Inv`, every task that the plan calls is among `T`,
and the plan ends with a result of which `Q` holds, provided that the tasks yield values of which
`V` holds. -/
def Maintains (Inv : State → Prop) (T : Task → Prop) (V : Value → Prop) :
    Plan α → (α → Prop) → Prop
  | .done a, Q => Q a
  | .step _ action next, Q => ∀ s, Inv s → Inv (finalState (action s)) ∧
    ∀ b s', action s = .ok b s' → (next b).Maintains Inv T V Q
  | .sub task next, Q =>
    T task ∧ ∀ b, (∀ value ∈ task.yields b, V value) → (next b).Maintains Inv T V Q

/-- A result that is at hand has to have the property. -/
theorem maintains_pure {a : α} (h : P a) : (pure a : Plan α).Maintains Inv T V P := h

/-- Plans follow each other, the second with what is known of the result of the first. -/
theorem Maintains.bind {plan : Plan α} {f : α → Plan β} (h : plan.Maintains Inv T V P)
    (hf : ∀ a, P a → (f a).Maintains Inv T V Q) : (plan >>= f).Maintains Inv T V Q := by
  show (plan.bind f).Maintains Inv T V Q
  induction plan with
  | done a => exact hf a h
  | step event action next ih =>
    intro s hinv
    obtain ⟨hkept, hnext⟩ := h s hinv
    exact ⟨hkept, fun b s' hrun => ih b (hnext b s' hrun)⟩
  | sub task next ih => exact ⟨h.1, fun b hb => ih b (h.2 b hb)⟩

/-- Less may be said of the result than has been shown. -/
theorem Maintains.mono {plan : Plan α} {Q : α → Prop} (h : plan.Maintains Inv T V P)
    (himp : ∀ a, P a → Q a) : plan.Maintains Inv T V Q := by
  induction plan with
  | done a => exact himp a h
  | step event action next ih =>
    intro s hinv
    obtain ⟨hkept, hnext⟩ := h s hinv
    exact ⟨hkept, fun b s' hrun => ih b (hnext b s' hrun)⟩
  | sub task next ih => exact ⟨h.1, fun b hb => ih b (h.2 b hb)⟩

/-- An action has to keep the invariant, and the rest of the plan is for each of its results. -/
theorem maintains_step {event : Event} {action : Eval α} {next : α → Plan β}
    (hkept : ∀ s, Inv s → Inv (finalState (action s)))
    (h : ∀ s a s', Inv s → action s = .ok a s' → (next a).Maintains Inv T V Q) :
    (Plan.step event action next).Maintains Inv T V Q :=
  fun s hinv => ⟨hkept s hinv, fun a s' hrun => h s a s' hinv hrun⟩

/-- A single action whose result is that of the plan. -/
theorem maintains_act {action : Eval α} (hkept : ∀ s, Inv s → Inv (finalState (action s)))
    (h : ∀ s a s', Inv s → action s = .ok a s' → P a) : (act action).Maintains Inv T V P :=
  maintains_step hkept h

/-- A single call whose result is that of the plan. -/
theorem maintains_perform {task : Task} {P : task.Result → Prop} (htask : T task)
    (h : ∀ b, (∀ value ∈ task.yields b, V value) → P b) : (perform task).Maintains Inv T V P :=
  ⟨htask, h⟩

/-! A call once for each kind of task whose result is a value: only then do the types of the
results compute. -/

theorem maintains_evaluate {scope : ScopeId} {expr : Expr} (h : T (.evaluate scope expr)) :
    @Maintains Value Inv T V (perform (.evaluate scope expr)) V :=
  maintains_perform h fun value hvalue => hvalue value (.head _)

theorem maintains_evaluateAll {scope : ScopeId} {exprs : List Expr}
    (h : T (.evaluateAll scope exprs)) :
    @Maintains (List Value) Inv T V (perform (.evaluateAll scope exprs))
      fun values => ∀ value ∈ values, V value :=
  maintains_perform h fun _ hvalues => hvalues

theorem maintains_evaluateOption {scope : ScopeId} {expr : Option Expr}
    (h : T (.evaluateOption scope expr)) :
    @Maintains Value Inv T V (perform (.evaluateOption scope expr)) V :=
  maintains_perform h fun value hvalue => hvalue value (.head _)

theorem maintains_call {callee : Value} {arguments : List Value} (h : T (.call callee arguments)) :
    @Maintains Value Inv T V (perform (.call callee arguments)) V :=
  maintains_perform h fun value hvalue => hvalue value (.head _)

theorem maintains_construct {id : InstanceId} {start : Option ClassId} {arguments : List Value}
    (h : T (.construct id start arguments)) :
    @Maintains Unit Inv T V (perform (.construct id start arguments)) fun _ => True :=
  maintains_perform h fun _ _ => trivial

theorem maintains_invoke {id : FunctionId} {binding : Option (InstanceId × ClassId)}
    {arguments : List Value} (h : T (.invoke id binding arguments)) :
    @Maintains Value Inv T V (perform (.invoke id binding arguments)) V :=
  maintains_perform h fun value hvalue => hvalue value (.head _)

theorem maintains_execute {scope : ScopeId} {stmt : Stmt} (h : T (.execute scope stmt)) :
    @Maintains Completion Inv T V (perform (.execute scope stmt))
      fun completion => ∀ value ∈ completion.yields, V value :=
  maintains_perform h fun _ hvalues => hvalues

theorem maintains_executeAll {scope : ScopeId} {statements : List Stmt}
    (h : T (.executeAll scope statements)) :
    @Maintains Completion Inv T V (perform (.executeAll scope statements))
      fun completion => ∀ value ∈ completion.yields, V value :=
  maintains_perform h fun _ hvalues => hvalues

theorem maintains_whileLoop {scope : ScopeId} {condition : Expr} {body : Stmt}
    (h : T (.whileLoop scope condition body)) :
    @Maintains Completion Inv T V (perform (.whileLoop scope condition body))
      fun completion => ∀ value ∈ completion.yields, V value :=
  maintains_perform h fun _ hvalues => hvalues

theorem maintains_forLoop {clauses : ScopeId} {condition post : Option Expr} {body : Stmt}
    (h : T (.forLoop clauses condition post body)) :
    @Maintains Completion Inv T V (perform (.forLoop clauses condition post body))
      fun completion => ∀ value ∈ completion.yields, V value :=
  maintains_perform h fun _ hvalues => hvalues

/-! ### Actions that leave the state as it is -/

theorem maintains_read {f : Store → α} (h : ∀ s : State, Inv s → P (f s.store)) :
    (act (Eval.read f)).Maintains Inv T V P := by
  refine maintains_act (fun _ hinv => hinv) fun s a s' hinv hrun => ?_
  obtain ⟨rfl, -⟩ := EStateM.Result.ok.inj hrun
  exact h s hinv

/-- Looking for something in the store: if it is found, it has the property. -/
theorem maintains_readOrFail {f : Store → Except RuntimeError α}
    (h : ∀ (s : State) a, Inv s → f s.store = .ok a → P a) :
    (act (Eval.readOrFail f)).Maintains Inv T V P := by
  refine maintains_act (fun s hinv => ?_) fun s a s' hinv hrun => ?_
  · unfold Eval.readOrFail
    cases f s.store <;> exact hinv
  · unfold Eval.readOrFail at hrun
    cases hf : f s.store with
    | ok found =>
      rw [hf] at hrun
      obtain ⟨rfl, -⟩ := EStateM.Result.ok.inj hrun
      exact h s _ hinv hf
    | error error =>
      rw [hf] at hrun
      cases hrun

/-- A failure has no result to speak of. -/
theorem maintains_fail (error : RuntimeError) :
    (act (Eval.fail error : Eval α)).Maintains Inv T V P :=
  maintains_act (fun _ hinv => hinv) fun _ _ _ _ hrun => by cases hrun

/-- The number of arguments is compared, and the store left as it is. -/
theorem maintains_checkArity (expected actual : Nat) :
    (act (Eval.checkArity expected actual)).Maintains Inv T V fun _ => True := by
  refine maintains_act (fun s hinv => ?_) fun _ _ _ _ _ => trivial
  unfold Eval.checkArity
  split <;> exact hinv

/-! ### Actions that change the store -/

/-- Something is added to the store, which has to keep the invariant. -/
theorem maintains_allocate {f : Store → α × Store}
    (hkept : ∀ s : State, Inv s → Inv { s with store := (f s.store).2 })
    (h : ∀ s : State, Inv s → P (f s.store).1) :
    (act (Eval.allocate f)).Maintains Inv T V P := by
  refine maintains_act hkept fun s a s' hinv hrun => ?_
  obtain ⟨rfl, -⟩ := EStateM.Result.ok.inj hrun
  exact h s hinv

/-- The store is changed, which has to keep the invariant, or the change is refused. -/
theorem maintains_update {f : Store → Except RuntimeError Store}
    (hkept : ∀ (s : State) store, Inv s → f s.store = .ok store → Inv { s with store := store }) :
    (act (Eval.update f)).Maintains Inv T V fun _ => True := by
  refine maintains_act (fun s hinv => ?_) fun _ _ _ _ _ => trivial
  unfold Eval.update
  cases hf : f s.store with
  | ok store => exact hkept s store hinv hf
  | error error => exact hinv

end Plan

/-! ## Runs

A contract asks for a relation between states and for events as well. Here they are trivial, and
what remains are the two properties. -/

/-- The plans of the tasks `T` maintain the invariant of states and the property of values. -/
structure Maintained (Inv : State → Prop) (T : Task → Prop) (V : Value → Prop) : Prop where
  body : ∀ task, T task → task.body.Maintains Inv T V fun b => ∀ value ∈ task.yields b, V value

namespace Maintained

variable {Inv : State → Prop} {T : Task → Prop} {V : Value → Prop}

/-- What is maintained, as a contract: an invariant of states, a condition for tasks, and a property
of all values that tasks yield. -/
def contract (Inv : State → Prop) (T : Task → Prop) (V : Value → Prop) : Contract where
  invariant := Inv
  later := fun _ _ => True
  pre := fun task _ => T task
  post := fun task _ outcome =>
    ∀ result s', outcome = .ok result s' → ∀ value ∈ task.yields result, V value
  action := fun _ _ _ => True
  later_refl := fun _ => trivial
  later_trans := fun _ _ => trivial

/-- A plan that maintains the properties meets the contract, in any state that the invariant holds
of. -/
theorem meets {α : Type} {fuel : Nat} {plan : Plan α} {Q : α → Prop}
    (h : plan.Maintains Inv T V Q) {s : State} (hinv : Inv s) :
    (contract Inv T V).Meets (fun _ => True) fuel plan s
      fun outcome => ∀ a s', outcome = .ok a s' → Q a := by
  induction plan generalizing s with
  | done a =>
    intro b s' hdone
    obtain ⟨rfl, -⟩ := EStateM.Result.ok.inj hdone
    exact h
  | step event action next ih =>
    intro _
    obtain ⟨hkept, hnext⟩ := h s hinv
    refine ⟨hkept, trivial, trivial, ?_⟩
    cases hrun : action s with
    | ok b s' =>
      rw [hrun] at hkept
      exact ih b (hnext b s' hrun) hkept
    | error interrupt s' => exact nofun
  | sub task next ih =>
    intro _
    refine ⟨h.1, fun hinv' _ hpost => ?_⟩
    have hpost : ∀ result s', task.run fuel s = .ok result s' → _ := hpost
    -- After a task that failed the plan ends, and there is no result.
    cases hrun : task.run fuel s with
    | ok b s' =>
      rw [hrun] at hinv'
      exact ih b (h.2 b (hpost b s' hrun)) hinv'
    | error interrupt s' => exact nofun

variable (h : Maintained Inv T V)

include h

/-- The tasks keep the contract, because their plans do: this is the hypothesis `body` of what is
maintained. -/
theorem kept : (contract Inv T V).Kept fun _ => True where
  exhausted := fun _ _ => nofun
  body := fun _ hinv htask => meets (h.body _ htask) hinv

/-- What holds throughout the run of a program: the invariant in every state, and the property of
values of all that a task of the run yields. -/
theorem session {scope : ScopeId} {program : List Stmt} {s : State}
    (hprogram : ∀ stmt ∈ program, T (.execute scope stmt)) (hinv : Inv s) (fuel : Nat) :
    (∀ state ∈ s :: statesOf (sessionTrace fuel scope program s), Inv state) ∧
      ∀ fuel' task state, .visit fuel' task state ∈ sessionTrace fuel scope program s →
        ∀ result s', task.run fuel' state = .ok result s' →
          ∀ value ∈ task.yields result, V value := by
  obtain ⟨s', hends, -⟩ := @Contract.session_covers (contract Inv T V) (fun _ => True) h.kept
    (fun _ => True) fuel scope program s (fun stmt hmem _ _ _ => hprogram stmt hmem)
    (fun _ _ _ _ _ => trivial) hinv trivial fun _ _ => trivial
  constructor
  · intro state hstate
    rcases List.mem_cons.mp hstate with rfl | hstate
    · exact hinv
    · exact hends.covers.invariant hstate
  · intro fuel' task state hvisit
    obtain ⟨-, -, -, -, hpost⟩ := hends.covers.facts _ hvisit
    exact hpost

/-- What a program ends with, up to the first statement that fails. -/
theorem run {scope : ScopeId} {program : List Stmt} {s s' : State} {fuel : Nat} {value : Value}
    (hprogram : ∀ stmt ∈ program, T (.execute scope stmt)) (hinv : Inv s) (hnil : V .nil)
    (hrun : Eval.run fuel scope program s = .ok value s') : V value := by
  -- The fold carries the value of the statement before.
  have hfold : ∀ (program : List Stmt) (first : Value) (s : State),
      (∀ stmt ∈ program, T (.execute scope stmt)) → Inv s → V first →
      (program.foldlM (fun _ stmt => Eval.runStatement fuel scope stmt) first) s = .ok value s' →
      V value := by
    intro program
    induction program with
    | nil =>
      intro first s _ _ hfirst hrun
      obtain ⟨rfl, -⟩ := EStateM.Result.ok.inj hrun
      exact hfirst
    | cons stmt rest ih =>
      intro first s hprogram hinv _ hrun
      rw [List.foldlM_cons] at hrun
      obtain ⟨a, s₁, hstmt, hrest⟩ := Eval.bind_eq_ok.mp hrun
      obtain ⟨completion, s₂, hexecute, hvalue⟩ := Eval.bind_eq_ok.mp hstmt
      have htask : (Task.execute scope stmt).run fuel s = .ok completion s₂ := hexecute
      obtain ⟨hpost, hends⟩ := @Contract.task_covers (contract Inv T V) (fun _ => True) h.kept
        fuel _ s hinv (hprogram stmt (.head _)) fun _ _ => trivial
      rw [htask] at hends
      have hyields := hpost completion s₂ htask
      cases completion with
      | returned result => cases hvalue
      | normal result =>
        obtain ⟨rfl, rfl⟩ := EStateM.Result.ok.inj hvalue
        exact ih result s₂ (fun stmt hmem => hprogram stmt (.tail _ hmem)) hends.invariant
          (hyields result (.head _)) hrest
  exact hfold program .nil s hprogram hinv hnil hrun

end Maintained

end Script
