import Mathlib.Logic.Relation
import Script.Proofs.Run.Actions
import Script.Proofs.Run.Repertoire
import Script.Proofs.Store.Growth

/-!
# Uniform properties of runs

What the actions of a task can change in the state is listed by `Task.Changes`, and why they can
fail by `Task.FailsWith`. A property is *uniform* if it looks at changes, failures and calls one by
one: every change keeps an invariant of the state and takes the state to a related one, every
failure is for an admitted reason, and every task that is called is one of those considered. Checked
against these lists, it holds of all runs of tasks (`Uniform.run_ends`) and of programs
(`Uniform.session_ends`, `Uniform.safe_run`).
-/

namespace Script

open Contract

/-! ## Reasons to fail

A failure is a runtime error, or the evaluator has met a tree that no rule is meant for. The second
kind has three sources, which `Task.Misfit` lists; runs of programs that were parsed have none of
them. -/

/-- The tasks at which the evaluator meets a tree that no rule is meant for. -/
inductive Task.Misfit : Task → Prop
  | unary {scope : ScopeId} {operator : Token} {operand : Expr} (hminus : operator.kind ≠ .minus)
    (hbang : operator.kind ≠ .bang) : Misfit (.evaluate scope (.unary operator operand))
  | binary {scope : ScopeId} {left : Expr} {operator : Token} {right : Expr}
    (hlogical : operator.kind ≠ .equal ∧ operator.kind ≠ .kwOr ∧ operator.kind ≠ .kwAnd)
    (hequality : operator.kind ≠ .equalEqual ∧ operator.kind ≠ .bangEqual)
    (hnumeric : numericOperator? operator.kind = none) :
    Misfit (.evaluate scope (.binary left operator right))
  | assignment {scope : ScopeId} {left : Expr} {operator : Token} {right : Expr}
    (hkind : operator.kind = .equal) (hleft : ∀ name, left ≠ .variable name) :
    Misfit (.evaluate scope (.binary left operator right))

/-- Why the task may fail by itself. An action never fails for want of fuel. -/
inductive Task.FailsWith (task : Task) : Interrupt → Prop
  | error {error : RuntimeError} (herror : error.OfAction) : FailsWith task (.error error)
  | malformed (hmisfit : task.Misfit) : FailsWith task .malformed

/-- Why an operator before its operand fails: a minus sign because the operand is no number, and any
other token because it is no operator. -/
theorem applyUnary_error {operator : Token} {operand : Value} {s s' : State}
    {interrupt : Interrupt} (h : applyUnary operator operand s = .error interrupt s') :
    (∃ error, interrupt = .error error ∧ error.OfAction) ∨
      interrupt = .malformed ∧ operator.kind ≠ .minus ∧ operator.kind ≠ .bang := by
  unfold applyUnary at h
  generalize operator.kind = kind at h ⊢
  split at h
  · cases operand with
    | number => cases h
    | _ =>
      obtain ⟨rfl, -⟩ := EStateM.Result.error.inj h
      exact .inl ⟨_, rfl, trivial⟩
  · cases h
  case h_3 hminus hbang =>
    obtain ⟨rfl, -⟩ := EStateM.Result.error.inj h
    exact .inr ⟨rfl, hminus, hbang⟩

/-- Why an operator between its operands fails: one that compares never does, a numeric one because
an operand is no number, and a token that is no operator leaves the evaluator without a case. -/
theorem applyBinary_error {left right : Value} {operator : Token} {s s' : State}
    {interrupt : Interrupt} (h : applyBinary left operator right s = .error interrupt s') :
    (∃ error, interrupt = .error error ∧ error.OfAction) ∨
      interrupt = .malformed ∧ (operator.kind ≠ .equalEqual ∧ operator.kind ≠ .bangEqual) ∧
        numericOperator? operator.kind = none := by
  unfold applyBinary at h
  generalize operator.kind = kind at h ⊢
  split at h
  · cases h
  · cases h
  case h_3 hequal hdiffer =>
    cases hnumeric : numericOperator? kind with
    | none =>
      rw [hnumeric] at h
      obtain ⟨rfl, -⟩ := EStateM.Result.error.inj h
      exact .inr ⟨rfl, ⟨hequal, hdiffer⟩, rfl⟩
    | some compute =>
      rw [hnumeric] at h
      dsimp only at h
      split at h
      · cases h
      · obtain ⟨rfl, -⟩ := EStateM.Result.error.inj h
        exact .inl ⟨_, rfl, trivial⟩

namespace Eval

variable {α : Type} {s s' : State} {interrupt : Interrupt}

/-- A reading fails with what was found in place of a result. -/
theorem readOrFail_error {f : Store → Except RuntimeError α}
    (h : readOrFail f s = .error interrupt s') :
    ∃ error, f s.store = .error error ∧ interrupt = .error error := by
  unfold readOrFail at h
  cases hf : f s.store with
  | ok a =>
    rw [hf] at h
    cases h
  | error error =>
    rw [hf] at h
    obtain ⟨rfl, -⟩ := EStateM.Result.error.inj h
    exact ⟨error, rfl, rfl⟩

/-- A change fails with what was found in place of a store. -/
theorem update_error {f : Store → Except RuntimeError Store}
    (h : update f s = .error interrupt s') :
    ∃ error, f s.store = .error error ∧ interrupt = .error error := by
  unfold update at h
  cases hf : f s.store with
  | ok store =>
    rw [hf] at h
    cases h
  | error error =>
    rw [hf] at h
    obtain ⟨rfl, -⟩ := EStateM.Result.error.inj h
    exact ⟨error, rfl, rfl⟩

/-- A change that succeeds leaves the new store, and nothing else is different. -/
theorem update_ok {f : Store → Except RuntimeError Store} {u : Unit}
    (h : update f s = .ok u s') :
    ∃ store, f s.store = .ok store ∧ s' = { s with store := store } := by
  unfold update at h
  cases hf : f s.store with
  | ok store =>
    rw [hf] at h
    obtain ⟨-, rfl⟩ := EStateM.Result.ok.inj h
    exact ⟨store, rfl, rfl⟩
  | error error =>
    rw [hf] at h
    cases h

/-- The change, where the new store is known. -/
theorem update_of_ok {f : Store → Except RuntimeError Store} {store : Store}
    (h : f s.store = .ok store) : update f s = .ok () { s with store := store } := by
  unfold update
  rw [h]

/-- The change, where it is known to fail. -/
theorem update_of_error {f : Store → Except RuntimeError Store} {error : RuntimeError}
    (h : f s.store = .error error) : update f s = .error (.error error) s := by
  unfold update
  rw [h]

end Eval

/-- The actions of a task fail for the reasons listed. -/
theorem Task.Acts.failsWith {task : Task} {β : Type} {action : Eval β} {s s' : State}
    {interrupt : Interrupt} (h : task.Acts action) (hrun : action s = .error interrupt s') :
    task.FailsWith interrupt := by
  cases h with
  | unary scope operator operand value =>
    rcases applyUnary_error hrun with ⟨error, rfl, herror⟩ | ⟨rfl, hminus, hbang⟩
    · exact .error herror
    · exact .malformed (.unary hminus hbang)
  | binary scope left right hkind leftValue rightValue =>
    rcases applyBinary_error hrun with ⟨error, rfl, herror⟩ | ⟨rfl, hequality, hnumeric⟩
    · exact .error herror
    · exact .malformed (.binary hkind hequality hnumeric)
  | malformed scope right hkind hleft =>
    obtain ⟨rfl, -⟩ := EStateM.Result.error.inj hrun
    exact .malformed (.assignment hkind hleft)
  | fail herror =>
    obtain ⟨rfl, -⟩ := EStateM.Result.error.inj hrun
    exact .error herror
  | checkArity expected actual =>
    unfold Eval.checkArity at hrun
    split at hrun
    · cases hrun
    · obtain ⟨rfl, -⟩ := EStateM.Result.error.inj hrun
      exact .error trivial
  | write text =>
    unfold Eval.write at hrun
    dsimp only at hrun
    split at hrun
    · cases hrun
    · obtain ⟨rfl, -⟩ := EStateM.Result.error.inj hrun
      exact .error trivial
  | native function arguments =>
    unfold Eval.native at hrun
    split at hrun
    · cases hrun
    · cases hrun
    · obtain ⟨rfl, -⟩ := EStateM.Result.error.inj hrun
      exact .error trivial
  -- The others fail, if at all, with what they find in the store.
  | lookup scope name =>
    obtain ⟨error, hlookup, rfl⟩ := Eval.readOrFail_error hrun
    unfold Store.lookup at hlookup
    split at hlookup <;> cases hlookup
    exact .error trivial
  | receiver scope keyword =>
    obtain ⟨error, hreceiver, rfl⟩ := Eval.readOrFail_error hrun
    split at hreceiver <;> cases hreceiver
    exact .error trivial
  | superclass scope =>
    obtain ⟨error, hsuperclass, rfl⟩ := Eval.readOrFail_error hrun
    split at hsuperclass <;> cases hsuperclass
    exact .error trivial
  | define scope name value =>
    obtain ⟨error, hdefine, rfl⟩ := Eval.update_error hrun
    unfold Store.define at hdefine
    split at hdefine <;> cases hdefine
    exact .error trivial
  | assign scope name value =>
    obtain ⟨error, hassign, rfl⟩ := Eval.update_error hrun
    unfold Store.assign at hassign
    split at hassign <;> cases hassign
    exact .error trivial
  | setProperty scope object name value target result =>
    obtain ⟨error, hset, rfl⟩ := Eval.update_error hrun
    unfold Store.setProperty at hset
    split at hset <;> cases hset
    all_goals exact .error trivial
  | _ => cases hrun

/-! ## Changes

An action changes the store, the output or the clock, or nothing. Different actions may make the
same change: a property that is read binds a method or changes nothing, and names are bound by
declarations and by assignments. -/

/-- The functions and methods that the task itself declares. -/
def Task.functionDecls : Task → List FunctionDecl
  | .execute _ (.function decl) => [decl]
  | .execute _ (.classDecl _ _ methods) => methods
  | _ => []

/-- The task evaluates an expression that sets a property. -/
def Task.SetsProperty : Task → Prop
  | .evaluate _ (.set _ _ _) => True
  | _ => False

/-- What a single action of the task may change. -/
inductive Task.Changes (task : Task) : State → State → Prop
  | nothing (s : State) : Changes task s s
  | newScope (s : State) (enclosing : List ScopeId) (bindings : Table Value) :
    Changes task s { s with store := (s.store.newScope enclosing bindings).2 }
  | bind (s : State) (scope : ScopeId) (name : String) (value : Value) :
    Changes task s { s with store := s.store.bind scope name value }
  | newFunctions (s : State) (closure : ScopeId) {decls : List FunctionDecl}
    (hdecls : decls = task.functionDecls) :
    Changes task s { s with store := (s.store.newFunctions closure decls).2 }
  | newBoundMethod (s : State) (method : FunctionId) (receiver : InstanceId)
    (declaringClass : ClassId) :
    Changes task s { s with store := (s.store.newBoundMethod method receiver declaringClass).2 }
  | newClass (s : State) (name : String) (ancestors : List ClassId) (methods : Table FunctionId) :
    Changes task s { s with store := (s.store.newClass name ancestors methods).2 }
  | newInstance (s : State) (ofClass : ClassId) :
    Changes task s { s with store := (s.store.newInstance ofClass).2 }
  | setProperty (s : State) {object : Value} {name : String} {value : Value} {store : Store}
    (htask : task.SetsProperty) (hset : s.store.setProperty object name value = .ok store) :
    Changes task s { s with store := store }
  | write (s : State) (text : String) : Changes task s (finalState (Eval.write text s))
  | readClock (s : State) : Changes task s (finalState (Eval.readClock s))

namespace Task

variable {task : Task} {α : Type}

/-- An action that ends in the state in which it began changes nothing. -/
theorem changes_of_same {s s' : State} (h : s' = s) : task.Changes s s' := by
  rw [h]
  exact .nothing s

/-- Reading changes nothing, whether something is found or not. -/
theorem changes_readOrFail (f : Store → Except RuntimeError α) (s : State) :
    task.Changes s (finalState (Eval.readOrFail f s)) := by
  apply changes_of_same
  unfold Eval.readOrFail
  cases f s.store <;> rfl

/-- A change of the store, or nothing if it fails. -/
theorem changes_update {f : Store → Except RuntimeError Store} {s : State}
    (h : ∀ store, f s.store = .ok store → task.Changes s { s with store := store }) :
    task.Changes s (finalState (Eval.update f s)) := by
  unfold Eval.update
  cases hf : f s.store with
  | ok store => exact h store hf
  | error error => exact .nothing s

/-- The actions of a task change what is listed. -/
theorem Acts.changes {action : Eval α} (h : task.Acts action) (s : State) :
    task.Changes s (finalState (action s)) := by
  cases h with
  | read f => exact .nothing s
  | fail herror => exact .nothing s
  | malformed scope right hkind hleft => exact .nothing s
  | lookup scope name => exact changes_readOrFail _ s
  | receiver scope keyword => exact changes_readOrFail _ s
  | superclass scope => exact changes_readOrFail _ s
  | checkArity expected actual =>
    apply changes_of_same
    unfold Eval.checkArity
    split <;> rfl
  | unary scope operator operand value =>
    exact changes_of_same ((computes_applyUnary operator value).same s)
  | binary scope left right hkind leftValue rightValue =>
    exact changes_of_same ((computes_applyBinary leftValue _ rightValue).same s)
  | write text => exact .write s text
  | native function arguments =>
    unfold Eval.native
    split
    · exact .readClock s
    · exact .nothing s
    · exact .nothing s
  | define scope name value =>
    refine changes_update fun store hdefine => ?_
    obtain ⟨-, rfl⟩ := Store.define_eq_ok.mp hdefine
    exact .bind s scope name value
  | assign scope name value =>
    refine changes_update fun store hassign => ?_
    obtain ⟨owner, -, rfl⟩ := Store.assign_eq_ok.mp hassign
    exact .bind s owner name value
  | property object name =>
    show task.Changes s { s with store := (s.store.property object name).2 }
    rcases s.store.property_cases object name with hsame | ⟨resolution, receiver, hbound⟩
    · rw [hsame]
      exact .nothing s
    · rw [hbound]
      exact .newBoundMethod s _ receiver _
  | setProperty scope object name value target result =>
    exact changes_update fun store hset => .setProperty s trivial hset
  | newChild parent bindings => exact .newScope s _ bindings
  -- One function is a list of functions with one member.
  | newFunction scope decl => exact @Task.Changes.newFunctions _ s scope [decl] rfl
  | newFunctions scope name superclass methods => exact .newFunctions s scope rfl
  | declareClass name superclass methods => exact .newClass s name _ _
  | newInstance id => exact .newInstance s id
  | bindMethod resolution id => exact .newBoundMethod s _ id _

end Task

/-! ## Uniform properties -/

/-- For the tasks `T`, all that can be done in the states `Inv` keeps `Inv`, changes a state to one
related by `R` and fails for the reasons `E`, and leads to tasks among `T`. -/
structure Uniform (Inv : State → Prop) (R : State → State → Prop) (E : Interrupt → Prop)
    (T : Task → Prop) : Prop where
  exhausted : E .outOfFuel
  keeps : ∀ {task : Task} {s s' : State}, T task → task.Changes s s' → Inv s → Inv s' ∧ R s s'
  fails : ∀ {task : Task} {interrupt : Interrupt}, T task → task.FailsWith interrupt → E interrupt
  calls : ∀ {task other : Task}, T task → task.Calls Inv other → T other

/-- The outcome is no failure but for these reasons. -/
def FailsFor {α : Type} (E : Interrupt → Prop) (outcome : Outcome α) : Prop :=
  ∀ interrupt s, outcome = .error interrupt s → E interrupt

section

variable {α : Type} {E : Interrupt → Prop}

theorem failsFor_ok (a : α) (s : State) : FailsFor E (.ok a s : Outcome α) := nofun

/-- A failure is one for the reason that it has. -/
@[simp] theorem failsFor_error {interrupt : Interrupt} {s : State} :
    FailsFor E (.error interrupt s : Outcome α) ↔ E interrupt := by
  constructor
  · exact fun h => h interrupt s rfl
  · intro h other s' herror
    obtain ⟨rfl, -⟩ := EStateM.Result.error.inj herror
    exact h

end

namespace Uniform

variable {Inv : State → Prop} {R : State → State → Prop} {E : Interrupt → Prop} {T : Task → Prop}

/-- What a uniform property says about runs. -/
def contract (Inv : State → Prop) (R : State → State → Prop) (E : Interrupt → Prop)
    (T : Task → Prop) : Contract where
  invariant := Inv
  -- From one state of a run to a later one there are any number of changes.
  later := Relation.ReflTransGen R
  pre := fun task _ => T task
  post := fun _ _ => FailsFor E
  action := fun _ => R
  later_refl := fun _ => .refl
  later_trans := .trans

variable (h : Uniform Inv R E T)

include h

/-- A plan that is made of what the task can do keeps the contract. The induction follows the plan,
and carries the invariant from one state to the next; the result of a step is not looked at. -/
theorem meets {α : Type} {task : Task} {fuel : Nat} {plan : Plan α} (htask : T task)
    (hplan : plan.MadeOf Inv task.Acts (task.Calls Inv)) {s : State} (hinv : Inv s) :
    (contract Inv R E T).Meets (fun _ => True) fuel plan s (FailsFor E) := by
  induction plan generalizing s with
  | done a => exact failsFor_ok a s
  | step event action next ih =>
    intro _
    have hkeeps := h.keeps htask (hplan.1.changes s) hinv
    refine ⟨hkeeps.1, .single hkeeps.2, hkeeps.2, ?_⟩
    cases hrun : action s with
    | ok b s' =>
      rw [hrun] at hkeeps
      exact ih b (hplan.2 s b s' hinv hrun) hkeeps.1
    | error interrupt s' => exact failsFor_error.mpr (h.fails htask (hplan.1.failsWith hrun))
  | sub other next ih =>
    intro _
    refine ⟨h.calls htask hplan.1, fun hinv' _ hpost => ?_⟩
    have hpost : FailsFor E (other.run fuel s) := hpost
    cases hrun : other.run fuel s with
    | ok b s' =>
      rw [hrun] at hinv'
      exact ih b (hplan.2 b) hinv'
    | error interrupt s' =>
      rw [hrun, failsFor_error] at hpost
      exact failsFor_error.mpr hpost

/-- Every task keeps the contract, because its plan is made of what the task can do
(`Task.madeOf`). -/
theorem kept : (contract Inv R E T).Kept fun _ => True where
  exhausted := fun _ _ => failsFor_error.mpr h.exhausted
  body := fun _ hinv htask => h.meets htask (Task.madeOf Inv _) hinv

/-- A uniform property holds of the run of a task: of its outcome, and of each of its moments. -/
theorem run_ends {task : Task} {s : State} (htask : T task) (hinv : Inv s) (fuel : Nat) :
    FailsFor E (task.run fuel s) ∧
      (contract Inv R E T).Ends (task.trace fuel s) s (finalState (task.run fuel s)) :=
  Contract.task_covers h.kept hinv htask fun _ _ => trivial

/-- It holds of the runs of a session, one statement after the other. -/
theorem session_ends {scope : ScopeId} {program : List Stmt} {s : State}
    (hprogram : ∀ stmt ∈ program, T (.execute scope stmt)) (hinv : Inv s) (fuel : Nat) :
    ∃ s', (contract Inv R E T).Ends (sessionTrace fuel scope program s) s s' := by
  obtain ⟨s', hends, -⟩ := @session_covers (contract Inv R E T) (fun _ => True) h.kept
    (fun _ => True) fuel scope program s (fun stmt hmem _ _ _ => hprogram stmt hmem)
    (fun _ _ _ _ _ => trivial) hinv trivial fun _ _ => trivial
  exact ⟨s', hends⟩

end Uniform

/-! ## Evaluations made of runs

Programs are run by functions around the tasks, which stop at a failure or go on after it. For these
it is enough to know of the tasks that they are safe. -/

/-- From the states `Inv` on, the evaluation stays in them and fails for the reasons `E`. -/
def Safe {α : Type} (Inv : State → Prop) (E : Interrupt → Prop) (x : Eval α) : Prop :=
  ∀ s, Inv s → FailsFor E (x s) ∧ Inv (finalState (x s))

section

variable {α β : Type} {Inv : State → Prop} {R : State → State → Prop} {E : Interrupt → Prop}
  {T : Task → Prop}

theorem safe_pure (a : α) : Safe Inv E (pure a : Eval α) :=
  fun s hinv => ⟨failsFor_ok a s, hinv⟩

theorem safe_fail {error : RuntimeError} (h : E (.error error)) :
    Safe Inv E (Eval.fail error : Eval α) :=
  fun _ hinv => ⟨failsFor_error.mpr h, hinv⟩

theorem Safe.bind {x : Eval α} {k : α → Eval β} (hx : Safe Inv E x) (hk : ∀ a, Safe Inv E (k a)) :
    Safe Inv E (x >>= k) := by
  intro s hinv
  obtain ⟨hfails, hinv'⟩ := hx s hinv
  cases hrun : x s with
  | ok a s' =>
    rw [hrun] at hinv'
    rw [Eval.bind_of_ok hrun]
    exact hk a s' hinv'
  | error interrupt s' =>
    rw [hrun] at hfails hinv'
    rw [Eval.bind_of_error hrun, failsFor_error]
    exact ⟨failsFor_error.mp hfails, hinv'⟩

/-- An evaluation of which the failures are caught. -/
theorem Safe.attempt {x : Eval α} (hx : Safe Inv E x) : Safe Inv E (Eval.attempt x) := by
  intro s hinv
  obtain ⟨hfails, hinv'⟩ := hx s hinv
  unfold Eval.attempt
  cases hrun : x s with
  | ok a s' =>
    rw [hrun] at hinv'
    exact ⟨failsFor_ok _ s', hinv'⟩
  | error interrupt s' =>
    rw [hrun] at hfails hinv'
    rw [failsFor_error] at hfails
    cases interrupt with
    | error error => exact ⟨failsFor_ok _ s', hinv'⟩
    | malformed | outOfFuel => exact ⟨failsFor_error.mpr hfails, hinv'⟩

section

variable {fuel : Nat} {scope : ScopeId} {program : List Stmt}

/-- Programs that stop at the first failure are safe if their statements are. -/
theorem safe_run (h : ∀ stmt ∈ program, Safe Inv E (Eval.runStatement fuel scope stmt)) :
    Safe Inv E (Eval.run fuel scope program) := by
  unfold Eval.run
  generalize Value.nil = last
  induction program generalizing last with
  | nil => exact safe_pure last
  | cons stmt rest ih =>
    rw [List.foldlM_cons]
    exact (h stmt (.head _)).bind fun value => ih (fun stmt hmem => h stmt (.tail _ hmem)) value

/-- Programs that go on after a failure are safe if their statements are: a failure that is kept is
one that was admitted. -/
theorem safe_runEach (h : ∀ stmt ∈ program, Safe Inv E (Eval.runStatement fuel scope stmt)) :
    Safe Inv E (Eval.runEach fuel scope program) := by
  induction program with
  | nil => exact safe_pure []
  | cons stmt rest ih =>
    have hrest := ih fun stmt hmem => h stmt (.tail _ hmem)
    rw [Eval.runEach]
    refine (h stmt (.head _)).attempt.bind fun outcome => ?_
    cases outcome with
    | ok value => exact hrest
    | error error =>
      have hsize : Safe Inv E Eval.outputSize := fun s hinv => ⟨failsFor_ok _ s, hinv⟩
      exact hsize.bind fun size => hrest.bind fun others => safe_pure _

/-- The failures that a program has reported when it has gone on after each of them. -/
theorem runEach_failures (h : ∀ stmt ∈ program, Safe Inv E (Eval.runStatement fuel scope stmt))
    {failures : List Failure} {s s' : State} (hinv : Inv s)
    (hrun : Eval.runEach fuel scope program s = .ok failures s') :
    ∀ failure ∈ failures, E (.error failure.error) := by
  induction program generalizing failures s with
  | nil =>
    obtain ⟨rfl, -⟩ := EStateM.Result.ok.inj hrun
    exact nofun
  | cons stmt rest ih =>
    have hstmt := h stmt (.head _)
    have ih := @ih fun stmt hmem => h stmt (.tail _ hmem)
    rw [Eval.runEach] at hrun
    obtain ⟨outcome, s₁, hattempt, hrun⟩ := Eval.bind_eq_ok.mp hrun
    obtain ⟨hfails, hinv₁⟩ := hstmt s hinv
    unfold Eval.attempt at hattempt
    cases hresult : Eval.runStatement fuel scope stmt s with
    -- Nothing is added to the failures.
    | ok value s₂ =>
      rw [hresult] at hattempt hinv₁
      obtain ⟨rfl, rfl⟩ := EStateM.Result.ok.inj hattempt
      exact ih hinv₁ hrun
    | error interrupt s₂ =>
      rw [hresult] at hattempt hinv₁
      cases interrupt with
      | error error =>
        obtain ⟨rfl, rfl⟩ := EStateM.Result.ok.inj hattempt
        -- Measuring the output leaves the state, so the other statements run from there.
        obtain ⟨size, s₃, hsize, hrun⟩ := Eval.bind_eq_ok.mp hrun
        obtain ⟨-, rfl⟩ := EStateM.Result.ok.inj hsize
        obtain ⟨others, s₄, hothers, hdone⟩ := Eval.bind_eq_ok.mp hrun
        obtain ⟨rfl, rfl⟩ := EStateM.Result.ok.inj hdone
        rw [hresult, failsFor_error] at hfails
        have hinv₁ : Inv s₂ := hinv₁
        exact List.forall_mem_cons.mpr ⟨hfails, ih hinv₁ hothers⟩
      | _ => cases hattempt

end

namespace Uniform

variable (h : Uniform Inv R E T) {fuel : Nat} {scope : ScopeId}

include h

/-- The run of a task that is considered. -/
theorem safe {task : Task} (htask : T task) : Safe Inv E (task.run fuel) := by
  intro s hinv
  obtain ⟨hfails, hends⟩ := h.run_ends htask hinv fuel
  exact ⟨hfails, hends.invariant⟩

variable (hreturn : E (.error .illegalReturn))

include hreturn

/-- A statement at the top level, where a return is a failure. -/
theorem safe_runStatement {stmt : Stmt} (hstmt : T (.execute scope stmt)) :
    Safe Inv E (Eval.runStatement fuel scope stmt) := by
  refine Safe.bind (h.safe hstmt) fun completion => ?_
  cases completion with
  | normal value => exact safe_pure value
  | returned value => exact safe_fail hreturn

/-- A program that stops at the first failure. -/
theorem safe_run {program : List Stmt} (hprogram : ∀ stmt ∈ program, T (.execute scope stmt)) :
    Safe Inv E (Eval.run fuel scope program) :=
  Script.safe_run fun stmt hmem => h.safe_runStatement hreturn (hprogram stmt hmem)

/-- A program that goes on after a failure. -/
theorem safe_runEach {program : List Stmt} (hprogram : ∀ stmt ∈ program, T (.execute scope stmt)) :
    Safe Inv E (Eval.runEach fuel scope program) :=
  Script.safe_runEach fun stmt hmem => h.safe_runStatement hreturn (hprogram stmt hmem)

end Uniform

end

end Script
