import Script.Proofs.Run.Plan

/-!
# Traces

Everything that happens in a run, in the order of time: the tasks that it begins, each in the state
in which it begins, and the actions that it performs, each with the state before and after it. So
a property of every state that a run passes through, of every call that it makes, or of every
variable that it reads, is a property of the members of its trace.

The trace of a task ends in the state that the run of the task ends in (`Task.trace_state`), and
so does that of a program whose statements are run one after the other, the ones after a failure
too (`sessionTrace_state`). What a task does itself, without the tasks that it calls, is a part of
its trace (`Task.own_subset`), which can be read off its plan.
-/

namespace Script

/-- Something that happens in a run: that a task is begun, or that an action is performed. -/
inductive Moment where
  /-- A task is begun with this much fuel. -/
  | visit (fuel : Nat) (task : Task) (state : State)
  /-- An action is performed. -/
  | step (event : Event) (before after : State)

namespace Moment

/-- The state in which it begins. -/
def before : Moment → State
  | .visit _ _ s => s
  | .step _ s _ => s

/-- The state that it leaves. Beginning a task changes nothing. -/
def after : Moment → State
  | .visit _ _ s => s
  | .step _ _ s => s

end Moment

/-- The states that these moments begin and end in, in the order of time. -/
def statesOf (moments : List Moment) : List State :=
  moments.flatMap fun moment => [moment.before, moment.after]

/-- The state after these moments, and `s` where there are none. -/
def lastState (s : State) (moments : List Moment) : State :=
  (moments.getLast?.map Moment.after).getD s

@[simp] theorem lastState_nil (s : State) : lastState s [] = s := rfl

/-- The state after some moments is the state after the last of them. -/
@[simp] theorem lastState_cons (s : State) (moment : Moment) (moments : List Moment) :
    lastState s (moment :: moments) = lastState moment.after moments := by
  unfold lastState
  rw [List.getLast?_cons]
  -- Without further moments, `moment` is the last one itself.
  cases moments.getLast? <;> rfl

/-- Moments in two parts lead from the first state to the last one by way of the state between
them. -/
theorem lastState_append (s : State) (a b : List Moment) :
    lastState s (a ++ b) = lastState (lastState s a) b := by
  induction a generalizing s with
  | nil => rfl
  | cons moment a ih => rw [List.cons_append, lastState_cons, lastState_cons, ih]

/-! ## The trace of a plan and of a task

The trace of a plan follows the states that the run passes through, so that it stops where the run
fails. A task that is called is entered into the trace by the task itself, not by the plan. -/

/-- What happens when the plan is carried out; `sub` gives the traces of the tasks that it calls. -/
def Plan.trace {α : Type} (run : (task : Task) → Eval task.Result)
    (sub : Task → State → List Moment) : Plan α → State → List Moment
  | .done _, _ => []
  | .step event action next, s =>
    .step event s (finalState (action s)) ::
      match action s with
      | .ok b s' => (next b).trace run sub s'
      | .error _ _ => []
  | .sub task next, s =>
    sub task s ++
      match run task s with
      | .ok b s' => (next b).trace run sub s'
      | .error _ _ => []

/-- What happens when the task is run. -/
def Task.trace : Nat → Task → State → List Moment
  | 0, task, s => [.visit 0 task s]
  | fuel + 1, task, s =>
    .visit (fuel + 1) task s ::
      task.body.trace (fun task => task.run fuel) (fun task => task.trace fuel) s

/-- Every run begins with a visit, even one without fuel. -/
theorem Task.visit_mem_trace (fuel : Nat) (task : Task) (s : State) :
    .visit fuel task s ∈ task.trace fuel s := by
  cases fuel <;> simp [trace]

/-- A trace leads to the state that the run ends in, if the traces of the tasks that are called do
so. -/
theorem Plan.trace_state {α : Type} {run : (task : Task) → Eval task.Result}
    {sub : Task → State → List Moment}
    (hsub : ∀ task s, lastState s (sub task s) = finalState (run task s)) (plan : Plan α)
    (s : State) :
    lastState s (plan.trace run sub s) = finalState (plan.eval run s) := by
  induction plan generalizing s with
  | done a => rfl
  | step event action next ih =>
    rw [trace, lastState_cons]
    -- The bind is opened to see which of its two ends the action comes to. Where it fails, nothing
    -- follows in the trace either.
    show _ = finalState (EStateM.bind action (fun b => (next b).eval run) s)
    unfold EStateM.bind
    cases h : action s with
    | ok b s' => exact ih b s'
    | error interrupt s' => rfl
  | sub task next ih =>
    rw [trace, lastState_append, hsub]
    show _ = finalState (EStateM.bind (run task) (fun b => (next b).eval run) s)
    unfold EStateM.bind
    cases h : run task s with
    | ok b s' => exact ih b s'
    | error interrupt s' => rfl

/-- The trace of a task ends where the run of the task ends. -/
theorem Task.trace_state (fuel : Nat) (task : Task) (s : State) :
    lastState s (task.trace fuel s) = finalState (task.run fuel s) := by
  induction fuel generalizing task s with
  | zero =>
    rw [run_zero]
    rfl
  | succ fuel ih =>
    rw [trace, lastState_cons, run_succ]
    exact Plan.trace_state ih task.body s

/-- What is begun while a plan is carried out is begun by a task that the plan calls. -/
theorem Plan.trace_subset {α : Type} {run : (task : Task) → Eval task.Result}
    {sub : Task → State → List Moment} {fuel : Nat} {task : Task} {state : State} (plan : Plan α)
    (s : State)
    (hsub : ∀ other s, .visit fuel task state ∈ sub other s → task.trace fuel state ⊆ sub other s)
    (h : .visit fuel task state ∈ plan.trace run sub s) :
    task.trace fuel state ⊆ plan.trace run sub s := by
  induction plan generalizing s with
  | done a => cases h
  | step event action next ih =>
    rw [trace] at h ⊢
    -- The moment of the action itself is no visit.
    have h := (List.mem_cons.mp h).resolve_left (by intro heq; cases heq)
    refine List.Subset.trans ?_ (List.subset_cons_self ..)
    cases hrun : action s with
    | ok b s' =>
      rw [hrun] at h
      exact ih b s' h
    | error interrupt s' =>
      rw [hrun] at h
      cases h
  | sub other next ih =>
    rw [trace] at h ⊢
    -- The visit belongs to the task that is called here, or to a later one.
    rcases List.mem_append.mp h with h | h
    · exact List.Subset.trans (hsub other s h) (List.subset_append_left ..)
    · refine List.Subset.trans ?_ (List.subset_append_right ..)
      cases hrun : run other s with
      | ok b s' =>
        rw [hrun] at h
        exact ih b s' h
      | error interrupt s' =>
        rw [hrun] at h
        cases h

/-- A task that is begun in the run of another leaves its whole trace there. -/
theorem Task.trace_subset {fuel fuel' : Nat} {task other : Task} {s s' : State}
    (h : .visit fuel' other s' ∈ task.trace fuel s) : other.trace fuel' s' ⊆ task.trace fuel s := by
  induction fuel generalizing task s with
  | zero =>
    obtain ⟨rfl, rfl, rfl⟩ := Moment.visit.inj (List.mem_singleton.mp h)
    exact List.Subset.refl _
  | succ fuel ih =>
    rw [trace] at h ⊢
    rcases List.mem_cons.mp h with heq | h
    · obtain ⟨rfl, rfl, rfl⟩ := Moment.visit.inj heq
      rw [trace]
      exact List.Subset.refl _
    · refine List.Subset.trans ?_ (List.subset_cons_self ..)
      exact Plan.trace_subset task.body s (fun _ _ hvisit => ih hvisit) h

/-! ## What a task does itself

For the tasks that are called, a plan may be given any list of moments. The visit alone is enough to
see what the task itself does. -/

/-- Longer traces of the tasks that are called make a longer trace. -/
theorem Plan.trace_mono {α : Type} {run : (task : Task) → Eval task.Result}
    {sub sub' : Task → State → List Moment} (hsub : ∀ task s, sub task s ⊆ sub' task s)
    (plan : Plan α) (s : State) : plan.trace run sub s ⊆ plan.trace run sub' s := by
  induction plan generalizing s with
  | done a => exact List.Subset.refl _
  | step event action next ih =>
    rw [trace, trace]
    refine List.cons_subset_cons _ ?_
    cases action s with
    | ok b s' => exact ih b s'
    | error interrupt s' => exact List.Subset.refl _
  | sub task next ih =>
    rw [trace, trace]
    refine List.append_subset.mpr ⟨?_, ?_⟩
    · exact List.Subset.trans (hsub task s) (List.subset_append_left ..)
    · refine List.Subset.trans ?_ (List.subset_append_right ..)
      cases run task s with
      | ok b s' => exact ih b s'
      | error interrupt s' => exact List.Subset.refl _

/-- What a task does itself, and the tasks that it calls, without what these do in turn. -/
def Task.own : Nat → Task → State → List Moment
  | 0, _, _ => []
  | fuel + 1, task, s =>
    task.body.trace (fun task => task.run fuel) (fun task s => [.visit fuel task s]) s

/-- What a task does itself is a part of all that it does. -/
theorem Task.own_subset (fuel : Nat) (task : Task) (s : State) :
    task.own fuel s ⊆ task.trace fuel s := by
  cases fuel with
  | zero => exact List.nil_subset _
  | succ fuel =>
    rw [own, trace]
    refine List.Subset.trans (Plan.trace_mono ?_ _ s) (List.subset_cons_self ..)
    intro task s
    exact List.cons_subset.mpr ⟨task.visit_mem_trace fuel s, List.nil_subset _⟩

section

open Plan

variable {α β : Type} {run : (task : Task) → Eval task.Result} {sub : Task → State → List Moment}
  {moment : Moment} {fuel : Nat} {task : Task} {s state : State}

/-- What a plan does, it does also when another plan comes after it. -/
theorem trace_subset_bind (plan : Plan α) (next : α → Plan β) (s : State) :
    plan.trace run sub s ⊆ (plan >>= next).trace run sub s := by
  show _ ⊆ (plan.bind next).trace run sub s
  induction plan generalizing s with
  -- The plan has done all that it does; what happens from here on is the second plan's.
  | done a => exact List.nil_subset _
  | step event action rest ih =>
    rw [Plan.bind, trace, trace]
    refine List.cons_subset_cons _ ?_
    cases action s with
    | ok b s' => exact ih b s'
    | error interrupt s' => exact List.Subset.refl _
  | sub task rest ih =>
    rw [Plan.bind, trace, trace]
    refine List.append_subset.mpr ⟨List.subset_append_left .., ?_⟩
    refine List.Subset.trans ?_ (List.subset_append_right ..)
    cases run task s with
    | ok b s' => exact ih b s'
    | error interrupt s' => exact List.Subset.refl _

/-- Reading the store is a moment that changes nothing. -/
theorem mem_trace_read_bind {f : Store → β} {next : β → Plan α} :
    moment ∈ (act (Eval.read f) >>= next).trace run sub s ↔
      moment = .step .acts s s ∨ moment ∈ (next (f s.store)).trace run sub s := by
  show moment ∈ (Plan.step .acts (Eval.read f) next).trace run sub s ↔ _
  rw [trace, List.mem_cons]
  rfl

/-- What happens when a task is performed is the trace of the task, and what comes after it if it
succeeds. -/
theorem mem_trace_perform_bind {next : task.Result → Plan α} :
    moment ∈ (perform task >>= next).trace run sub s ↔
      moment ∈ sub task s ∨
        ∃ b s', run task s = .ok b s' ∧ moment ∈ (next b).trace run sub s' := by
  show moment ∈ (Plan.sub task next).trace run sub s ↔ _
  rw [trace, List.mem_append]
  cases run task s <;> simp [and_assoc]

/-- An action begins no task, so its trace has no visit. -/
theorem not_visit_act {action : Eval α} :
    .visit fuel task state ∉ (act action).trace run sub s := by
  unfold act
  rw [trace]
  cases action s <;> simp [trace]

/-- So a task that is begun is begun after the action, from a state in which it has succeeded. -/
theorem visit_mem_act_bind {action : Eval β} {next : β → Plan α} :
    .visit fuel task state ∈ (act action >>= next).trace run sub s ↔
      ∃ b s', action s = .ok b s' ∧ .visit fuel task state ∈ (next b).trace run sub s' := by
  show _ ∈ (Plan.step .acts action next).trace run sub s ↔ _
  rw [trace, List.mem_cons]
  cases action s <;> simp [and_assoc]

/-- After a reading the state is the same, and the reading has succeeded. -/
theorem visit_mem_read_bind {f : Store → β} {next : β → Plan α} :
    .visit fuel task state ∈ (act (Eval.read f) >>= next).trace run sub s ↔
      .visit fuel task state ∈ (next (f s.store)).trace run sub s := by
  simp [mem_trace_read_bind]

end

/-! ## The trace of a program

A failed statement ends neither the trace nor the session, except where the fuel is used up. -/

/-- What happens when statements are run one after the other, each of them also where the one
before it has failed. -/
def sessionTrace (fuel : Nat) (scope : ScopeId) : List Stmt → State → List Moment
  | [], _ => []
  | stmt :: rest, s =>
    (Task.execute scope stmt).trace fuel s ++
      match Eval.attempt (Eval.runStatement fuel scope stmt) s with
      | .ok _ s' => sessionTrace fuel scope rest s'
      | .error _ _ => []

/-- A statement of a program leaves the state that its execution leaves. -/
theorem attempt_runStatement_state (fuel : Nat) (scope : ScopeId) (stmt : Stmt) (s : State) :
    finalState (Eval.attempt (Eval.runStatement fuel scope stmt) s) =
      finalState ((Task.execute scope stmt).run fuel s) := by
  unfold Eval.attempt Eval.runStatement
  show _ = finalState (Eval.execute fuel scope stmt s)
  dsimp only [bind, EStateM.bind]
  cases Eval.execute fuel scope stmt s with
  | ok completion s' => cases completion <;> rfl
  | error interrupt s' => cases interrupt <;> rfl

/-- A task that is begun in the run of a program leaves its whole trace there. -/
theorem sessionTrace_subset {fuel fuel' : Nat} {scope : ScopeId} {program : List Stmt}
    {other : Task} {s s' : State} (h : .visit fuel' other s' ∈ sessionTrace fuel scope program s) :
    other.trace fuel' s' ⊆ sessionTrace fuel scope program s := by
  induction program generalizing s with
  | nil => cases h
  | cons stmt rest ih =>
    rw [sessionTrace] at h ⊢
    rcases List.mem_append.mp h with h | h
    · exact List.Subset.trans (Task.trace_subset h) (List.subset_append_left ..)
    · refine List.Subset.trans ?_ (List.subset_append_right ..)
      cases hrun : Eval.attempt (Eval.runStatement fuel scope stmt) s with
      | ok outcome s'' =>
        rw [hrun] at h
        exact ih h
      | error interrupt s'' =>
        rw [hrun] at h
        cases h

/-- The trace of a program ends where the run of the program ends. -/
theorem sessionTrace_state (fuel : Nat) (scope : ScopeId) (program : List Stmt) (s : State) :
    lastState s (sessionTrace fuel scope program s) =
      finalState (Eval.runEach fuel scope program s) := by
  induction program generalizing s with
  | nil => rfl
  | cons stmt rest ih =>
    rw [sessionTrace, lastState_append, Task.trace_state, ← attempt_runStatement_state]
    unfold Eval.runEach
    dsimp only [bind, EStateM.bind]
    cases Eval.attempt (Eval.runStatement fuel scope stmt) s with
    | error interrupt s' => rfl
    | ok outcome s' =>
      refine (ih s').trans ?_
      cases outcome with
      | ok value => rfl
      | error error =>
        dsimp only [EStateM.bind, Eval.outputSize]
        cases Eval.runEach fuel scope rest s' <;> rfl

end Script
