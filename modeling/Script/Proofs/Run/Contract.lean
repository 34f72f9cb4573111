import Script.Proofs.Run.Trace

/-!
# Contracts

A contract says of every task what must hold where it begins (`pre`) and what then holds of its
outcome (`post`), and of every action of a run what it does to the state. `Contract.Kept` is the
obligation: the plan of each task, taken by itself, meets the contract, where the tasks that it
calls are known to meet it. `Contract.task_covers` concludes from it, by induction on the fuel,
what holds of every moment of every run, and `Contract.session_covers` the same for programs.

Obligations may use that the moments of the run belong to some set `Occurs`. With the trace of a
whole program for this set, a contract can speak about what has happened elsewhere in the run, and
it can build on the facts that an earlier contract has established for all moments.
-/

namespace Script

/-- What is asked of a task, what is promised of it, and what is said of the states and actions on
the way. -/
structure Contract where
  /-- What holds of the state at all times. -/
  invariant : State → Prop
  /-- How a state is related to the states after it. -/
  later : State → State → Prop
  /-- What holds where a task begins. -/
  pre : Task → State → Prop
  /-- What holds of the outcome of a task that began in this state. -/
  post : (task : Task) → State → Outcome task.Result → Prop
  /-- What holds of a single action, by the states before and after it. -/
  action : Event → State → State → Prop
  later_refl : ∀ s, later s s
  later_trans : ∀ {s₁ s₂ s₃}, later s₁ s₂ → later s₂ s₃ → later s₁ s₃

namespace Contract

variable {α β : Type} {C : Contract} {Occurs : Moment → Prop} {fuel : Nat} {s s₁ s₂ : State}

/-- The plan meets the contract from `s` on and ends in an outcome with the property `Q`, provided
that the tasks that it calls meet the contract. -/
def Meets (C : Contract) (Occurs : Moment → Prop) (fuel : Nat) :
    Plan α → State → (Outcome α → Prop) → Prop
  | .done a, s, Q => Q (.ok a s)
  | .step event action next, s, Q =>
    Occurs (.step event s (finalState (action s))) →
      C.invariant (finalState (action s)) ∧ C.later s (finalState (action s)) ∧
      C.action event s (finalState (action s)) ∧
      match action s with
      | .ok b s' => C.Meets Occurs fuel (next b) s' Q
      | .error interrupt s' => Q (.error interrupt s')
  | .sub task next, s, Q =>
    Occurs (.visit fuel task s) →
      C.pre task s ∧
      (C.invariant (finalState (task.run fuel s)) → C.later s (finalState (task.run fuel s)) →
        C.post task s (task.run fuel s) →
          match task.run fuel s with
          | .ok b s' => C.Meets Occurs fuel (next b) s' Q
          | .error interrupt s' => Q (.error interrupt s'))

/-- The plan of every task meets the contract. -/
structure Kept (C : Contract) (Occurs : Moment → Prop) : Prop where
  exhausted : ∀ {task s}, C.invariant s → C.pre task s → C.post task s (.error .outOfFuel s)
  body : ∀ {fuel task s}, Occurs (.visit (fuel + 1) task s) → C.invariant s → C.pre task s →
    C.Meets Occurs fuel task.body s (C.post task s)

/-! ## Plans made of parts

A plan in several parts is gone through one part after the other, as the program is. -/

/-- What is left to show of `plan >>= f` after `plan` has ended. -/
def andThen (C : Contract) (Occurs : Moment → Prop) (fuel : Nat) (f : α → Plan β)
    (Q : Outcome β → Prop) : Outcome α → Prop
  | .ok a s => C.Meets Occurs fuel (f a) s Q
  | .error interrupt s => Q (.error interrupt s)

/-- To meet a contract with two plans in a row, what is shown of the first one is what the second
one needs. -/
theorem meets_bind {plan : Plan α} {f : α → Plan β} {Q : Outcome β → Prop}
    (h : C.Meets Occurs fuel plan s (C.andThen Occurs fuel f Q)) :
    C.Meets Occurs fuel (plan >>= f) s Q := by
  show C.Meets Occurs fuel (plan.bind f) s Q
  -- The induction is on the first plan, which is used up step by step. At its end the hypothesis is
  -- what the second plan has to meet.
  induction plan generalizing s with
  | done a => exact h
  | step event action next ih =>
    -- An action ends the plan if it fails; then the property is that of the whole.
    intro hoccurs
    obtain ⟨hinvariant, hlater, haction, h⟩ := h hoccurs
    refine ⟨hinvariant, hlater, haction, ?_⟩
    cases hrun : action s with
    | ok b s' =>
      rw [hrun] at h
      exact ih b h
    | error interrupt s' =>
      rw [hrun] at h
      exact h
  | sub task next ih =>
    intro hoccurs
    -- A task that is called owes its own condition first, and what it leaves is known from its
    -- contract only.
    obtain ⟨hpre, h⟩ := h hoccurs
    refine ⟨hpre, fun hinvariant hlater hpost => ?_⟩
    have h := h hinvariant hlater hpost
    cases hrun : task.run fuel s with
    | ok b s' =>
      rw [hrun] at h
      exact ih b h
    | error interrupt s' =>
      rw [hrun] at h
      exact h

/-- A plan that meets a contract with one property of the outcome meets it with a weaker one.
Nothing is asked of the steps that was not asked before. -/
theorem Meets.mono {plan : Plan α} {P Q : Outcome α → Prop} (h : C.Meets Occurs fuel plan s P)
    (himp : ∀ outcome, P outcome → Q outcome) : C.Meets Occurs fuel plan s Q := by
  induction plan generalizing s with
  | done a => exact himp _ h
  | step event action next ih =>
    intro hoccurs
    obtain ⟨hinvariant, hlater, haction, h⟩ := h hoccurs
    refine ⟨hinvariant, hlater, haction, ?_⟩
    cases hrun : action s with
    | ok b s' =>
      rw [hrun] at h
      exact ih b h
    | error interrupt s' =>
      rw [hrun] at h
      exact himp _ h
  | sub task next ih =>
    intro hoccurs
    obtain ⟨hpre, h⟩ := h hoccurs
    refine ⟨hpre, fun hinvariant hlater hpost => ?_⟩
    have h := h hinvariant hlater hpost
    cases hrun : task.run fuel s with
    | ok b s' =>
      rw [hrun] at h
      exact ih b h
    | error interrupt s' =>
      rw [hrun] at h
      exact himp _ h

/-- A plan that performs one task has the outcome of the task. -/
theorem meets_perform {task : Task} {Q : Outcome task.Result → Prop} (hpre : C.pre task s)
    (h : C.invariant (finalState (task.run fuel s)) → C.later s (finalState (task.run fuel s)) →
      C.post task s (task.run fuel s) → Q (task.run fuel s)) :
    C.Meets Occurs fuel (Plan.perform task) s Q := by
  intro _
  refine ⟨hpre, fun hinvariant hlater hpost => ?_⟩
  have hQ := h hinvariant hlater hpost
  cases hrun : task.run fuel s <;> rwa [hrun] at hQ

/-- A plan that acts once has to keep the invariant by that one action. -/
theorem meets_act {action : Eval α} {Q : Outcome α → Prop}
    (hinvariant : C.invariant (finalState (action s))) (hlater : C.later s (finalState (action s)))
    (haction : C.action .acts s (finalState (action s))) (h : Q (action s)) :
    C.Meets Occurs fuel (Plan.act action) s Q := by
  intro _
  refine ⟨hinvariant, hlater, haction, ?_⟩
  cases hrun : action s <;> rwa [hrun] at h

/-! ## Runs

From plans to runs: by induction on a plan for what it does itself, and on the fuel for the tasks
that it calls. -/

/-- What the contract says about a moment of a run. A task that is begun also ends as the contract
says. -/
def Fact (C : Contract) : Moment → Prop
  | .visit fuel task s =>
    C.invariant s ∧ C.pre task s ∧ C.invariant (finalState (task.run fuel s)) ∧
      C.later s (finalState (task.run fuel s)) ∧ C.post task s (task.run fuel s)
  | .step event s s' => C.invariant s ∧ C.invariant s' ∧ C.later s s' ∧ C.action event s s'

/-- The contract holds of all these moments, which lead from `s` to `s'`. -/
structure Covers (C : Contract) (moments : List Moment) (s s' : State) : Prop where
  facts : ∀ moment ∈ moments, C.Fact moment
  start : ∀ moment ∈ moments, C.later s moment.before
  order : moments.Pairwise fun m₁ m₂ => C.later m₁.after m₂.before
  finish : ∀ moment ∈ moments, C.later moment.after s'

/-- Nothing happens, so there is nothing to show. -/
theorem Covers.nil (s s' : State) : C.Covers [] s s' where
  facts := fun _ h => nomatch h
  start := fun _ h => nomatch h
  order := .nil
  finish := fun _ h => nomatch h

/-- Moments in two parts, where the first part leads to the state in which the second one begins. -/
theorem Covers.append {a b : List Moment} {s s' : State} (ha : C.Covers a s s₁)
    (hb : C.Covers b s₁ s') (hlater : C.later s s₁) (hlater' : C.later s₁ s') :
    C.Covers (a ++ b) s s' where
  facts := fun moment hmem => (List.mem_append.mp hmem).elim (ha.facts moment) (hb.facts moment)
  start := fun moment hmem => (List.mem_append.mp hmem).elim (ha.start moment)
    fun hmem => C.later_trans hlater (hb.start moment hmem)
  order := List.pairwise_append.mpr ⟨ha.order, hb.order, fun m₁ h₁ m₂ h₂ =>
    C.later_trans (ha.finish m₁ h₁) (hb.start m₂ h₂)⟩
  finish := fun moment hmem => (List.mem_append.mp hmem).elim
    (fun hmem => C.later_trans (ha.finish moment hmem) hlater') (hb.finish moment)

theorem Covers.cons {moment : Moment} {moments : List Moment} {s s' : State}
    (hfact : C.Fact moment) (hstart : C.later s moment.before)
    (hmoment : C.later moment.before moment.after) (h : C.Covers moments moment.after s')
    (hfinish : C.later moment.after s') : C.Covers (moment :: moments) s s' := by
  have hsingle : C.Covers [moment] s moment.after :=
    { facts := fun m hm => by rw [List.mem_singleton.mp hm]; exact hfact
      start := fun m hm => by rw [List.mem_singleton.mp hm]; exact hstart
      order := List.pairwise_singleton _ _
      finish := fun m hm => by rw [List.mem_singleton.mp hm]; exact C.later_refl _ }
  exact hsingle.append h (C.later_trans hstart hmoment) hfinish

/-- What a run that begins in a good state has to offer. -/
structure Ends (C : Contract) (moments : List Moment) (s s' : State) : Prop where
  invariant : C.invariant s'
  later : C.later s s'
  covers : C.Covers moments s s'

/-- The states of a run come in the order in which they are passed. -/
theorem Covers.states {moments : List Moment} {s s' : State} (h : C.Covers moments s s') :
    (s :: statesOf moments).Pairwise C.later := by
  have hmoment : ∀ moment ∈ moments, C.later moment.before moment.after := by
    intro moment hmem
    cases moment with
    | visit fuel task state => exact C.later_refl _
    | step event before after => exact (h.facts _ hmem).2.2.1
  rw [List.pairwise_cons]
  constructor
  -- The first state comes before all others.
  · intro state hstate
    obtain ⟨moment, hmem, hstate⟩ := List.mem_flatMap.mp hstate
    rcases List.mem_cons.mp hstate with rfl | hstate
    · exact h.start moment hmem
    · rw [List.mem_singleton.mp hstate]
      exact C.later_trans (h.start moment hmem) (hmoment moment hmem)
  · unfold statesOf
    rw [List.pairwise_flatMap]
    refine ⟨fun moment hmem => List.pairwise_pair.mpr (hmoment moment hmem), ?_⟩
    -- From a state of one moment to one of a later moment: to the end of the first, on to the
    -- beginning of the second.
    refine h.order.imp_of_mem fun {m₁ m₂} h₁ h₂ hlater => ?_
    intro a ha b hb
    have hfirst : C.later a m₁.after := by
      rcases List.mem_cons.mp ha with rfl | ha
      · exact hmoment m₁ h₁
      · rw [List.mem_singleton.mp ha]
        exact C.later_refl _
    have hlast : C.later m₂.before b := by
      rcases List.mem_cons.mp hb with rfl | hb
      · exact C.later_refl _
      · rw [List.mem_singleton.mp hb]
        exact hmoment m₂ h₂
    exact C.later_trans (C.later_trans hfirst hlater) hlast

/-- In each state of the trace the invariant holds: in that of a visit, and in the two around an
action. -/
theorem Covers.invariant {moments : List Moment} {s s' state : State}
    (h : C.Covers moments s s') (hstate : state ∈ statesOf moments) : C.invariant state := by
  obtain ⟨moment, hmem, hstate⟩ := List.mem_flatMap.mp hstate
  have hfact := h.facts moment hmem
  cases moment with
  | visit fuel task before =>
    rcases List.mem_cons.mp hstate with rfl | hstate
    · exact hfact.1
    · rw [List.mem_singleton.mp hstate]
      exact hfact.1
  | step event before after =>
    rcases List.mem_cons.mp hstate with rfl | hstate
    · exact hfact.1
    · rw [List.mem_singleton.mp hstate]
      exact hfact.2.1

/-- The last state is later than each state of the trace, the one at the start included. -/
theorem Ends.later_of_state {moments : List Moment} {s s' state : State}
    (h : C.Ends moments s s') (hstate : state ∈ s :: statesOf moments) : C.later state s' := by
  rcases List.mem_cons.mp hstate with rfl | hstate
  · exact h.later
  · obtain ⟨moment, hmem, hstate⟩ := List.mem_flatMap.mp hstate
    have hfinish := h.covers.finish moment hmem
    rcases List.mem_cons.mp hstate with rfl | hstate
    · cases moment with
      | visit fuel task before => exact hfinish
      | step event before after =>
        exact C.later_trans (h.covers.facts _ hmem).2.2.1 hfinish
    · rwa [List.mem_singleton.mp hstate]

/-- A plan that meets the contract is carried out as the contract says, where the tasks that it
calls are run so. -/
theorem Meets.ends {plan : Plan α} {Q : Outcome α → Prop} (h : C.Meets Occurs fuel plan s Q)
    (hinvariant : C.invariant s)
    (htrace : ∀ moment ∈ plan.trace (fun task => task.run fuel) (fun task => task.trace fuel) s,
      Occurs moment)
    (hsub : ∀ task s, C.invariant s → C.pre task s →
      (∀ moment ∈ task.trace fuel s, Occurs moment) →
      C.post task s (task.run fuel s) ∧
        C.Ends (task.trace fuel s) s (finalState (task.run fuel s))) :
    Q (plan.eval (fun task => task.run fuel) s) ∧
      C.Ends (plan.trace (fun task => task.run fuel) (fun task => task.trace fuel) s) s
        (finalState (plan.eval (fun task => task.run fuel) s)) := by
  induction plan generalizing s with
  | done a => exact ⟨h, hinvariant, C.later_refl s, .nil s s⟩
  | step event action next ih =>
    rw [Plan.trace] at htrace ⊢
    obtain ⟨hinvariant', hlater, haction, h⟩ := h (htrace _ (.head _))
    have hfact : C.Fact (.step event s (finalState (action s))) :=
      ⟨hinvariant, hinvariant', hlater, haction⟩
    -- An error ends the plan with the action, which is the only moment then.
    show Q (EStateM.bind action _ s) ∧ C.Ends _ s (finalState (EStateM.bind action _ s))
    unfold EStateM.bind
    cases hrun : action s with
    | error interrupt s' =>
      simp only [hrun, finalState_error] at h hfact hinvariant' hlater ⊢
      exact ⟨h, hinvariant', hlater, .cons hfact (C.later_refl s) hlater (.nil _ _)
        (C.later_refl s')⟩
    | ok b s' =>
      simp only [hrun, finalState_ok] at h hfact hinvariant' hlater htrace ⊢
      obtain ⟨hQ, hends⟩ := ih b h hinvariant' fun moment hm => htrace moment (.tail _ hm)
      exact ⟨hQ, hends.invariant, C.later_trans hlater hends.later,
        .cons hfact (C.later_refl s) hlater hends.covers hends.later⟩
  | sub task next ih =>
    rw [Plan.trace] at htrace ⊢
    have hvisit := htrace _ (List.mem_append_left _ (task.visit_mem_trace fuel s))
    obtain ⟨hpre, h⟩ := h hvisit
    obtain ⟨hpost, hends⟩ := hsub task s hinvariant hpre fun moment hm =>
      htrace moment (List.mem_append_left _ hm)
    -- The called task keeps the contract, so that the rest of the plan may go on.
    have h := h hends.invariant hends.later hpost
    show Q (EStateM.bind (task.run fuel) _ s) ∧
      C.Ends _ s (finalState (EStateM.bind (task.run fuel) _ s))
    unfold EStateM.bind
    cases hrun : task.run fuel s with
    | error interrupt s' =>
      simp only [hrun, finalState_error, List.append_nil] at h hends ⊢
      exact ⟨h, hends⟩
    | ok b s' =>
      simp only [hrun, finalState_ok] at h hends htrace ⊢
      obtain ⟨hQ, hends'⟩ := ih b h hends.invariant fun moment hm =>
        htrace moment (List.mem_append_right _ hm)
      exact ⟨hQ, hends'.invariant, C.later_trans hends.later hends'.later,
        hends.covers.append hends'.covers hends.later hends'.later⟩

/-- Every run of a task that begins as the contract asks goes on and ends as the contract says. -/
theorem task_covers (hkept : C.Kept Occurs) {fuel : Nat} {task : Task} {s : State}
    (hinvariant : C.invariant s) (hpre : C.pre task s)
    (htrace : ∀ moment ∈ task.trace fuel s, Occurs moment) :
    C.post task s (task.run fuel s) ∧
      C.Ends (task.trace fuel s) s (finalState (task.run fuel s)) := by
  induction fuel generalizing task s with
  | zero =>
    -- Without fuel the visit is the only moment.
    have hpost := hkept.exhausted hinvariant hpre
    have hfact : C.Fact (.visit 0 task s) := by
      rw [Fact, Task.run_zero]
      exact ⟨hinvariant, hpre, hinvariant, C.later_refl s, hpost⟩
    rw [Task.run_zero]
    exact ⟨hpost, hinvariant, C.later_refl s,
      .cons hfact (C.later_refl s) (C.later_refl s) (.nil _ _) (C.later_refl s)⟩
  | succ fuel ih =>
    have hoccurs := htrace _ (task.visit_mem_trace (fuel + 1) s)
    rw [Task.trace] at htrace ⊢
    have hbody := hkept.body hoccurs hinvariant hpre
    obtain ⟨hpost, hends⟩ := hbody.ends hinvariant (fun moment hm => htrace moment (.tail _ hm))
      fun _ _ => ih
    rw [← Task.run_succ] at hpost hends
    have hfact : C.Fact (.visit (fuel + 1) task s) :=
      ⟨hinvariant, hpre, hends.invariant, hends.later, hpost⟩
    exact ⟨hpost, hends.invariant, hends.later,
      .cons hfact (C.later_refl s) (C.later_refl s) hends.covers hends.later⟩

/-- The same for programs, with a property `Between` of the states between their statements. -/
theorem session_covers (hkept : C.Kept Occurs) {Between : State → Prop} {fuel : Nat}
    {scope : ScopeId} {program : List Stmt} {s : State}
    (hpre : ∀ stmt ∈ program, ∀ s, C.invariant s → Between s → C.pre (.execute scope stmt) s)
    (hpost : ∀ stmt ∈ program, ∀ s outcome, C.post (.execute scope stmt) s outcome →
      Between (finalState outcome))
    (hinvariant : C.invariant s) (hbetween : Between s)
    (htrace : ∀ moment ∈ sessionTrace fuel scope program s, Occurs moment) :
    ∃ s', C.Ends (sessionTrace fuel scope program s) s s' ∧ Between s' := by
  induction program generalizing s with
  | nil => exact ⟨s, ⟨hinvariant, C.later_refl s, .nil s s⟩, hbetween⟩
  | cons stmt rest ih =>
    rw [sessionTrace] at htrace ⊢
    obtain ⟨hstmt, hends⟩ := task_covers hkept hinvariant
      (hpre stmt (.head _) s hinvariant hbetween) fun moment hm =>
        htrace moment (List.mem_append_left _ hm)
    -- An error ends the statement, not the program.
    have hbetween' := hpost stmt (.head _) s _ hstmt
    rw [← attempt_runStatement_state] at hends hbetween'
    cases hrun : Eval.attempt (Eval.runStatement fuel scope stmt) s with
    | error interrupt s' =>
      rw [hrun] at hends hbetween'
      dsimp only
      rw [List.append_nil]
      exact ⟨_, hends, hbetween'⟩
    | ok outcome s' =>
      rw [hrun] at hends hbetween'
      simp only [hrun] at htrace
      obtain ⟨s'', hends', hlast⟩ := ih (fun stmt hmem => hpre stmt (.tail _ hmem))
        (fun stmt hmem => hpost stmt (.tail _ hmem)) hends.invariant hbetween'
        fun moment hm => htrace moment (List.mem_append_right _ hm)
      exact ⟨s'', ⟨hends'.invariant, C.later_trans hends.later hends'.later,
        hends.covers.append hends'.covers hends.later hends'.later⟩, hlast⟩

end Contract

end Script
