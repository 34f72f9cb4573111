import Script.Proofs.Run.Contract

/-!
# Contracts on top of others

Once a contract is known to hold of all moments of a run, a second one may rely on it. A *layer*
over a contract has its own idea of what must hold where a task begins and ends, but shares the
invariant and the relation between earlier and later states. So the lemmas of this module ask for
nothing about the states in between: what holds of them comes from the facts below.
-/

namespace Script

namespace Contract

variable {α β : Type} {C : Contract} {Occurs : Moment → Prop} {fuel : Nat} {s : State}
  {pre : Task → State → Prop} {post : (task : Task) → State → Outcome task.Result → Prop}

/-- The contract with other demands on where tasks begin and end. -/
def layer (C : Contract) (pre : Task → State → Prop)
    (post : (task : Task) → State → Outcome task.Result → Prop) : Contract where
  invariant := C.invariant
  later := C.later
  pre := pre
  post := post
  action := fun _ _ _ => True
  later_refl := C.later_refl
  later_trans := C.later_trans

section

variable (hfacts : ∀ moment, Occurs moment → C.Fact moment)
include hfacts

/-- An action, of which the layer below tells what it does to the state. -/
theorem layer_step {event : Event} {action : Eval β} {next : β → Plan α} {Q : Outcome α → Prop}
    (h : Occurs (.step event s (finalState (action s))) → C.invariant s →
      C.invariant (finalState (action s)) → C.later s (finalState (action s)) →
      match action s with
      | .ok b s' => (C.layer pre post).Meets Occurs fuel (next b) s' Q
      | .error interrupt s' => Q (.error interrupt s')) :
    (C.layer pre post).Meets Occurs fuel (.step event action next) s Q := by
  intro hoccurs
  obtain ⟨hbefore, hafter, hlater, -⟩ := hfacts _ hoccurs
  exact ⟨hafter, hlater, trivial, h hoccurs hbefore hafter hlater⟩

/-- A plan that is a single action. What the contract below has shown of the action may be used. -/
theorem layer_act {action : Eval α} {Q : Outcome α → Prop}
    (h : C.invariant s → C.invariant (finalState (action s)) →
      C.later s (finalState (action s)) → Q (action s)) :
    (C.layer pre post).Meets Occurs fuel (Plan.act action) s Q := by
  refine layer_step hfacts fun _ hbefore hafter hlater => ?_
  have hQ := h hbefore hafter hlater
  cases hrun : action s <;> rwa [hrun] at hQ

/-- A call, of which the layer below tells how it begins and ends. -/
theorem layer_sub {task : Task} {next : task.Result → Plan β} {Q : Outcome β → Prop}
    (hpre : C.invariant s → C.pre task s → pre task s)
    (herror : ∀ interrupt s', C.invariant s' → C.later s s' → post task s (.error interrupt s') →
      Q (.error interrupt s'))
    (hok : ∀ a s', C.invariant s' → C.later s s' → post task s (.ok a s') →
      (C.layer pre post).Meets Occurs fuel (next a) s' Q) :
    (C.layer pre post).Meets Occurs fuel (.sub task next) s Q := by
  intro hoccurs
  obtain ⟨hbefore, hbegun, hafter, hlater, -⟩ := hfacts _ hoccurs
  -- What the layer has to show of the call is added to what is known of it.
  refine ⟨hpre hbefore hbegun, fun _ _ hpost => ?_⟩
  have hpost : post task s (task.run fuel s) := hpost
  cases hrun : task.run fuel s with
  | ok a s' =>
    rw [hrun] at hafter hlater hpost
    exact hok a s' hafter hlater hpost
  | error interrupt s' =>
    rw [hrun] at hafter hlater hpost
    exact herror interrupt s' hafter hlater hpost

/-- A plan that is a single call. The task owes the condition of the new layer, and what the
contract below has shown of the call may be used. -/
theorem layer_perform {task : Task} {Q : Outcome task.Result → Prop}
    (hpre : C.invariant s → C.pre task s → pre task s)
    (h : ∀ outcome, C.invariant (finalState outcome) → C.later s (finalState outcome) →
      post task s outcome → Q outcome) :
    (C.layer pre post).Meets Occurs fuel (Plan.perform task) s Q :=
  layer_sub hfacts hpre (fun _ _ hinvariant hlater hpost => h _ hinvariant hlater hpost)
    fun _ _ hinvariant hlater hpost => h _ hinvariant hlater hpost

end

end Contract

end Script
