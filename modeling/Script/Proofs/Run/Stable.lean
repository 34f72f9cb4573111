import Script.Proofs.Run.Uniform

/-!
# What every change respects

The evaluator has few ways to change a state. A relation between states that each of them respects
holds from before to after every single step of every run (`Stable.step`). If it is transitive, it
also holds from the beginning of every run to its end, however the run ends (`Stable.run`), and
between any two states in between (`Stable.session_states`). Nothing is asked of the task or of
the state that the run begins in.
-/

namespace Script

/-- A relation that holds from before to after every change of a state. -/
structure Stable (R : State → State → Prop) : Prop where
  refl : ∀ s, R s s
  newScope : ∀ (s : State) enclosing bindings,
    R s { s with store := (s.store.newScope enclosing bindings).2 }
  bind : ∀ (s : State) scope name value, R s { s with store := s.store.bind scope name value }
  newFunctions : ∀ (s : State) closure decls,
    R s { s with store := (s.store.newFunctions closure decls).2 }
  newBoundMethod : ∀ (s : State) method receiver declaringClass,
    R s { s with store := (s.store.newBoundMethod method receiver declaringClass).2 }
  newClass : ∀ (s : State) name ancestors methods,
    R s { s with store := (s.store.newClass name ancestors methods).2 }
  newInstance : ∀ (s : State) ofClass, R s { s with store := (s.store.newInstance ofClass).2 }
  setProperty : ∀ (s : State) object name value store,
    s.store.setProperty object name value = .ok store → R s { s with store := store }
  write : ∀ s text, R s (finalState (Eval.write text s))
  readClock : ∀ s, R s (finalState (Eval.readClock s))

namespace Stable

variable {R : State → State → Prop} (h : Stable R)

include h

/-- Each action of a task is one of these changes. -/
theorem changes {task : Task} {s s' : State} (hchanges : task.Changes s s') : R s s' := by
  cases hchanges with
  | nothing => exact h.refl s
  | newScope enclosing bindings => exact h.newScope s enclosing bindings
  | bind scope name value => exact h.bind s scope name value
  | newFunctions closure hdecls => exact h.newFunctions s closure _
  | newBoundMethod method receiver declaringClass =>
    exact h.newBoundMethod s method receiver declaringClass
  | newClass name ancestors methods => exact h.newClass s name ancestors methods
  | newInstance ofClass => exact h.newInstance s ofClass
  | setProperty _ hset => exact h.setProperty s _ _ _ _ hset
  | write text => exact h.write s text
  | readClock => exact h.readClock s

/-- Nothing is asked of tasks or states, so that this holds of all of them. -/
theorem uniform : Uniform (fun _ => True) R (fun _ => True) fun _ => True where
  exhausted := trivial
  keeps := fun _ hchanges _ => ⟨trivial, h.changes hchanges⟩
  fails := fun _ _ => trivial
  calls := fun _ _ => trivial

/-- Every step of a session respects the relation. -/
theorem step {fuel : Nat} {scope : ScopeId} {program : List Stmt} {s before after : State}
    {event : Event} (hstep : .step event before after ∈ sessionTrace fuel scope program s) :
    R before after := by
  obtain ⟨s', hends⟩ := h.uniform.session_ends (fun _ _ => trivial) trivial fuel
  obtain ⟨-, -, -, haction⟩ := hends.covers.facts _ hstep
  exact haction

variable (htrans : ∀ {s₁ s₂ s₃}, R s₁ s₂ → R s₂ s₃ → R s₁ s₃)

include htrans

/-- A relation that is transitive holds across any number of changes. -/
theorem of_later {s s' : State} (hlater : Relation.ReflTransGen R s s') : R s s' := by
  induction hlater with
  | refl => exact h.refl s
  | tail _ hstep ih => exact htrans ih hstep

/-- However a task ends, the state it leaves is related to the one it began in. -/
theorem run (fuel : Nat) (task : Task) (s : State) : R s (finalState (task.run fuel s)) := by
  have hends : (Uniform.contract _ R _ _).Ends (task.trace fuel s) s
      (finalState (task.run fuel s)) := (h.uniform.run_ends trivial trivial fuel).2
  exact h.of_later htrans hends.later

/-- Any two states of a session are related, the earlier one to the later one. -/
theorem session_states (fuel : Nat) (scope : ScopeId) (program : List Stmt) (s : State) :
    (s :: statesOf (sessionTrace fuel scope program s)).Pairwise R := by
  obtain ⟨s', hends⟩ : ∃ s', (Uniform.contract _ R _ _).Ends
      (sessionTrace fuel scope program s) s s' :=
    h.uniform.session_ends (fun _ _ => trivial) trivial fuel
  exact hends.covers.states.imp (h.of_later htrans)

end Stable

end Script
