import Script.Proofs.Run.Output

/-!
# The bound on nested steps

A run either gives out at its bound, or comes to an outcome that no larger bound changes. And a run
that gives out has printed nothing that the same run with a larger bound does not print as well
(`Task.run_more`). So it makes sense to speak of the outcome that a task comes to, if it comes to
one (`Task.EndsIn`).
-/

namespace Script

/-! ## More output

Output is only ever added. -/

/-- What has been printed in the first state has been printed in the second one, with more after it
maybe. -/
def State.PrintsOn (s s' : State) : Prop :=
  ∃ more : ByteArray, s'.output.accepted = s.output.accepted ++ more

namespace State.PrintsOn

/-- Where the output is the same, nothing more was printed. -/
theorem of_output_eq {s s' : State} (h : s'.output = s.output) : s.PrintsOn s' :=
  ⟨.empty, by rw [h, ByteArray.append_empty]⟩

/-- In particular, in one and the same state. -/
theorem refl (s : State) : s.PrintsOn s := of_output_eq rfl

/-- What is printed first stays, whatever is printed then. -/
theorem trans {s₁ s₂ s₃ : State} (h : s₁.PrintsOn s₂) (h' : s₂.PrintsOn s₃) : s₁.PrintsOn s₃ := by
  obtain ⟨more, hmore⟩ := h
  obtain ⟨rest, hrest⟩ := h'
  exact ⟨more ++ rest, by rw [hrest, hmore, ByteArray.append_assoc]⟩

end State.PrintsOn

/-- Writing adds to what has been taken, or leaves it. -/
theorem Sink.write_accepted (sink : Sink) (text : String) :
    ∃ more, (sink.write text).1.accepted = sink.accepted ++ more := by
  unfold Sink.write
  dsimp only
  split
  · exact ⟨_, rfl⟩
  · split <;> exact ⟨_, rfl⟩

/-- Nothing that was printed is taken back: the output at the end goes on from the one at the start,
whether or not all of the text was taken. -/
theorem Prints.printsOn {α : Type} {x : Eval α} (h : Prints x) (s : State) :
    s.PrintsOn (finalState (x s)) := by
  obtain ⟨text, outcome, hdelivers⟩ := h s
  obtain ⟨more, hmore⟩ := s.output.write_accepted text
  refine ⟨more, ?_⟩
  rw [← hmore]
  cases hwrite : s.output.write text with
  | mk sink refusal =>
    cases refusal with
    | none =>
      have hrun : x s = withOutput sink outcome := hdelivers.taken hwrite
      rw [hrun]
      cases outcome <;> rfl
    | some reason =>
      obtain ⟨s', hrun⟩ := hdelivers.refused hwrite
      have hrun : x s = .error (.error (.output reason)) { s' with output := sink } := hrun
      rw [hrun]
      rfl

/-! ## More fuel

A run that gives out has come to no outcome, so a run with more fuel may come to any; but it gets at
least as far. -/

/-- The second outcome is the first one, unless the first run gave out. Then the second run has at
least printed what the first one has. -/
def More {α : Type} (outcome outcome' : Outcome α) : Prop :=
  outcome' = outcome ∨ ∃ s, outcome = .error .outOfFuel s ∧ s.PrintsOn (finalState outcome')

theorem More.refl {α : Type} (outcome : Outcome α) : More outcome outcome := .inl rfl

/-- Of two evaluations in a row, both may have more fuel. -/
theorem More.bind {α β : Type} {x x' : Eval α} {k k' : α → Eval β} {s : State}
    (h : More (x s) (x' s)) (hk : ∀ a s', x s = .ok a s' → More (k a s') (k' a s'))
    (hprints : ∀ a, Prints (k' a)) : More ((x >>= k) s) ((x' >>= k') s) := by
  rcases h with hsame | ⟨s₁, hexhausted, houtput⟩
  · cases hrun : x s with
    | ok a s' =>
      rw [Eval.bind_of_ok hrun, Eval.bind_of_ok (hsame.trans hrun)]
      exact hk a s' hrun
    | error interrupt s' =>
      rw [Eval.bind_of_error hrun, Eval.bind_of_error (hsame.trans hrun)]
      exact .refl _
  -- What only the second run comes to takes nothing back.
  · refine .inr ⟨s₁, Eval.bind_of_error hexhausted, houtput.trans ?_⟩
    cases hrun : x' s with
    | ok a s' =>
      rw [Eval.bind_of_ok hrun]
      exact (hprints a).printsOn s'
    | error interrupt s' =>
      rw [Eval.bind_of_error hrun]
      exact .refl s'

/-- A plan has more fuel if the tasks that it calls have. -/
theorem Plan.eval_more {α : Type} {run run' : (task : Task) → Eval task.Result} {task : Task}
    {T : Task → Prop} {plan : Plan α} (hplan : plan.MadeOf (fun _ => True) task.Acts T)
    (hmore : ∀ other s, More (run other s) (run' other s)) (hprints : ∀ other, Prints (run' other))
    (s : State) : More (plan.eval run s) (plan.eval run' s) := by
  induction plan generalizing s with
  | done a => exact .refl _
  | step event action next ih =>
    unfold eval
    cases haction : action s with
    | ok b s' =>
      rw [Eval.bind_of_ok haction, Eval.bind_of_ok haction]
      exact ih b (hplan.2 s b s' trivial haction) s'
    | error interrupt s' =>
      rw [Eval.bind_of_error haction, Eval.bind_of_error haction]
      exact .refl _
  | sub other next ih =>
    unfold eval
    exact (hmore other s).bind (fun b s' _ => ih b (hplan.2 b) s')
      fun b => Plan.prints (hplan.2 b) hprints

/-- More fuel changes no outcome that is one, and takes no output away. -/
theorem Task.run_more {fuel fuel' : Nat} (h : fuel ≤ fuel') (task : Task) (s : State) :
    More (task.run fuel s) (task.run fuel' s) := by
  induction fuel generalizing fuel' task s with
  | zero =>
    rw [run_zero]
    exact .inr ⟨s, rfl, (task.prints fuel').printsOn s⟩
  | succ fuel ih =>
    obtain ⟨fuel', rfl⟩ : ∃ n, fuel' = n + 1 := ⟨fuel' - 1, by omega⟩
    rw [run_succ, run_succ]
    exact Plan.eval_more (task.madeOf _) (fun other s => ih (by omega) other s)
      (fun other => other.prints fuel') s

/-! ## Outcomes

An outcome that is reached at all is reached with every larger bound, so it does not depend on the
bound. -/

/-- Begun in this state, the task comes to the outcome, which is a result or an error, with all
bounds that are large enough. -/
def Task.EndsIn (task : Task) (s : State) (outcome : Outcome task.Result) : Prop :=
  (∀ s', outcome ≠ .error .outOfFuel s') ∧ ∃ fuel, task.run fuel s = outcome

/-- More fuel does not change an outcome that has been reached. -/
theorem Task.EndsIn.run_of_le {task : Task} {s : State} {outcome : Outcome task.Result}
    {fuel fuel' : Nat} (hends : ∀ s', outcome ≠ .error .outOfFuel s')
    (hrun : task.run fuel s = outcome) (h : fuel ≤ fuel') : task.run fuel' s = outcome := by
  rcases task.run_more h s with hsame | ⟨s', hexhausted, -⟩
  · exact hsame.trans hrun
  · exact absurd (hrun.symm.trans hexhausted) (hends s')

/-- A task comes to one outcome at most. -/
theorem Task.EndsIn.unique {task : Task} {s : State} {outcome outcome' : Outcome task.Result}
    (h : task.EndsIn s outcome) (h' : task.EndsIn s outcome') : outcome' = outcome := by
  obtain ⟨hends, fuel, hrun⟩ := h
  obtain ⟨hends', fuel', hrun'⟩ := h'
  have hlarge := run_of_le hends hrun (Nat.le_max_left fuel fuel')
  have hlarge' := run_of_le hends' hrun' (Nat.le_max_right fuel fuel')
  exact hlarge'.symm.trans hlarge

end Script
