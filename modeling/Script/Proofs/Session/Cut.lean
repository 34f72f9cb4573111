import Script.Proofs.Session.Alike

/-!
# Stopping at the first failure and going on after it

`Eval.run` stops at the first statement that fails, and `Eval.runEach` goes on. The first is the
second cut at its first failure (`run_cut`): up to there both do the same.
-/

namespace Script

namespace Eval

/-- The failure, and then the failures that the evaluation yields. -/
def reportBefore (failure : Failure) : Outcome (List Failure) → Outcome (List Failure)
  | .ok failures s => .ok (failure :: failures) s
  | .error interrupt s => .error interrupt s

variable {fuel : Nat} {scope : ScopeId}

/-- The first statement, and then the others, whether it fails or not. A failure is kept in front of
the later ones, with the number of bytes that had been printed; only being out of fuel, or a tree
that is none, ends the whole run. -/
theorem runEach_cons (stmt : Stmt) (rest : List Stmt) (s : State) :
    runEach fuel scope (stmt :: rest) s =
      match runStatement fuel scope stmt s with
      | .ok _ s' => runEach fuel scope rest s'
      | .error (.error error) s' =>
        reportBefore ⟨error, s'.output.accepted.size⟩ (runEach fuel scope rest s')
      | .error interrupt s' => .error interrupt s' := by
  rw [runEach]
  show EStateM.bind (attempt (runStatement fuel scope stmt)) _ s = _
  unfold EStateM.bind attempt
  cases runStatement fuel scope stmt s with
  | ok value s' => rfl
  | error interrupt s' =>
    cases interrupt with
    | error error =>
      show EStateM.bind (runEach fuel scope rest) _ s' = reportBefore _ _
      unfold EStateM.bind
      cases runEach fuel scope rest s' <;> rfl
    | malformed => rfl
    | outOfFuel => rfl

/-- The statements, run up to the first failure; the value is that of the last statement, and
`value` where there is none. -/
def runFrom (fuel : Nat) (scope : ScopeId) (value : Value) (statements : List Stmt) : Eval Value :=
  statements.foldlM (fun _ stmt => runStatement fuel scope stmt) value

/-- The first statement, and then the others if it does not fail. -/
theorem runFrom_cons (value : Value) (stmt : Stmt) (rest : List Stmt) (s : State) :
    runFrom fuel scope value (stmt :: rest) s =
      match runStatement fuel scope stmt s with
      | .ok value' s' => runFrom fuel scope value' rest s'
      | .error interrupt s' => .error interrupt s' := by
  unfold runFrom
  rw [List.foldlM_cons]
  show EStateM.bind (runStatement fuel scope stmt) _ s = _
  unfold EStateM.bind
  cases runStatement fuel scope stmt s <;> rfl

/-- How the run that goes on after failures ends, by how the run that stops has ended. -/
def CutAt (fuel : Nat) (scope : ScopeId) (program : List Stmt) (s : State) :
    Outcome Value → Prop
  | .ok _ s' => runEach fuel scope program s = .ok [] s'
  | .error (.error error) s' =>
    ∃ before stmt after s₁, program = before ++ stmt :: after ∧
      runEach fuel scope before s = .ok [] s₁ ∧
      runStatement fuel scope stmt s₁ = .error (.error error) s' ∧
      runEach fuel scope program s =
        reportBefore ⟨error, s'.output.accepted.size⟩ (runEach fuel scope after s')
  | .error interrupt s' => runEach fuel scope program s = .error interrupt s'

/-- By induction on the program, from whatever value the run is begun with. -/
theorem cutAt_runFrom (value : Value) (program : List Stmt) (s : State) :
    CutAt fuel scope program s (runFrom fuel scope value program s) := by
  induction program generalizing value s with
  | nil => exact rfl
  | cons stmt rest ih =>
    have hcons := @runEach_cons fuel scope stmt rest s
    rw [runFrom_cons]
    cases hstmt : runStatement fuel scope stmt s with
    | error interrupt s' =>
      rw [hstmt] at hcons
      cases interrupt with
      | error error => exact ⟨[], stmt, rest, s, rfl, rfl, hstmt, hcons⟩
      | malformed => exact hcons
      | outOfFuel => exact hcons
    | ok value' s' =>
      rw [hstmt] at hcons
      have hrest := ih value' s'
      dsimp only
      cases hrun : runFrom fuel scope value' rest s' with
      | ok last s'' =>
        rw [hrun] at hrest
        exact hcons.trans hrest
      | error interrupt s'' =>
        rw [hrun] at hrest
        cases interrupt with
        | malformed => exact hcons.trans hrest
        | outOfFuel => exact hcons.trans hrest
        | error error =>
          -- The statement before the failure runs without one.
          obtain ⟨before, failing, after, s₁, rfl, hbefore, hfailing, hafter⟩ := hrest
          refine ⟨stmt :: before, failing, after, s₁, rfl, ?_, hfailing, hcons.trans hafter⟩
          rw [runEach_cons, hstmt]
          exact hbefore

/-- A run that stops at the first failure is the run that goes on, cut there. -/
theorem run_cut (program : List Stmt) (s : State) :
    CutAt fuel scope program s (run fuel scope program s) :=
  cutAt_runFrom .nil program s

end Eval

end Script
