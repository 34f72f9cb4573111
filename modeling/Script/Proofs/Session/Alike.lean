import Script.Proofs.Session.Masked

/-!
# States that programs cannot tell apart

Two states are *alike* when they differ only in the places of the tokens in their functions and in
what has been printed before. Running a statement in one of them, and the same statement from
another place in the other, goes the same way (`runStatement_alike`): both runs end alike, with the
same result or the same error, and print the same.
-/

namespace Script

/-! ## Outcomes

An outcome is how the evaluation ended, and the state that it ended in. -/

section

variable {α : Type}

/-- How an evaluation ended, without the state that it left. -/
def ending : Outcome α → Except Interrupt α
  | .ok a _ => .ok a
  | .error interrupt _ => .error interrupt

/-- An evaluation that has a result ended with it. -/
@[simp] theorem ending_ok (a : α) (s : State) : ending (.ok a s : Outcome α) = .ok a := rfl

/-- Otherwise it ended with an interrupt. -/
@[simp] theorem ending_error (interrupt : Interrupt) (s : State) :
    ending (.error interrupt s : Outcome α) = .error interrupt := rfl

/-- A mask does not change how an evaluation ends. -/
@[simp] theorem ending_masked (mask : Mask) (x : Outcome α) :
    ending (mask.outcome id x) = ending x := by
  cases x <;> rfl

/-- It changes the state that it ends in. -/
@[simp] theorem finalState_masked (mask : Mask) (x : Outcome α) :
    finalState (mask.outcome id x) = mask.state (finalState x) := by
  cases x <;> rfl

end

/-! ## Forgetting places and output

Both are forgotten by one mask, which puts what was printed before in front of what is printed. -/

/-- All places forgotten, and this printed before everything else. -/
def Mask.bare (before : ByteArray) : Mask where
  move _ := .origin
  sink output := ⟨before ++ output.accepted, output.limit⟩
  fits output := output.limit = none
  move_origin := rfl
  write := by
    intro output hunlimited text
    cases output with
    | mk accepted limit =>
      obtain rfl : limit = none := hunlimited
      exact ⟨by simp [Sink.write, ByteArray.append_assoc], rfl⟩

/-- The statement with all places forgotten, which runs as before. -/
def Stmt.bare (stmt : Stmt) : Stmt := stmt.relocate fun _ => .origin

/-- Where a statement stands is forgotten. -/
theorem Stmt.bare_relocate (move : Span → Span) (stmt : Stmt) :
    (stmt.relocate move).bare = stmt.bare := stmt.relocate_relocate move fun _ => .origin

/-- The state with all places forgotten, and with an output that has taken nothing yet. -/
def State.bare (s : State) : State := ⟨(Mask.bare .empty).store s.store, .unlimited, s.clock⟩

/-- The states differ only in places and in what has been printed. -/
structure Alike (s t : State) : Prop where
  bare : s.bare = t.bare
  unlimited : s.output.limit = none
  unlimited' : t.output.limit = none

namespace Alike

variable {s t : State}

theorem refl (h : s.output.limit = none) : Alike s s := ⟨rfl, h, h⟩

/-- The scopes of alike states hold the same. -/
theorem scopes (h : Alike s t) : s.store.scopes = t.store.scopes :=
  congrArg (fun s => s.store.scopes) h.bare

/-- What is printed makes no difference: states are alike by their stores and clocks. -/
theorem print (h : Alike s t) (accepted : ByteArray) :
    Alike ⟨s.store, ⟨accepted, none⟩, s.clock⟩ t := ⟨h.bare, rfl, h.unlimited'⟩

end Alike

/-! ## Statements

Instead of comparing two runs with each other, each is compared with the run in the bare state,
which is the same one for both. -/

/-- The evaluations from `s` and from `t` went the same way. -/
structure Twins {α : Type} (s t : State) (x y : Outcome α) : Prop where
  ending : ending x = ending y
  alike : Alike (finalState x) (finalState y)
  printed : ∃ text, (finalState x).output.accepted = s.output.accepted ++ text ∧
    (finalState y).output.accepted = t.output.accepted ++ text

section

variable {fuel : Nat} {scope : ScopeId} {stmt stmt' : Stmt} {s t : State}

/-- In a bare state there is nothing to forget but the output. -/
theorem State.mask_bare (s : State) (before : ByteArray) :
    (Mask.bare before).state s.bare =
      ⟨(Mask.bare .empty).store s.store, ⟨before, none⟩, s.clock⟩ := by
  have hfunction : (Mask.bare before).function ∘ (Mask.bare .empty).function =
      (Mask.bare .empty).function := by
    funext f
    show Mask.function _ (Mask.function _ f) = _
    rw [Mask.function, Mask.function, FunctionDecl.relocate_relocate]
    rfl
  have hstore : (Mask.bare before).store ((Mask.bare .empty).store s.store) =
      (Mask.bare .empty).store s.store := by
    simp only [Mask.store, Arena.map, Array.map_map, hfunction]
  show State.mk _ _ _ = _
  rw [State.bare, hstore]
  exact congrArg (fun bytes => State.mk _ ⟨bytes, none⟩ s.clock) ByteArray.append_empty

/-- A statement is run as it is run without places and before anything was printed. -/
theorem runStatement_bare (hunlimited : s.output.limit = none) :
    (Mask.bare .empty).outcome id (Eval.runStatement fuel scope stmt s) =
        (Mask.bare s.output.accepted).outcome id
          (Eval.runStatement fuel scope stmt.bare s.bare) ∧
      (finalState (Eval.runStatement fuel scope stmt s)).output.limit = none := by
  obtain ⟨hrun, hfits⟩ := @runStatement_masked (.bare .empty) fuel scope stmt s hunlimited
  obtain ⟨hbare, -⟩ :=
    @runStatement_masked (.bare s.output.accepted) fuel scope stmt.bare s.bare rfl
  have hstmt : stmt.bare.relocate (Mask.bare s.output.accepted).move = stmt.bare :=
    stmt.bare_relocate _
  have hstart : (Mask.bare s.output.accepted).state s.bare = (Mask.bare .empty).state s := by
    rw [State.mask_bare, ← hunlimited]
    exact congrArg (fun bytes => State.mk _ ⟨bytes, _⟩ s.clock) ByteArray.empty_append.symm
  rw [hstmt, hstart] at hbare
  exact ⟨hrun.symm.trans hbare, hfits⟩

/-- What a masked outcome still tells: how it ended, the store up to places, and what was printed
since the start. -/
theorem outcome_bare {α : Type} {before : ByteArray} {x y : Outcome α}
    (h : (Mask.bare .empty).outcome id x = (Mask.bare before).outcome id y) :
    ending x = ending y ∧ (finalState x).bare = (finalState y).bare ∧
      (finalState x).output.accepted = before ++ (finalState y).output.accepted := by
  have hstate := congrArg finalState h
  rw [finalState_masked, finalState_masked] at hstate
  refine ⟨?_, ?_, ?_⟩
  · simpa using congrArg ending h
  · exact congrArg (fun s : State => State.mk s.store .unlimited s.clock) hstate
  · have haccepted := congrArg (fun s : State => s.output.accepted) hstate
    rwa [show ((Mask.bare .empty).state (finalState x)).output.accepted =
      (finalState x).output.accepted from ByteArray.empty_append] at haccepted

/-- A statement and the same statement from another place, run in states that are alike. -/
theorem runStatement_alike (h : Alike s t) (hstmt : stmt.bare = stmt'.bare) :
    Twins s t (Eval.runStatement fuel scope stmt s) (Eval.runStatement fuel scope stmt' t) := by
  obtain ⟨hs, hunlimited⟩ := @runStatement_bare fuel scope stmt s h.unlimited
  obtain ⟨ht, hunlimited'⟩ := @runStatement_bare fuel scope stmt' t h.unlimited'
  rw [hstmt, h.bare] at hs
  obtain ⟨hending, hbare, hprinted⟩ := outcome_bare hs
  obtain ⟨hending', hbare', hprinted'⟩ := outcome_bare ht
  exact
    { ending := hending.trans hending'.symm
      alike := ⟨hbare.trans hbare'.symm, hunlimited, hunlimited'⟩
      printed := ⟨_, hprinted, hprinted'⟩ }

end

end Script
