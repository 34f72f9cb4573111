import Script.Proofs.Run.Contract

/-!
# Obligations of single actions

What has to be shown of a plan that begins with an action or with a call, one lemma for each kind
of action that the evaluator has. An action that does not change the state needs nothing but that
the invariant holds already.
-/

namespace Script

namespace Contract

variable {α β : Type} {C : Contract} {Occurs : Moment → Prop} {fuel : Nat} {s : State}

/-- A call, and what comes after it. The call owes its own condition; what comes after it is entered
in a state that is known from the contract of the call. -/
theorem meets_perform_bind {task : Task} {f : task.Result → Plan β} {Q : Outcome β → Prop}
    (hpre : C.pre task s)
    (herror : ∀ interrupt s', task.run fuel s = .error interrupt s' → C.invariant s' →
      C.later s s' → C.post task s (.error interrupt s') → Q (.error interrupt s'))
    (hok : ∀ a s', task.run fuel s = .ok a s' → C.invariant s' → C.later s s' →
      C.post task s (.ok a s') → C.Meets Occurs fuel (f a) s' Q) :
    C.Meets Occurs fuel (Plan.perform task >>= f) s Q := by
  refine meets_bind (meets_perform hpre ?_)
  intro hinvariant hlater hpost
  cases hrun : task.run fuel s with
  | ok a s' =>
    rw [hrun] at hinvariant hlater hpost
    exact hok a s' hrun hinvariant hlater hpost
  | error interrupt s' =>
    rw [hrun] at hinvariant hlater hpost
    exact herror interrupt s' hrun hinvariant hlater hpost

/-! ## Actions that do not change the state

Reading, failing and checking the number of arguments leave the state as it is. For each of them
there is one obligation for every way in which it can end. -/

/-- Any action that ends in the state in which it began. -/
theorem meets_same {action : Eval α} {Q : Outcome α → Prop} (hsame : finalState (action s) = s)
    (hinvariant : C.invariant s) (haction : C.action .acts s s) (h : Q (action s)) :
    C.Meets Occurs fuel (Plan.act action) s Q := by
  refine meets_act ?_ ?_ ?_ h
  · rwa [hsame]
  · rw [hsame]
    exact C.later_refl s
  · rwa [hsame]

/-- Reading off the store cannot fail, and leaves the state as it is. -/
theorem meets_read {f : Store → α} {Q : Outcome α → Prop} (hinvariant : C.invariant s)
    (haction : C.action .acts s s) (h : Q (.ok (f s.store) s)) :
    C.Meets Occurs fuel (Plan.act (Eval.read f)) s Q :=
  meets_same rfl hinvariant haction h

theorem meets_fail {error : RuntimeError} {Q : Outcome α → Prop} (hinvariant : C.invariant s)
    (haction : C.action .acts s s) (h : Q (.error (.error error) s)) :
    C.Meets Occurs fuel (Plan.act (Eval.fail error)) s Q :=
  meets_same rfl hinvariant haction h

/-- Reading off the store something that may not be there. -/
theorem meets_readOrFail {f : Store → Except RuntimeError α} {Q : Outcome α → Prop}
    (hinvariant : C.invariant s) (haction : C.action .acts s s)
    (hok : ∀ a, f s.store = .ok a → Q (.ok a s))
    (herror : ∀ error, f s.store = .error error → Q (.error (.error error) s)) :
    C.Meets Occurs fuel (Plan.act (Eval.readOrFail f)) s Q := by
  cases hf : f s.store with
  | ok a =>
    have hrun : Eval.readOrFail f s = .ok a s := by
      unfold Eval.readOrFail
      rw [hf]
    exact meets_same (by rw [hrun]; rfl) hinvariant haction (hrun ▸ hok a hf)
  | error error =>
    have hrun : Eval.readOrFail f s = .error (.error error) s := by
      unfold Eval.readOrFail
      rw [hf]
    exact meets_same (by rw [hrun]; rfl) hinvariant haction (hrun ▸ herror error hf)

/-- Comparing the number of arguments with what is expected. -/
theorem meets_checkArity {expected actual : Nat} {Q : Outcome Unit → Prop}
    (hinvariant : C.invariant s) (haction : C.action .acts s s)
    (hok : expected = actual → Q (.ok () s))
    (herror : Q (.error (.error (.arityMismatch expected actual)) s)) :
    C.Meets Occurs fuel (Plan.act (Eval.checkArity expected actual)) s Q := by
  by_cases heq : expected = actual
  · have hrun : Eval.checkArity expected actual s = .ok () s := by
      unfold Eval.checkArity
      rw [if_pos heq]
      rfl
    exact meets_same (by rw [hrun]; rfl) hinvariant haction (hrun ▸ hok heq)
  · have hrun : Eval.checkArity expected actual s =
        .error (.error (.arityMismatch expected actual)) s := by
      unfold Eval.checkArity
      rw [if_neg heq]
      rfl
    exact meets_same (by rw [hrun]; rfl) hinvariant haction (hrun ▸ herror)

/-! ## Actions that change the store

For a change the obligation is about the store that it leaves: the invariant holds there, and the
state before is related to the state with it. -/

/-- Adding something to the store, which cannot fail. -/
theorem meets_allocate {f : Store → α × Store} {Q : Outcome α → Prop}
    (hinvariant : C.invariant { s with store := (f s.store).2 })
    (hlater : C.later s { s with store := (f s.store).2 })
    (haction : C.action .acts s { s with store := (f s.store).2 })
    (h : Q (.ok (f s.store).1 { s with store := (f s.store).2 })) :
    C.Meets Occurs fuel (Plan.act (Eval.allocate f)) s Q :=
  meets_act hinvariant hlater haction h

/-- Changing the store, where this may fail. A failure leaves the state as it is. -/
theorem meets_update {f : Store → Except RuntimeError Store} {Q : Outcome Unit → Prop}
    (hinvariant : C.invariant s) (haction : C.action .acts s s)
    (hok : ∀ store, f s.store = .ok store → C.invariant { s with store := store } ∧
      C.later s { s with store := store } ∧ C.action .acts s { s with store := store } ∧
      Q (.ok () { s with store := store }))
    (herror : ∀ error, f s.store = .error error → Q (.error (.error error) s)) :
    C.Meets Occurs fuel (Plan.act (Eval.update f)) s Q := by
  cases hf : f s.store with
  | ok store =>
    have hrun : Eval.update f s = .ok () { s with store := store } := by
      unfold Eval.update
      rw [hf]
    -- The four parts of what an action owes: the invariant, the relation to the state before, the
    -- contract of the action, and the property of the outcome.
    obtain ⟨hinvariant, hlater, haction, hQ⟩ := hok store hf
    refine meets_act ?_ ?_ ?_ ?_ <;> rw [hrun]
    · exact hinvariant
    · exact hlater
    · exact haction
    · exact hQ
  | error error =>
    have hrun : Eval.update f s = .error (.error error) s := by
      unfold Eval.update
      rw [hf]
    exact meets_same (by rw [hrun]; rfl) hinvariant haction (hrun ▸ herror error hf)

/-- A new scope. The step is one of those that occur in the run. -/
theorem meets_openScope {opening : Opening} {parent : ScopeId} {bindings : Table Value}
    {Q : Outcome ScopeId → Prop}
    (h : Occurs (.step (.opens opening) s
        { s with store := (s.store.newChild parent bindings).2 }) →
      C.invariant { s with store := (s.store.newChild parent bindings).2 } ∧
      C.later s { s with store := (s.store.newChild parent bindings).2 } ∧
      C.action (.opens opening) s { s with store := (s.store.newChild parent bindings).2 } ∧
      Q (.ok ⟨s.store.scopes.size⟩ { s with store := (s.store.newChild parent bindings).2 })) :
    C.Meets Occurs fuel (Plan.openScope opening parent bindings) s Q :=
  h

/-! ## Actions that leave the store alone

Writing and reading the clock change other parts of the state. Operators change nothing at all. -/

/-- Writing leaves the store alone, whether the output takes the text or not. -/
theorem write_store (text : String) (s : State) :
    (finalState (Eval.write text s)).store = s.store := by
  unfold Eval.write
  obtain ⟨store, output, clock⟩ := s
  dsimp only
  split <;> rfl

/-- A native function leaves the store alone. -/
theorem native_store (function : Native) (arguments : List Value) (s : State) :
    (finalState (Eval.native function arguments s)).store = s.store := by
  unfold Eval.native
  split <;> rfl

/-- The action looks at no state, and what it computes refers to nothing. -/
def Computes (action : Eval Value) : Prop :=
  ∀ s, (∃ value, action s = .ok value s ∧ (value.type = .number ∨ value.type = .boolean)) ∨
    ∃ interrupt, action s = .error interrupt s

/-- Such an action ends in the state in which it began. -/
theorem Computes.same {action : Eval Value} (h : Computes action) (s : State) :
    finalState (action s) = s := by
  rcases h s with ⟨value, hrun, -⟩ | ⟨interrupt, hrun⟩
  · rw [hrun]
    rfl
  · rw [hrun]
    rfl

/-- An operator before its operand computes a number or a truth value, or fails. -/
theorem computes_applyUnary (operator : Token) (operand : Value) :
    Computes (applyUnary operator operand) := by
  intro s
  unfold applyUnary
  generalize operator.kind = kind
  split
  · cases operand with
    | number => exact .inl ⟨_, rfl, .inl rfl⟩
    | _ => exact .inr ⟨_, rfl⟩
  · exact .inl ⟨_, rfl, .inr rfl⟩
  · exact .inr ⟨_, rfl⟩

/-- An operator on numbers yields a number or a truth value. -/
theorem numericOperator?_type {kind : TokenKind} {compute : Number → Number → Value}
    (h : numericOperator? kind = some compute) (a b : Number) :
    (compute a b).type = .number ∨ (compute a b).type = .boolean := by
  unfold numericOperator? at h
  split at h <;> first
    | (obtain rfl := Option.some.inj h; exact .inl rfl)
    | (obtain rfl := Option.some.inj h; exact .inr rfl)
    | cases h

/-- An operator between its operands does so, too. -/
theorem computes_applyBinary (left : Value) (operator : Token) (right : Value) :
    Computes (applyBinary left operator right) := by
  intro s
  unfold applyBinary
  generalize operator.kind = kind
  -- Values of any kind can be compared for equality. The other operators want numbers.
  by_cases hequal : kind = .equalEqual
  · subst hequal
    exact .inl ⟨_, rfl, .inr rfl⟩
  by_cases hdiffer : kind = .bangEqual
  · subst hdiffer
    exact .inl ⟨_, rfl, .inr rfl⟩
  split
  · exact absurd rfl hequal
  · exact absurd rfl hdiffer
  · cases hcompute : numericOperator? kind with
    | none => exact .inr ⟨_, rfl⟩
    | some compute =>
      dsimp only
      split
      · exact .inl ⟨_, rfl, numericOperator?_type hcompute _ _⟩
      · exact .inr ⟨_, rfl⟩

end Contract

end Script
