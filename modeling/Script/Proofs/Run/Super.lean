import Script.Proofs.Run.Task

/-!
# The keywords `this` and `super`

What evaluating the two keywords comes to, by what the two variables that they stand for are bound
to where they are evaluated.
-/

namespace Script

section

variable {fuel : Nat} {scope : ScopeId} {keyword method : Token} {arguments : List Expr}
  {s : State} {receiver : InstanceId} {parent : ClassId}

/-- Where `this` is bound, the receiver is what it is bound to. -/
theorem receiver_bound (keyword : String)
    (hthis : s.store.lookup scope thisName = .ok (.instanceRef receiver)) :
    Eval.receiver scope keyword s = .ok receiver s := by
  unfold Eval.receiver Eval.readOrFail
  dsimp only
  rw [hthis]

/-- Where it is not, the error names the keyword, and not the variable `this`. -/
theorem receiver_unbound (keyword : String) {error : RuntimeError}
    (hthis : s.store.lookup scope thisName = .error error) :
    Eval.receiver scope keyword s = .error (.error (.unboundThis keyword)) s := by
  unfold Eval.receiver Eval.readOrFail
  dsimp only
  rw [hthis]

/-- The class from which a method is searched is what `super` is bound to. -/
theorem superclass_bound (hsuper : s.store.lookup scope superName = .ok (.classRef parent)) :
    Eval.superclass scope s = .ok (some parent) s := by
  unfold Eval.superclass Eval.readOrFail
  dsimp only
  rw [hsuper]

/-- Outside of every method `super.m` is an error. -/
theorem superGet_unbound {error : RuntimeError}
    (hthis : s.store.lookup scope thisName = .error error) :
    Eval.evaluate (fuel + 1) scope (.superGet keyword method) s =
      .error (.error (.unboundThis superName)) s := by
  have hreceiver := receiver_unbound superName hthis
  unfold Eval.evaluate
  show EStateM.bind _ _ s = _
  unfold EStateM.bind
  rw [hreceiver]

/-- Outside of every method `super(...)` is an error. -/
theorem superCall_unbound {error : RuntimeError}
    (hthis : s.store.lookup scope thisName = .error error) :
    Eval.evaluate (fuel + 1) scope (.superCall keyword arguments) s =
      .error (.error (.unboundThis superName)) s := by
  have hreceiver := receiver_unbound superName hthis
  unfold Eval.evaluate
  show EStateM.bind _ _ s = _
  unfold EStateM.bind
  rw [hreceiver]

/-- In a method `super.m` binds the first `m` from the superclass upward to the receiver. -/
theorem superGet_bound (hthis : s.store.lookup scope thisName = .ok (.instanceRef receiver))
    (hsuper : s.store.lookup scope superName = .ok (.classRef parent)) :
    Eval.evaluate (fuel + 1) scope (.superGet keyword method) s =
      match s.store.method? parent method.lexeme with
      | none => .ok .nil s
      | some resolution =>
        .ok (s.store.bindMethod resolution receiver).1
          { s with store := (s.store.bindMethod resolution receiver).2 } := by
  have hreceiver := receiver_bound superName hthis
  have hparent := superclass_bound hsuper
  unfold Eval.evaluate
  show EStateM.bind _ _ s = _
  -- One step of the body at a time: the receiver, the class, and the method.
  simp only [EStateM.bind, hreceiver]
  show EStateM.bind _ _ s = _
  simp only [EStateM.bind, hparent]
  show EStateM.bind _ _ s = _
  simp only [EStateM.bind, Eval.read]
  cases s.store.method? parent method.lexeme <;> rfl

/-- In a method `super(...)` runs the constructor from the superclass upward on the receiver. -/
theorem superCall_bound (hthis : s.store.lookup scope thisName = .ok (.instanceRef receiver))
    (hsuper : s.store.lookup scope superName = .ok (.classRef parent)) :
    Eval.evaluate (fuel + 1) scope (.superCall keyword arguments) s =
      (do
        let values ← Eval.evaluateAll fuel scope arguments
        Eval.construct fuel receiver (some parent) values
        pure .nil : Eval Value) s := by
  have hreceiver := receiver_bound superName hthis
  have hparent := superclass_bound hsuper
  conv => lhs; unfold Eval.evaluate
  show EStateM.bind _ _ s = _
  simp only [EStateM.bind, hreceiver]
  show EStateM.bind _ _ s = _
  simp only [EStateM.bind, hparent]

end

end Script
