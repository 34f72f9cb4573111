import Script.Proofs.Run.Formed
import Script.Proofs.Run.Lockstep
import Script.Proofs.Store.Changes

/-!
# A `for` is a `while`

A `for` abbreviates a block of its initialiser and a `while` loop, the body of which is a block that
ends with the post-expression (`Stmt.asWhile`). The two do not open the same scopes: a `for` has one
for each run of the body, the `while` loop two, and evaluates the post-expression in the inner one.
But the body is no declaration, so none of these three ever holds a name, and the closures that are
made in them cannot tell how many there are. Each round of the one loop is therefore one of the
other (`State.Paired.turnScopes`, `turn_approximates`), and so are the loops
(`rounds_approximates`) and the statements (`forLoop_interchangeable`).
-/

namespace Script

/-- The literal `true`, which stands for a condition that is missing. -/
def Expr.always : Expr := .literal ⟨.kwTrue, "true", some (.boolean true), .origin⟩

/-- What a `for` abbreviates: a block with the first clause and a `while` loop, whose body is
followed by the last clause. -/
def Stmt.asWhile (init : Option Stmt) (condition post : Option Expr) (body : Stmt) : Stmt :=
  .block (init.toList ++ [.whileLoop (condition.getD .always)
    (.block (body :: post.toList.map .expression))])

/-! ## Rounds of loops

Both loops are brought to one form, `rounds`, which asks for a condition and then does one round. So
the two need be compared in these two respects only. -/

namespace Eval

/-- Whether a loop goes on, which is so wherever no condition is given. -/
def goesOn (scope : ScopeId) (condition : Option Expr) (fuel : Nat) : Eval Bool :=
  match condition with
  | none => pure true
  | some condition => do
    let value ← evaluate fuel scope condition
    pure value.isTruthy

/-- A run of the body of a loop and of the post-expression, each in its scope. The result tells
whether the body returns. -/
def turn (inner clauses : ScopeId) (post : Option Expr) (body : Stmt) (fuel postFuel : Nat) :
    Eval (Option Value) := do
  match ← execute fuel inner body with
  | .returned value => pure (some value)
  | .normal _ =>
    let _ ← evaluateOption postFuel clauses post
    pure none

/-- What a `for` does in each round. -/
def forTurn (clauses : ScopeId) (post : Option Expr) (body : Stmt) (fuel : Nat) :
    Eval (Option Value) := do
  let inner ← child clauses
  turn inner clauses post body fuel fuel

/-- What a `while` loop does in each round. -/
def whileTurn (scope : ScopeId) (body : Stmt) (fuel : Nat) : Eval (Option Value) := do
  let inner ← child scope
  match ← execute fuel inner body with
  | .returned value => pure (some value)
  | .normal _ => pure none

/-- A loop, told by its condition and by what it does in each round. -/
def rounds (condition : Nat → Eval Bool) (turn : Nat → Eval (Option Value)) :
    Nat → Eval Completion
  | 0 => exhausted
  | fuel + 1 => do
    if ← condition fuel then
      match ← turn fuel with
      | some value => pure (.returned value)
      | none => rounds condition turn fuel
    else pure (.normal .nil)

/-- The loop of a `for` goes in rounds. -/
theorem forLoop_eq_rounds (clauses : ScopeId) (condition post : Option Expr) (body : Stmt)
    (fuel : Nat) : forLoop fuel clauses condition post body =
      rounds (goesOn clauses condition) (forTurn clauses post body) fuel := by
  induction fuel with
  | zero => rfl
  | succ fuel ih =>
    unfold forLoop rounds
    congr 1
    funext goOn
    -- The rest of the loop is hidden in the last of the actions, so the two agree action by action.
    simp only [forTurn, turn, bind_assoc, ← ih]
    split
    · congr 1
      funext inner
      congr 1
      funext completion
      cases completion with
      | returned value => rfl
      | normal value => simp only [bind_assoc, pure_bind]
    · rfl

/-- A `while` loop is a row of rounds as well, each with its own scope for the body. -/
theorem whileLoop_eq_rounds (scope : ScopeId) (condition : Expr) (body : Stmt) (fuel : Nat) :
    whileLoop fuel scope condition body =
      rounds (goesOn scope (some condition)) (whileTurn scope body) fuel := by
  induction fuel with
  | zero => rfl
  | succ fuel ih =>
    rw [whileLoop, rounds, ← ih]
    simp only [goesOn, whileTurn, bind_assoc, pure_bind]
    congr 1
    funext value
    split
    · congr 1
      funext inner
      congr 1
      funext completion
      cases completion with
      | returned value => rfl
      | normal value => rfl
    · rfl

end Eval

/-! ### What rounds print

That a loop prints is needed where its fuel is too little: it has then printed a beginning of what
the other loop prints. -/

section

variable {scope clauses inner : ScopeId} {post : Option Expr} {body : Stmt}

/-- Opening a scope does not touch the output. -/
theorem prints_child (scope : ScopeId) : Prints (Eval.child scope) := Blind.prints fun _ _ => rfl

/-- A condition is evaluated as any expression is. -/
theorem prints_goesOn (condition : Option Expr) (fuel : Nat) :
    Prints (Eval.goesOn scope condition fuel) := by
  cases condition with
  | none => exact prints_pure true
  | some condition =>
    exact ((Task.evaluate scope condition).prints fuel).bind fun _ value _ _ => prints_pure _

/-- A round prints what the body does, and then what the post-expression does, unless the body has
returned. -/
theorem prints_turn (fuel postFuel : Nat) :
    Prints (Eval.turn inner clauses post body fuel postFuel) := by
  refine ((Task.execute inner body).prints fuel).bind fun _ completion _ _ => ?_
  cases completion with
  | returned value => exact prints_pure _
  | normal value =>
    exact ((Task.evaluateOption clauses post).prints postFuel).bind fun _ _ _ _ => prints_pure _

/-- Opening the scope for the body adds nothing to that. -/
theorem prints_forTurn (fuel : Nat) : Prints (Eval.forTurn clauses post body fuel) :=
  (prints_child clauses).bind fun _ _ _ _ => prints_turn fuel fuel

/-- A `while` loop goes through its body only, and the rest of a round prints nothing. -/
theorem prints_whileTurn (fuel : Nat) : Prints (Eval.whileTurn scope body fuel) := by
  refine (prints_child scope).bind fun _ inner _ _ => ?_
  refine ((Task.execute inner body).prints fuel).bind fun _ completion _ _ => ?_
  cases completion with
  | returned value => exact prints_pure _
  | normal value => exact prints_pure _

/-- After a round comes the rest of the loop, or nothing at all. -/
theorem prints_afterTurn {rest : Eval Completion} (hrest : Prints rest) (result : Option Value) :
    Prints (match result with
      | some value => pure (.returned value)
      | none => rest) := by
  cases result with
  | some value => exact prints_pure _
  | none => exact hrest

/-- So loops print one round after the other, by induction on the fuel. -/
theorem prints_rounds {condition : Nat → Eval Bool} {turn : Nat → Eval (Option Value)}
    (hcondition : ∀ fuel, Prints (condition fuel)) (hturn : ∀ fuel, Prints (turn fuel))
    (fuel : Nat) : Prints (Eval.rounds condition turn fuel) := by
  induction fuel with
  | zero => exact Blind.prints fun _ _ => rfl
  | succ fuel ih =>
    refine (hcondition fuel).bind fun _ goOn _ _ => ?_
    split
    · exact (hturn fuel).bind fun _ result _ _ => prints_afterTurn ih result
    · exact prints_pure _

end

/-! ## Loops side by side

The scopes that the two loops open are not the same, but those that both run in are near to each
other (`Pairing.near`), which is all that a statement that declares nothing can tell. -/

variable {W : Pairing} {i j : ScopeId} {s t : State}

/-- A loop approximates another one if each of its rounds approximates a round of the other one. -/
theorem rounds_approximates {condition condition' : Nat → Eval Bool}
    {turn turn' : Nat → Eval (Option Value)}
    (hcondition : ∀ {fuel fuel' W s t}, fuel + 4 ≤ fuel' → W.near i j → s.Paired W t →
      Approximates W Equal (condition fuel s) (condition' fuel' t))
    (hturn : ∀ {fuel fuel' W s t}, fuel + 4 ≤ fuel' → W.near i j → s.Paired W t →
      Approximates W Equal (turn fuel s) (turn' fuel' t))
    (hprints : ∀ fuel, Prints (condition' fuel)) (hprintsTurn : ∀ fuel, Prints (turn' fuel))
    {fuel fuel' : Nat} (hle : fuel + 4 ≤ fuel') (hnear : W.near i j) (hstate : s.Paired W t) :
    Approximates W Equal (Eval.rounds condition turn fuel s)
      (Eval.rounds condition' turn' fuel' t) := by
  have hloop := prints_rounds hprints hprintsTurn
  induction fuel generalizing fuel' W s t with
  -- The first loop has no fuel. What is printed up to here, the second one has printed too.
  | zero => exact .inr ⟨s, rfl, .trans (.of_output_eq hstate.output) ((hloop _).printsOn t)⟩
  | succ fuel ih =>
    obtain ⟨fuel', rfl⟩ : ∃ n, fuel' = n + 1 := ⟨fuel' - 1, by omega⟩
    have hle : fuel + 4 ≤ fuel' := by omega
    refine (hcondition hle hnear hstate).bind ?_ ?_
    · intro W₁ goOn _ s₁ t₁ hle₁ hstate₁ hsame
      subst hsame
      split
      · refine (hturn hle (hle₁.near hnear) hstate₁).bind ?_ ?_
        · -- Later rounds find all the scopes still near to each other, those of the earlier ones
          -- included.
          intro W₂ result _ s₂ t₂ hle₂ hstate₂ hsame
          subst hsame
          cases result with
          | some value => exact .inl (.ok W₂.le_refl hstate₂ rfl)
          | none => exact ih hle (hle₂.near (hle₁.near hnear)) hstate₂
        · exact prints_afterTurn (hloop fuel')
      · exact .inl (.ok W₁.le_refl hstate₁ rfl)
    · intro goOn
      split
      · exact (hprintsTurn fuel').bind fun _ result _ _ => prints_afterTurn (hloop fuel') result
      · exact prints_pure _

/-- Runs of the body, and of the post-expression, in scopes that are near to each other. -/
theorem turn_approximates {inner inner' : ScopeId} (hinner : W.near inner inner')
    (hnear : W.near i j) {body : Stmt} (hbody : body.isDeclaration = false) (post : Option Expr)
    {fuel fuel' postFuel postFuel' : Nat} (hle : fuel ≤ fuel') (hpost : postFuel ≤ postFuel')
    (hstate : s.Paired W t) :
    Approximates W Equal (Eval.turn inner i post body fuel postFuel s)
      (Eval.turn inner' j post body fuel' postFuel' t) := by
  -- Only a declaration would have to find the very same scope on both sides.
  have hdeclares : body.isDeclaration = true → W.same inner inner' := by
    intro hdeclares
    rw [hbody] at hdeclares
    cases hdeclares
  refine ((Task.Twin.execute hinner hdeclares).approximates hle hstate).bind ?_ ?_
  · intro W₁ completion completion' s₁ t₁ hle₁ hstate₁ hsame
    obtain rfl := eq_of_heq hsame
    cases completion with
    | returned value => exact .inl (.ok W₁.le_refl hstate₁ rfl)
    | normal value =>
      refine ((Task.Twin.evaluateOption (hle₁.near hnear) post).approximates hpost hstate₁).bind ?_
        fun _ => prints_pure _
      intro W₂ _ _ s₂ t₂ _ hstate₂ _
      exact .inl (.ok W₂.le_refl hstate₂ rfl)
  · intro completion
    cases completion with
    | returned value => exact prints_pure _
    | normal value =>
      exact ((Task.evaluateOption j post).prints postFuel').bind fun _ _ _ _ => prints_pure _

/-- A scope that only the first run opens is near to all that its parent is near to. -/
theorem State.Paired.openBlank (h : s.Paired W t) (parent : ScopeId) :
    ∃ W' inner s', Eval.child parent s = .ok inner s' ∧ W ≤ W' ∧ s'.Paired W' t ∧
      ∀ other, W.near parent other → W'.near inner other :=
  ⟨_, _, _, rfl, W.le_addBlank _ _, h.with_store (h.store.newBlank parent),
    fun _ hnear => .inr ⟨rfl, hnear⟩⟩

/-- What is said of the two runs can be said the other way round. -/
theorem State.Paired.swap (h : s.Paired W t) : t.Paired W.swap s :=
  ⟨h.store.swap, h.output.symm, h.clock.symm⟩

/-- The scope that a `for` opens for a run of its body, and the two scopes that the `while` loop
opens, one inside the other: the inner ones are near to each other, and so are the scopes that the
post-expression is evaluated in. -/
theorem State.Paired.turnScopes (h : s.Paired W t) (hnear : W.near i j) :
    ∃ W' inner s' outer t' inner' t'', Eval.child i s = .ok inner s' ∧
      Eval.child j t = .ok outer t' ∧ Eval.child outer t' = .ok inner' t'' ∧ W ≤ W' ∧
      s'.Paired W' t'' ∧ W'.near inner inner' ∧ W'.near i inner' := by
  obtain ⟨W₁, inner, s', hinner, hle₁, h₁, hnear₁⟩ := h.openBlank i
  -- The second run opens its two scopes while the first one waits, so the roles are changed here.
  obtain ⟨W₂, outer, t', houter, hle₂, h₂, hnear₂⟩ := h₁.swap.openBlank j
  obtain ⟨W₃, inner', t'', hinner', hle₃, h₃, hnear₃⟩ := h₂.openBlank outer
  have hle : W ≤ W₃.swap :=
    Pairing.le_trans hle₁ (Pairing.swap_le_swap (Pairing.le_trans hle₂ hle₃))
  refine ⟨W₃.swap, inner, s', outer, t', inner', t'', hinner, houter, hinner', hle, h₃.swap, ?_, ?_⟩
  · exact hnear₃ inner (hnear₂ inner (hnear₁ j hnear))
  · exact hnear₃ i (hnear₂ i (hle₁.near hnear))

/-- What a `while` loop does in a round of a `for`, given enough fuel. -/
theorem whileTurn_eq (scope : ScopeId) (post : Option Expr) (body : Stmt) (fuel : Nat) :
    Eval.whileTurn scope (.block (body :: post.toList.map .expression)) (fuel + 4) = (do
      let outer ← Eval.child scope
      let inner ← Eval.child outer
      Eval.turn inner inner post body (fuel + 2) (fuel + 1)) := by
  unfold Eval.whileTurn Eval.turn
  congr 1
  funext outer
  rw [Eval.execute, bind_assoc]
  congr 1
  funext inner
  cases post with
  | none =>
    -- The body is the last of the statements, and its completion that of the block.
    show (Eval.executeAll (fuel + 3) inner [body] >>= _) = _
    rw [Eval.executeAll]
    rfl
  | some post =>
    show (Eval.executeAll (fuel + 3) inner [body, .expression post] >>= _) = _
    simp only [Eval.executeAll, Eval.execute, Eval.evaluateOption, bind_assoc]
    congr 1
    funext completion
    cases completion with
    | returned value => rfl
    | normal value => simp only [bind_assoc, pure_bind]

/-- More fuel does no harm to a round of a `while` loop. -/
theorem whileTurn_more (scope : ScopeId) (body : Stmt) {fuel fuel' : Nat} (h : fuel ≤ fuel')
    (s : State) :
    More (Eval.whileTurn scope body fuel s) (Eval.whileTurn scope body fuel' s) := by
  refine More.bind (.refl _) (fun inner s' _ => ?_) fun inner => ?_
  · refine ((Task.execute inner body).run_more h s').bind (fun _ _ _ => .refl _) ?_
    exact fun completion => by cases completion <;> exact prints_pure _
  · refine ((Task.execute inner body).prints fuel').bind fun _ completion _ _ => ?_
    cases completion <;> exact prints_pure _

section

variable {body : Stmt} {post : Option Expr} {fuel fuel' : Nat}

/-- A round of the `for` is one of the `while` loop. -/
theorem forTurn_approximates (hbody : body.isDeclaration = false) (hle : fuel + 4 ≤ fuel')
    (hnear : W.near i j) (hstate : s.Paired W t) :
    Approximates W Equal (Eval.forTurn i post body fuel s)
      (Eval.whileTurn j (.block (body :: post.toList.map .expression)) fuel' t) := by
  obtain ⟨W', inner, s', outer, t', inner', t'', hinner, houter, hinner', hle', hstate', hbodies,
    hclauses⟩ := hstate.turnScopes hnear
  obtain ⟨extra, rfl⟩ : ∃ n, fuel' = n + 4 := ⟨fuel' - 4, by omega⟩
  unfold Eval.forTurn
  rw [whileTurn_eq, Eval.bind_of_ok hinner, Eval.bind_of_ok houter, Eval.bind_of_ok hinner']
  exact (turn_approximates hbodies hclauses hbody post (by omega) (by omega) hstate').of_le hle'

/-- A round of the `while` loop is one of the `for`. -/
theorem whileTurn_approximates (hbody : body.isDeclaration = false) (hle : fuel + 4 ≤ fuel')
    (hnear : W.near i j) (hstate : s.Paired W t) :
    Approximates W Equal (Eval.whileTurn i (.block (body :: post.toList.map .expression)) fuel s)
      (Eval.forTurn j post body fuel' t) := by
  refine Approximates.of_more ?_ (whileTurn_more i _ (Nat.le_add_right fuel 4) s)
  obtain ⟨W', inner, t', outer, s', inner', s'', hinner, houter, hinner', hle', hstate', hbodies,
    hclauses⟩ := hstate.swap.turnScopes hnear
  unfold Eval.forTurn
  rw [whileTurn_eq, Eval.bind_of_ok hinner, Eval.bind_of_ok houter, Eval.bind_of_ok hinner']
  have hbodies : W'.swap.near inner' inner := hbodies
  exact (turn_approximates hbodies hclauses hbody post (by omega) (by omega) hstate'.swap).of_le
    (Pairing.swap_le_swap hle')

/-- A condition has the same value in scopes that are near to each other. -/
theorem evaluate_approximates (condition : Expr) (hle : fuel ≤ fuel') (hnear : W.near i j)
    (hstate : s.Paired W t) :
    Approximates W Equal (Eval.goesOn i (some condition) fuel s)
      (Eval.goesOn j (some condition) fuel' t) := by
  refine ((Task.Twin.evaluate hnear condition).approximates hle hstate).bind ?_
    fun _ => prints_pure _
  intro W' value _ s' t' _ hstate' hsame
  obtain rfl := eq_of_heq hsame
  exact .inl (.ok W'.le_refl hstate' rfl)

/-- Where a `for` has no condition, the `while` loop finds it to be true. -/
theorem forCondition_approximates (condition : Option Expr) (hle : fuel + 4 ≤ fuel')
    (hnear : W.near i j) (hstate : s.Paired W t) :
    Approximates W Equal (Eval.goesOn i condition fuel s)
      (Eval.goesOn j (some (condition.getD .always)) fuel' t) := by
  cases condition with
  | none =>
    obtain ⟨fuel', rfl⟩ : ∃ n, fuel' = n + 1 := ⟨fuel' - 1, by omega⟩
    exact .inl (.ok W.le_refl hstate rfl)
  | some condition => exact evaluate_approximates condition (by omega) hnear hstate

/-- It is the same the other way round, but for the unit of fuel that the literal takes. -/
theorem whileCondition_approximates (condition : Option Expr) (hle : fuel + 4 ≤ fuel')
    (hnear : W.near i j) (hstate : s.Paired W t) :
    Approximates W Equal (Eval.goesOn i (some (condition.getD .always)) fuel s)
      (Eval.goesOn j condition fuel' t) := by
  cases condition with
  | none =>
    cases fuel with
    | zero => exact .inr ⟨s, rfl, .of_output_eq hstate.output⟩
    | succ fuel => exact .inl (.ok W.le_refl hstate rfl)
  | some condition => exact evaluate_approximates condition (by omega) hnear hstate

/-! ## Statements side by side

What is left is the part before the loops, which is the same in both but for the fuel that it
leaves. -/

/-- The loop of a `for` approximates the `while` loop that it abbreviates. -/
theorem forLoop_approximates (hbody : body.isDeclaration = false) (condition : Option Expr)
    (hle : fuel + 4 ≤ fuel') (hnear : W.near i j) (hstate : s.Paired W t) :
    Approximates W Equal (Eval.forLoop fuel i condition post body s)
      (Eval.whileLoop fuel' j (condition.getD .always)
        (.block (body :: post.toList.map .expression)) t) := by
  rw [Eval.forLoop_eq_rounds, Eval.whileLoop_eq_rounds]
  exact rounds_approximates (forCondition_approximates condition) (forTurn_approximates hbody)
    (prints_goesOn _) prints_whileTurn hle hnear hstate

/-- The `while` loop approximates the `for`, too. It takes some fuel more for each round, because
its body is a block with the last clause in it. -/
theorem whileLoop_approximates (hbody : body.isDeclaration = false) (condition : Option Expr)
    (hle : fuel + 4 ≤ fuel') (hnear : W.near i j) (hstate : s.Paired W t) :
    Approximates W Equal (Eval.whileLoop fuel i (condition.getD .always)
        (.block (body :: post.toList.map .expression)) s)
      (Eval.forLoop fuel' j condition post body t) := by
  rw [Eval.forLoop_eq_rounds, Eval.whileLoop_eq_rounds]
  exact rounds_approximates (whileCondition_approximates condition) (whileTurn_approximates hbody)
    (prints_goesOn _) prints_forTurn hle hnear hstate

end

/-- What both statements begin with: a scope, and in it the initialiser. -/
def Eval.header (scope : ScopeId) (init : Option Stmt) (fuel : Nat)
    (loop : ScopeId → Eval Completion) : Eval Completion := do
  let inner ← child scope
  match init with
  | none => loop inner
  | some init =>
    let _ ← execute fuel inner init
    loop inner

/-- A `for` is the header and its loop, by definition. -/
theorem Eval.execute_forLoop (scope : ScopeId) (init : Option Stmt) (condition post : Option Expr)
    (body : Stmt) (fuel : Nat) :
    execute (fuel + 1) scope (.forLoop init condition post body) =
      header scope init fuel fun clauses => forLoop fuel clauses condition post body := by
  cases init <;> rfl

/-- An initialiser does not return, so what comes after it is done. -/
theorem Eval.execute_asWhile (scope : ScopeId) {init : Option Stmt}
    (hinit : ∀ stmt ∈ init, stmt.isInitializer = true) (condition post : Option Expr) (body : Stmt)
    (fuel : Nat) : ∃ loopFuel, fuel ≤ loopFuel ∧ loopFuel ≤ fuel + 1 ∧
      execute (fuel + 4) scope (.asWhile init condition post body) =
        header scope init (fuel + 2) fun inner => whileLoop loopFuel inner (condition.getD .always)
          (.block (body :: post.toList.map .expression)) := by
  cases init with
  | none =>
    refine ⟨fuel + 1, Nat.le_succ fuel, Nat.le_refl _, ?_⟩
    simp only [Stmt.asWhile, Option.toList, List.nil_append, execute, executeAll, header]
  | some init =>
    refine ⟨fuel, Nat.le_refl _, Nat.le_succ fuel, ?_⟩
    simp only [Stmt.asWhile, Option.toList, List.cons_append, List.nil_append, execute, executeAll,
      header]
    congr 1
    funext inner s
    cases hrun : execute (fuel + 2) inner init s with
    | ok completion s' =>
      rw [bind_of_ok hrun, bind_of_ok hrun]
      cases completion with
      | normal value => rfl
      -- A block would stop here, and a `for` would not. It does not come to that.
      | returned value =>
        have hcompletes := Stmt.completes_of_isInitializer (hinit init rfl) (fuel + 2) inner s s'
        exact absurd hrun (hcompletes value)
    | error interrupt s' => rw [bind_of_error hrun, bind_of_error hrun]

/-- Headers side by side: both open a scope, and what they declare in it is declared on both
sides. -/
theorem header_approximates {init : Option Stmt} {loop loop' : ScopeId → Eval Completion}
    {fuel fuel' : Nat} (hle : fuel ≤ fuel')
    (hloop : ∀ {W clauses clauses' s t}, W.near clauses clauses' → s.Paired W t →
      Approximates W Equal (loop clauses s) (loop' clauses' t))
    (hprints : ∀ clauses, Prints (loop' clauses)) (hnear : W.near i j) (hstate : s.Paired W t) :
    Approximates W Equal (Eval.header i init fuel loop s) (Eval.header j init fuel' loop' t) := by
  -- The scopes of the two headers are the same scope from now on, so a declaration in one is a
  -- declaration in the other.
  have hopened : Approximates W Plan.SameScope (Eval.child i s) (Eval.child j t) :=
    .inl (Plan.twin_child (.header init) hnear s t hstate)
  refine hopened.bind ?_ fun clauses => ?_
  · intro W₁ clauses clauses' s₁ t₁ _ hstate₁ hsame
    have hclauses := W₁.near_of_same hsame
    cases init with
    | none => exact hloop hclauses hstate₁
    | some init =>
      have hinit : (Task.execute clauses init).Twin W₁ (.execute clauses' init) :=
        .execute hclauses fun _ => hsame
      refine (hinit.approximates hle hstate₁).bind ?_ fun _ => hprints clauses'
      exact fun _ _ _ _ _ hle₂ hstate₂ _ => hloop (hle₂.near hclauses) hstate₂
  · cases init with
    | none => exact hprints clauses
    | some init =>
      exact ((Task.execute clauses init).prints fuel').bind fun _ _ _ _ => hprints clauses

/-- In a formed `for` the initialiser is one that parsing allows, and the body declares nothing. -/
theorem Stmt.Formed.clauses {init : Option Stmt} {condition post : Option Expr} {body : Stmt}
    (h : (Stmt.forLoop init condition post body).Formed) :
    (∀ stmt ∈ init, stmt.isInitializer = true) ∧ body.isDeclaration = false := by
  cases init with
  | none => exact ⟨nofun, h.2.1⟩
  | some init =>
    refine ⟨?_, h.2.2.1⟩
    rintro stmt ⟨⟩
    exact h.1.1

section

variable {init : Option Stmt} {condition post : Option Expr} {body : Stmt}

/-- Whatever a run of the `for` comes to, a run of the `while` loop comes to. -/
theorem execute_forLoop_approximates (hformed : (Stmt.forLoop init condition post body).Formed)
    (fuel : Nat) (hnear : W.near i j) (hstate : s.Paired W t) : ∃ fuel',
    Approximates W Equal (Eval.execute fuel i (.forLoop init condition post body) s)
      (Eval.execute fuel' j (.asWhile init condition post body) t) := by
  obtain ⟨hinit, hbody⟩ := hformed.clauses
  obtain ⟨loopFuel, hle, -, hasWhile⟩ := Eval.execute_asWhile j hinit condition post body (fuel + 4)
  refine ⟨fuel + 8, Approximates.of_more ?_ ((Task.execute i _).run_more (Nat.le_succ fuel) s)⟩
  show Approximates W Equal (Eval.execute (fuel + 1) i _ s) _
  rw [Eval.execute_forLoop, hasWhile]
  refine header_approximates (by omega) (forLoop_approximates hbody condition hle)
    (fun clauses => ?_) hnear hstate
  exact (Task.whileLoop clauses _ _).prints loopFuel

/-- Whatever a run of the `while` loop comes to, a run of the `for` comes to. -/
theorem execute_asWhile_approximates (hformed : (Stmt.forLoop init condition post body).Formed)
    (fuel : Nat) (hnear : W.near i j) (hstate : s.Paired W t) : ∃ fuel',
    Approximates W Equal (Eval.execute fuel i (.asWhile init condition post body) s)
      (Eval.execute fuel' j (.forLoop init condition post body) t) := by
  obtain ⟨hinit, hbody⟩ := hformed.clauses
  obtain ⟨loopFuel, -, hle, hasWhile⟩ := Eval.execute_asWhile i hinit condition post body fuel
  have hmore := (Task.execute i (.asWhile init condition post body)).run_more
    (Nat.le_add_right fuel 4) s
  refine ⟨fuel + 5 + 1, Approximates.of_more ?_ hmore⟩
  show Approximates W Equal (Eval.execute (fuel + 4) i _ s) _
  rw [Eval.execute_forLoop, hasWhile]
  refine header_approximates (by omega) (whileLoop_approximates hbody condition (by omega))
    (fun clauses => ?_) hnear hstate
  exact (Task.forLoop clauses _ _ _).prints (fuel + 5)

end

/-- Begun in this scope and state, no program can tell the statements apart. -/
structure Stmt.Interchangeable (scope : ScopeId) (s : State) (stmt stmt' : Stmt) : Prop where
  /-- The one comes to an outcome if and only if the other one does. -/
  ends : (∃ outcome, (Task.execute scope stmt).EndsIn s outcome) ↔
    ∃ outcome, (Task.execute scope stmt').EndsIn s outcome
  /-- It is the same completion, or the same failure, with the same output. The stores are the same
  but for scopes that hold no names, and what was there before is still the same. -/
  outcomes : ∀ {outcome outcome'}, (Task.execute scope stmt).EndsIn s outcome →
    (Task.execute scope stmt').EndsIn s outcome' →
      Twinned (.identity s.store.scopes.size) Equal outcome outcome'
  /-- All that the one prints, whether it comes to an outcome or not, the other one prints. -/
  prints : ∀ fuel, ∃ fuel', (finalState (Eval.execute fuel scope stmt s)).PrintsOn
    (finalState (Eval.execute fuel' scope stmt' s))
  prints' : ∀ fuel, ∃ fuel', (finalState (Eval.execute fuel scope stmt' s)).PrintsOn
    (finalState (Eval.execute fuel' scope stmt s))

/-- The outcome of a run that has ended is not matched by want of fuel. -/
theorem Twinned.ends {α β : Type} {Q : Pairing → α → β → Prop} {outcome : Outcome α}
    {outcome' : Outcome β} (h : Twinned W Q outcome outcome')
    (hends : ∀ s', outcome ≠ .error .outOfFuel s') (t' : State) :
    outcome' ≠ .error .outOfFuel t' := by
  cases h with
  | ok => nofun
  | error hle hstate =>
    intro hexhausted
    obtain ⟨rfl, -⟩ := EStateM.Result.error.inj hexhausted
    exact hends _ rfl

/-- If each run of a statement approximates one of another statement, the other one comes to an
outcome if the first one does. -/
theorem endsIn_of_approximates {stmt stmt' : Stmt} {outcome : Outcome Completion}
    (happrox : ∀ fuel, ∃ fuel', Approximates W Equal (Eval.execute fuel i stmt s)
      (Eval.execute fuel' j stmt' t))
    (h : (Task.execute i stmt).EndsIn s outcome) :
    ∃ outcome', (Task.execute j stmt').EndsIn t outcome' ∧ Twinned W Equal outcome outcome' := by
  obtain ⟨hends, fuel, hrun⟩ := h
  have hrun : Eval.execute fuel i stmt s = outcome := hrun
  obtain ⟨fuel', htwins | ⟨s', hexhausted, -⟩⟩ := happrox fuel
  · rw [hrun] at htwins
    exact ⟨_, ⟨htwins.ends hends, fuel', rfl⟩, htwins⟩
  · exact absurd (hrun.symm.trans hexhausted) (hends s')

/-- A `for` as the parser builds it, and the block with the `while` loop that it abbreviates, can be
put in the place of each other: in every scope of every store in which nothing refers to a scope
that is not there, so of every consistent one. Each of the two approximates the other one, with
enough fuel, so that they come to the same outcomes. -/
theorem forLoop_interchangeable {init : Option Stmt} {condition post : Option Expr} {body : Stmt}
    (hformed : (Stmt.forLoop init condition post body).Formed) {scope : ScopeId} {s : State}
    (hstore : s.store.ClosedScopes) (hscope : scope.index < s.store.scopes.size) :
    Stmt.Interchangeable scope s (.forLoop init condition post body)
      (.asWhile init condition post body) := by
  -- Both start in the same state, so each scope is paired with itself; blank scopes come in as the
  -- runs go on.
  have hstate : s.Paired (.identity s.store.scopes.size) s :=
    ⟨hstore.paired (Nat.zero_lt_of_lt hscope), rfl, rfl⟩
  have hnear : (Pairing.identity s.store.scopes.size).near scope scope := ⟨hscope, rfl⟩
  have hfor := fun fuel => execute_forLoop_approximates hformed fuel hnear hstate
  have hwhile := fun fuel => execute_asWhile_approximates hformed fuel hnear hstate
  constructor
  case ends =>
    constructor
    · rintro ⟨outcome, hends⟩
      obtain ⟨outcome', hends', -⟩ := endsIn_of_approximates hfor hends
      exact ⟨outcome', hends'⟩
    · rintro ⟨outcome, hends⟩
      obtain ⟨outcome', hends', -⟩ := endsIn_of_approximates hwhile hends
      exact ⟨outcome', hends'⟩
  case outcomes =>
    intro outcome outcome' hends hends'
    obtain ⟨reached, hreached, htwins⟩ := endsIn_of_approximates hfor hends
    -- The twin that was reached is the outcome of the `while` loop, since a run ends in one way.
    have hsame : outcome' = reached := hreached.unique hends'
    rwa [hsame]
  case prints => exact fun fuel => (hfor fuel).imp fun _ happrox => happrox.printsOn
  case prints' => exact fun fuel => (hwhile fuel).imp fun _ happrox => happrox.printsOn

/-- The loop `for (var done = false; !done; done = true) { fun f() { return done; } f(); }`. -/
theorem forLoop_interchangeable_closure :
    let done : Token := ⟨.identifier, "done", none, .origin⟩
    let f : Token := ⟨.identifier, "f", none, .origin⟩
    let init := Stmt.varDecl done
      (some (.literal ⟨.kwFalse, "false", some (.boolean false), .origin⟩))
    let condition := Expr.unary ⟨.bang, "!", none, .origin⟩ (.variable done)
    let post := Expr.binary (.variable done) ⟨.equal, "=", none, .origin⟩ .always
    let result := Stmt.returnValue ⟨.kwReturn, "return", none, .origin⟩ (some (.variable done))
    let call := Expr.call (.variable f) ⟨.rightParen, ")", none, .origin⟩ []
    let body := Stmt.block [.function ⟨f, [], [result]⟩, .expression call]
    (Stmt.forLoop (some init) (some condition) (some post) body).Formed ∧
      Stmt.Interchangeable Store.globalScope (.initial .unlimited ⟨fun _ => ⟨0⟩⟩)
        (.forLoop (some init) (some condition) (some post) body)
        (.asWhile (some init) (some condition) (some post) body) := by
  intro done f init condition post result call body
  have hformed : (Stmt.forLoop (some init) (some condition) (some post) body).Formed := by
    simp [init, condition, post, result, call, body, Stmt.Formed, Stmt.AllFormed,
      FunctionDecl.Formed, FormedClause, Expr.Formed, Expr.AllFormed, Expr.always,
      Stmt.isInitializer, Stmt.isDeclaration, binaryKinds]
  have hstore : Store.initial.Consistent fun _ => True := Store.consistent_initial
  exact ⟨hformed, forLoop_interchangeable hformed hstore.closedScopes (by decide)⟩

end Script
