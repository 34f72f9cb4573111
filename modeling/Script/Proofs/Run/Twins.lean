import Script.Proofs.Grammar.Shape
import Script.Proofs.Run.Actions
import Script.Proofs.Store.Paired

/-!
# Runs side by side

Two states that are the same but for blank scopes (`State.Paired`) cannot be told apart by a
program. A task and its *twin* ask for the same in scopes that are near to each other; only what
declares names asks for scopes that are the same. Twins run in lockstep: they call twins, come to
the same outcome, and leave states that are the same but for blank scopes (`Task.Twin.run`).
-/

namespace Script

/-- The states are the same, but for blank scopes. -/
structure State.Paired (W : Pairing) (s t : State) : Prop where
  store : s.store.Paired W t.store
  output : t.output = s.output
  clock : t.clock = s.clock

/-- Replacing both stores keeps the rest of the states. -/
theorem State.Paired.with_store {W W' : Pairing} {s t : State} (h : s.Paired W t) {a b : Store}
    (hstore : a.Paired W' b) :
    State.Paired W' { s with store := a } { t with store := b } :=
  ⟨hstore, h.output, h.clock⟩

/-! ## Outcomes

While two evaluations go on, scopes are opened and the pairing gets larger. What was said of scopes
by a smaller pairing is said by a larger one as well, so that results can be compared by the pairing
of the state in which they are used. -/

section

variable {α β γ δ : Type} {W W' : Pairing} {Q : Pairing → α → β → Prop} {s t : State}

/-- Both evaluations end with results related by `Q`, or both with the same interrupt, in states
that are the same but for blank scopes. The pairing of the scopes says all that `W` says. -/
inductive Twinned (W : Pairing) (Q : Pairing → α → β → Prop) : Outcome α → Outcome β → Prop
  | ok {W' : Pairing} {a : α} {b : β} {s t : State} (hle : W ≤ W') (hstate : s.Paired W' t)
    (h : Q W' a b) : Twinned W Q (.ok a s) (.ok b t)
  | error {W' : Pairing} {interrupt : Interrupt} {s t : State} (hle : W ≤ W')
    (hstate : s.Paired W' t) : Twinned W Q (.error interrupt s) (.error interrupt t)

/-- Seen from an earlier state, where the pairing was smaller. -/
theorem Twinned.of_le {outcome : Outcome α} {outcome' : Outcome β}
    (h : Twinned W' Q outcome outcome') (hle : W ≤ W') : Twinned W Q outcome outcome' := by
  cases h with
  | ok hle' hstate h => exact .ok (Pairing.le_trans hle hle') hstate h
  | error hle' hstate => exact .error (Pairing.le_trans hle hle') hstate

theorem Twinned.mono {Q' : Pairing → α → β → Prop} {outcome : Outcome α} {outcome' : Outcome β}
    (h : Twinned W Q outcome outcome') (himp : ∀ W a b, Q W a b → Q' W a b) :
    Twinned W Q' outcome outcome' := by
  cases h with
  | ok hle hstate h => exact .ok hle hstate (himp _ _ _ h)
  | error hle hstate => exact .error hle hstate

/-- Two evaluations one after the other: where the first ones succeed the second ones are compared
from there, and where they fail so do both sequences. -/
theorem Twinned.bind {Q' : Pairing → γ → δ → Prop} {x : Eval α} {y : Eval β} {k : α → Eval γ}
    {l : β → Eval δ} (h : Twinned W Q (x s) (y t))
    (hk : ∀ W' a b s' t', W ≤ W' → s'.Paired W' t' → Q W' a b → Twinned W' Q' (k a s') (l b t')) :
    Twinned W Q' ((x >>= k) s) ((y >>= l) t) := by
  generalize hx : x s = outcome at h
  generalize hy : y t = outcome' at h
  cases h with
  | ok hle hstate h =>
    rw [Eval.bind_of_ok hx, Eval.bind_of_ok hy]
    exact (hk _ _ _ _ _ hle hstate h).of_le hle
  | error hle hstate =>
    rw [Eval.bind_of_error hx, Eval.bind_of_error hy]
    exact .error hle hstate

/-- The results are the same in every pairing, as all values are. -/
abbrev Equal : Pairing → α → α → Prop := fun _ a b => a = b

end

/-! ## Tasks -/

/-- The second task asks for the same as the first one, in a scope that is near to that of the
first, and in the same one if names are declared in it. -/
inductive Task.Twin (W : Pairing) : Task → Task → Prop
  | evaluate {i j : ScopeId} (h : W.near i j) (expr : Expr) :
    Twin W (.evaluate i expr) (.evaluate j expr)
  | evaluateAll {i j : ScopeId} (h : W.near i j) (exprs : List Expr) :
    Twin W (.evaluateAll i exprs) (.evaluateAll j exprs)
  | evaluateOption {i j : ScopeId} (h : W.near i j) (expr : Option Expr) :
    Twin W (.evaluateOption i expr) (.evaluateOption j expr)
  | call (callee : Value) (arguments : List Value) :
    Twin W (.call callee arguments) (.call callee arguments)
  | construct (id : InstanceId) (start : Option ClassId) (arguments : List Value) :
    Twin W (.construct id start arguments) (.construct id start arguments)
  | invoke (id : FunctionId) (binding : Option (InstanceId × ClassId)) (arguments : List Value) :
    Twin W (.invoke id binding arguments) (.invoke id binding arguments)
  | execute {i j : ScopeId} (h : W.near i j) {stmt : Stmt}
    (hdeclares : stmt.isDeclaration = true → W.same i j) :
    Twin W (.execute i stmt) (.execute j stmt)
  | executeAll {i j : ScopeId} (h : W.same i j) (statements : List Stmt) :
    Twin W (.executeAll i statements) (.executeAll j statements)
  | whileLoop {i j : ScopeId} (h : W.near i j) (condition : Expr) (body : Stmt) :
    Twin W (.whileLoop i condition body) (.whileLoop j condition body)
  | forLoop {i j : ScopeId} (h : W.near i j) (condition post : Option Expr) (body : Stmt) :
    Twin W (.forLoop i condition post body) (.forLoop j condition post body)

/-! ## Plans

Plans are compared action by action. In any two states that are the same but for blank scopes the
actions have the same outcome, and the calls are calls of twins. It follows for whole plans without
going into the tasks that they call. -/

namespace Plan

variable {α β γ δ : Type} {W W' : Pairing} {Q : Pairing → α → β → Prop} {i j : ScopeId}

/-- The plans act alike in states that are the same but for blank scopes, call twins, and end with
results related by `Q`. -/
def Twin {α β : Type} (Q : Pairing → α → β → Prop) : Pairing → Plan α → Plan β → Prop
  | W, .done a, .done b => Q W a b
  | W, .step _ action next, .step _ action' next' => ∀ s t, s.Paired W t →
    Twinned W (fun W' a b => (next a).Twin Q W' (next' b)) (action s) (action' t)
  -- The results of twins are of the same type, but the types are not known to be equal before it is
  -- known which tasks they are. Hence the heterogeneous equality.
  | W, .sub task next, .sub task' next' => task.Twin W task' ∧
    ∀ W' r r', W ≤ W' → HEq r r' → (next r).Twin Q W' (next' r')
  | _, _, _ => False

/-- Plans that are done are twins if their results are related. -/
theorem twin_pure {a : α} {b : β} (h : Q W a b) : (pure a : Plan α).Twin Q W (pure b) := h

/-- Plans that are twins may follow each other. The pairing may have grown by the time that the
second ones begin. -/
theorem Twin.bind {Q' : Pairing → γ → δ → Prop} {plan : Plan α} {plan' : Plan β} {f : α → Plan γ}
    {g : β → Plan δ} (h : plan.Twin Q W plan')
    (hf : ∀ W' a b, W ≤ W' → Q W' a b → (f a).Twin Q' W' (g b)) :
    (plan >>= f).Twin Q' W (plan' >>= g) := by
  show (plan.bind f).Twin Q' W (plan'.bind g)
  -- Both plans have the same form, so the induction takes them apart at the same time.
  induction plan generalizing W plan' with
  | done a =>
    cases plan' with
    | done b => exact hf W a b (W.le_refl) h
    | _ => exact h.elim
  | step event action next ih =>
    cases plan' with
    | step event' action' next' =>
      intro s t hstate
      have hboth := h s t hstate
      generalize action s = outcome at hboth ⊢
      generalize action' t = outcome' at hboth ⊢
      cases hboth with
      | ok hle hstate hnext =>
        exact .ok hle hstate (ih _ hnext fun W' a b hle' => hf W' a b (Pairing.le_trans hle hle'))
      | error hle hstate => exact .error hle hstate
    | _ => exact h.elim
  | sub task next ih =>
    cases plan' with
    | sub task' next' =>
      refine ⟨h.1, fun W' r r' hle hresult => ?_⟩
      exact ih r (h.2 W' r r' hle hresult) fun W'' a b hle' =>
        hf W'' a b (Pairing.le_trans hle hle')
    | _ => exact h.elim

/-- A weaker relation between the results of plans. -/
theorem Twin.mono {Q' : Pairing → α → β → Prop} {plan : Plan α} {plan' : Plan β}
    (h : plan.Twin Q W plan') (himp : ∀ W a b, Q W a b → Q' W a b) : plan.Twin Q' W plan' := by
  induction plan generalizing W plan' with
  | done a =>
    cases plan' with
    | done b => exact himp W a b h
    | _ => exact h.elim
  | step event action next ih =>
    cases plan' with
    | step event' action' next' =>
      exact fun s t hstate => (h s t hstate).mono fun _ a _ hnext => ih a hnext
    | _ => exact h.elim
  | sub task next ih =>
    cases plan' with
    | sub task' next' => exact ⟨h.1, fun W' r r' hle hresult => ih r (h.2 W' r r' hle hresult)⟩
    | _ => exact h.elim

theorem twin_act {action : Eval α} {action' : Eval β}
    (h : ∀ s t, s.Paired W t → Twinned W Q (action s) (action' t)) :
    (act action).Twin Q W (act action') :=
  h

/-- Twins that are called come to the same results. -/
theorem twin_perform {task task' : Task} {Q : Pairing → task.Result → task'.Result → Prop}
    (htask : task.Twin W task') (h : ∀ W' r r', W ≤ W' → HEq r r' → Q W' r r') :
    (perform task).Twin Q W (perform task') :=
  ⟨htask, h⟩

/-- An expression in scopes that are near to each other. -/
theorem twin_evaluate (h : W.near i j) (expr : Expr) :
    @Twin Value Value Equal W (perform (.evaluate i expr)) (perform (.evaluate j expr)) :=
  twin_perform (.evaluate h expr) fun _ _ _ _ hresult => eq_of_heq hresult

/-- Arguments in scopes that are near to each other. -/
theorem twin_evaluateAll (h : W.near i j) (exprs : List Expr) :
    @Twin (List Value) (List Value) Equal W (perform (.evaluateAll i exprs))
      (perform (.evaluateAll j exprs)) :=
  twin_perform (.evaluateAll h exprs) fun _ _ _ _ hresult => eq_of_heq hresult

/-- A clause in scopes that are near to each other. -/
theorem twin_evaluateOption (h : W.near i j) (expr : Option Expr) :
    @Twin Value Value Equal W (perform (.evaluateOption i expr))
      (perform (.evaluateOption j expr)) :=
  twin_perform (.evaluateOption h expr) fun _ _ _ _ hresult => eq_of_heq hresult

theorem twin_call (callee : Value) (arguments : List Value) :
    @Twin Value Value Equal W (perform (.call callee arguments))
      (perform (.call callee arguments)) :=
  twin_perform (.call callee arguments) fun _ _ _ _ hresult => eq_of_heq hresult

theorem twin_construct (id : InstanceId) (start : Option ClassId) (arguments : List Value) :
    @Twin Unit Unit Equal W (perform (.construct id start arguments))
      (perform (.construct id start arguments)) :=
  twin_perform (.construct id start arguments) fun _ _ _ _ hresult => eq_of_heq hresult

theorem twin_invoke (id : FunctionId) (binding : Option (InstanceId × ClassId))
    (arguments : List Value) :
    @Twin Value Value Equal W (perform (.invoke id binding arguments))
      (perform (.invoke id binding arguments)) :=
  twin_perform (.invoke id binding arguments) fun _ _ _ _ hresult => eq_of_heq hresult

/-- A statement; where it declares a name, the scopes have to be the same. -/
theorem twin_execute (h : W.near i j) {stmt : Stmt}
    (hdeclares : stmt.isDeclaration = true → W.same i j) :
    @Twin Completion Completion Equal W (perform (.execute i stmt)) (perform (.execute j stmt)) :=
  twin_perform (.execute h hdeclares) fun _ _ _ _ hresult => eq_of_heq hresult

/-- A row of statements, which may declare names. -/
theorem twin_executeAll (h : W.same i j) (statements : List Stmt) :
    @Twin Completion Completion Equal W (perform (.executeAll i statements))
      (perform (.executeAll j statements)) :=
  twin_perform (.executeAll h statements) fun _ _ _ _ hresult => eq_of_heq hresult

theorem twin_whileLoop (h : W.near i j) (condition : Expr) (body : Stmt) :
    @Twin Completion Completion Equal W (perform (.whileLoop i condition body))
      (perform (.whileLoop j condition body)) :=
  twin_perform (.whileLoop h condition body) fun _ _ _ _ hresult => eq_of_heq hresult

theorem twin_forLoop (h : W.near i j) (condition post : Option Expr) (body : Stmt) :
    @Twin Completion Completion Equal W (perform (.forLoop i condition post body))
      (perform (.forLoop j condition post body)) :=
  twin_perform (.forLoop h condition post body) fun _ _ _ _ hresult => eq_of_heq hresult

/-! ### Actions -/

/-- What is read off the two stores is related. -/
theorem twin_read {f : Store → α} {g : Store → β}
    (h : ∀ a b : Store, a.Paired W b → Q W (f a) (g b)) :
    (act (Eval.read f)).Twin Q W (act (Eval.read g)) :=
  twin_act fun s t hstate => .ok W.le_refl hstate (h s.store t.store hstate.store)

/-- What is read off the store is the same in both stores. -/
theorem twin_readSame {f g : Store → α} (h : ∀ a b : Store, a.Paired W b → g b = f a) :
    (act (Eval.read f)).Twin Equal W (act (Eval.read g)) :=
  twin_read fun a b hstore => (h a b hstore).symm

/-- A reading that may fail, and does so in both stores or in none. -/
theorem twin_readOrFail {f g : Store → Except RuntimeError α}
    (h : ∀ a b : Store, a.Paired W b → g b = f a) :
    (act (Eval.readOrFail f)).Twin Equal W (act (Eval.readOrFail g)) := by
  refine twin_act fun s t hstate => ?_
  unfold Eval.readOrFail
  rw [h s.store t.store hstate.store]
  cases f s.store with
  | ok a => exact .ok W.le_refl hstate rfl
  | error error => exact .error W.le_refl hstate

theorem twin_fail (error : RuntimeError) :
    (act (Eval.fail error : Eval α)).Twin Q W (act (Eval.fail error)) :=
  twin_act fun _ _ hstate => .error W.le_refl hstate

/-- Meeting a tree that no rule is meant for. -/
theorem twin_malformed :
    (act (Eval.malformed : Eval α)).Twin Q W (act Eval.malformed) :=
  twin_act fun _ _ hstate => .error W.le_refl hstate

theorem twin_checkArity (expected actual : Nat) :
    (act (Eval.checkArity expected actual)).Twin Equal W
      (act (Eval.checkArity expected actual)) := by
  refine twin_act fun s t hstate => ?_
  unfold Eval.checkArity
  split
  · exact .ok W.le_refl hstate rfl
  · exact .error W.le_refl hstate

theorem twin_unary (operator : Token) (operand : Value) :
    (act (applyUnary operator operand)).Twin Equal W (act (applyUnary operator operand)) := by
  refine twin_act fun s t hstate => ?_
  unfold applyUnary
  generalize operator.kind = kind
  split
  · cases operand with
    | number => exact .ok W.le_refl hstate rfl
    | _ => exact .error W.le_refl hstate
  · exact .ok W.le_refl hstate rfl
  · exact .error W.le_refl hstate

/-- Operators between two operands look at no state, so they are twins of themselves. -/
theorem twin_binary (left : Value) (operator : Token) (right : Value) :
    (act (applyBinary left operator right)).Twin Equal W
      (act (applyBinary left operator right)) := by
  refine twin_act fun s t hstate => ?_
  unfold applyBinary
  generalize operator.kind = kind
  split
  · exact .ok W.le_refl hstate rfl
  · exact .ok W.le_refl hstate rfl
  · cases numericOperator? kind with
    | none => exact .error W.le_refl hstate
    | some compute =>
      dsimp only
      split
      · exact .ok W.le_refl hstate rfl
      · exact .error W.le_refl hstate

/-- Writing the same text to the same output. -/
theorem twin_write (text : String) :
    (act (Eval.write text)).Twin Equal W (act (Eval.write text)) := by
  refine twin_act fun s t hstate => ?_
  unfold Eval.write
  dsimp only
  rw [hstate.output]
  split
  · exact .ok W.le_refl ⟨hstate.store, rfl, hstate.clock⟩ rfl
  · exact .error W.le_refl ⟨hstate.store, rfl, hstate.clock⟩

/-- A native function. The clocks show the same, and a value is displayed the same. -/
theorem twin_native (function : Native) (arguments : List Value) :
    (act (Eval.native function arguments)).Twin Equal W
      (act (Eval.native function arguments)) := by
  refine twin_act fun s t hstate => ?_
  unfold Eval.native
  split
  · have hreading : t.clock.tick = s.clock.tick := by rw [hstate.clock]
    refine .ok W.le_refl ⟨hstate.store, hstate.output, congrArg Prod.snd hreading⟩ ?_
    exact congrArg (fun reading => Value.number reading.1) hreading.symm
  · exact .ok W.le_refl hstate (congrArg Value.string (hstate.store.display _)).symm
  · exact .error W.le_refl hstate

theorem twin_allocate {f g : Store → α × Store}
    (h : ∀ a b : Store, a.Paired W b → (g b).1 = (f a).1 ∧ (f a).2.Paired W (g b).2) :
    (act (Eval.allocate f)).Twin Equal W (act (Eval.allocate g)) := by
  refine twin_act fun s t hstate => ?_
  obtain ⟨hresult, hstore⟩ := h s.store t.store hstate.store
  exact .ok W.le_refl (hstate.with_store hstore) hresult.symm

/-- A change of both stores that may fail. -/
theorem twin_update {f g : Store → Except RuntimeError Store}
    (h : ∀ a b : Store, a.Paired W b → Store.PairedChange W (f a) (g b)) :
    (act (Eval.update f)).Twin Equal W (act (Eval.update g)) := by
  refine twin_act fun s t hstate => ?_
  have hchange := h s.store t.store hstate.store
  unfold Eval.update
  generalize f s.store = changed at hchange ⊢
  generalize g t.store = changed' at hchange ⊢
  cases hchange with
  | ok hstore => exact .ok W.le_refl (hstate.with_store hstore) rfl
  | error error => exact .error W.le_refl hstate

/-- New scopes inside scopes that are near to each other: they are the same from now on. -/
theorem twin_openScope (opening : Opening) (h : W.near i j) (bindings : Table Value) :
    (openScope opening i bindings).Twin (fun W' => W'.same) W (openScope opening j bindings) := by
  intro s t hstate
  have hstore := hstate.store.newChild h bindings
  exact .ok (W.le_addSame _ _) (hstate.with_store hstore) (.inr ⟨rfl, rfl⟩)

theorem twin_lookup (h : W.near i j) (name : String) :
    (act (Eval.lookup i name)).Twin Equal W (act (Eval.lookup j name)) :=
  twin_readOrFail fun _ _ hstore => hstore.lookup h name

theorem twin_define (h : W.same i j) (name : String) (value : Value) :
    (act (Eval.define i name value)).Twin Equal W (act (Eval.define j name value)) :=
  twin_update fun _ _ hstore => hstore.define h name value

theorem twin_assign (h : W.near i j) (name : String) (value : Value) :
    (act (Eval.assign i name value)).Twin Equal W (act (Eval.assign j name value)) :=
  twin_update fun _ _ hstore => hstore.assign h name value

theorem twin_receiver (h : W.near i j) (keyword : String) :
    (act (Eval.receiver i keyword)).Twin Equal W (act (Eval.receiver j keyword)) :=
  twin_readOrFail fun _ _ hstore => by rw [hstore.lookup h]

theorem twin_superclass (h : W.near i j) :
    (act (Eval.superclass i)).Twin Equal W (act (Eval.superclass j)) :=
  twin_readOrFail fun _ _ hstore => by rw [hstore.lookup h]

end Plan

end Script
