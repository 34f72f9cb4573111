import Script.Proofs.Run.Layer
import Script.Proofs.Run.Soundness
import Script.Proofs.Scoping.NestedStore

/-!
# Runs keep the nesting

The contract that scopes follow the text in all runs, on top of the one that the store stays sound.
What a task may add to the scopes that are there when it begins is known: the names that a
statement declares, in the scope that it stands in.

Expressions add nothing at all. Their plans are *quiet*: no action touches a name, and all calls
are for the same scope or for none. A quiet plan needs no further argument (`meets_quiet`).
-/

namespace Script

open Contract

/-- The scope that the task is run in, if it is one scope. -/
def Task.scope? : Task → Option ScopeId
  | .evaluate scope _ => some scope
  | .evaluateAll scope _ => some scope
  | .evaluateOption scope _ => some scope
  | .call _ _ => none
  | .construct _ _ _ => none
  | .invoke _ _ _ => none
  | .execute scope _ => some scope
  | .executeAll scope _ => some scope
  | .whileLoop scope _ _ => some scope
  | .forLoop scope _ _ _ => some scope

/-- The names that the task declares in its scope. -/
def Task.declared : Task → List String
  | .execute _ stmt => stmt.declared
  | .executeAll _ statements => Stmt.declaredByAll statements
  | _ => []

/-- A statement that has been executed has declared its name. -/
def Task.Settled (store : Store) : Task → Prop
  | .execute scope stmt => ∀ name ∈ stmt.declared, store.declares scope name = true
  | _ => True

/-- A function is called with as many arguments as it has parameters. -/
def Task.Balanced (store : Store) : Task → Prop
  | .invoke id _ arguments => (store.function id).decl.params.length = arguments.length
  | _ => True

/-- From `a` on the nesting is kept up to `b`, where a scope of `a` may have gained names only if
it is this one, and only these. -/
structure Reaches (U : List Occurrence) (Occurs : Moment → Prop) (scope? : Option ScopeId)
    (names : List String) (a b : Store) : Prop where
  grows : a.Grows b
  nested : Nested U Occurs b
  gains : ∀ id : ScopeId, id.index < a.scopes.size → ∀ name, b.declares id name = true →
    a.declares id name = true ∨ (scope? = some id ∧ name ∈ names)

/-- Where a task begins, its scope follows the text of the task. -/
structure Task.Begins (U : List Occurrence) (Occurs : Moment → Prop) (store : Store) (task : Task) :
    Prop where
  nested : Nested U Occurs store
  place : ∀ scope ∈ task.scope?, ∃ context, At Occurs store scope context ∧
    task.occurrences context ⊆ U ∧ context.HasRoom task.declared
  balanced : task.Balanced store

/-- The contract of the nesting, as a layer over the soundness of the store: tasks begin at places
that follow their text, and they reach a store that has gained no names but theirs. -/
def nesting (U : List Occurrence) (Occurs : Moment → Prop) : Contract :=
  (soundness U Occurs).layer (fun task s => task.Begins U Occurs s.store)
    fun task s outcome =>
      Reaches U Occurs task.scope? task.declared s.store (finalState outcome).store ∧
        Yields (fun _ s' => task.Settled s'.store) outcome

section

variable {U : List Occurrence} {Occurs : Moment → Prop} {a b c : Store} {scope? : Option ScopeId}
  {names : List String} {context : Context} {fuel : Nat} {s : State} {α β : Type}

theorem Reaches.refl (h : Nested U Occurs a) : Reaches U Occurs scope? names a a where
  grows := Store.Grows.refl a
  nested := h
  gains := fun _ _ _ hname => .inl hname

/-- What is gained later has to be allowed from the start, for the scopes that were there. -/
theorem Reaches.trans {scope?' : Option ScopeId} {names' : List String}
    (hab : Reaches U Occurs scope? names a b) (hbc : Reaches U Occurs scope?' names' b c)
    (hallowed : ∀ id : ScopeId, id.index < a.scopes.size → scope?' = some id →
      ∀ name ∈ names', scope? = some id ∧ name ∈ names) : Reaches U Occurs scope? names a c where
  grows := hab.grows.trans hbc.grows
  nested := hbc.nested
  gains := by
    intro id hid name hname
    have hlt := Nat.lt_of_lt_of_le hid hab.grows.scopes.size
    rcases hbc.gains id hlt name hname with hbefore | ⟨hscope, hnew⟩
    · exact hab.gains id hid name hbefore
    · exact .inr (hallowed id hid hscope name hnew)

/-- Something quiet may happen afterwards: it adds no name to what has been declared. -/
theorem Reaches.quiet (hab : Reaches U Occurs scope? names a b)
    (hbc : Reaches U Occurs none [] b c) : Reaches U Occurs scope? names a c :=
  hab.trans hbc fun _ _ h => nomatch h

/-- What gains nothing gains at most these names. -/
theorem Reaches.weaken (h : Reaches U Occurs none [] a b) : Reaches U Occurs scope? names a b where
  grows := h.grows
  nested := h.nested
  gains := fun id hid name hname => by
    rcases h.gains id hid name hname with hbefore | ⟨hscope, -⟩
    · exact .inl hbefore
    · cases hscope

/-- What is declared in a new scope leaves the older ones alone. -/
theorem Reaches.inside {inner : ScopeId} (hab : Reaches U Occurs none [] a b)
    (hinner : a.scopes.size ≤ inner.index) (hbc : Reaches U Occurs (some inner) names b c) :
    Reaches U Occurs none [] a c := by
  refine hab.trans hbc fun id hid heq => ?_
  obtain rfl := Option.some.inj heq
  exact absurd hinner (Nat.not_le_of_lt hid)

/-- Something that declares no names is quiet, whichever scope it is run in. -/
theorem Reaches.of_nil (h : Reaches U Occurs scope? [] a b) : Reaches U Occurs none [] a b where
  grows := h.grows
  nested := h.nested
  gains := fun id hid name hname => by
    rcases h.gains id hid name hname with hbefore | ⟨-, hnew⟩
    · exact .inl hbefore
    · cases hnew

/-- What gains no names leaves every place what it is. -/
theorem At.quiet {scope : ScopeId} (h : At Occurs a scope context)
    (hab : Reaches U Occurs none [] a b) : At Occurs b scope context := by
  refine h.later hab.grows fun name hname => ?_
  rcases hab.gains scope h.follows.lt name hname with hbefore | ⟨hscope, -⟩
  · exact hbefore
  · cases hscope

/-- Once the names are declared, the scope follows the context with them. -/
theorem At.settled {scope : ScopeId} (h : At Occurs a scope context)
    (hab : Reaches U Occurs (some scope) names a b)
    (hnames : ∀ name ∈ names, b.declares scope name = true) :
    At Occurs b scope (context.declare names) := by
  refine h.declare hab.grows hnames fun name hname => ?_
  rcases hab.gains scope h.follows.lt name hname with hbefore | ⟨-, hnew⟩
  · exact .inl hbefore
  · exact .inr hnew

/-- A task begins in a scope that follows the text of the task. -/
theorem Task.begins_at {task : Task} {scope : ScopeId} (hscope : task.scope? = some scope)
    (hnested : Nested U Occurs a) (hat : At Occurs a scope context)
    (hwithin : task.occurrences context ⊆ U) (hroom : context.HasRoom task.declared)
    (hbalanced : task.Balanced a) : task.Begins U Occurs a := by
  refine ⟨hnested, fun other hother => ?_, hbalanced⟩
  obtain rfl := Option.some.inj (hscope.symm.trans hother)
  exact ⟨context, hat, hwithin, hroom⟩

/-! ## Quiet plans

A plan is quiet if no action in it touches a name, and if all tasks in it are for the same place, or
for no place as calls are. What a quiet plan does is then known without looking at it again: by
induction on the plan, each action keeps the names and each task adds none. -/

/-- The action leaves all names alone, whether it succeeds or not. -/
def Silent (action : Eval α) : Prop :=
  ∀ s : State, s.store.SameNames (finalState (action s)).store

/-- Everything in the plan leaves all names alone, and all calls are for this place or for none. -/
def Plan.Quiet (U : List Occurrence) (scope? : Option ScopeId) (context : Context) :
    Plan α → Prop
  | .done _ => True
  | .step _ action next => Silent action ∧ ∀ b, (next b).Quiet U scope? context
  | .sub task next =>
    (task.scope? = scope? ∧ task.occurrences context ⊆ U ∨ task.scope? = none) ∧
      task.declared = [] ∧ (∀ store, task.Balanced store) ∧ ∀ a, (next a).Quiet U scope? context

/-- A quiet plan that goes on quietly is quiet. -/
theorem Plan.Quiet.bind {plan : Plan α} {f : α → Plan β} (h : plan.Quiet U scope? context)
    (hf : ∀ a, (f a).Quiet U scope? context) : (plan >>= f).Quiet U scope? context := by
  show (plan.bind f).Quiet U scope? context
  induction plan with
  | done a => exact hf a
  | step event action next ih => exact ⟨h.1, fun b => ih b (h.2 b)⟩
  | sub task next ih => exact ⟨h.1, h.2.1, h.2.2.1, fun a => ih a (h.2.2.2 a)⟩

/-- A silent action is a quiet plan. -/
theorem Plan.quiet_act {action : Eval α} (h : Silent action) :
    (Plan.act action).Quiet U scope? context :=
  ⟨h, fun _ => trivial⟩

/-- A quiet plan keeps the nesting and adds nothing. -/
theorem meets_quiet (hfacts : ∀ moment, Occurs moment → (soundness U Occurs).Fact moment)
    {plan : Plan α} (hquiet : plan.Quiet U scope? context) (hnested : Nested U Occurs s.store)
    (hat : ∀ scope ∈ scope?, At Occurs s.store scope context) :
    (nesting U Occurs).Meets Occurs fuel plan s
      fun outcome => Reaches U Occurs none [] s.store (finalState outcome).store := by
  induction plan generalizing s with
  | done a => exact .refl hnested
  | step event action next ih =>
    obtain ⟨hsilent, hnext⟩ := hquiet
    refine layer_step hfacts fun _ _ _ hgrows => ?_
    have hsame := hsilent s
    have hgrows : s.store.Grows (finalState (action s)).store := hgrows
    have hreaches : Reaches U Occurs none [] s.store (finalState (action s)).store := by
      refine ⟨hgrows, hnested.same hgrows hsame, ?_⟩
      exact fun id hid name hname => .inl (hsame.names id hid name hname)
    cases hrun : action s with
    | error interrupt s' =>
      rw [hrun] at hreaches
      exact hreaches
    | ok b s' =>
      rw [hrun] at hreaches
      -- The place is still the same, for the rest of the plan.
      have hat' : ∀ scope ∈ scope?, At Occurs s'.store scope context :=
        fun scope hscope => (hat scope hscope).quiet hreaches
      refine (ih b (hnext b) hreaches.nested hat').mono fun outcome houtcome => ?_
      exact hreaches.quiet houtcome
  | sub task next ih =>
    obtain ⟨hplace, hdeclared, hbalanced, hnext⟩ := hquiet
    refine layer_sub hfacts (fun _ _ => ⟨hnested, ?_, hbalanced _⟩) ?_ ?_
    · -- A task for this place begins in it; a call is for no place.
      intro scope hscope
      rcases hplace with ⟨hsame, hwithin⟩ | hnone
      · rw [hsame] at hscope
        rw [hdeclared]
        exact ⟨context, hat scope hscope, hwithin, context.hasRoom_nil⟩
      · rw [hnone] at hscope
        cases hscope
    · rintro interrupt s' - - ⟨hreaches, -⟩
      rw [hdeclared] at hreaches
      exact hreaches.of_nil
    · rintro b s' - - ⟨hreaches, -⟩
      rw [hdeclared] at hreaches
      have hreaches : Reaches U Occurs none [] s.store s'.store := hreaches.of_nil
      have hat' : ∀ scope ∈ scope?, At Occurs s'.store scope context :=
        fun scope hscope => (hat scope hscope).quiet hreaches
      refine (ih b (hnext b) hreaches.nested hat').mono fun outcome houtcome => ?_
      exact hreaches.quiet houtcome

end

end Script
