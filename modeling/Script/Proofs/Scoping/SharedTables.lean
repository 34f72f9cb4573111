import Mathlib.Logic.ExistsUnique
import Script.Proofs.Run.Uniform
import Script.Proofs.Scoping.Forest
import Script.Proofs.Store.Changes

/-!
# Scopes as shared tables

Scopes are opened, and names declared, assigned and read in them, in any order and through any of
them. What happens is told by the forest of the scopes (`Forest.Run`), and at any time a name is
read and assigned in the table of the nearest scope that holds it, whichever scope it was written
through (`tablesShared_of_linked`). So scopes that stand in a common one share its variables, and
a scope that does not stand in it never comes to see them.

One action keeps the store showing the forest (`perform_shows`), and then any row of them does.
-/

namespace Script

/-- What can be done with scopes, in any order and with any reference to a scope. -/
inductive ScopeAction where
  /-- Opens a scope that stands in no other. -/
  | root
  /-- Opens a scope inside another. -/
  | child (parent : ScopeId)
  | define (scope : ScopeId) (name : String) (value : Value)
  | assign (scope : ScopeId) (name : String) (value : Value)
  | get (scope : ScopeId) (name : String)

namespace ScopeAction

/-- The scope that an action goes through. -/
def scope? : ScopeAction → Option ScopeId
  | root => none
  | child parent => some parent
  | define scope _ _ | assign scope _ _ | get scope _ => some scope

/-- How many scopes there are after an action. -/
def countAfter (count : Nat) : ScopeAction → Nat
  | root | child _ => count + 1
  | define .. | assign .. | get .. => count

/-- The actions go through scopes that are there by then; there are `count` at first. A scope that
an earlier action opened may be used by a later one. -/
def AllWithin : Nat → List ScopeAction → Prop
  | _, [] => True
  | count, action :: rest =>
    (∀ scope ∈ action.scope?, scope.index < count) ∧ AllWithin (action.countAfter count) rest

end ScopeAction

namespace Eval

/-- Performs an action by the operation of the evaluator. What it yields is dropped, since only the
tables and the errors are compared. -/
def perform : ScopeAction → Eval Unit
  | .root => discard (allocate fun store => store.newScope [] .empty)
  | .child parent => discard (child parent)
  | .define scope name value => define scope name value
  | .assign scope name value => assign scope name value
  | .get scope name => discard (lookup scope name)

/-- Performs one action after the other. An action that fails does not keep the others from
happening, as a line of a session does not keep the later ones from running. -/
def performAll : List ScopeAction → Eval Unit
  | [] => pure ()
  | action :: rest => do
    let _ ← attempt (perform action)
    performAll rest

variable {α : Type} {s s' : State} {a : α} {x : Eval α} {error : RuntimeError}

/-- An action that succeeds is attempted with success. -/
theorem attempt_of_ok (h : x s = .ok a s') : attempt x s = .ok (.ok a) s' := by
  unfold attempt
  rw [h]

/-- A runtime error ends an attempt as its result, in the state in which it came up. -/
theorem attempt_of_error (h : x s = .error (.error error) s') :
    attempt x s = .ok (.error error) s' := by
  unfold attempt
  rw [h]

/-- Of an action that succeeds only the state is kept. -/
theorem discard_of_ok (h : x s = .ok a s') : (discard x : Eval Unit) s = .ok () s' := by
  show EStateM.map _ x s = _
  unfold EStateM.map
  rw [h]

/-- An action that fails has nothing to discard. -/
theorem discard_of_error (h : x s = .error (.error error) s') :
    (discard x : Eval Unit) s = .error (.error error) s' := by
  show EStateM.map _ x s = _
  unfold EStateM.map
  rw [h]

variable {scope : ScopeId} {name : String} {value : Value} {store : Store}

/-- The operations on the store, as steps of the evaluator: reading changes nothing, whether it
succeeds or not. -/
theorem lookup_of_ok (h : s.store.lookup scope name = .ok value) :
    lookup scope name s = .ok value s := by
  unfold lookup readOrFail
  dsimp only
  rw [h]

/-- Reading a name that no scope around holds changes nothing either. -/
theorem lookup_of_error (h : s.store.lookup scope name = .error error) :
    lookup scope name s = .error (.error error) s := by
  unfold lookup readOrFail
  dsimp only
  rw [h]

/-- Declaring and assigning put the store in place that the operation yields, and nothing else of
the state changes; if they are refused the state is the same as before. -/
theorem define_of_ok (h : s.store.define scope name value = .ok store) :
    define scope name value s = .ok () { s with store := store } := update_of_ok h

/-- A declaration is refused where the name is in the same scope already. -/
theorem define_of_error (h : s.store.define scope name value = .error error) :
    define scope name value s = .error (.error error) s := update_of_error h

/-- An assignment puts the store in place in the same way. -/
theorem assign_of_ok (h : s.store.assign scope name value = .ok store) :
    assign scope name value s = .ok () { s with store := store } := update_of_ok h

/-- It is refused where no scope around holds the name. -/
theorem assign_of_error (h : s.store.assign scope name value = .error error) :
    assign scope name value s = .error (.error error) s := update_of_error h

end Eval

/-- A new value for a name that a table holds adds no name. -/
theorem Table.names_set {α : Type} {table : Table α} {name : String}
    (h : table.contains name = true) (value : α) : (table.set name value).names = table.names := by
  obtain ⟨entries⟩ := table
  unfold names set
  unfold contains get? at h
  simp only at h ⊢
  -- Setting walks along the entries to the one that has the name, and there is one.
  induction entries with
  | nil => cases h
  | cons entry rest ih =>
    obtain ⟨key, old⟩ := entry
    unfold setIn
    unfold findIn at h
    by_cases hkey : key = name
    · rw [if_pos hkey]
      rfl
    · rw [if_neg hkey] at h ⊢
      rw [List.map_cons, ih h]
      rfl

namespace Forest

/-- What an action does to the forest. A declaration and an assignment have two cases each,
according to whether the name is held; the second leaves the forest as it is. -/
inductive Step (forest : Forest) : ScopeAction → Forest → Prop
  | root : Step forest .root (forest.opened none)
  | child {parent : ScopeId} : Step forest (.child parent) (forest.opened (some parent))
  | define {scope : ScopeId} {name : String} {value : Value}
      (hfree : ¬ forest.Holds scope name) :
      Step forest (.define scope name value) (forest.write scope name value)
  | redefine {scope : ScopeId} {name : String} {value : Value}
      (hholds : forest.Holds scope name) : Step forest (.define scope name value) forest
  | assign {scope owner : ScopeId} {name : String} {value : Value}
      (howner : forest.Nearest name scope owner) :
      Step forest (.assign scope name value) (forest.write owner name value)
  | assignNowhere {scope : ScopeId} {name : String} {value : Value}
      (hnowhere : forest.Nowhere name scope) : Step forest (.assign scope name value) forest
  | get {scope : ScopeId} {name : String} : Step forest (.get scope name) forest

/-- What a row of actions does to the forest. -/
inductive Run : Forest → List ScopeAction → Forest → Prop
  | nil (forest : Forest) : Run forest [] forest
  | cons {forest next last : Forest} {action : ScopeAction} {rest : List ScopeAction}
      (hstep : forest.Step action next) (hrest : Run next rest last) :
      Run forest (action :: rest) last

end Forest

/-! ## What single actions do

The records below are the whole statement about a moment: which tables there are, what they say, and
what each action would do next. What an action leaves alone is stated as well (`rest`, `others`,
`elsewhere`), so that nothing but the table or the scope in question may change. -/

/-- The second state is the first one with a value written to the table of a scope, and nothing
else changed. -/
structure TableWritten (owner : ScopeId) (name : String) (value : Value) (s s' : State) : Prop where
  here : (s'.store.bindings owner).get? name = some value
  elsewhere : ∀ other otherName, ¬ (other = owner ∧ otherName = name) →
    (s'.store.bindings other).get? otherName = (s.store.bindings other).get? otherName
  chains : ∀ other, s'.store.chain other = s.store.chain other
  count : s'.store.scopes.size = s.store.scopes.size
  rest : s' = { s with store := { s.store with scopes := s'.store.scopes } }

/-- The second state is the first one with a new scope inside `parent`, and nothing else
changed. -/
structure ScopeOpened (parent new : ScopeId) (s s' : State) : Prop where
  fresh : new = ⟨s.store.scopes.size⟩
  count : s'.store.scopes.size = s.store.scopes.size + 1
  empty : s'.store.bindings new = .empty
  chain : s'.store.chain new = new :: s.store.chain parent
  others : ∀ other, other ≠ new → s'.store.scope other = s.store.scope other
  rest : s' = { s with store := { s.store with scopes := s'.store.scopes } }

/-- The scopes behave as tables that are shared by the scopes inside. -/
structure TablesShared (forest : Forest) (s : State) : Prop where
  /-- A table holds what was written to it last. -/
  table : ∀ scope name, (s.store.bindings scope).get? name = forest.last? scope name
  /-- Either one scope is the nearest that holds a name, or none from here outward does. -/
  search : ∀ scope name, (∃! owner, forest.Nearest name scope owner) ∨ forest.Nowhere name scope
  /-- A name is read in the table of the nearest scope that holds it. -/
  get : ∀ {scope owner name value}, forest.Nearest name scope owner →
    forest.last? owner name = some value → Eval.lookup scope name s = .ok value s
  get_undefined : ∀ {scope name}, forest.Within scope →
    (Eval.lookup scope name s = .error (.error (.undefinedVariable name)) s ↔
      forest.Nowhere name scope)
  /-- Assigning to a name writes to that table and adds no entry. The scopes for which this is the
  nearest table see the new value, and all else is read as before. -/
  assign : ∀ {scope owner name}, forest.Nearest name scope owner → ∀ value, ∃ s',
    Eval.assign scope name value s = .ok () s' ∧ TableWritten owner name value s s' ∧
    (∀ other, (s'.store.bindings other).names = (s.store.bindings other).names) ∧
    (∀ other, forest.Nearest name other owner → s'.store.lookup other name = .ok value) ∧
    ∀ other otherName, forest.Within other →
      ¬ (otherName = name ∧ forest.Nearest name other owner) →
      s'.store.lookup other otherName = s.store.lookup other otherName
  assign_undefined : ∀ {scope name}, forest.Within scope → ∀ value,
    (Eval.assign scope name value s = .error (.error (.undefinedVariable name)) s ↔
      forest.Nowhere name scope)
  /-- A name is declared in the table of its own scope. -/
  define : ∀ {scope name}, forest.Within scope → ¬ forest.Holds scope name → ∀ value, ∃ s',
    Eval.define scope name value s = .ok () s' ∧ TableWritten scope name value s s'
  define_redeclared : ∀ {scope name} value,
    (Eval.define scope name value s = .error (.error (.redeclaredVariable name)) s ↔
      forest.Holds scope name)
  child : ∀ parent, ∃ new s', Eval.child parent s = .ok new s' ∧ ScopeOpened parent new s s'

section

variable {s : State} {forest : Forest} {scope owner other : ScopeId} {name otherName : String}
  {value : Value}

/-- Binding a name writes to one table and to nothing else. -/
theorem written_bind (hscope : scope.index < s.store.scopes.size) :
    TableWritten scope name value s { s with store := s.store.bind scope name value } where
  here := by
    rw [Store.get?_bindings_bind hscope, if_pos ⟨rfl, rfl⟩]
  elsewhere := fun _ _ hother => by
    rw [Store.get?_bindings_bind hscope, if_neg hother]
  chains := Store.chain_bind s.store scope name value
  count := Arena.size_modify _ _ _
  rest := rfl

/-- A new child stands in its parent with an empty table, and no other scope is touched. -/
theorem opened_newChild (s : State) (parent : ScopeId) :
    ScopeOpened parent ⟨s.store.scopes.size⟩ s
      { s with store := (s.store.newChild parent .empty).2 } where
  fresh := rfl
  count := Arena.size_push _ _
  empty := congrArg Scope.bindings (Arena.get_push_size _ _)
  chain := congrArg (_ :: Scope.enclosing ·) (Arena.get_push_size _ _)
  others := fun other hother => Arena.get_push_of_ne _ _ fun heq => hother (by
    cases other
    cases heq
    rfl)
  rest := rfl

/-! ## One action -/

/-- An action that is not refused does to the store what it does to the forest, and one that is
refused does nothing to either. -/
theorem perform_shows (h : Forest.Shows s.store forest) {action : ScopeAction}
    (hwithin : ∀ scope ∈ action.scope?, forest.Within scope) :
    ∃ result s' next, Eval.attempt (Eval.perform action) s = .ok result s' ∧
      forest.Step action next ∧ Forest.Shows s'.store next ∧
      next.parents.length = action.countAfter forest.parents.length := by
  have hopened : ∀ parent : Option ScopeId,
      (forest.opened parent).parents.length = forest.parents.length + 1 := fun parent => by
    simp [Forest.opened]
  cases action with
  | root =>
    have hnone : ∀ scope ∈ (none : Option ScopeId), forest.Within scope := fun scope hscope =>
      absurd hscope (Option.not_mem_none scope)
    exact ⟨_, _, _, rfl, .root, @Forest.Shows.newScope _ _ h none hnone, hopened none⟩
  | child parent =>
    exact ⟨_, _, _, rfl, .child, @Forest.Shows.newScope _ _ h (some parent) hwithin, hopened _⟩
  | define scope name value =>
    -- A declaration is refused exactly if the table holds the name.
    by_cases hholds : forest.Holds scope name
    · have hdefine := Eval.define_of_error (h.define_held hholds value)
      exact ⟨_, s, _, Eval.attempt_of_error hdefine, .redefine hholds, h, rfl⟩
    · have hdefine := Eval.define_of_ok (h.define_free hholds value)
      exact ⟨_, _, _, Eval.attempt_of_ok hdefine, .define hholds, h.bind (hwithin scope rfl), rfl⟩
  | assign scope name value =>
    -- An assignment is refused exactly if no scope outward holds the name.
    rcases h.nearest_or_nowhere name scope with ⟨owner, howner⟩ | hnowhere
    · have hassign := Eval.assign_of_ok (h.assign_nearest howner value)
      exact ⟨_, _, _, Eval.attempt_of_ok hassign, .assign howner,
        h.bind (h.within_of_holds howner.holds), rfl⟩
    · have hassign := Eval.assign_of_error (h.assign_nowhere (hwithin scope rfl) hnowhere value)
      exact ⟨_, s, _, Eval.attempt_of_error hassign, .assignNowhere hnowhere, h, rfl⟩
  | get scope name =>
    cases hlookup : s.store.lookup scope name with
    | ok value =>
      have hget := Eval.discard_of_ok (Eval.lookup_of_ok hlookup)
      exact ⟨_, s, forest, Eval.attempt_of_ok hget, .get, h, rfl⟩
    | error error =>
      have hget := Eval.discard_of_error (Eval.lookup_of_error hlookup)
      exact ⟨_, s, forest, Eval.attempt_of_error hget, .get, h, rfl⟩

/-- What a row of actions does to the store is what it does to the forest. By induction on the row,
one action at a time. -/
theorem performAll_shows {actions : List ScopeAction} (h : Forest.Shows s.store forest)
    (hwithin : ScopeAction.AllWithin forest.parents.length actions) :
    ∃ s' last, Eval.performAll actions s = .ok () s' ∧ forest.Run actions last ∧
      Forest.Shows s'.store last := by
  induction actions generalizing s forest with
  | nil => exact ⟨s, forest, rfl, .nil forest, h⟩
  | cons action rest ih =>
    obtain ⟨hfirst, hrest⟩ := hwithin
    obtain ⟨result, s₁, next, hrun, hstep, hshows, hcount⟩ := perform_shows h hfirst
    obtain ⟨s', last, hrest, hlast, hshows'⟩ := ih hshows (hcount ▸ hrest)
    refine ⟨s', last, ?_, .cons hstep hlast, hshows'⟩
    show EStateM.bind (Eval.attempt (Eval.perform action)) (fun _ => Eval.performAll rest) s = _
    unfold EStateM.bind
    rw [hrun]
    exact hrest

/-! ## Scopes at any time

Every store that shows a forest is one whose scopes are shared tables; this is where the lemmas
about single operations become the record of a moment. -/

/-- A store that shows a forest shares its tables as the forest says. Where an operation is refused,
the other direction of the equivalence holds because it would succeed otherwise. -/
theorem tablesShared_of_shows (h : Forest.Shows s.store forest) : TablesShared forest s where
  table := h.table
  search := fun scope name =>
    (h.nearest_or_nowhere name scope).imp_left fun ⟨owner, howner⟩ =>
      ⟨owner, howner, fun _ hother => howner.unique hother⟩
  get := fun hnearest hlast => Eval.lookup_of_ok (h.lookup_nearest hnearest hlast)
  get_undefined := fun {scope name} hwithin => by
    refine ⟨fun hundefined => ?_, fun hnowhere =>
      Eval.lookup_of_error (h.lookup_nowhere hwithin hnowhere)⟩
    -- With a nearest scope the look-up would have succeeded.
    refine (h.nearest_or_nowhere name scope).resolve_left fun ⟨owner, howner⟩ => ?_
    obtain ⟨value, hvalue⟩ := howner.holds
    rw [Eval.lookup_of_ok (h.lookup_nearest howner hvalue)] at hundefined
    cases hundefined
  assign := fun {scope owner name} howner value => by
    have hscope : owner.index < s.store.scopes.size := h.count ▸ h.within_of_holds howner.holds
    have hdeclares := h.declares_iff.mpr howner.holds
    refine ⟨_, Eval.assign_of_ok (h.assign_nearest howner value), written_bind hscope, ?_, ?_, ?_⟩
    · intro other
      rw [Store.bindings_bind hscope]
      split
      case isTrue heq => exact Table.names_set (heq ▸ hdeclares) value
      case isFalse => rfl
    · -- Where the search ends in the table that was written to, the new value is seen.
      intro other hother
      rw [Store.lookup_bind hscope hdeclares, if_pos ⟨rfl, h.owner?_nearest hother⟩]
    · -- From everywhere else the search ends as before, and in a table that was not changed.
      rintro other otherName hwithin hnot
      rw [Store.lookup_bind hscope hdeclares, if_neg]
      rintro ⟨rfl, hother⟩
      exact hnot ⟨rfl, (h.owner?_iff hwithin).mp hother⟩
  assign_undefined := fun {scope name} hwithin value => by
    refine ⟨fun hundefined => ?_, fun hnowhere =>
      Eval.assign_of_error (h.assign_nowhere hwithin hnowhere value)⟩
    refine (h.nearest_or_nowhere name scope).resolve_left fun ⟨owner, howner⟩ => ?_
    rw [Eval.assign_of_ok (h.assign_nearest howner value)] at hundefined
    cases hundefined
  define := fun hwithin hfree value =>
    ⟨_, Eval.define_of_ok (h.define_free hfree value), written_bind (h.count ▸ hwithin)⟩
  define_redeclared := fun {scope name} value => by
    refine ⟨fun hredeclared => ?_, fun hholds => Eval.define_of_error (h.define_held hholds value)⟩
    by_cases hholds : forest.Holds scope name
    · exact hholds
    · rw [Eval.define_of_ok (h.define_free hholds value)] at hredeclared
      cases hredeclared
  child := fun parent => ⟨_, _, rfl, opened_newChild s parent⟩

end

/-- Whatever is done with the scopes of a store, and in whichever order: it amounts to what it does
to the forest of the scopes, and the tables of that forest are the shared ones. The actions may go
through any scopes, those opened by earlier actions included, and may fail. -/
theorem tablesShared_of_linked {s : State} (h : s.store.Linked) {actions : List ScopeAction}
    (hwithin : ScopeAction.AllWithin s.store.scopes.size actions) :
    ∃ s' forest, Eval.performAll actions s = .ok () s' ∧
      Forest.Run (.of s.store) actions forest ∧ TablesShared forest s' := by
  have hshows := h.shows
  obtain ⟨s', forest, hrun, hforest, hlast⟩ := performAll_shows hshows (hshows.count ▸ hwithin)
  exact ⟨s', forest, hrun, hforest, tablesShared_of_shows hlast⟩

/-- Two functions share the variables of the call that they were declared in, until one of them
hides a name; another call has a variable of the same name. -/
def sharingActions : List ScopeAction :=
  [.child ⟨0⟩, .define ⟨1⟩ "n" .nil, .child ⟨1⟩, .child ⟨1⟩,
    .child ⟨0⟩, .define ⟨4⟩ "n" (.boolean true),
    .assign ⟨2⟩ "n" (.string "shared"), .get ⟨3⟩ "n",
    .define ⟨3⟩ "n" (.boolean false), .assign ⟨3⟩ "n" (.string "own"), .define ⟨3⟩ "n" .nil,
    .assign ⟨4⟩ "m" .nil, .get ⟨2⟩ "n"]

theorem tablesShared_sharing :
    Store.initial.Linked ∧ ScopeAction.AllWithin 1 sharingActions ∧
    ∃ s' forest, Eval.performAll sharingActions (.initial .unlimited ⟨fun _ => ⟨0⟩⟩) = .ok () s' ∧
      Forest.Run (.of .initial) sharingActions forest ∧ TablesShared forest s' := by
  have hlinked : Store.initial.Linked := (@Store.consistent_initial fun _ => True).linked
  have hwithin : ScopeAction.AllWithin 1 sharingActions := by
    simp [ScopeAction.AllWithin, sharingActions, ScopeAction.scope?, ScopeAction.countAfter]
  exact ⟨hlinked, hwithin,
    @tablesShared_of_linked (.initial .unlimited ⟨fun _ => ⟨0⟩⟩) hlinked _ hwithin⟩

end Script
