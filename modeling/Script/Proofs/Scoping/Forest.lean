import Script.Proofs.Store.Consistent

/-!
# Forests of scopes

What happens to scopes, told without the store: which scope stands in which (`Forest.Around`), and
what was written to the table of each, and when. A scope holds a name once something was written
to its table under that name, and a name stands for the last value written to the table of the
nearest scope that holds it (`Forest.Nearest`).

A store shows a forest (`Forest.Shows`) when its tables hold what was written last and its chains
follow the parents. Opening a scope and writing to a table keep it so, and a store that shows a
forest looks a name up where the forest says (`Shows.owner?_nearest`, `Shows.owner?_nowhere`).
-/

namespace Script

/-- A write to the table of a scope. -/
structure ScopeWrite where
  scope : ScopeId
  name : String
  value : Value

/-- Scopes, numbered in the order in which they were opened, and the history of their tables. -/
structure Forest where
  /-- The scope that each scope stands in, unless it is an outermost one. -/
  parents : List (Option ScopeId)
  /-- What the tables held at first. -/
  before : ScopeId → String → Option Value
  /-- What was written since, the latest write first. -/
  writes : List ScopeWrite

namespace Forest

/-- The scope is one of the forest. -/
def Within (forest : Forest) (scope : ScopeId) : Prop := scope.index < forest.parents.length

/-- The scope that a scope stands in. -/
def parent? (forest : Forest) (scope : ScopeId) : Option ScopeId :=
  forest.parents[scope.index]?.join

/-- The value that was written last to the table of a scope under a name. -/
def last? (forest : Forest) (scope : ScopeId) (name : String) : Option Value :=
  match forest.writes.find? fun write => write.scope = scope ∧ write.name = name with
  | some write => some write.value
  | none => forest.before scope name

/-- The table of the scope itself holds the name. -/
def Holds (forest : Forest) (scope : ScopeId) (name : String) : Prop :=
  ∃ value, forest.last? scope name = some value

/-- The second scope is the first one or a scope around it. -/
inductive Around (forest : Forest) : ScopeId → ScopeId → Prop
  | here (scope : ScopeId) : Around forest scope scope
  | outer {scope parent other : ScopeId} (hparent : forest.parent? scope = some parent)
      (hother : Around forest parent other) : Around forest scope other

/-- The second scope is the nearest one, from the first outward, that holds the name. -/
inductive Nearest (forest : Forest) (name : String) : ScopeId → ScopeId → Prop
  | here {scope : ScopeId} (hholds : forest.Holds scope name) : Nearest forest name scope scope
  | outer {scope parent owner : ScopeId} (hfree : ¬ forest.Holds scope name)
      (hparent : forest.parent? scope = some parent)
      (howner : Nearest forest name parent owner) : Nearest forest name scope owner

/-- No scope from this one outward holds the name. -/
def Nowhere (forest : Forest) (name : String) (scope : ScopeId) : Prop :=
  ∀ other, forest.Around scope other → ¬ forest.Holds other name

/-! ## Changes

A program changes scopes in two ways only: it opens one (for a call, a block or a `for`), and it
writes to a table, by declaring a name or by assigning to one. What is written is never taken back,
so the history of a forest only grows, and a table is what the latest writes to it say. -/

/-- The forest with one more scope, inside `parent` if there is one, and without variables. -/
def opened (forest : Forest) (parent : Option ScopeId) : Forest :=
  { forest with parents := forest.parents ++ [parent] }

/-- The forest after one more write, which stands in front of the earlier ones. -/
def write (forest : Forest) (scope : ScopeId) (name : String) (value : Value) : Forest :=
  { forest with writes := ⟨scope, name, value⟩ :: forest.writes }

/-- The scopes of a store, with a history that begins now. -/
def of (store : Store) : Forest where
  parents := (List.range store.scopes.size).map fun i => (store.scope ⟨i⟩).enclosing.head?
  before scope name := (store.bindings scope).get? name
  writes := []

variable {forest : Forest} {scope parent owner other : ScopeId} {name otherName : String}
  {value : Value}

/-- The last write decides: it is seen under its own name in its own scope, and nothing else
changes. -/
theorem last?_write : (forest.write scope name value).last? other otherName =
    if other = scope ∧ otherName = name then some value else forest.last? other otherName := by
  unfold last? write
  by_cases h : other = scope ∧ otherName = name
  · obtain ⟨rfl, rfl⟩ := h
    simp
  · -- The search compares the write with what is asked for, so the two equations are turned round.
    have hne : ¬ (scope = other ∧ name = otherName) := fun heq => h ⟨heq.1.symm, heq.2.symm⟩
    simp [h, hne]

/-- Opening a scope leaves the parents of the older ones alone. -/
theorem parent?_opened_within (parent : Option ScopeId) (h : forest.Within scope) :
    (forest.opened parent).parent? scope = forest.parent? scope := by
  unfold parent? opened
  rw [List.getElem?_append_left h]

/-- The new scope, whose number is the count of the older ones, stands where it was opened. -/
theorem parent?_opened_new (parent : Option ScopeId) (h : scope.index = forest.parents.length) :
    (forest.opened parent).parent? scope = parent := by
  unfold parent? opened
  rw [h, List.getElem?_concat_length]
  rfl

theorem length_opened (forest : Forest) (parent : Option ScopeId) :
    (forest.opened parent).parents.length = forest.parents.length + 1 := by
  simp [opened]

/-- A scope of the forest with one more is an older one, or the new one. -/
theorem within_opened_cases {parent : Option ScopeId} (h : (forest.opened parent).Within scope) :
    forest.Within scope ∧ (forest.opened parent).parent? scope = forest.parent? scope ∨
      scope = ⟨forest.parents.length⟩ ∧ (forest.opened parent).parent? scope = parent := by
  have hlt : scope.index < forest.parents.length + 1 := length_opened forest parent ▸ h
  -- A number below the new count is an old one, or the last.
  rcases Nat.lt_succ_iff_lt_or_eq.mp hlt with hlt | heq
  · exact .inl ⟨hlt, parent?_opened_within parent hlt⟩
  · refine .inr ⟨?_, parent?_opened_new parent heq⟩
    rw [← heq]

/-- What stands in another scope is one of the forest. -/
theorem within_of_parent (h : forest.parent? scope = some parent) : forest.Within scope := by
  unfold Within
  rcases Nat.lt_or_ge scope.index forest.parents.length with hlt | hge
  · exact hlt
  · unfold parent? at h
    rw [List.getElem?_eq_none hge] at h
    cases h

/-! ## The nearest scope that holds a name

`Nearest` walks outward and stops at the first scope that holds the name. The walk has no choice on
its way, so there is one such scope at most (`Nearest.unique`); that there is one, unless no scope
around holds the name, needs a store whose scopes stand in older ones, and is shown below
(`Shows.nearest_or_nowhere`). -/

/-- The walk ends at a scope that holds the name. -/
theorem Nearest.holds (h : forest.Nearest name scope owner) : forest.Holds owner name := by
  induction h with
  | here hholds => exact hholds
  | outer _ _ _ ih => exact ih

/-- Two walks from the same scope end at the same one: at each scope the name is held or it is not,
and a scope stands in one other at most. -/
theorem Nearest.unique {owner' : ScopeId} (h : forest.Nearest name scope owner)
    (h' : forest.Nearest name scope owner') : owner' = owner := by
  induction h with
  | here hholds =>
    cases h' with
    | here => rfl
    | outer hfree => exact absurd hholds hfree
  | outer hfree hparent _ ih =>
    cases h' with
    | here hholds => exact absurd hholds hfree
    | outer _ hparent' howner' =>
      rw [hparent] at hparent'
      obtain rfl := Option.some.inj hparent'
      exact ih howner'

end Forest

/-! ## Stores that show a forest

The store keeps for each scope the whole list of the scopes around it; the forest keeps the parent
alone. The two tell the same as long as each list is the list of the parent with the parent in
front, which is what `Linked` says of a store, and `Shows` of a store together with the history of
its tables. -/

/-- The scopes from a parent outward: the parent itself and those around it, or none for an
outermost scope. -/
def Store.outward (store : Store) (parent : Option ScopeId) : List ScopeId :=
  parent.elim [] store.chain

/-- The store has the scopes of the forest, with the tables that its history leaves. Parents are
older than the scopes in them, and that is why searching outward comes to an end. -/
structure Forest.Shows (store : Store) (forest : Forest) : Prop where
  count : store.scopes.size = forest.parents.length
  older : ∀ {scope parent}, forest.parent? scope = some parent → parent.index < scope.index
  chain : ∀ {scope}, forest.Within scope →
    store.chain scope = scope :: store.outward (forest.parent? scope)
  table : ∀ scope name, (store.bindings scope).get? name = forest.last? scope name

namespace Store

/-- The scopes around a scope are an older scope and those around that one, or there are none. -/
def Linked (store : Store) : Prop :=
  ∀ scope : ScopeId, scope.index < store.scopes.size →
    ∃ parent : Option ScopeId, (∀ id ∈ parent, id.index < scope.index) ∧
      (store.scope scope).enclosing = store.outward parent

/-- So it is in every consistent store, as the stores of all runs are. -/
theorem Consistent.linked {Known : FunctionDecl → Prop} {store : Store}
    (h : store.Consistent Known) : store.Linked := by
  intro scope hscope
  rcases (h.scopes scope.index hscope).enclosing with ⟨-, hnone⟩ | ⟨parent, hlt, henclosing⟩
  · exact ⟨none, nofun, hnone⟩
  · exact ⟨some parent, fun id hid => Option.some.inj hid ▸ hlt, henclosing⟩

/-- In a linked store the first of the scopes around a scope is the one that it stands in. So the
store shows the forest that is read off it. -/
theorem Linked.shows {store : Store} (h : store.Linked) : Forest.Shows store (.of store) := by
  -- Both facts about a scope come from the parent that the link names, so they are shown together.
  have hparents : ∀ scope : ScopeId, scope.index < store.scopes.size →
      (∀ parent, (Forest.of store).parent? scope = some parent → parent.index < scope.index) ∧
        store.chain scope = scope :: store.outward ((Forest.of store).parent? scope) := by
    intro scope hscope
    obtain ⟨parent, holder, henclosing⟩ := h scope hscope
    have hparent : (Forest.of store).parent? scope = parent := by
      have hhead : (Forest.of store).parent? scope = (store.scope scope).enclosing.head? := by
        simp [Forest.parent?, Forest.of, hscope]
      rw [hhead, henclosing]
      cases parent <;> rfl
    rw [hparent]
    exact ⟨holder, congrArg (scope :: ·) henclosing⟩
  have hlength : (Forest.of store).parents.length = store.scopes.size := by simp [Forest.of]
  refine ⟨hlength.symm, fun {scope parent} hparent => ?_, fun {scope} hwithin => ?_,
    fun _ _ => rfl⟩
  · exact (hparents scope (hlength ▸ Forest.within_of_parent hparent)).1 parent hparent
  · exact (hparents scope (hlength ▸ hwithin)).2

variable {store : Store} {scope other : ScopeId} {name otherName : String} {value : Value}

/-! ## Searches along a chain

How a search outward goes on, one scope at a time. `owner?` is a search along the whole list of
scopes; here it is said where it ends if the first scope holds the name, and that it is the search
from the parent if it does not. -/

/-- A search ends at once in a scope that holds the name. -/
theorem owner?_here (h : store.declares scope name = true) :
    store.owner? scope name = some scope := by
  unfold owner? chain
  rw [List.find?_cons, h]

/-- A scope that does not hold the name passes the search on to the scope that it stands in. -/
theorem owner?_outer {parent : Option ScopeId} (hfree : store.declares scope name = false)
    (hchain : store.chain scope = scope :: store.outward parent) :
    store.owner? scope name = parent.bind fun id => store.owner? id name := by
  unfold owner?
  rw [hchain, List.find?_cons, hfree]
  cases parent <;> rfl

/-- A name is read in the table of the scope that the search for it ends in. -/
theorem lookup_eq_owner (store : Store) (scope : ScopeId) (name : String) :
    store.lookup scope name =
      match (store.owner? scope name).bind fun owner => (store.bindings owner).get? name with
      | some value => .ok value
      | none => .error (.undefinedVariable name) := by
  -- Looking for a value and looking for a table that holds the name stop at the same scope.
  have hsearch : ∀ ids : List ScopeId,
      ids.findSome? (fun id => (store.bindings id).get? name) =
        (ids.find? fun id => store.declares id name).bind
          fun owner => (store.bindings owner).get? name := by
    intro ids
    induction ids with
    | nil => rfl
    | cons id rest ih =>
      rw [List.findSome?_cons, List.find?_cons]
      unfold declares Table.contains
      cases hget : (store.bindings id).get? name with
      | some value => exact hget.symm
      | none => exact ih
  unfold lookup owner?
  cases hfound : (store.chain scope).findSome? fun id => (store.bindings id).get? name with
  | some value => rw [← hsearch, hfound]
  | none => rw [← hsearch, hfound]

/-! ## Writes to a table

`bind` puts a value into the table of one scope, whether the name is new there or not. The chains
stay, and the table is changed under this name only. -/

/-- Only the table of the scope that is written to changes. -/
theorem bindings_bind (hscope : scope.index < store.scopes.size) :
    (store.bind scope name value).bindings other =
      if other = scope then (store.bindings other).set name value else store.bindings other := by
  by_cases hother : other = scope
  · subst hother
    rw [if_pos rfl]
    exact congrArg Scope.bindings (Arena.get_modify_self _ _ hscope)
  · -- Scopes are told apart by their numbers.
    have hindex : scope.index ≠ other.index := fun heq =>
      hother (by cases scope; cases other; cases heq; rfl)
    rw [if_neg hother]
    exact congrArg Scope.bindings (Arena.get_modify_of_ne _ _ hindex)

/-- What is read afterwards, from any table under any name. -/
theorem get?_bindings_bind (hscope : scope.index < store.scopes.size) :
    ((store.bind scope name value).bindings other).get? otherName =
      if other = scope ∧ otherName = name then some value
      else (store.bindings other).get? otherName := by
  rw [bindings_bind hscope]
  by_cases hother : other = scope
  · rw [if_pos hother, Table.get?_set]
    simp only [hother, true_and]
  · rw [if_neg hother, if_neg fun h => hother h.1]

/-- A write moves no scope: the chains keep the scopes and not their tables. -/
theorem chain_bind (store : Store) (scope : ScopeId) (name : String) (value : Value)
    (other : ScopeId) : (store.bind scope name value).chain other = store.chain other := by
  unfold chain
  congr 1
  exact store.scopes.get_modify_part scope.index other.index fun _ => rfl

/-- A new value for a name that the scope holds already changes no search. -/
theorem owner?_bind (hscope : scope.index < store.scopes.size)
    (hholds : store.declares scope name = true) :
    (store.bind scope name value).owner? other otherName = store.owner? other otherName := by
  -- Which tables hold the other name is the same before and after, so the same scope is found
  -- first.
  have hdeclares : ∀ id, (store.bind scope name value).declares id otherName =
      store.declares id otherName := by
    intro id
    unfold declares Table.contains at hholds ⊢
    rw [get?_bindings_bind hscope]
    by_cases hself : id = scope ∧ otherName = name
    · rw [if_pos hself, hself.1, hself.2, hholds]
      rfl
    · rw [if_neg hself]
  unfold owner?
  rw [chain_bind]
  simp only [hdeclares]

/-- A new value for a held name is seen from where the search ends in that scope, and nowhere
else. -/
theorem lookup_bind (hscope : scope.index < store.scopes.size)
    (hholds : store.declares scope name = true) :
    (store.bind scope name value).lookup other otherName =
      if otherName = name ∧ store.owner? other otherName = some scope then .ok value
      else store.lookup other otherName := by
  rw [lookup_eq_owner, lookup_eq_owner store, owner?_bind hscope hholds]
  -- Both sides search for the same owner; what differs is what its table says.
  cases store.owner? other otherName with
  | none => simp
  | some owner =>
    rw [Option.bind_some, Option.bind_some, get?_bindings_bind hscope]
    by_cases hself : owner = scope ∧ otherName = name
    · rw [if_pos hself, if_pos ⟨hself.2, congrArg some hself.1⟩]
    · rw [if_neg hself, if_neg fun h => hself ⟨Option.some.inj h.2, h.1⟩]

end Store

namespace Forest

variable {store : Store} {forest : Forest} {scope parent owner other : ScopeId}
  {name otherName : String} {value : Value}

/-- The store and the forest agree on which tables hold which names. -/
theorem Shows.declares_iff (h : Shows store forest) :
    store.declares scope name = true ↔ forest.Holds scope name := by
  unfold Store.declares Table.contains Holds
  rw [h.table, Option.isSome_iff_exists]

/-- The same for a name that a table does not hold, in the form that searches are decided by. -/
theorem Shows.declares_eq_false (h : Shows store forest) (hfree : ¬ forest.Holds scope name) :
    store.declares scope name = false :=
  Bool.eq_false_iff.mpr fun hdeclares => hfree (h.declares_iff.mp hdeclares)

/-- The search in the store follows the walk in the forest: it ends where the walk ends. By
induction on the walk. -/
theorem Shows.owner?_nearest (h : Shows store forest) (hnearest : forest.Nearest name scope owner) :
    store.owner? scope name = some owner := by
  induction hnearest with
  | here hholds => exact Store.owner?_here (h.declares_iff.mpr hholds)
  | outer hfree hparent _ ih =>
    have hchain := h.chain (within_of_parent hparent)
    rw [Store.owner?_outer (h.declares_eq_false hfree) hchain, hparent]
    exact ih

/-- The search goes outward from older scope to older scope, so it comes to an end. -/
theorem Shows.nearest_or_nowhere (h : Shows store forest) (name : String) (scope : ScopeId) :
    (∃ owner, forest.Nearest name scope owner) ∨ forest.Nowhere name scope := by
  -- Induction on the number of the scope, since a parent has a smaller one.
  obtain ⟨i⟩ := scope
  induction i using Nat.strongRecOn with
  | ind i ih =>
    by_cases hholds : forest.Holds ⟨i⟩ name
    · exact .inl ⟨⟨i⟩, .here hholds⟩
    cases hparent : forest.parent? ⟨i⟩ with
    | none =>
      -- Nothing is around an outermost scope but itself.
      refine .inr fun other haround => ?_
      cases haround with
      | here => exact hholds
      | outer hsome =>
        rw [hparent] at hsome
        cases hsome
    | some parent =>
      rcases ih parent.index (h.older hparent) with ⟨owner, howner⟩ | hnowhere
      · exact .inl ⟨owner, .outer hholds hparent howner⟩
      · -- What is around the scope is the scope itself, or it is around the parent.
        refine .inr fun other haround => ?_
        cases haround with
        | here => exact hholds
        | outer hsome hother =>
          rw [hparent] at hsome
          obtain rfl := Option.some.inj hsome
          exact hnowhere other hother

/-- If no scope outward holds the name, the search passes all of them and finds none. It needs the
scope to be one of the forest, because only these have the chains that the forest shows. -/
theorem Shows.owner?_nowhere (h : Shows store forest) (hwithin : forest.Within scope)
    (hnowhere : forest.Nowhere name scope) : store.owner? scope name = none := by
  obtain ⟨i⟩ := scope
  induction i using Nat.strongRecOn with
  | ind i ih =>
    have hfree := h.declares_eq_false (hnowhere ⟨i⟩ (.here _))
    rw [Store.owner?_outer hfree (h.chain hwithin)]
    cases hparent : forest.parent? ⟨i⟩ with
    | none => rfl
    | some parent =>
      exact ih parent.index (h.older hparent)
        (Nat.lt_trans (h.older hparent) hwithin)
        fun other hother => hnowhere other (.outer hparent hother)

/-- The search in the store ends where the forest says. One direction is the walk; the other one
holds because the search finds something only if the walk does, and then the same. -/
theorem Shows.owner?_iff (h : Shows store forest) (hwithin : forest.Within scope) :
    store.owner? scope name = some owner ↔ forest.Nearest name scope owner := by
  refine ⟨fun howner => ?_, h.owner?_nearest⟩
  rcases h.nearest_or_nowhere name scope with ⟨found, hfound⟩ | hnowhere
  · rw [h.owner?_nearest hfound] at howner
    exact Option.some.inj howner ▸ hfound
  · rw [h.owner?_nowhere hwithin hnowhere] at howner
    cases howner

/-! ## Changes of the store

The two changes of a forest are those of a store: opening a scope in an older one, and writing to
the table of a scope that is there. -/

/-- A new scope stands in an older one or in none, and its table holds nothing. -/
theorem Shows.newScope (h : Shows store forest) {parent : Option ScopeId}
    (holder : ∀ id ∈ parent, forest.Within id) :
    Shows (store.newScope (store.outward parent) .empty).2 (forest.opened parent) := by
  obtain ⟨enclosing, henclosing⟩ : ∃ enclosing, enclosing = store.outward parent := ⟨_, rfl⟩
  rw [← henclosing]
  have hnew : (store.newScope enclosing .empty).2.scope ⟨store.scopes.size⟩ =
      ⟨enclosing, .empty⟩ := Arena.get_push_size _ _
  have hold : ∀ id : ScopeId, id.index ≠ store.scopes.size →
      (store.newScope enclosing .empty).2.scope id = store.scope id :=
    fun id hid => Arena.get_push_of_ne _ _ hid
  -- The scopes from an older one outward are what they were.
  have houtward : ∀ parent : Option ScopeId, (∀ id ∈ parent, id.index < store.scopes.size) →
      (store.newScope enclosing .empty).2.outward parent = store.outward parent := by
    rintro (- | id) hid
    · rfl
    · show id :: _ = id :: _
      rw [hold id (Nat.ne_of_lt (hid id rfl))]
  have hcases : ∀ {scope : ScopeId}, (forest.opened parent).Within scope →
      forest.Within scope ∧ (forest.opened parent).parent? scope = forest.parent? scope ∨
        scope = ⟨store.scopes.size⟩ ∧ (forest.opened parent).parent? scope = parent := by
    rw [h.count]
    exact within_opened_cases
  constructor
  · rw [length_opened, ← h.count]
    exact Arena.size_push _ _
  · intro scope id hid
    -- The parent of an older scope is the old one, and the new scope stands in an older one.
    rcases hcases (within_of_parent hid) with ⟨-, hparent⟩ | ⟨rfl, hparent⟩
    · exact h.older (hparent ▸ hid)
    · rw [hparent] at hid
      rw [h.count]
      exact holder id hid
  · intro scope hwithin
    -- Older scopes keep their chains; that of the new scope is the one it was given.
    rcases hcases hwithin with ⟨hscope, hparent⟩ | ⟨rfl, hparent⟩
    · have hlt : scope.index < store.scopes.size := h.count ▸ hscope
      rw [hparent, houtward _ fun id hid => Nat.lt_trans (h.older hid) hlt]
      show scope :: _ = _
      rw [hold scope (Nat.ne_of_lt hlt)]
      exact h.chain hscope
    · rw [hparent, houtward _ fun id hid => h.count ▸ holder id hid, ← henclosing]
      show _ :: _ = _
      rw [hnew]
  · -- The number of the new scope stood for a scope without variables before, too.
    intro scope name
    show Table.get? (Scope.bindings _) name = forest.last? scope name
    rw [← h.table]
    by_cases hscope : scope.index = store.scopes.size
    · obtain rfl : scope = ⟨store.scopes.size⟩ := by cases scope; cases hscope; rfl
      have hdefault : store.scope ⟨store.scopes.size⟩ = default := by
        simp [Store.scope, Arena.get, Arena.size]
      unfold Store.bindings
      rw [hnew, hdefault]
      rfl
    · rw [hold scope hscope]
      rfl

/-- A write to a table of the store is one in the history. -/
theorem Shows.bind (h : Shows store forest) (hscope : forest.Within scope) :
    Shows (store.bind scope name value) (forest.write scope name value) where
  count := by
    rw [show (store.bind scope name value).scopes.size = _ from Arena.size_modify _ _ _]
    exact h.count
  older := h.older
  chain := fun {other} hother => by
    rw [Store.chain_bind, h.chain hother]
    show _ = other :: (store.bind scope name value).outward (forest.parent? other)
    cases forest.parent? other with
    | none => rfl
    | some parent =>
      exact congrArg (other :: ·) (Store.chain_bind store scope name value parent).symm
  table := fun other otherName => by
    rw [Store.get?_bindings_bind (h.count ▸ hscope), last?_write, h.table]

/-! ## What names stand for

What reading, assigning and declaring do, told by the forest. Each operation has one lemma for the
forest in which it succeeds and one for the forest in which it is refused; these two conditions
exclude each other and leave nothing out. -/

/-- What holds a name is a scope of the forest: beyond the last scope the store has the default one,
whose table is empty. -/
theorem Shows.within_of_holds (h : Shows store forest) (hholds : forest.Holds scope name) :
    forest.Within scope := by
  obtain ⟨value, hvalue⟩ := hholds
  rw [← h.table] at hvalue
  unfold Within
  rw [← h.count]
  rcases Nat.lt_or_ge scope.index store.scopes.size with hlt | hge
  · exact hlt
  · have hcells : store.scopes.cells.size ≤ scope.index := hge
    have hdefault : store.scope scope = default := by simp [Store.scope, Arena.get, hcells]
    unfold Store.bindings at hvalue
    rw [hdefault] at hvalue
    cases hvalue

/-- A name is read in the nearest scope that holds it, and there it has the value that was written
last. -/
theorem Shows.lookup_nearest (h : Shows store forest) (hnearest : forest.Nearest name scope owner)
    (hlast : forest.last? owner name = some value) : store.lookup scope name = .ok value := by
  rw [← h.table] at hlast
  rw [Store.lookup_eq_owner, h.owner?_nearest hnearest, Option.bind_some, hlast]

/-- A name that no scope outward holds is undefined. -/
theorem Shows.lookup_nowhere (h : Shows store forest) (hwithin : forest.Within scope)
    (hnowhere : forest.Nowhere name scope) :
    store.lookup scope name = .error (.undefinedVariable name) := by
  rw [Store.lookup_eq_owner, h.owner?_nowhere hwithin hnowhere]
  rfl

/-- Assigning writes to the table of the nearest scope that holds the name, however far out it
is. -/
theorem Shows.assign_nearest (h : Shows store forest) (hnearest : forest.Nearest name scope owner)
    (value : Value) : store.assign scope name value = .ok (store.bind owner name value) :=
  Store.assign_eq_ok.mpr ⟨owner, h.owner?_nearest hnearest, rfl⟩

/-- A name that no scope outward holds cannot be assigned to. -/
theorem Shows.assign_nowhere (h : Shows store forest) (hwithin : forest.Within scope)
    (hnowhere : forest.Nowhere name scope) (value : Value) :
    store.assign scope name value = .error (.undefinedVariable name) := by
  unfold Store.assign
  rw [h.owner?_nowhere hwithin hnowhere]

/-- Declaring writes to the table of the scope itself, unless that table holds the name already.
What the scopes outside hold does not matter. -/
theorem Shows.define_free (h : Shows store forest) (hfree : ¬ forest.Holds scope name)
    (value : Value) : store.define scope name value = .ok (store.bind scope name value) :=
  Store.define_eq_ok.mpr ⟨h.declares_eq_false hfree, rfl⟩

/-- A table that holds the name refuses its declaration. -/
theorem Shows.define_held (h : Shows store forest) (hholds : forest.Holds scope name)
    (value : Value) : store.define scope name value = .error (.redeclaredVariable name) := by
  unfold Store.define
  rw [h.declares_iff.mpr hholds]
  rfl

end Forest

end Script
