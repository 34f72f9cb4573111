import Script.Proofs.Store.Consistent
import Script.Proofs.Store.Persistence

/-!
# Hierarchies of scopes and of classes

A scope refers to the scope that it is nested in, and a class to its superclass. A search looks at
one of them after the other until it has found what it is after or there is no next one. The store
keeps the way of such a search as a list.

In a consistent store the two agree: the list is the way from one to the next (`Walk`), it passes
nothing twice and ends at the global scope or at the root class (`Climb`), and what is looked up in
the list is what the search finds (`Search`). All of it rests on the order in which things are
made: what a scope or a class refers to is older than itself (`Rooted`).
-/

namespace Script

/-! ## From one to the next

This section is about any numbered things of which each may refer to another one. Scopes and classes
are two cases of it. -/

section

variable {α β : Type}

/-- The path goes from one to the next, and ends where there is no next one. -/
inductive Walk (next : α → Option α) : α → List α → Prop where
  | last {a : α} : next a = none → Walk next a [a]
  | step {a b : α} {path : List α} : next a = some b → Walk next b path → Walk next a (a :: path)

/-- The loop that looks at one after the other ends with this result. -/
inductive Search (next : α → Option α) (found : α → Option β) : α → Option β → Prop where
  | hit {a : α} {result : β} : found a = some result → Search next found a (some result)
  | miss {a : α} : found a = none → next a = none → Search next found a none
  | go {a b : α} {result : Option β} :
    found a = none → next a = some b → Search next found b result → Search next found a result

/-- The path goes from one to the next up to `top`, and comes nowhere twice. -/
structure Climb (next : α → Option α) (a : α) (path : List α) (top : α) : Prop where
  walk : Walk next a path
  nodup : path.Nodup
  top : path.getLast? = some top

variable {next : α → Option α} {found : α → Option β} {a : α} {path : List α} {top : α}

/-- A loop comes to an end where the way does, and finds the first that there is on it. -/
theorem Walk.search (h : Walk next a path) (found : α → Option β) :
    Search next found a (path.findSome? found) := by
  -- Both the list and the loop stop at the first hit; without one they go on to the next thing.
  induction h with
  | @last a hnone =>
    rw [List.findSome?_singleton]
    cases hfound : found a with
    | none => exact .miss hfound hnone
    | some result => exact .hit hfound
  | @step a b path hnext _ ih =>
    rw [List.findSome?_cons]
    cases hfound : found a with
    | none => exact .go hfound hnext ih
    | some result => exact .hit hfound

/-- A loop has one result only: each of its steps is determined by where it stands. -/
theorem Search.unique {result result' : Option β} (h : Search next found a result)
    (h' : Search next found a result') : result = result' := by
  -- Each step of one loop allows only the same step of the other.
  induction h with
  | hit hfound =>
    cases h' with
    | hit hfound' => rw [← hfound, hfound']
    | miss hnone | go hnone =>
      rw [hfound] at hnone
      cases hnone
  | miss hnone hnext =>
    cases h' with
    | hit hfound =>
      rw [hnone] at hfound
      cases hfound
    | miss => rfl
    | go _ hnext' =>
      rw [hnext] at hnext'
      cases hnext'
  | go hnone hnext _ ih =>
    cases h' with
    | hit hfound =>
      rw [hnone] at hfound
      cases hfound
    | miss _ hnext' =>
      rw [hnext] at hnext'
      cases hnext'
    | go _ hnext' hsearch =>
      rw [hnext] at hnext'
      obtain rfl := Option.some.inj hnext'
      exact ih hsearch

/-- Numbered things, each with the list of those ahead of it: there are none, or there is another
thing with a smaller number, and what is ahead of that. -/
def Descends (index : α → Nat) (ahead : α → List α) : Prop :=
  ∀ a, ahead a = [] ∨ ∃ b, index b < index a ∧ ahead a = b :: ahead b

namespace Descends

variable {index : α → Nat} {ahead : α → List α} (h : Descends index ahead)

include h

/-- The next one on the way has a smaller number, which is why the way ends. -/
theorem index_lt {a b : α} (hnext : (ahead a).head? = some b) : index b < index a := by
  rcases h a with hnone | ⟨c, hlt, hahead⟩
  · rw [hnone] at hnext
    cases hnext
  · rw [hahead] at hnext
    obtain rfl := Option.some.inj hnext
    exact hlt

/-- There is no way to go on for ever, and so none that leads back to where it came from. -/
theorem wellFounded : WellFounded fun b a => (ahead a).head? = some b :=
  Subrelation.wf (fun hnext => h.index_lt hnext) (measure index).wf

/-- The list is the way from one to the next. -/
theorem walk (a : α) : Walk (fun a => (ahead a).head?) a (a :: ahead a) := by
  induction a using h.wellFounded.induction with
  | _ a ih =>
    rcases h a with hnone | ⟨b, -, hahead⟩
    · have hnext : (ahead a).head? = none := by rw [hnone]; rfl
      rw [hnone]
      exact .last hnext
    · have hnext : (ahead a).head? = some b := by rw [hahead]; rfl
      rw [hahead]
      exact .step hnext (ih b hnext)

/-- What is ahead of something ahead is the end of what is ahead. -/
theorem suffix {a b : α} (hb : b ∈ a :: ahead a) : b :: ahead b <:+ a :: ahead a := by
  induction a using h.wellFounded.induction with
  | _ a ih =>
    rcases List.mem_cons.mp hb with rfl | hb
    · exact List.suffix_refl _
    · rcases h a with hnone | ⟨c, -, hahead⟩
      · rw [hnone] at hb
        cases hb
      · have hnext : (ahead a).head? = some c := by rw [hahead]; rfl
        rw [hahead] at hb ⊢
        exact (ih c hnext hb).trans (List.suffix_cons a _)

/-- Everything ahead has a smaller number, by induction along the way. -/
theorem ahead_lt {a b : α} (hb : b ∈ ahead a) : index b < index a := by
  induction a using h.wellFounded.induction with
  | _ a ih =>
    rcases h a with hnone | ⟨c, hlt, hahead⟩
    · rw [hnone] at hb
      cases hb
    · rw [hahead] at hb
      rcases List.mem_cons.mp hb with rfl | hb
      · exact hlt
      · have hnext : (ahead a).head? = some c := by rw [hahead]; rfl
        exact Nat.lt_trans (ih c hnext hb) hlt

/-- On the way up the numbers get smaller. -/
theorem pairwise (a : α) : (a :: ahead a).Pairwise fun b c => index c < index b := by
  induction a using h.wellFounded.induction with
  | _ a ih =>
    refine List.pairwise_cons.mpr ⟨fun b hb => h.ahead_lt hb, ?_⟩
    rcases h a with hnone | ⟨b, -, hahead⟩
    · rw [hnone]
      exact .nil
    · have hnext : (ahead a).head? = some b := by rw [hahead]; rfl
      rw [hahead]
      exact ih b hnext

/-- Nothing is passed twice, since the numbers get smaller. -/
theorem nodup (a : α) : (a :: ahead a).Nodup := by
  refine (h.pairwise a).imp ?_
  rintro b _ hlt rfl
  exact Nat.lt_irrefl _ hlt

end Descends

/-- Numbered things that lead to one of them: it has nothing ahead of it, and every other one has
something. -/
structure Rooted (index : α → Nat) (size : Nat) (ahead : α → List α) (top : α) : Prop where
  nothing_ahead : ahead top = []
  below : ∀ a, index a < size → a = top ∨ ∃ b, index b < index a ∧ ahead a = b :: ahead b
  beyond : ∀ a, size ≤ index a → ahead a = []

namespace Rooted

variable {index : α → Nat} {size : Nat} {ahead : α → List α} (h : Rooted index size ahead top)

include h

/-- There is nothing ahead of the top one, nor of what is not there. -/
theorem descends : Descends index ahead := fun a => by
  rcases Nat.lt_or_ge (index a) size with hlt | hge
  · rcases h.below a hlt with rfl | hbelow
    · exact .inl h.nothing_ahead
    · exact .inr hbelow
  · exact .inl (h.beyond a hge)

/-- Below the top there is always a next one. -/
theorem exists_next {a : α} (ha : index a < size) (hne : a ≠ top) :
    ∃ b, (ahead a).head? = some b ∧ index b < index a := by
  rcases h.below a ha with heq | ⟨b, hlt, hahead⟩
  · exact absurd heq hne
  · exact ⟨b, by rw [hahead]; rfl, hlt⟩

/-- Every way ends at the top, if everything but the top has a next one. -/
theorem getLast? {a : α} (ha : index a < size) : (a :: ahead a).getLast? = some top := by
  induction a using h.descends.wellFounded.induction with
  | _ a ih =>
    rcases h.below a ha with rfl | ⟨b, hlt, hahead⟩
    · rw [h.nothing_ahead]
      rfl
    · have hnext : (ahead a).head? = some b := by rw [hahead]; rfl
      have hlast : (b :: ahead b).getLast? = some top := ih b hnext (Nat.lt_trans hlt ha)
      rw [hahead, List.getLast?_cons, hlast]
      rfl

/-- What is ahead of a thing is the way from it to the top. -/
theorem climb {a : α} (ha : index a < size) :
    Climb (fun a => (ahead a).head?) a (a :: ahead a) top :=
  ⟨h.descends.walk a, h.descends.nodup a, h.getLast? ha⟩

end Rooted

end

/-! ## Scopes and classes

For both the first one is the top: the global scope and the root class. An index beyond the end of
an arena yields the default, which has nothing ahead of it. -/

/-- Beyond its end an arena has the default. -/
theorem Arena.get_of_size_le {α : Type} [Inhabited α] (a : Arena α) {i : Nat} (h : a.size ≤ i) :
    a.get i = default := by
  have h' : a.cells.size ≤ i := h
  simp [get, h']

namespace Store

variable {Known : FunctionDecl → Prop} {store a b : Store}

/-- The scope that a scope is nested in. -/
def parentScope? (store : Store) (id : ScopeId) : Option ScopeId :=
  (store.scope id).enclosing.head?

/-- The scopes around the scopes of a consistent store. -/
theorem Consistent.scopes_rooted (h : store.Consistent Known) :
    Rooted ScopeId.index store.scopes.size (fun id => (store.scope id).enclosing)
      Store.globalScope where
  nothing_ahead := by
    rcases (h.scopes 0 h.globalScope).enclosing with ⟨-, hnone⟩ | ⟨parent, hlt, -⟩
    · exact hnone
    · exact absurd hlt (Nat.not_lt_zero _)
  below := fun id hid => by
    rcases (h.scopes id.index hid).enclosing with ⟨hzero, -⟩ | hparent
    · exact .inl (congrArg ScopeId.mk hzero)
    · exact .inr hparent
  beyond := fun id hid => by
    unfold scope
    rw [Arena.get_of_size_le _ hid]
    rfl

/-- The ancestors of the classes of a consistent store. -/
theorem Consistent.classes_rooted (h : store.Consistent Known) :
    Rooted ClassId.index store.classes.size (fun id => (store.classOf id).ancestors)
      Store.rootClass where
  nothing_ahead := by
    rcases (h.classes 0 h.rootClass).ancestors with ⟨-, hnone, -⟩ | ⟨parent, hlt, -⟩
    · exact hnone
    · exact absurd hlt (Nat.not_lt_zero _)
  below := fun id hid => by
    rcases (h.classes id.index hid).ancestors with ⟨hzero, -⟩ | hparent
    · exact .inl (congrArg ClassId.mk hzero)
    · exact .inr hparent
  beyond := fun id hid => by
    unfold classOf
    rw [Arena.get_of_size_le _ hid]
    rfl

/-! ## Searches

Reading and assigning a variable walk along the scopes; finding a method and comparing classes walk
along the superclasses. Each is a search in the sense of `Search`, and the store computes its result
from the list. -/

/-- Scopes and classes are two trees, with the global scope and the root class at the top. Searches
upward come to an end, and the store says what they find. -/
structure Grounded (store : Store) : Prop where
  scopes : WellFounded fun outer inner => store.parentScope? inner = some outer
  classes : WellFounded fun parent child => store.superclass? child = some parent
  outward : ∀ id : ScopeId, id.index < store.scopes.size →
    Climb store.parentScope? id (store.chain id) globalScope
  upward : ∀ id : ClassId, id.index < store.classes.size →
    Climb store.superclass? id (store.lineage id) rootClass
  /-- The root class is the one that every store begins with. -/
  root : (store.classOf rootClass).name = rootClassName ∧ store.superclass? rootClass = none ∧
    (store.classOf rootClass).methods = .empty
  /-- Reading a variable. -/
  lookup : ∀ scope name, ∃ found,
    Search store.parentScope? (fun id => (store.bindings id).get? name) scope found ∧
      store.lookup scope name = found.elim (.error (.undefinedVariable name)) .ok
  /-- Assigning to a variable. -/
  assign : ∀ scope name value, ∃ found,
    Search store.parentScope? (Option.guard fun id => store.declares id name) scope found ∧
      store.assign scope name value =
        found.elim (.error (.undefinedVariable name)) fun owner => .ok (store.bind owner name value)
  /-- Resolving a method. -/
  method : ∀ start name,
    Search store.superclass? (fun id => (store.ownMethod? id name).map fun method => ⟨method, id⟩)
      start (store.method? start name)
  /-- Comparing two classes. -/
  isSubclass : ∀ id other, ∃ found,
    Search store.superclass? (Option.guard fun ancestor => ancestor = other) id found ∧
      store.isSubclass id other = found.isSome

section

variable (h : store.Consistent Known)

include h

/-- Reading a variable finds the first scope that holds the name. -/
theorem lookup_search (scope : ScopeId) (name : String) : ∃ found,
    Search store.parentScope? (fun id => (store.bindings id).get? name) scope found ∧
      store.lookup scope name = found.elim (.error (.undefinedVariable name)) .ok := by
  have hwalk : Walk store.parentScope? scope (store.chain scope) :=
    h.scopes_rooted.descends.walk scope
  refine ⟨_, hwalk.search _, ?_⟩
  unfold lookup
  cases (store.chain scope).findSome? fun id => (store.bindings id).get? name <;> rfl

/-- Assigning to a variable searches for the same scope, and changes it. -/
theorem assign_search (scope : ScopeId) (name : String) (value : Value) : ∃ found,
    Search store.parentScope? (Option.guard fun id => store.declares id name) scope found ∧
      store.assign scope name value = found.elim (.error (.undefinedVariable name))
        fun owner => .ok (store.bind owner name value) := by
  have hwalk : Walk store.parentScope? scope (store.chain scope) :=
    h.scopes_rooted.descends.walk scope
  have hsearch := hwalk.search (Option.guard fun id => store.declares id name)
  -- The owner of the name is found by a condition, and the search wants a result.
  rw [← List.find?_eq_findSome?_guard] at hsearch
  refine ⟨_, hsearch, ?_⟩
  show store.assign scope name value = (store.owner? scope name).elim _ _
  unfold assign
  cases store.owner? scope name <;> rfl

/-- Comparing two classes searches the ancestors of the one for the other. -/
theorem isSubclass_search (id other : ClassId) : ∃ found,
    Search store.superclass? (Option.guard fun ancestor => ancestor = other) id found ∧
      store.isSubclass id other = found.isSome := by
  have hwalk : Walk store.superclass? id (store.lineage id) :=
    h.classes_rooted.descends.walk id
  have hsearch := hwalk.search (Option.guard fun ancestor => ancestor = other)
  rw [← List.find?_eq_findSome?_guard] at hsearch
  refine ⟨_, hsearch, ?_⟩
  unfold isSubclass
  rw [Bool.eq_iff_iff, decide_eq_true_iff, List.find?_isSome]
  simp

/-- A consistent store that goes back to the initial one is well-founded. -/
theorem Consistent.grounded (hroot : initial.Persists store) : store.Grounded where
  scopes := h.scopes_rooted.descends.wellFounded
  classes := h.classes_rooted.descends.wellFounded
  outward := fun _ hid => h.scopes_rooted.climb hid
  upward := fun _ hid => h.classes_rooted.climb hid
  root := by
    have hkept : (initial.classOf Store.rootClass).Persists (store.classOf Store.rootClass) :=
      hroot.classes.related 0 Nat.zero_lt_one
    refine ⟨hkept.name, ?_, hkept.methods⟩
    unfold superclass?
    rw [hkept.ancestors]
    rfl
  lookup := lookup_search h
  assign := assign_search h
  method := fun start name => by
    have hwalk : Walk store.superclass? start (store.lineage start) :=
      h.classes_rooted.descends.walk start
    exact hwalk.search _
  isSubclass := isSubclass_search h

end

/-! ## New scopes and classes

A single change adds at most one scope and at most one class. What it adds belongs somewhere, and
this is older. -/

/-- There is at most one scope and one class more. -/
structure OneMore (a b : Store) : Prop where
  scopes : b.scopes.size ≤ a.scopes.size + 1
  classes : b.classes.size ≤ a.classes.size + 1

/-- Each scope and each class that is in `b` but not in `a` belongs to another one, and this one is
older. -/
structure Founds (a b : Store) : Prop where
  scopes : ∀ id : ScopeId, a.scopes.size ≤ id.index → id.index < b.scopes.size →
    ∃ parent, b.parentScope? id = some parent ∧ parent.index < id.index
  classes : ∀ id : ClassId, a.classes.size ≤ id.index → id.index < b.classes.size →
    ∃ parent, b.superclass? id = some parent ∧ parent.index < id.index

/-- From one consistent store to another: only the global scope and the root class have nothing
ahead of them, and these two are in every consistent store. -/
theorem Consistent.founds (ha : a.Consistent Known) (hb : b.Consistent Known) : a.Founds b where
  scopes := fun id hnew hid => by
    have hscope : 0 < a.scopes.size := ha.globalScope
    refine hb.scopes_rooted.exists_next hid ?_
    rintro rfl
    exact absurd hscope (Nat.not_lt_of_le hnew)
  classes := fun id hnew hid => by
    have hclass : 0 < a.classes.size := ha.rootClass
    refine hb.classes_rooted.exists_next hid ?_
    rintro rfl
    exact absurd hclass (Nat.not_lt_of_le hnew)

/-! ## The ways to change a store, one by one

That a change adds no more than one scope and one class is seen from the sizes of the arenas. -/

theorem OneMore.of_same {a b : Store} (hscopes : b.scopes.size = a.scopes.size)
    (hclasses : b.classes.size = a.classes.size) : a.OneMore b where
  scopes := by omega
  classes := by omega

theorem oneMore_newScope (store : Store) (enclosing : List ScopeId) (bindings : Table Value) :
    store.OneMore (store.newScope enclosing bindings).2 where
  scopes := Nat.le_of_eq (Arena.size_push ..)
  classes := Nat.le_succ _

theorem oneMore_newClass (store : Store) (name : String) (ancestors : List ClassId)
    (methods : Table FunctionId) : store.OneMore (store.newClass name ancestors methods).2 where
  scopes := Nat.le_succ _
  classes := Nat.le_of_eq (Arena.size_push ..)

theorem oneMore_bind (store : Store) (scope : ScopeId) (name : String) (value : Value) :
    store.OneMore (store.bind scope name value) :=
  .of_same (Arena.size_modify ..) rfl

/-- Functions may be any number, but they are neither scopes nor classes. -/
theorem oneMore_newFunctions (closure : ScopeId) (decls : List FunctionDecl) (store : Store) :
    store.OneMore (store.newFunctions closure decls).2 := by
  have hsame : (store.newFunctions closure decls).2.scopes = store.scopes ∧
      (store.newFunctions closure decls).2.classes = store.classes := by
    induction decls generalizing store with
    | nil => exact ⟨rfl, rfl⟩
    | cons decl rest ih => exact ih (store.newFunction decl closure).2
  exact .of_same (congrArg Arena.size hsame.1) (congrArg Arena.size hsame.2)

theorem oneMore_setProperty {store store' : Store} {object value : Value} {name : String}
    (h : store.setProperty object name value = .ok store') : store.OneMore store' := by
  rcases setProperty_eq_ok.mp h with ⟨id, -, rfl⟩ | ⟨id, -, rfl⟩ | ⟨ref, -, rfl⟩
  · exact .of_same rfl rfl
  · exact .of_same rfl (Arena.size_modify ..)
  · cases ref <;> exact .of_same rfl rfl

end Store

end Script
