import Script.Proofs.Scoping.InTime
import Script.Proofs.Scoping.QuietPlans
import Script.Proofs.Store.Search

/-!
# Names are found where the text declares them

The text alone tells which region a name belongs to: the innermost one around its place that has
declared it (`Context.declaring?`), so many regions further out (`Context.distance`). The store
knows nothing of this and looks a name up along the scopes. Where the scopes follow the text the
walk nevertheless ends after that many scopes, in one that was opened for the region (`FoundAt`).

It does so because a scope holds a name exactly if its region has declared it. A scope may hold
more than its region has declared before the place that is being run, but where names are declared
in time not under the name that stands at this place.
-/

namespace Script

/-! ## The region that a name belongs to -/

/-- The innermost region that has declared the name. If there is none, the name is global. -/
def Context.declaring? (context : Context) (name : String) : Option Frame :=
  context.find? fun frame => name ∈ frame.names

/-- The number of regions inside the one that the name belongs to. -/
def Context.distance (context : Context) (name : String) : Nat :=
  context.findIdx fun frame => name ∈ frame.names

section

variable {frame : Frame} {outer : Context} {name : String}

/-- A name that the innermost region has declared belongs to it. -/
theorem Context.declaring?_here (h : name ∈ frame.names) :
    Context.declaring? (frame :: outer) name = some frame :=
  List.find?_cons_of_pos (decide_eq_true h)

/-- Any other name belongs to the region that it belongs to outside. -/
theorem Context.declaring?_outer (h : name ∉ frame.names) :
    Context.declaring? (frame :: outer) name = outer.declaring? name :=
  List.find?_cons_of_neg (by rwa [decide_eq_true_iff])

/-- No region is passed for a name of the innermost one. -/
theorem Context.distance_here (h : name ∈ frame.names) :
    Context.distance (frame :: outer) name = 0 := by
  unfold Context.distance
  rw [List.findIdx_cons, decide_eq_true h]
  rfl

/-- For any other name one region more is passed. -/
theorem Context.distance_outer (h : name ∉ frame.names) :
    Context.distance (frame :: outer) name = outer.distance name + 1 := by
  unfold Context.distance
  rw [List.findIdx_cons, decide_eq_false h]
  rfl

end

/-! ## The scope that a name is found in

`FoundAt` is shown step by step along the scopes, as the walk for the name goes. Each step uses that
the scope holds the name if its region has declared it, and only then. -/

/-- The walk for the name ends in the scope that belongs to the region that declares it, or in the
global scope. -/
structure FoundAt (Occurs : Moment → Prop) (store : Store) (scope : ScopeId) (context : Context)
    (name : String) (owner : ScopeId) : Prop where
  /-- It ends after as many scopes as the text says. -/
  reached : (store.chain scope)[context.distance name]? = some owner
  /-- None of the scopes before holds the name. -/
  passed : ∀ id ∈ (store.chain scope).take (context.distance name),
    store.declares id name = false
  /-- The scope was opened for the region that the name belongs to, and holds the name. -/
  declaring : ∀ frame, context.declaring? name = some frame →
    store.declares owner name = true ∧
      ∃ opening, Opened Occurs owner opening ∧ opening.For frame.region
  /-- A name that belongs to no region is looked for in the global scope, and nowhere further. -/
  global : context.declaring? name = none →
    owner = Store.globalScope ∧ (store.chain scope).length = context.distance name + 1

/-- The value that the scope itself holds under a name. -/
def Store.valueIn (store : Store) (scope : ScopeId) (name : String) : Except RuntimeError Value :=
  match (store.bindings scope).get? name with
  | some value => .ok value
  | none => .error (.undefinedVariable name)

section

variable {Occurs : Moment → Prop} {U : List Occurrence} {store : Store}
  {scope parent owner : ScopeId} {frame : Frame} {context outer : Context} {name : String}
  {opening : Opening}

/-- The innermost region has declared the name, so it is found in the scope at hand and nothing is
passed on the way. -/
theorem FoundAt.here (hchain : store.chain scope = scope :: store.chain parent)
    (hname : name ∈ frame.names) (hdeclares : store.declares scope name = true)
    (hopened : Opened Occurs scope opening) (hregion : opening.For frame.region) :
    FoundAt Occurs store scope (frame :: outer) name scope where
  reached := by
    rw [hchain, Context.distance_here hname]
    rfl
  passed := by
    intro id hid
    rw [Context.distance_here hname] at hid
    cases hid
  declaring := by
    intro declaring hdeclaring
    rw [Context.declaring?_here hname] at hdeclaring
    obtain rfl := Option.some.inj hdeclaring
    exact ⟨hdeclares, opening, hopened, hregion⟩
  global := by
    intro hnone
    rw [Context.declaring?_here hname] at hnone
    cases hnone

/-- The innermost region has not declared the name, and its scope does not hold it: the name is
found where it is found from the enclosing scope, one step further out. -/
theorem FoundAt.further (hchain : store.chain scope = scope :: store.chain parent)
    (hname : name ∉ frame.names) (hdeclares : store.declares scope name = false)
    (h : FoundAt Occurs store parent outer name owner) :
    FoundAt Occurs store scope (frame :: outer) name owner where
  reached := by
    rw [hchain, Context.distance_outer hname]
    exact h.reached
  passed := by
    intro id hid
    rw [hchain, Context.distance_outer hname, List.take_succ_cons] at hid
    rcases List.mem_cons.mp hid with rfl | hid
    · exact hdeclares
    · exact h.passed id hid
  declaring := by
    intro declaring hdeclaring
    rw [Context.declaring?_outer hname] at hdeclaring
    exact h.declaring declaring hdeclaring
  global := by
    intro hnone
    rw [Context.declaring?_outer hname] at hnone
    obtain ⟨howner, hlength⟩ := h.global hnone
    refine ⟨howner, ?_⟩
    rw [hchain, Context.distance_outer hname, List.length_cons, hlength]

/-- A scope that follows a region holds the name if the region has declared it, and the walk goes
on from there if not. -/
theorem FoundAt.cons (hchain : store.chain scope = scope :: store.chain parent)
    (hopened : Opened Occurs scope opening) (hregion : opening.For frame.region)
    (hnames : ∀ name ∈ frame.names, store.declares scope name = true)
    (hexact : store.declares scope name = true → name ∈ frame.names)
    (h : ∃ owner, FoundAt Occurs store parent outer name owner) :
    ∃ owner, FoundAt Occurs store scope (frame :: outer) name owner := by
  by_cases hname : name ∈ frame.names
  · exact ⟨scope, .here hchain hname (hnames name hname) hopened hregion⟩
  · obtain ⟨owner, h⟩ := h
    have hdeclares : store.declares scope name = false :=
      Bool.eq_false_iff.mpr fun hdeclares => hname (hexact hdeclares)
    exact ⟨owner, h.further hchain hname hdeclares⟩

/-- Along scopes that follow the text, where every region has declared the name if it ever does. -/
theorem Follows.found (hnested : Nested U Occurs store) (h : Follows Occurs store scope context)
    (hsettles : context.Settles name) (hreserved : name ∉ reservedNames) :
    ∃ owner, FoundAt Occurs store scope context name owner := by
  -- The induction goes from the inside to the outside; the last scope is the global one, where the
  -- walk ends in any case.
  induction h with
  | global hlt hchain =>
    refine ⟨Store.globalScope, ?_, ?_, ?_, ?_⟩
    · rw [hchain]
      rfl
    · intro id hid
      cases hid
    · intro declaring hdeclaring
      cases hdeclaring
    · intro _
      rw [hchain]
      exact ⟨rfl, rfl⟩
  | @inner id parent frame outer opening hlt hchain hopened hregion hnames houter ih =>
    obtain ⟨hframe, hrest⟩ := List.forall_mem_cons.mp hsettles
    refine FoundAt.cons hchain hopened hregion hnames ?_ (ih hrest)
    -- What the scope holds its region declares, and so has declared before.
    intro hdeclares
    rcases hnested.bounded id hlt opening hopened name hdeclares with hdeclared | hmem
    · rw [hregion.declared_eq] at hdeclared
      exact hframe hdeclared
    · exact absurd hmem hreserved

/-- At the place that is being run the innermost scope holds what has been declared before, so it
does not matter whether its region is still about to declare the name. -/
theorem At.found (hnested : Nested U Occurs store) (h : At Occurs store scope context)
    (hsettles : Context.Settles context.tail name) (hreserved : name ∉ reservedNames) :
    ∃ owner, FoundAt Occurs store scope context name owner := by
  -- Only the innermost scope is known to hold nothing but what was declared before. For the scopes
  -- outside it is used that the name is declared there before this place.
  cases h.follows with
  | global hlt hchain => exact Follows.found hnested (.global hlt hchain) hsettles hreserved
  | @inner id parent frame outer opening hlt hchain hopened hregion hnames houter =>
    refine FoundAt.cons hchain hopened hregion hnames ?_ (houter.found hnested hsettles hreserved)
    intro hdeclares
    exact (h.exact frame rfl name hdeclares).resolve_right hreserved

/-! ## Reading and assigning

A read and an assignment walk along the scopes in the same way. Both end in the scope that is
reached, and fail if it does not hold the name. -/

/-- Where the scope that is reached does not hold the name, no scope further out does: it is the
global one. -/
theorem FoundAt.outermost (h : FoundAt Occurs store scope context name owner)
    (hnone : store.declares owner name = false) :
    store.chain scope = (store.chain scope).take (context.distance name) ++ [owner] := by
  obtain ⟨outer, hchain⟩ := Store.chain_split h.reached
  cases hdeclaring : context.declaring? name with
  | some frame =>
    rw [(h.declaring frame hdeclaring).1] at hnone
    cases hnone
  | none =>
    obtain ⟨-, hlength⟩ := h.global hdeclaring
    have hlen := congrArg List.length hchain
    rw [List.length_append, List.length_cons, List.length_take, hlength] at hlen
    have houter : outer = [] := List.eq_nil_of_length_eq_zero (by omega)
    rwa [houter] at hchain

/-- The name is read in the table of the scope that is reached. -/
theorem FoundAt.lookup (h : FoundAt Occurs store scope context name owner) :
    store.lookup scope name = store.valueIn owner name := by
  have hpassed : ∀ id ∈ (store.chain scope).take (context.distance name),
      (store.bindings id).get? name = none :=
    fun id hid => Table.contains_eq_false.mp (h.passed id hid)
  unfold Store.valueIn
  cases hdeclares : store.declares owner name with
  | true =>
    obtain ⟨value, hvalue⟩ := Option.isSome_iff_exists.mp hdeclares
    rw [Store.lookup_reached h.reached hpassed hvalue, hvalue]
  | false =>
    unfold Store.lookup
    rw [h.outermost hdeclares, List.findSome?_append, List.findSome?_eq_none_iff.mpr hpassed,
      List.findSome?_cons, Table.contains_eq_false.mp hdeclares]
    rfl

/-- The scope that holds the name is the one that is reached, or none. -/
theorem FoundAt.owner? (h : FoundAt Occurs store scope context name owner) :
    store.owner? scope name = if store.declares owner name then some owner else none := by
  have hpassed : ((store.chain scope).take (context.distance name)).find?
      (fun id => store.declares id name) = none := by
    rw [List.find?_eq_none]
    intro id hid
    rw [h.passed id hid]
    exact Bool.false_ne_true
  unfold Store.owner?
  cases hdeclares : store.declares owner name with
  | true =>
    obtain ⟨outer, hchain⟩ := Store.chain_split h.reached
    rw [hchain, List.find?_append, hpassed, List.find?_cons, hdeclares]
    rfl
  | false =>
    rw [h.outermost hdeclares, List.find?_append, hpassed, List.find?_cons, hdeclares]
    rfl

/-- The name is assigned in the table of the scope that is reached. -/
theorem FoundAt.assign (h : FoundAt Occurs store scope context name owner) (value : Value) :
    store.assign scope name value =
      if store.declares owner name then .ok (store.bind owner name value)
      else .error (.undefinedVariable name) := by
  unfold Store.assign
  rw [h.owner?]
  cases store.declares owner name <;> rfl

end

end Script
