import Script.Proofs.Scoping.Nesting

/-!
# Every change keeps the nesting

Most changes of a store leave the names in its scopes alone (`Store.SameNames`). A new scope has
the names that it is opened with, and a declaration adds a name to the scope that it stands in,
which has room for it.
-/

namespace Script

namespace Store

variable {store store' : Store} {scope id : ScopeId} {name other : String} {value : Value}

/-! ## Names after a change

Which scopes declare which names after each operation of the store. Only binding a name in a scope
can change that, and it does so for a name that is new in the scope: assignments bind names that are
there, and all other operations touch no scope. -/

/-- Binding a name adds this name, and to this scope. -/
theorem declares_of_bind (hid : id.index < store.scopes.size)
    (h : (store.bind scope name value).declares id other = true) :
    store.declares id other = true ∨ (id = scope ∧ other = name) := by
  have hlt : id.index < (store.bind scope name value).scopes.size := by
    rw [show (store.bind scope name value).scopes.size = _ from Arena.size_modify ..]
    exact hid
  -- The scope is the one that was changed, or it is what it was.
  rcases Arena.get_modify_cases store.scopes scope.index _ hlt with hsame | ⟨hindex, hnew⟩
  · left
    unfold declares bindings Store.scope at h ⊢
    rw [show (store.bind scope name value).scopes.get id.index = _ from hsame] at h
    exact h
  · unfold declares bindings Store.scope at h ⊢
    rw [show (store.bind scope name value).scopes.get id.index = _ from hnew] at h
    dsimp only at h
    rw [Table.contains_set, Bool.or_eq_true, decide_eq_true_iff] at h
    obtain ⟨i⟩ := id
    obtain ⟨j⟩ := scope
    obtain rfl : i = j := hindex
    rcases h with rfl | h
    · exact .inr ⟨rfl, rfl⟩
    · exact .inl h

/-- The scope holds the name afterwards, whether or not it did before. -/
theorem declares_bind_self (hscope : scope.index < store.scopes.size) :
    (store.bind scope name value).declares scope name = true := by
  have hget := Arena.get_modify_self store.scopes
    (fun s : Scope => { s with bindings := s.bindings.set name value }) hscope
  unfold declares bindings Store.scope
  rw [show (store.bind scope name value).scopes.get scope.index = _ from hget]
  dsimp only
  rw [Table.contains_set, decide_eq_true rfl, Bool.true_or]

/-- A declaration fails where the name is there already. -/
theorem define_cases (store : Store) (scope : ScopeId) (name : String) (value : Value) :
    (store.define scope name value = .error (.redeclaredVariable name) ∧
      store.declares scope name = true) ∨
    store.define scope name value = .ok (store.bind scope name value) := by
  unfold define
  cases h : store.declares scope name with
  | true => exact .inl ⟨if_pos rfl, rfl⟩
  | false => exact .inr (if_neg (by decide))

/-- An operation that leaves the scopes alone leaves their names alone. -/
theorem sameNames_of_scopes (hscopes : store'.scopes = store.scopes)
    (hfunctions : store'.functions.size = store.functions.size)
    (hclasses : store'.classes.size = store.classes.size) : store.SameNames store' where
  scopes := congrArg Arena.size hscopes
  functions := hfunctions
  classes := hclasses
  names := fun id _ name h => by
    unfold declares bindings Store.scope at h ⊢
    rw [hscopes] at h
    exact h

/-- An assignment finds the name where it puts the value, so it adds none. -/
theorem sameNames_assign (h : store.assign scope name value = .ok store') :
    store.SameNames store' := by
  obtain ⟨owner, howner, rfl⟩ := assign_eq_ok.mp h
  have hfind : (store.chain scope).find? (fun s => store.declares s name) = some owner := howner
  have hdeclares := List.find?_some hfind
  refine ⟨Arena.size_modify .., rfl, rfl, ?_⟩
  intro id hid other hother
  rcases declares_of_bind hid hother with hbefore | ⟨rfl, rfl⟩
  · exact hbefore
  · exact hdeclares

/-- Binding a method, making an instance, and reading and setting properties touch no scope. -/
theorem sameNames_newBoundMethod (store : Store) (method : FunctionId) (receiver : InstanceId)
    (declaringClass : ClassId) :
    store.SameNames (store.newBoundMethod method receiver declaringClass).2 :=
  sameNames_of_scopes rfl rfl rfl

/-- An instance holds fields, and no names. -/
theorem sameNames_newInstance (store : Store) (ofClass : ClassId) :
    store.SameNames (store.newInstance ofClass).2 :=
  sameNames_of_scopes rfl rfl rfl

/-- A method that is bound by a reading is put where no names are. -/
theorem sameNames_property (store : Store) (object : Value) (name : String) :
    store.SameNames (store.property object name).2 := by
  -- Reading a property changes nothing, or it binds a method.
  rcases store.property_cases object name with hsame | ⟨resolution, receiver, hbound⟩
  · rw [hsame]
    exact .refl store
  · rw [hbound]
    exact sameNames_newBoundMethod ..

/-- A property is set in the fields of a value. -/
theorem sameNames_setProperty {object : Value}
    (h : store.setProperty object name value = .ok store') : store.SameNames store' := by
  rcases setProperty_eq_ok.mp h with ⟨id, -, rfl⟩ | ⟨id, -, rfl⟩ | ⟨ref, -, rfl⟩
  · exact sameNames_of_scopes rfl rfl rfl
  · exact sameNames_of_scopes rfl rfl (Arena.size_modify ..)
  · cases ref with
    | user id => exact sameNames_of_scopes rfl (Arena.size_modify ..) rfl
    | native native => exact sameNames_of_scopes rfl rfl rfl
    | bound id => exact sameNames_of_scopes rfl rfl rfl

end Store

section

variable {U : List Occurrence} {Occurs : Moment → Prop} {a b store : Store} {scope parent : ScopeId}
  {context outer : Context} {opening : Opening} {region : Region} {table : Table Value}
  {names : List String}

/-- A scope is opened once in a run, and the global scope is there from the start. -/
structure OpensOnce (Occurs : Moment → Prop) : Prop where
  unique : ∀ id opening opening', Opened Occurs id opening → Opened Occurs id opening' →
    opening = opening'
  global : ∀ opening, ¬ Opened Occurs Store.globalScope opening

/-! ## New scopes

A scope is opened with a table, empty or with the names of a call, inside a scope that is there. The
older scopes keep their names and their chains. -/

/-- Older scopes hold the names that they held, since only a new one is added. -/
theorem declares_newChild_of_lt {id : ScopeId} (hid : id.index < store.scopes.size)
    (name : String) :
    (store.newChild parent table).2.declares id name = store.declares id name := by
  unfold Store.declares Store.bindings Store.scope
  rw [show (store.newChild parent table).2.scopes.get id.index = store.scopes.get id.index from
    Arena.get_push_of_lt _ _ hid]

/-- The new scope has the names of the table it is opened with. -/
theorem declares_newChild_self (name : String) :
    (store.newChild parent table).2.declares ⟨store.scopes.size⟩ name = table.contains name := by
  unfold Store.declares
  rw [bindings_newChild]

/-- The scopes are counted on by one. -/
theorem size_newChild :
    (store.newChild parent table).2.scopes.size = store.scopes.size + 1 := Arena.size_push ..

/-- The new scope stands in its parent, whose own chain is the same as before. -/
theorem chain_newChild (hparent : parent.index < store.scopes.size) :
    (store.newChild parent table).2.chain ⟨store.scopes.size⟩ =
      ⟨store.scopes.size⟩ :: (store.newChild parent table).2.chain parent := by
  have hgrows : store.Grows (store.newChild parent table).2 := Store.grows_newScope ..
  rw [hgrows.chain hparent]
  show ⟨store.scopes.size⟩ ::
    (Arena.get (Arena.push store.scopes _) store.scopes.size).enclosing = _
  rw [Arena.get_push_size]

/-- Opening a scope keeps the nesting, if its table holds only names of what it is opened for. -/
theorem Nested.newChild (honce : OpensOnce Occurs) (h : Nested U Occurs store)
    (hopened : Opened Occurs ⟨store.scopes.size⟩ opening)
    (htable : ∀ name, table.contains name = true → name ∈ opening.declared ∨ name ∈ reservedNames) :
    Nested U Occurs (store.newChild parent table).2 := by
  have hgrows : store.Grows (store.newChild parent table).2 := Store.grows_newScope ..
  refine h.grow hgrows ?_ ?_ ?_ (.of_size rfl)
  · intro id hid other hother name hname
    rw [size_newChild] at hid
    by_cases hlt : id.index < store.scopes.size
    · rw [declares_newChild_of_lt hlt] at hname
      exact .inl ⟨hlt, hname⟩
    · obtain ⟨i⟩ := id
      obtain rfl : i = store.scopes.size := by
        have : ¬ i < store.scopes.size := hlt
        have : i < store.scopes.size + 1 := hid
        omega
      -- The new scope was opened once, for what is said here.
      obtain rfl := honce.unique _ _ _ hother hopened
      rw [declares_newChild_self] at hname
      exact .inr (htable name hname)
  · intro id hle hlt
    exact absurd hlt (Nat.not_lt_of_le hle)
  · exact fun _ _ hc _ _ => hc

/-- The new scope is the place of the region that it is opened for, in the context that its parent
follows. -/
theorem At.newChild (hparent : Follows Occurs store parent outer)
    (hopened : Opened Occurs ⟨store.scopes.size⟩ opening) (hregion : opening.For region)
    (hnames : ∀ name ∈ names, table.contains name = true)
    (hexact : ∀ name, table.contains name = true → name ∈ names ∨ name ∈ reservedNames) :
    At Occurs (store.newChild parent table).2 ⟨store.scopes.size⟩ (⟨region, names⟩ :: outer) := by
  have hgrows : store.Grows (store.newChild parent table).2 := Store.grows_newScope ..
  constructor
  · refine .inner ?_ (chain_newChild hparent.lt) hopened hregion ?_ (hparent.mono hgrows)
    · rw [size_newChild]
      exact Nat.lt_succ_self _
    · intro name hname
      rw [declares_newChild_self]
      exact hnames name hname
  · intro frame hframe name hname
    obtain rfl := Option.some.inj hframe
    rw [declares_newChild_self] at hname
    exact hexact name hname

/-! ## Declarations

A statement declares names in the scope that it stands in. That these are names which the scope may
hold is known from the text: the innermost region of the context declares them, and the scope was
opened for this region. -/

/-- A scope has room for the names that the innermost region of its context declares. -/
theorem At.declared_of_room (honce : OpensOnce Occurs) (h : At Occurs store scope context)
    (hroom : context.HasRoom names) (hopened : Opened Occurs scope opening) {name : String}
    (hname : name ∈ names) : name ∈ opening.declared := by
  cases h.follows with
  | global => exact absurd hopened (honce.global opening)
  -- The scope was opened once, so the opening in question is the one that the context tells of.
  | @inner _ _ frame outer other hlt hchain hother hregion =>
    obtain rfl := honce.unique _ _ _ hopened hother
    rw [hregion.declared_eq]
    exact hroom frame rfl name hname

/-- A store that has gained only names in the scope of a statement, and functions and classes that
the statement declares, is nested. -/
theorem Nested.declare (honce : OpensOnce Occurs) (h : Nested U Occurs a) (hgrows : a.Grows b)
    (hat : At Occurs a scope context) (hroom : context.HasRoom names)
    (hsize : b.scopes.size = a.scopes.size)
    (hgains : ∀ id : ScopeId, id.index < a.scopes.size → ∀ name, b.declares id name = true →
      a.declares id name = true ∨ (id = scope ∧ name ∈ names))
    (hplaced : ∀ id : FunctionId, a.functions.size ≤ id.index → id.index < b.functions.size →
      Placed U Occurs b id)
    (hclasses : ∀ (c : ClassId) (id : FunctionId), c.index < b.classes.size → b.Declares c id →
      id.index < a.functions.size → c.index < a.classes.size) (hapart : a.DeclaresApart b) :
    Nested U Occurs b := by
  refine h.grow hgrows ?_ hplaced hclasses hapart
  intro id hid opening hopened name hname
  rw [hsize] at hid
  rcases hgains id hid name hname with hbefore | ⟨rfl, hnew⟩
  · exact .inl ⟨hid, hbefore⟩
  · exact .inr (.inl (hat.declared_of_room honce hroom hopened hnew))

end

end Script
