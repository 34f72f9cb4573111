import Script.Proofs.Store.Growth

/-!
# Consistent stores

A store is consistent when its references lead somewhere and its lists of scopes and of ancestors
are what they are meant to be: the scopes around a scope are an older scope and those around it,
the ancestors of a class an older class and its ancestors, and a bound method pairs a method with
a receiver whose class inherits from the class that declares the method (`Store.Dispatches`).

Every way to change the store keeps it consistent. What was there before stays as it should be
because the store only grows (`Consistent.of_grows`), so that each change answers for the new or
changed thing alone.
-/

namespace Script

namespace Store

variable {Known : FunctionDecl → Prop} {store a b : Store}

/-! ## References

A reference is a number, and the store has a thing for every number below the size of the arena.
Since things are never removed, a reference that leads somewhere does so for good. -/

/-- The reference of a value, if it has one, leads somewhere. -/
def Valid (store : Store) : Value → Prop
  | .function (.user id) => id.index < store.functions.size
  | .function (.bound id) => id.index < store.boundMethods.size
  | .classRef id => id.index < store.classes.size
  | .instanceRef id => id.index < store.instances.size
  | _ => True

/-- A value that is valid stays valid: arenas only get longer. -/
theorem Valid.mono (hgrows : Grows a b) {value : Value} (h : a.Valid value) : b.Valid value := by
  cases value with
  | function ref =>
    cases ref with
    | user id => exact Nat.lt_of_lt_of_le h hgrows.functions.size
    | native => trivial
    | bound id => exact Nat.lt_of_lt_of_le h hgrows.boundMethods.size
  | classRef id => exact Nat.lt_of_lt_of_le h hgrows.classes.size
  | instanceRef id => exact Nat.lt_of_lt_of_le h hgrows.instances.size
  | _ => trivial

/-- The method is one that the class declares. -/
def Declares (store : Store) (id : ClassId) (method : FunctionId) : Prop :=
  ∃ name, store.ownMethod? id name = some method

/-- The method may be called on the receiver as one that this class declares. -/
structure Dispatches (store : Store) (method : FunctionId) (receiver : InstanceId)
    (declaringClass : ClassId) : Prop where
  exists_receiver : receiver.index < store.instances.size
  inherits : declaringClass ∈ store.lineage (store.instanceOf receiver).ofClass
  declares : store.Declares declaringClass method

/-! ## What is required of each thing

For a scope or a class there are two cases: it is the first one and has nothing ahead of it, or it
lies inside or below an older one, of which it has the list and one thing more. -/

/-- What is required of the scope with this number. -/
structure ScopeConsistent (store : Store) (i : Nat) (scope : Scope) : Prop where
  enclosing : (i = 0 ∧ scope.enclosing = []) ∨
    ∃ parent : ScopeId, parent.index < i ∧ scope.enclosing = store.chain parent
  values : scope.bindings.Holds store.Valid

/-- What is required of a function: a known declaration, a scope that is there, and fields that
refer to what is there. -/
structure FunctionConsistent (Known : FunctionDecl → Prop) (store : Store)
    (function : UserFunction) : Prop where
  known : Known function.decl
  closure : function.closure.index < store.scopes.size
  fields : function.fields.Holds store.Valid

/-- What is required of a bound method. -/
structure BoundMethodConsistent (store : Store) (bound : BoundMethod) : Prop where
  dispatches : store.Dispatches bound.method bound.receiver bound.declaringClass
  fields : bound.fields.Holds store.Valid

/-- What is required of the class with this number. The first one is the root class, which has no
methods. -/
structure ClassConsistent (store : Store) (i : Nat) (c : Class) : Prop where
  ancestors : (i = 0 ∧ c.ancestors = [] ∧ c.methods = .empty) ∨
    ∃ parent : ClassId, parent.index < i ∧ c.ancestors = store.lineage parent
  methods : c.methods.Holds fun id => id.index < store.functions.size
  fields : c.fields.Holds store.Valid

/-- What is required of an instance: a class that is there, and fields that refer to what is
there. -/
structure InstanceConsistent (store : Store) (x : Instance) : Prop where
  ofClass : x.ofClass.index < store.classes.size
  fields : x.fields.Holds store.Valid

/-- Everything in the store is as it should be; `Known` is required of what functions are
declared as. -/
structure Consistent (Known : FunctionDecl → Prop) (store : Store) : Prop where
  scopes : ∀ i < store.scopes.size, store.ScopeConsistent i (store.scopes.get i)
  functions : ∀ i < store.functions.size,
    store.FunctionConsistent Known (store.functions.get i)
  boundMethods : ∀ i < store.boundMethods.size,
    store.BoundMethodConsistent (store.boundMethods.get i)
  classes : ∀ i < store.classes.size, store.ClassConsistent i (store.classes.get i)
  instances : ∀ i < store.instances.size, store.InstanceConsistent (store.instances.get i)
  natives : ∀ native, (store.nativeFields.get native).Holds store.Valid
  globalScope : 0 < store.scopes.size
  rootClass : 0 < store.classes.size

/-! ## Classes and scopes of a consistent store -/

section

variable (h : store.Consistent Known)

include h

/-- A class comes after its ancestors, and has those of each of them. -/
theorem Consistent.lineage_suffix {id other : ClassId} (hid : id.index < store.classes.size)
    (hother : other ∈ store.lineage id) :
    other.index ≤ id.index ∧ ∃ below, store.lineage id = below ++ store.lineage other := by
  obtain ⟨i⟩ := id
  -- The superclass of a class is older, so the induction is on the number of the class.
  induction i using Nat.strongRecOn with
  | ind i ih =>
    rcases List.mem_cons.mp hother with rfl | hmem
    · exact ⟨Nat.le_refl _, [], rfl⟩
    · rcases (h.classes i hid).ancestors with ⟨-, hnone, -⟩ | ⟨parent, hlt, hancestors⟩
      · rw [show (store.classOf ⟨i⟩).ancestors = [] from hnone] at hmem
        cases hmem
      · rw [show (store.classOf ⟨i⟩).ancestors = store.lineage parent from hancestors] at hmem
        obtain ⟨hle, below, hbelow⟩ := ih parent.index hlt (Nat.lt_trans hlt hid) hmem
        refine ⟨Nat.le_trans hle (Nat.le_of_lt hlt), ⟨i⟩ :: below, ?_⟩
        show ⟨i⟩ :: (store.classOf ⟨i⟩).ancestors = _
        rw [show (store.classOf ⟨i⟩).ancestors = store.lineage parent from hancestors, hbelow]
        rfl

/-- The ancestors of a class come before it. -/
theorem Consistent.ancestor_lt {id other : ClassId} (hid : id.index < store.classes.size)
    (hother : other ∈ (store.classOf id).ancestors) : other.index < id.index := by
  rcases (h.classes id.index hid).ancestors with ⟨-, hnone, -⟩ | ⟨parent, hlt, hancestors⟩
  · rw [show (store.classOf id).ancestors = [] from hnone] at hother
    cases hother
  · rw [show (store.classOf id).ancestors = store.lineage parent from hancestors] at hother
    exact Nat.lt_of_le_of_lt (h.lineage_suffix (Nat.lt_trans hlt hid) hother).1 hlt

/-- The ancestors of a class are there. -/
theorem Consistent.lineage_lt {id other : ClassId} (hid : id.index < store.classes.size)
    (hother : other ∈ store.lineage id) : other.index < store.classes.size :=
  Nat.lt_of_le_of_lt (h.lineage_suffix hid hother).1 hid

/-- An ancestor of an ancestor is an ancestor. -/
theorem Consistent.lineage_trans {id other third : ClassId} (hid : id.index < store.classes.size)
    (hother : other ∈ store.lineage id) (hthird : third ∈ store.lineage other) :
    third ∈ store.lineage id := by
  obtain ⟨-, below, hbelow⟩ := h.lineage_suffix hid hother
  rw [hbelow]
  exact List.mem_append_right _ hthird

/-- The superclass of a class is among its ancestors, which are the superclass and its own. -/
theorem Consistent.superclass_lineage {id parent : ClassId} (hid : id.index < store.classes.size)
    (hparent : store.superclass? id = some parent) :
    parent.index < id.index ∧ store.lineage id = id :: store.lineage parent := by
  rcases (h.classes id.index hid).ancestors with ⟨-, hnone, -⟩ | ⟨other, hlt, hancestors⟩
  · unfold superclass? classOf at hparent
    rw [hnone] at hparent
    cases hparent
  · unfold superclass? classOf at hparent
    rw [hancestors] at hparent
    obtain rfl := Option.some.inj hparent
    exact ⟨hlt, by unfold lineage classOf; rw [hancestors]; rfl⟩

/-- A class that declares a method has a superclass: the root class declares none. -/
theorem Consistent.superclass_of_declares {id : ClassId} {method : FunctionId}
    (hid : id.index < store.classes.size) (hmethod : store.Declares id method) :
    ∃ parent, store.superclass? id = some parent := by
  obtain ⟨name, hname⟩ := hmethod
  rcases (h.classes id.index hid).ancestors with ⟨-, -, hmethods⟩ | ⟨parent, -, hancestors⟩
  · unfold ownMethod? classOf at hname
    rw [hmethods] at hname
    cases hname
  · refine ⟨parent, ?_⟩
    unfold superclass? classOf
    rw [hancestors]
    rfl

/-- The methods of a class are there. -/
theorem Consistent.method_lt {id : ClassId} {method : FunctionId}
    (hid : id.index < store.classes.size) (hmethod : store.Declares id method) :
    method.index < store.functions.size := by
  obtain ⟨name, hname⟩ := hmethod
  exact (h.classes id.index hid).methods name method hname

/-- The scopes around a scope are older than the scope, or the scope itself. -/
theorem Consistent.chain_lt {id other : ScopeId} (hid : id.index < store.scopes.size)
    (hother : other ∈ store.chain id) : other.index ≤ id.index := by
  obtain ⟨i⟩ := id
  induction i using Nat.strongRecOn with
  | ind i ih =>
    rcases List.mem_cons.mp hother with rfl | hmem
    · exact Nat.le_refl _
    · rcases (h.scopes i hid).enclosing with ⟨-, hnone⟩ | ⟨parent, hlt, henclosing⟩
      · rw [show (store.scope ⟨i⟩).enclosing = [] from hnone] at hmem
        cases hmem
      · rw [show (store.scope ⟨i⟩).enclosing = store.chain parent from henclosing] at hmem
        exact Nat.le_trans (ih parent.index hlt (Nat.lt_trans hlt hid) hmem) (Nat.le_of_lt hlt)

/-- The class of an instance is there. -/
theorem Consistent.receiver_class {id : InstanceId} (hid : id.index < store.instances.size) :
    (store.instanceOf id).ofClass.index < store.classes.size :=
  (h.instances id.index hid).ofClass

/-- The class that declares the method is there. -/
theorem Dispatches.declaringClass_lt {method : FunctionId} {receiver : InstanceId}
    {declaringClass : ClassId} (hd : store.Dispatches method receiver declaringClass) :
    declaringClass.index < store.classes.size :=
  h.lineage_lt (h.receiver_class hd.exists_receiver) hd.inherits

end

/-- What a search for a method finds: a class from `start` upward, and a method that it
declares. -/
theorem method?_eq_some {start : ClassId} {name : String} {resolution : MethodResolution}
    (h : store.method? start name = some resolution) :
    resolution.declaringClass ∈ store.lineage start ∧
      store.ownMethod? resolution.declaringClass name = some resolution.method := by
  obtain ⟨id, hmem, hfound⟩ := List.exists_of_findSome?_eq_some h
  obtain ⟨method, hmethod, rfl⟩ := Option.map_eq_some_iff.mp hfound
  exact ⟨hmem, hmethod⟩

/-! ## Growth keeps things as they should be

What is required of a thing speaks of other things, which may have changed as well. It speaks of
them only in ways that growth respects: that they are there, which scopes and classes are ahead of
them, and which methods they declare. -/

/-- What a class declares it goes on to declare. -/
theorem Declares.mono (hgrows : Grows a b) {id : ClassId} {method : FunctionId}
    (hid : id.index < a.classes.size) (h : a.Declares id method) : b.Declares id method := by
  obtain ⟨name, hname⟩ := h
  exact ⟨name, (hgrows.ownMethod? hid name).trans hname⟩

/-- What an older class declares it has declared before. -/
theorem Declares.of_grows {id : ClassId} {method : FunctionId} (h : b.Declares id method)
    (hgrows : Grows a b) (hid : id.index < a.classes.size) : a.Declares id method := by
  obtain ⟨name, hname⟩ := h
  rw [hgrows.ownMethod? hid name] at hname
  exact ⟨name, hname⟩

/-- A method may be called on a receiver ever after: neither the class of the receiver nor its
ancestors change. -/
theorem Dispatches.mono (h : a.Consistent Known) (hgrows : Grows a b) {method : FunctionId}
    {receiver : InstanceId} {declaringClass : ClassId}
    (hd : a.Dispatches method receiver declaringClass) :
    b.Dispatches method receiver declaringClass where
  exists_receiver := Nat.lt_of_lt_of_le hd.exists_receiver hgrows.instances.size
  inherits := by
    rw [hgrows.ofClass hd.exists_receiver, hgrows.lineage (h.receiver_class hd.exists_receiver)]
    exact hd.inherits
  declares := hd.declares.mono hgrows (hd.declaringClass_lt h)

/-- A table of valid values stays one while the store grows. -/
theorem holds_valid_mono (hgrows : Grows a b) {table : Table Value} (h : table.Holds a.Valid) :
    table.Holds b.Valid :=
  h.mono fun _ => Valid.mono hgrows

/-- A scope stays as it should be: those around its parent are the same. -/
theorem ScopeConsistent.mono (hgrows : Grows a b) {i : Nat} {scope : Scope}
    (hi : i < a.scopes.size) (h : a.ScopeConsistent i scope) : b.ScopeConsistent i scope where
  enclosing := by
    rcases h.enclosing with hglobal | ⟨parent, hlt, henclosing⟩
    · exact .inl hglobal
    · exact .inr ⟨parent, hlt, by rw [hgrows.chain (Nat.lt_trans hlt hi), henclosing]⟩
  values := holds_valid_mono hgrows h.values

/-- A function stays as it should be while the store grows. -/
theorem FunctionConsistent.mono (hgrows : Grows a b) {function : UserFunction}
    (h : a.FunctionConsistent Known function) : b.FunctionConsistent Known function where
  known := h.known
  closure := Nat.lt_of_lt_of_le h.closure hgrows.scopes.size
  fields := holds_valid_mono hgrows h.fields

/-- A bound method stays as it should be. -/
theorem BoundMethodConsistent.mono (ha : a.Consistent Known) (hgrows : Grows a b)
    {bound : BoundMethod} (h : a.BoundMethodConsistent bound) : b.BoundMethodConsistent bound where
  dispatches := h.dispatches.mono ha hgrows
  fields := holds_valid_mono hgrows h.fields

/-- A class stays as it should be: the ancestors of its superclass are the same. -/
theorem ClassConsistent.mono (hgrows : Grows a b) {i : Nat} {c : Class}
    (hi : i < a.classes.size) (h : a.ClassConsistent i c) : b.ClassConsistent i c where
  ancestors := by
    rcases h.ancestors with hroot | ⟨parent, hlt, hancestors⟩
    · exact .inl hroot
    · exact .inr ⟨parent, hlt, by rw [hgrows.lineage (Nat.lt_trans hlt hi), hancestors]⟩
  methods := h.methods.mono fun _ hlt => Nat.lt_of_lt_of_le hlt hgrows.functions.size
  fields := holds_valid_mono hgrows h.fields

/-- An instance stays as it should be while the store grows. -/
theorem InstanceConsistent.mono (hgrows : Grows a b) {x : Instance}
    (h : a.InstanceConsistent x) : b.InstanceConsistent x where
  ofClass := Nat.lt_of_lt_of_le h.ofClass hgrows.classes.size
  fields := holds_valid_mono hgrows h.fields

/-- A store that has grown is consistent if everything in it was there before or is as it should
be. -/
theorem Consistent.of_grows (h : a.Consistent Known) (hgrows : Grows a b)
    (hscopes : ∀ i < b.scopes.size, (i < a.scopes.size ∧ b.scopes.get i = a.scopes.get i) ∨
      b.ScopeConsistent i (b.scopes.get i))
    (hfunctions : ∀ i < b.functions.size,
      (i < a.functions.size ∧ b.functions.get i = a.functions.get i) ∨
      b.FunctionConsistent Known (b.functions.get i))
    (hboundMethods : ∀ i < b.boundMethods.size,
      (i < a.boundMethods.size ∧ b.boundMethods.get i = a.boundMethods.get i) ∨
      b.BoundMethodConsistent (b.boundMethods.get i))
    (hclasses : ∀ i < b.classes.size, (i < a.classes.size ∧ b.classes.get i = a.classes.get i) ∨
      b.ClassConsistent i (b.classes.get i))
    (hinstances : ∀ i < b.instances.size,
      (i < a.instances.size ∧ b.instances.get i = a.instances.get i) ∨
      b.InstanceConsistent (b.instances.get i))
    (hnatives : ∀ native, (b.nativeFields.get native).Holds b.Valid) : b.Consistent Known where
  -- In each of the arenas a cell is an old one that has not changed, or it is consistent by
  -- hypothesis.
  scopes := fun i hi => by
    rcases hscopes i hi with ⟨hlt, heq⟩ | hnew
    · exact heq ▸ (h.scopes i hlt).mono hgrows hlt
    · exact hnew
  functions := fun i hi => by
    rcases hfunctions i hi with ⟨hlt, heq⟩ | hnew
    · exact heq ▸ (h.functions i hlt).mono hgrows
    · exact hnew
  boundMethods := fun i hi => by
    rcases hboundMethods i hi with ⟨hlt, heq⟩ | hnew
    · exact heq ▸ (h.boundMethods i hlt).mono h hgrows
    · exact hnew
  classes := fun i hi => by
    rcases hclasses i hi with ⟨hlt, heq⟩ | hnew
    · exact heq ▸ (h.classes i hlt).mono hgrows hlt
    · exact hnew
  instances := fun i hi => by
    rcases hinstances i hi with ⟨hlt, heq⟩ | hnew
    · exact heq ▸ (h.instances i hlt).mono hgrows
    · exact hnew
  natives := hnatives
  globalScope := Nat.lt_of_lt_of_le h.globalScope hgrows.scopes.size
  rootClass := Nat.lt_of_lt_of_le h.rootClass hgrows.classes.size

end Store

end Script
