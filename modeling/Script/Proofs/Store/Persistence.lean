import Script.Proofs.Store.Growth

/-!
# What never goes away

Whatever is done to a store, be it consistent or not, the things in it stay, and with them their
structure: a scope keeps the scopes around it, a class its name, its ancestors and its methods, and
so on. Names are added to the tables of variables and of properties, and never removed
(`Store.Persists`). In contrast to `Store.Grows` this asks nothing of the names that are bound.
-/

namespace Script

/-! ## Names of tables

A table is a list of entries, and a new entry hides an old one of the same name. So names are never
lost, while their values may change. -/

namespace Table

variable {α : Type}

/-- All the names of the first table are in the second. -/
def Within (a b : Table α) : Prop := ∀ name, a.contains name = true → b.contains name = true

theorem Within.refl (a : Table α) : Within a a := fun _ h => h

theorem Within.trans {a b c : Table α} (hab : Within a b) (hbc : Within b c) : Within a c :=
  fun name h => hbc name (hab name h)

/-- Setting a name removes none, and may add this one. -/
theorem within_set (table : Table α) (name : String) (value : α) :
    Within table (table.set name value) := by
  intro other hother
  rw [contains_set, hother, Bool.or_true]

end Table

/-! ## What persists

For each kind of thing, as in `Store.Grows`, with the names of its table of variables or of
properties besides. A class keeps its name too. -/

/-- What persists of a scope: where it stands, and which names it holds. Their values may change. -/
structure Scope.Persists (a b : Scope) : Prop where
  enclosing : b.enclosing = a.enclosing
  names : a.bindings.Within b.bindings

/-- What persists of a function: its declaration and its closure, and the names of its fields. -/
structure UserFunction.Persists (a b : UserFunction) : Prop extends UserFunction.Kept a b where
  properties : a.fields.Within b.fields

/-- What persists of a bound method: what it was bound to, and the names of its fields. -/
structure BoundMethod.Persists (a b : BoundMethod) : Prop extends BoundMethod.Kept a b where
  properties : a.fields.Within b.fields

/-- What persists of a class: its name, its ancestors and its methods, and the names of its
fields. -/
structure Class.Persists (a b : Class) : Prop extends Class.Kept a b where
  name : b.name = a.name
  properties : a.fields.Within b.fields

/-- What persists of an instance: its class, and the names of its fields. -/
structure Instance.Persists (a b : Instance) : Prop where
  ofClass : b.ofClass = a.ofClass
  properties : a.fields.Within b.fields

theorem Scope.Persists.refl (a : Scope) : a.Persists a := ⟨rfl, .refl _⟩

theorem Scope.Persists.trans {a b c : Scope} (hab : a.Persists b) (hbc : b.Persists c) :
    a.Persists c :=
  ⟨hbc.enclosing.trans hab.enclosing, hab.names.trans hbc.names⟩

theorem UserFunction.Persists.refl (a : UserFunction) : a.Persists a := ⟨.refl a, .refl _⟩

theorem UserFunction.Persists.trans {a b c : UserFunction} (hab : a.Persists b)
    (hbc : b.Persists c) : a.Persists c :=
  ⟨hab.toKept.trans hbc.toKept, hab.properties.trans hbc.properties⟩

theorem BoundMethod.Persists.refl (a : BoundMethod) : a.Persists a := ⟨.refl a, .refl _⟩

theorem BoundMethod.Persists.trans {a b c : BoundMethod} (hab : a.Persists b)
    (hbc : b.Persists c) : a.Persists c :=
  ⟨hab.toKept.trans hbc.toKept, hab.properties.trans hbc.properties⟩

theorem Class.Persists.refl (a : Class) : a.Persists a := ⟨.refl a, rfl, .refl _⟩

theorem Class.Persists.trans {a b c : Class} (hab : a.Persists b) (hbc : b.Persists c) :
    a.Persists c :=
  ⟨hab.toKept.trans hbc.toKept, hbc.name.trans hab.name, hab.properties.trans hbc.properties⟩

theorem Instance.Persists.refl (a : Instance) : a.Persists a := ⟨rfl, .refl _⟩

theorem Instance.Persists.trans {a b c : Instance} (hab : a.Persists b) (hbc : b.Persists c) :
    a.Persists c :=
  ⟨hbc.ofClass.trans hab.ofClass, hab.properties.trans hbc.properties⟩

namespace Store

/-- Everything in `a` is still in `b`, with the same structure and at least the same names. -/
structure Persists (a b : Store) : Prop where
  scopes : Arena.Extends Scope.Persists a.scopes b.scopes
  functions : Arena.Extends UserFunction.Persists a.functions b.functions
  boundMethods : Arena.Extends BoundMethod.Persists a.boundMethods b.boundMethods
  classes : Arena.Extends Class.Persists a.classes b.classes
  instances : Arena.Extends Instance.Persists a.instances b.instances
  natives : ∀ native, (a.nativeFields.get native).Within (b.nativeFields.get native)

theorem Persists.refl (a : Store) : Persists a a where
  scopes := .refl Scope.Persists.refl _
  functions := .refl UserFunction.Persists.refl _
  boundMethods := .refl BoundMethod.Persists.refl _
  classes := .refl Class.Persists.refl _
  instances := .refl Instance.Persists.refl _
  natives := fun _ => .refl _

/-- What persists in a later store persists in those after it. -/
theorem Persists.trans {a b c : Store} (hab : Persists a b) (hbc : Persists b c) :
    Persists a c where
  scopes := hab.scopes.trans Scope.Persists.trans hbc.scopes
  functions := hab.functions.trans UserFunction.Persists.trans hbc.functions
  boundMethods := hab.boundMethods.trans BoundMethod.Persists.trans hbc.boundMethods
  classes := hab.classes.trans Class.Persists.trans hbc.classes
  instances := hab.instances.trans Instance.Persists.trans hbc.instances
  natives := fun native => (hab.natives native).trans (hbc.natives native)

/-! ## The ways to change a store

One lemma for each change. None of them asks anything of the values, the names or the references
that are put in: nothing is removed in any case. -/

theorem persists_newScope (store : Store) (enclosing : List ScopeId) (bindings : Table Value) :
    Persists store (store.newScope enclosing bindings).2 :=
  { Persists.refl store with scopes := Arena.extends_push Scope.Persists.refl _ _ }

/-- A value under any name, also a reserved one. -/
theorem persists_bind (store : Store) (scope : ScopeId) (name : String) (value : Value) :
    Persists store (store.bind scope name value) :=
  { Persists.refl store with
    scopes := Arena.extends_modify Scope.Persists.refl _ _ _ ⟨rfl, Table.within_set _ name value⟩ }

theorem persists_newFunction (store : Store) (decl : FunctionDecl) (closure : ScopeId) :
    Persists store (store.newFunction decl closure).2 :=
  { Persists.refl store with functions := Arena.extends_push UserFunction.Persists.refl _ _ }

/-- The functions of a row of declarations are added one by one, by induction on the row. -/
theorem persists_newFunctions (closure : ScopeId) (decls : List FunctionDecl) (store : Store) :
    Persists store (store.newFunctions closure decls).2 := by
  induction decls generalizing store with
  | nil => exact Persists.refl store
  | cons decl rest ih => exact (persists_newFunction store decl closure).trans (ih _)

theorem persists_newBoundMethod (store : Store) (method : FunctionId) (receiver : InstanceId)
    (declaringClass : ClassId) :
    Persists store (store.newBoundMethod method receiver declaringClass).2 :=
  { Persists.refl store with boundMethods := Arena.extends_push BoundMethod.Persists.refl _ _ }

theorem persists_newClass (store : Store) (name : String) (ancestors : List ClassId)
    (methods : Table FunctionId) : Persists store (store.newClass name ancestors methods).2 :=
  { Persists.refl store with classes := Arena.extends_push Class.Persists.refl _ _ }

theorem persists_newInstance (store : Store) (ofClass : ClassId) :
    Persists store (store.newInstance ofClass).2 :=
  { Persists.refl store with instances := Arena.extends_push Instance.Persists.refl _ _ }

/-- Setting a property, where that can be done. -/
theorem persists_setProperty {store store' : Store} {object value : Value} {name : String}
    (h : store.setProperty object name value = .ok store') : Persists store store' := by
  have hset : ∀ fields : Fields, fields.Within (fields.set name value) := fun fields =>
    Table.within_set fields name value
  cases object with
  | instanceRef id =>
    obtain rfl := Except.ok.inj h
    exact { Persists.refl store with
      instances := Arena.extends_modify Instance.Persists.refl _ _ _ ⟨rfl, hset _⟩ }
  | classRef id =>
    obtain rfl := Except.ok.inj h
    exact { Persists.refl store with
      classes := Arena.extends_modify Class.Persists.refl _ _ _ ⟨⟨rfl, rfl⟩, rfl, hset _⟩ }
  | function ref =>
    obtain rfl := Except.ok.inj h
    cases ref with
    | user id =>
      exact { Persists.refl store with
        functions := Arena.extends_modify UserFunction.Persists.refl _ _ _ ⟨⟨rfl, rfl⟩, hset _⟩ }
    | bound id =>
      exact { Persists.refl store with
        boundMethods :=
          Arena.extends_modify BoundMethod.Persists.refl _ _ _ ⟨⟨rfl, rfl, rfl⟩, hset _⟩ }
    | native native =>
      refine { Persists.refl store with natives := fun other => ?_ }
      -- The fields of the two native functions are kept apart.
      cases native <;> cases other
      · exact hset _
      · exact .refl _
      · exact .refl _
      · exact hset _
  | nil => cases h
  | boolean => cases h
  | number => cases h
  | string => cases h

end Store

end Script
