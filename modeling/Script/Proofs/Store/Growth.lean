import Script.Interpreter.Evaluate
import Script.Proofs.Store.Tables

/-!
# How stores grow

Whatever a program does, nothing in the store goes away, and most of it never changes: the scopes
around a scope, what a function or a bound method is, the ancestors and the methods of a class, the
class of an instance. Names are added to scopes but not removed, and the variables `this` and
`super` keep their values. `Store.Grows` collects this, and every way to change the store that the
evaluator has is shown to respect it.
-/

namespace Script

/-- The names under which the receiver and the superclass are kept. -/
def reservedNames : List String := [thisName, superName]

/-! ## Arenas

An arena gains things at its end, and things in it are modified. `Extends R` says of two arenas that
the first has become the second by such steps, each of which has changed things only as `R`
allows. -/

namespace Arena

variable {α : Type} [Inhabited α] {R : α → α → Prop} {a b c : Arena α}

/-- Everything in `a` is still in `b`, related to what it was by `R`. -/
structure Extends (R : α → α → Prop) (a b : Arena α) : Prop where
  size : a.size ≤ b.size
  related : ∀ i < a.size, R (a.get i) (b.get i)

theorem Extends.refl (hR : ∀ x, R x x) (a : Arena α) : Extends R a a :=
  ⟨Nat.le_refl _, fun _ _ => hR _⟩

/-- What extends an extension extends the first arena. -/
theorem Extends.trans (hR : ∀ {x y z}, R x y → R y z → R x z) (hab : Extends R a b)
    (hbc : Extends R b c) : Extends R a c where
  size := Nat.le_trans hab.size hbc.size
  related := fun i hi => hR (hab.related i hi) (hbc.related i (Nat.lt_of_lt_of_le hi hab.size))

/-- Adding a thing leaves the others alone, so that it extends the arena for every reflexive
relation. -/
theorem extends_push (hR : ∀ x, R x x) (a : Arena α) (x : α) : Extends R a (a.push x) where
  size := by simp
  related := fun i hi => by
    rw [get_push_of_lt a x hi]
    exact hR _

/-- Changing one thing as the relation allows leaves the others as they are. -/
theorem extends_modify (hR : ∀ x, R x x) (a : Arena α) (i : Nat) (f : α → α)
    (h : R (a.get i) (f (a.get i))) : Extends R a (a.modify i f) where
  size := by simp
  related := fun j hj => by
    by_cases hij : i = j
    · subst hij
      rw [get_modify_self a f hj]
      exact h
    · rw [get_modify_of_ne a f hij]
      exact hR _

/-- What is in an arena after something was added to it. -/
theorem get_push_cases (a : Arena α) (x : α) {i : Nat} (hi : i < (a.push x).size) :
    (i < a.size ∧ (a.push x).get i = a.get i) ∨ (i = a.size ∧ (a.push x).get i = x) := by
  rw [size_push] at hi
  by_cases h : i < a.size
  · exact .inl ⟨h, get_push_of_lt a x h⟩
  · have heq : i = a.size := by omega
    subst heq
    exact .inr ⟨rfl, get_push_size a x⟩

/-- What is in an arena after one of its things was changed. -/
theorem get_modify_cases (a : Arena α) (i : Nat) (f : α → α) {j : Nat}
    (hj : j < (a.modify i f).size) :
    (a.modify i f).get j = a.get j ∨ (j = i ∧ (a.modify i f).get j = f (a.get j)) := by
  rw [size_modify] at hj
  by_cases hij : i = j
  · subst hij
    exact .inr ⟨rfl, get_modify_self a f hj⟩
  · exact .inl (get_modify_of_ne a f hij)

/-- Adding a thing changes what is read at its number only; this holds beyond the end as well. -/
theorem get_push_of_ne (a : Arena α) (x : α) {i : Nat} (h : i ≠ a.size) :
    (a.push x).get i = a.get i := by
  rcases Nat.lt_or_ge i a.size with hlt | hge
  · exact get_push_of_lt a x hlt
  · have hcells : a.cells.size ≤ i := hge
    have hne : i ≠ a.cells.size := h
    simp [get, push, Array.getElem?_push, hcells, hne]

/-- A part of the things that a change leaves alone is the same after it. -/
theorem get_modify_part {β : Type} (a : Arena α) (i j : Nat) {f : α → α} {part : α → β}
    (hpart : ∀ x, part (f x) = part x) : part ((a.modify i f).get j) = part (a.get j) := by
  by_cases hij : i = j
  · subst hij
    rcases Nat.lt_or_ge i a.size with hlt | hge
    · rw [get_modify_self a f hlt, hpart]
    · have hcells : a.cells.size ≤ i := hge
      simp [get, modify, hcells]
  · rw [get_modify_of_ne a f hij]

end Arena

/-! ## What stays the same

For each kind of thing, which parts of it never change. What is not listed may change: the values of
variables, fields, and the names that a scope holds, as long as they only get more. -/

/-- What never changes about a scope: those around it, the names it holds, and the values of the
reserved ones. -/
structure Scope.Kept (a b : Scope) : Prop where
  enclosing : b.enclosing = a.enclosing
  names : ∀ name, a.bindings.contains name = true → b.bindings.contains name = true
  reserved : ∀ name ∈ reservedNames, b.bindings.get? name = a.bindings.get? name

/-- What never changes about a function: its declaration and the scope that it was declared in. -/
structure UserFunction.Kept (a b : UserFunction) : Prop where
  decl : b.decl = a.decl
  closure : b.closure = a.closure

/-- What never changes about a bound method: all but its fields. -/
structure BoundMethod.Kept (a b : BoundMethod) : Prop where
  method : b.method = a.method
  receiver : b.receiver = a.receiver
  declaringClass : b.declaringClass = a.declaringClass

/-- What never changes about a class: its ancestors and its methods. -/
structure Class.Kept (a b : Class) : Prop where
  ancestors : b.ancestors = a.ancestors
  methods : b.methods = a.methods

/-- What never changes about an instance: its class. -/
def Instance.Kept (a b : Instance) : Prop := b.ofClass = a.ofClass

theorem Scope.Kept.refl (a : Scope) : a.Kept a := ⟨rfl, fun _ h => h, fun _ _ => rfl⟩

theorem Scope.Kept.trans {a b c : Scope} (hab : a.Kept b) (hbc : b.Kept c) : a.Kept c where
  enclosing := hbc.enclosing.trans hab.enclosing
  names := fun name h => hbc.names name (hab.names name h)
  reserved := fun name h => (hbc.reserved name h).trans (hab.reserved name h)

theorem UserFunction.Kept.refl (a : UserFunction) : a.Kept a := ⟨rfl, rfl⟩

theorem UserFunction.Kept.trans {a b c : UserFunction} (hab : a.Kept b) (hbc : b.Kept c) :
    a.Kept c :=
  ⟨hbc.decl.trans hab.decl, hbc.closure.trans hab.closure⟩

theorem BoundMethod.Kept.refl (a : BoundMethod) : a.Kept a := ⟨rfl, rfl, rfl⟩

theorem BoundMethod.Kept.trans {a b c : BoundMethod} (hab : a.Kept b) (hbc : b.Kept c) :
    a.Kept c where
  method := hbc.method.trans hab.method
  receiver := hbc.receiver.trans hab.receiver
  declaringClass := hbc.declaringClass.trans hab.declaringClass

theorem Class.Kept.refl (a : Class) : a.Kept a := ⟨rfl, rfl⟩

theorem Class.Kept.trans {a b c : Class} (hab : a.Kept b) (hbc : b.Kept c) : a.Kept c :=
  ⟨hbc.ancestors.trans hab.ancestors, hbc.methods.trans hab.methods⟩

theorem Instance.Kept.refl (a : Instance) : a.Kept a := rfl

theorem Instance.Kept.trans {a b c : Instance} (hab : a.Kept b) (hbc : b.Kept c) : a.Kept c :=
  Eq.trans hbc hab

namespace Store

/-- Everything in `a` is still in `b`. -/
structure Grows (a b : Store) : Prop where
  scopes : Arena.Extends Scope.Kept a.scopes b.scopes
  functions : Arena.Extends UserFunction.Kept a.functions b.functions
  boundMethods : Arena.Extends BoundMethod.Kept a.boundMethods b.boundMethods
  classes : Arena.Extends Class.Kept a.classes b.classes
  instances : Arena.Extends Instance.Kept a.instances b.instances

theorem Grows.refl (a : Store) : Grows a a where
  scopes := .refl Scope.Kept.refl _
  functions := .refl UserFunction.Kept.refl _
  boundMethods := .refl BoundMethod.Kept.refl _
  classes := .refl Class.Kept.refl _
  instances := .refl Instance.Kept.refl _

theorem Grows.trans {a b c : Store} (hab : Grows a b) (hbc : Grows b c) : Grows a c where
  scopes := hab.scopes.trans Scope.Kept.trans hbc.scopes
  functions := hab.functions.trans UserFunction.Kept.trans hbc.functions
  boundMethods := hab.boundMethods.trans BoundMethod.Kept.trans hbc.boundMethods
  classes := hab.classes.trans Class.Kept.trans hbc.classes
  instances := hab.instances.trans Instance.Kept.trans hbc.instances

/-! ## What the parts of the store see of its growth

Growth is used in this form: a thing that was there has kept one of its parts. -/

section

variable {a b : Store} (h : Grows a b)

include h

theorem Grows.chain {id : ScopeId} (hid : id.index < a.scopes.size) : b.chain id = a.chain id := by
  unfold Store.chain Store.scope
  rw [(h.scopes.related id.index hid).enclosing]

theorem Grows.declares {id : ScopeId} (hid : id.index < a.scopes.size) {name : String}
    (hname : a.declares id name = true) : b.declares id name = true :=
  (h.scopes.related id.index hid).names name hname

/-- The value of a reserved name, or that there is none. -/
theorem Grows.reserved {id : ScopeId} (hid : id.index < a.scopes.size) {name : String}
    (hname : name ∈ reservedNames) : (b.bindings id).get? name = (a.bindings id).get? name :=
  (h.scopes.related id.index hid).reserved name hname

theorem Grows.decl {id : FunctionId} (hid : id.index < a.functions.size) :
    (b.function id).decl = (a.function id).decl :=
  (h.functions.related id.index hid).decl

/-- The scope that a function was declared in. -/
theorem Grows.closure {id : FunctionId} (hid : id.index < a.functions.size) :
    (b.function id).closure = (a.function id).closure :=
  (h.functions.related id.index hid).closure

/-- The ancestors of a class, itself included, are the same in the store that has grown. -/
theorem Grows.lineage {id : ClassId} (hid : id.index < a.classes.size) :
    b.lineage id = a.lineage id := by
  unfold Store.lineage Store.classOf
  rw [(h.classes.related id.index hid).ancestors]

theorem Grows.superclass? {id : ClassId} (hid : id.index < a.classes.size) :
    b.superclass? id = a.superclass? id := by
  unfold Store.superclass? Store.classOf
  rw [(h.classes.related id.index hid).ancestors]

theorem Grows.ownMethod? {id : ClassId} (hid : id.index < a.classes.size) (name : String) :
    b.ownMethod? id name = a.ownMethod? id name := by
  unfold Store.ownMethod? Store.classOf
  rw [(h.classes.related id.index hid).methods]

theorem Grows.ofClass {id : InstanceId} (hid : id.index < a.instances.size) :
    (b.instanceOf id).ofClass = (a.instanceOf id).ofClass :=
  h.instances.related id.index hid

end

/-! ## The ways to change a store

Most changes add one thing to one arena or modify the fields of one thing, and leave the other
arenas alone. Changes that can fail are opened first by saying what they do if they succeed. -/

/-- A new scope, around which there may be any scopes. -/
theorem grows_newScope (store : Store) (enclosing : List ScopeId) (bindings : Table Value) :
    Grows store (store.newScope enclosing bindings).2 :=
  { Grows.refl store with scopes := Arena.extends_push Scope.Kept.refl _ _ }

theorem grows_newFunction (store : Store) (decl : FunctionDecl) (closure : ScopeId) :
    Grows store (store.newFunction decl closure).2 :=
  { Grows.refl store with functions := Arena.extends_push UserFunction.Kept.refl _ _ }

/-- The functions of a row of declarations, one after the other. -/
theorem grows_newFunctions (closure : ScopeId) (decls : List FunctionDecl) (store : Store) :
    Grows store (store.newFunctions closure decls).2 := by
  induction decls generalizing store with
  | nil => exact Grows.refl store
  | cons decl rest ih => exact (grows_newFunction store decl closure).trans (ih _)

theorem grows_newBoundMethod (store : Store) (method : FunctionId) (receiver : InstanceId)
    (declaringClass : ClassId) :
    Grows store (store.newBoundMethod method receiver declaringClass).2 :=
  { Grows.refl store with boundMethods := Arena.extends_push BoundMethod.Kept.refl _ _ }

theorem grows_newClass (store : Store) (name : String) (ancestors : List ClassId)
    (methods : Table FunctionId) : Grows store (store.newClass name ancestors methods).2 :=
  { Grows.refl store with classes := Arena.extends_push Class.Kept.refl _ _ }

theorem grows_newInstance (store : Store) (ofClass : ClassId) :
    Grows store (store.newInstance ofClass).2 :=
  { Grows.refl store with instances := Arena.extends_push Instance.Kept.refl _ _ }

/-- A value under a name, be it new or not, unless it is one of the reserved names. -/
theorem grows_bind (store : Store) (scope : ScopeId) {name : String} (value : Value)
    (hname : name ∉ reservedNames) : Grows store (store.bind scope name value) := by
  refine { Grows.refl store with scopes := Arena.extends_modify Scope.Kept.refl _ _ _ ?_ }
  constructor
  · rfl
  · intro other hother
    show Table.contains (Table.set _ name value) other = true
    rw [Table.contains_set, hother, Bool.or_true]
  · intro other hother
    refine Table.get?_set_of_ne _ _ ?_
    rintro rfl
    exact hname hother

/-- A name is declared where it is new, and bound there. -/
theorem define_eq_ok {store store' : Store} {scope : ScopeId} {name : String} {value : Value} :
    store.define scope name value = .ok store' ↔
      store.declares scope name = false ∧ store' = store.bind scope name value := by
  unfold define
  cases store.declares scope name with
  | true => simp
  | false => simp [eq_comm]

/-- A name is assigned where it is found, and bound there. -/
theorem assign_eq_ok {store store' : Store} {scope : ScopeId} {name : String} {value : Value} :
    store.assign scope name value = .ok store' ↔
      ∃ owner, store.owner? scope name = some owner ∧ store' = store.bind owner name value := by
  unfold assign
  cases store.owner? scope name with
  | none => simp
  | some owner => simp [eq_comm]

/-- A property is set by changing the fields of an instance, of a class or of a function. -/
theorem setProperty_eq_ok {store store' : Store} {object value : Value} {name : String} :
    store.setProperty object name value = .ok store' ↔
      (∃ id, object = .instanceRef id ∧
        store' = { store with instances := store.instances.modify id.index fun x =>
          { x with fields := x.fields.set name value } }) ∨
      (∃ id, object = .classRef id ∧
        store' = { store with classes := store.classes.modify id.index fun x =>
          { x with fields := x.fields.set name value } }) ∨
      ∃ ref, object = .function ref ∧
        store' = store.modifyFunctionFields ref fun fields => fields.set name value := by
  cases object <;> simp [setProperty, eq_comm]

theorem grows_define {store store' : Store} {scope : ScopeId} {name : String} {value : Value}
    (hname : name ∉ reservedNames) (h : store.define scope name value = .ok store') :
    Grows store store' := by
  obtain ⟨-, rfl⟩ := define_eq_ok.mp h
  exact grows_bind store scope value hname

theorem grows_assign {store store' : Store} {scope : ScopeId} {name : String} {value : Value}
    (hname : name ∉ reservedNames) (h : store.assign scope name value = .ok store') :
    Grows store store' := by
  obtain ⟨owner, -, rfl⟩ := assign_eq_ok.mp h
  exact grows_bind store owner value hname

theorem grows_modifyFunctionFields (store : Store) (ref : FunctionRef) (f : Fields → Fields) :
    Grows store (store.modifyFunctionFields ref f) := by
  cases ref with
  | user id =>
    exact { Grows.refl store with
      functions := Arena.extends_modify UserFunction.Kept.refl _ _ _ ⟨rfl, rfl⟩ }
  | native => exact { Grows.refl store with }
  | bound id =>
    exact { Grows.refl store with
      boundMethods := Arena.extends_modify BoundMethod.Kept.refl _ _ _ ⟨rfl, rfl, rfl⟩ }

theorem grows_setProperty {store store' : Store} {object value : Value} {name : String}
    (h : store.setProperty object name value = .ok store') : Grows store store' := by
  rcases setProperty_eq_ok.mp h with ⟨id, -, rfl⟩ | ⟨id, -, rfl⟩ | ⟨ref, -, rfl⟩
  · exact { Grows.refl store with instances := Arena.extends_modify Instance.Kept.refl _ _ _ rfl }
  · exact { Grows.refl store with
      classes := Arena.extends_modify Class.Kept.refl _ _ _ ⟨rfl, rfl⟩ }
  · exact grows_modifyFunctionFields store ref _

theorem grows_bindMethod (store : Store) (resolution : MethodResolution) (receiver : InstanceId) :
    Grows store (store.bindMethod resolution receiver).2 :=
  grows_newBoundMethod store _ _ _

/-- Reading a property leaves the store as it is, unless a method is read of an instance, which is
bound to it. -/
theorem property_cases (store : Store) (object : Value) (name : String) :
    (store.property object name).2 = store ∨
      ∃ resolution receiver, (store.property object name).2 =
        (store.bindMethod resolution receiver).2 := by
  cases object with
  | instanceRef id =>
    show (store.instanceProperty id name).2 = store ∨
      ∃ resolution receiver, (store.instanceProperty id name).2 = _
    unfold instanceProperty
    split
    · exact .inl rfl
    · split
      · next resolution _ => exact .inr ⟨resolution, id, rfl⟩
      · exact .inl rfl
  | _ => exact .inl rfl

/-- Reading a property, which may bind a method. -/
theorem grows_property (store : Store) (object : Value) (name : String) :
    Grows store (store.property object name).2 := by
  rcases store.property_cases object name with hsame | ⟨resolution, receiver, hbound⟩
  · rw [hsame]
    exact Grows.refl store
  · rw [hbound]
    exact grows_bindMethod store resolution receiver

end Store

end Script
