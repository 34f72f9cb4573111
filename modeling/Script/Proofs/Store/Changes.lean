import Script.Proofs.Store.Consistent

/-!
# Every change keeps a store consistent

One lemma for each way in which the evaluator changes a store or takes a value out of it. What is
put into the store has to be valid, and what is taken out of a consistent store is.
-/

namespace Script

namespace Store

variable {Known : FunctionDecl → Prop} {store store' : Store}

/-! ## The initial store

The store that every run begins with has one scope and one class, and these are the two that nothing
is ahead of. -/

/-- The names of the global scope stand for native functions and the root class. -/
theorem holds_globalBindings : (Table.ofList globalBindings).Holds initial.Valid := by
  refine Table.holds_ofList ?_
  intro entry hentry
  rcases List.mem_cons.mp hentry with rfl | hentry
  · trivial
  rcases List.mem_cons.mp hentry with rfl | hentry
  · trivial
  obtain rfl := List.mem_singleton.mp hentry
  exact Nat.zero_lt_one

/-- The initial store is consistent, whatever functions may be declared as. -/
theorem consistent_initial : initial.Consistent Known where
  scopes := fun i hi => by
    obtain rfl : i = 0 := Nat.lt_one_iff.mp hi
    exact ⟨.inl ⟨rfl, rfl⟩, holds_globalBindings⟩
  functions := fun i hi => absurd hi (Nat.not_lt_zero i)
  boundMethods := fun i hi => absurd hi (Nat.not_lt_zero i)
  classes := fun i hi => by
    obtain rfl : i = 0 := Nat.lt_one_iff.mp hi
    exact ⟨.inl ⟨rfl, rfl, rfl⟩, Table.holds_empty _, Table.holds_empty _⟩
  instances := fun i hi => absurd hi (Nat.not_lt_zero i)
  natives := fun native => by cases native <;> exact Table.holds_empty _
  globalScope := Nat.zero_lt_one
  rootClass := Nat.zero_lt_one

/-! ## Scopes

All these lemmas have the same form. The change makes the store grow, so that the things it leaves
alone are handed to `Consistent.of_grows` as they were; for the arena that has changed, a thing is
either old or the new one. -/

/-- The fields of native functions, by a change that leaves them alone. -/
theorem holds_natives (h : store.Consistent Known) (hgrows : Grows store store')
    (heq : store'.nativeFields = store.nativeFields) (native : Native) :
    (store'.nativeFields.get native).Holds store'.Valid := by
  rw [heq]
  exact holds_valid_mono hgrows (h.natives native)

/-- A new scope in a scope that is there, with valid values. -/
theorem Consistent.newChild (h : store.Consistent Known) {parent : ScopeId}
    {bindings : Table Value} (hparent : parent.index < store.scopes.size)
    (hvalues : bindings.Holds store.Valid) :
    (store.newChild parent bindings).2.Consistent Known := by
  have hgrows : Grows store (store.newChild parent bindings).2 := grows_newScope ..
  refine h.of_grows hgrows ?_ (fun i hi => .inl ⟨hi, rfl⟩) (fun i hi => .inl ⟨hi, rfl⟩)
    (fun i hi => .inl ⟨hi, rfl⟩) (fun i hi => .inl ⟨hi, rfl⟩) (holds_natives h hgrows rfl)
  intro i hi
  rcases Arena.get_push_cases _ _ hi with hold | ⟨rfl, hnew⟩
  · exact .inl hold
  · refine .inr ?_
    rw [show ((store.newChild parent bindings).2.scopes.get store.scopes.size) = _ from hnew]
    -- The scopes around the new one are the parent and those around it, as the definition asks.
    exact ⟨.inr ⟨parent, hparent, (hgrows.chain hparent).symm⟩, holds_valid_mono hgrows hvalues⟩

/-- A valid value under a name of a scope. The two reserved names are left out: what they stand for
says more than that the value is valid. -/
theorem Consistent.bind (h : store.Consistent Known) {scope : ScopeId} {name : String}
    {value : Value} (hname : name ∉ reservedNames) (hvalue : store.Valid value) :
    (store.bind scope name value).Consistent Known := by
  have hgrows : Grows store (store.bind scope name value) := grows_bind store scope value hname
  refine h.of_grows hgrows ?_ (fun i hi => .inl ⟨hi, rfl⟩) (fun i hi => .inl ⟨hi, rfl⟩)
    (fun i hi => .inl ⟨hi, rfl⟩) (fun i hi => .inl ⟨hi, rfl⟩) (holds_natives h hgrows rfl)
  intro i hi
  have hlt : i < store.scopes.size := by
    rwa [show (store.bind scope name value).scopes.size = _ from Arena.size_modify ..] at hi
  rcases Arena.get_modify_cases _ _ _ hi with hold | ⟨-, hnew⟩
  · exact .inl ⟨hlt, hold⟩
  · refine .inr ?_
    rw [show (store.bind scope name value).scopes.get i = _ from hnew]
    have hscope := (h.scopes i hlt).mono hgrows hlt
    exact ⟨hscope.enclosing, hscope.values.set (hvalue.mono hgrows)⟩

/-- What is looked up is valid, because the scopes on the way are there. -/
theorem Consistent.lookup_valid (h : store.Consistent Known) {scope : ScopeId}
    (hscope : scope.index < store.scopes.size) {name : String} {value : Value}
    (hlookup : store.lookup scope name = .ok value) : store.Valid value := by
  unfold Store.lookup at hlookup
  split at hlookup
  · next found hfound =>
    obtain rfl := Except.ok.inj hlookup
    obtain ⟨id, hmem, hid⟩ := List.exists_of_findSome?_eq_some hfound
    have hlt := Nat.lt_of_le_of_lt (h.chain_lt hscope hmem) hscope
    exact (h.scopes id.index hlt).values name found hid
  · cases hlookup

/-! ## Functions and methods

A function remembers the scope that it was declared in, and a bound method a receiver and a class.
Both have to be there when the function or the method is made, and cannot go away later. -/

/-- A new function of a known declaration, in a scope that is there. -/
theorem Consistent.newFunction (h : store.Consistent Known) {decl : FunctionDecl}
    {closure : ScopeId} (hknown : Known decl) (hclosure : closure.index < store.scopes.size) :
    (store.newFunction decl closure).2.Consistent Known := by
  have hgrows : Grows store (store.newFunction decl closure).2 := grows_newFunction ..
  refine h.of_grows hgrows (fun i hi => .inl ⟨hi, rfl⟩) ?_ (fun i hi => .inl ⟨hi, rfl⟩)
    (fun i hi => .inl ⟨hi, rfl⟩) (fun i hi => .inl ⟨hi, rfl⟩) (holds_natives h hgrows rfl)
  intro i hi
  rcases Arena.get_push_cases _ _ hi with hold | ⟨rfl, hnew⟩
  · exact .inl hold
  · refine .inr ?_
    rw [show ((store.newFunction decl closure).2.functions.get store.functions.size) = _ from hnew]
    exact ⟨hknown, hclosure, Table.holds_empty _⟩

/-- The functions for a row of declarations, and what they are declared as. -/
theorem Consistent.newFunctions (h : store.Consistent Known) {closure : ScopeId}
    {decls : List FunctionDecl} (hknown : ∀ decl ∈ decls, Known decl)
    (hclosure : closure.index < store.scopes.size) :
    (store.newFunctions closure decls).2.Consistent Known ∧
      ∀ entry ∈ (store.newFunctions closure decls).1,
        store.functions.size ≤ entry.2.index ∧
        entry.2.index < (store.newFunctions closure decls).2.functions.size := by
  induction decls generalizing store with
  | nil => exact ⟨h, fun _ hentry => nomatch hentry⟩
  | cons decl rest ih =>
    -- The rest is made in the store that has the first function already.
    have hfirst := h.newFunction (hknown decl (.head _)) hclosure
    obtain ⟨hrest, hids⟩ := ih hfirst (fun d hd => hknown d (.tail _ hd)) hclosure
    refine ⟨hrest, ?_⟩
    have hsize : (store.newFunction decl closure).2.functions.size = store.functions.size + 1 :=
      Arena.size_push ..
    have hgrows := grows_newFunctions closure rest (store.newFunction decl closure).2
    intro entry hentry
    rcases List.mem_cons.mp hentry with rfl | hentry
    · refine ⟨Nat.le_refl _, Nat.lt_of_lt_of_le ?_ hgrows.functions.size⟩
      rw [hsize]
      exact Nat.lt_succ_self _
    · obtain ⟨hle, hlt⟩ := hids entry hentry
      exact ⟨by omega, hlt⟩

/-- A new bound method, if the method may be called on the receiver. -/
theorem Consistent.newBoundMethod (h : store.Consistent Known) {method : FunctionId}
    {receiver : InstanceId} {declaringClass : ClassId}
    (hdispatches : store.Dispatches method receiver declaringClass) :
    (store.newBoundMethod method receiver declaringClass).2.Consistent Known := by
  have hgrows : Grows store (store.newBoundMethod method receiver declaringClass).2 :=
    grows_newBoundMethod ..
  refine h.of_grows hgrows (fun i hi => .inl ⟨hi, rfl⟩) (fun i hi => .inl ⟨hi, rfl⟩) ?_
    (fun i hi => .inl ⟨hi, rfl⟩) (fun i hi => .inl ⟨hi, rfl⟩) (holds_natives h hgrows rfl)
  intro i hi
  rcases Arena.get_push_cases _ _ hi with hold | ⟨rfl, hnew⟩
  · exact .inl hold
  · refine .inr ?_
    rw [show ((store.newBoundMethod method receiver declaringClass).2.boundMethods.get
      store.boundMethods.size) = _ from hnew]
    exact ⟨hdispatches.mono h hgrows, Table.holds_empty _⟩

/-- A method that is found from a class of the receiver's lineage upward may be bound to it. -/
theorem Consistent.dispatches_of_method? (h : store.Consistent Known) {receiver : InstanceId}
    {start : ClassId} {name : String} {resolution : MethodResolution}
    (hreceiver : receiver.index < store.instances.size)
    (hstart : start ∈ store.lineage (store.instanceOf receiver).ofClass)
    (hfound : store.method? start name = some resolution) :
    store.Dispatches resolution.method receiver resolution.declaringClass := by
  obtain ⟨hmem, hmethod⟩ := method?_eq_some hfound
  exact ⟨hreceiver, h.lineage_trans (h.receiver_class hreceiver) hstart hmem, name, hmethod⟩

/-- Binding what a search has found gives a valid value. -/
theorem Consistent.bindMethod (h : store.Consistent Known) {receiver : InstanceId}
    {start : ClassId} {name : String} {resolution : MethodResolution}
    (hreceiver : receiver.index < store.instances.size)
    (hstart : start ∈ store.lineage (store.instanceOf receiver).ofClass)
    (hfound : store.method? start name = some resolution) :
    (store.bindMethod resolution receiver).2.Consistent Known ∧
      (store.bindMethod resolution receiver).2.Valid (store.bindMethod resolution receiver).1 := by
  refine ⟨h.newBoundMethod (h.dispatches_of_method? hreceiver hstart hfound), ?_⟩
  show store.boundMethods.size < (Arena.push store.boundMethods _).size
  rw [Arena.size_push]
  exact Nat.lt_succ_self _

/-! ## Classes and instances

A new class has its superclass and the ancestors of that one, all of them older than itself. A new
instance has no fields. -/

/-- A new class below a class that is there, with methods that are. -/
theorem Consistent.declareClass (h : store.Consistent Known) {name : String} {parent : ClassId}
    {methods : List (String × FunctionId)} (hparent : parent.index < store.classes.size)
    (hmethods : ∀ entry ∈ methods, entry.2.index < store.functions.size) :
    (store.declareClass name (some parent) methods).2.Consistent Known := by
  have hgrows : Grows store (store.declareClass name (some parent) methods).2 := grows_newClass ..
  refine h.of_grows hgrows (fun i hi => .inl ⟨hi, rfl⟩) (fun i hi => .inl ⟨hi, rfl⟩)
    (fun i hi => .inl ⟨hi, rfl⟩) ?_ (fun i hi => .inl ⟨hi, rfl⟩) (holds_natives h hgrows rfl)
  intro i hi
  rcases Arena.get_push_cases _ _ hi with hold | ⟨rfl, hnew⟩
  · exact .inl hold
  · refine .inr ?_
    rw [show ((store.declareClass name (some parent) methods).2.classes.get
      store.classes.size) = _ from hnew]
    exact ⟨.inr ⟨parent, hparent, (hgrows.lineage hparent).symm⟩, Table.holds_ofList hmethods,
      Table.holds_empty _⟩

/-- A new instance of a class that is there. -/
theorem Consistent.newInstance (h : store.Consistent Known) {ofClass : ClassId}
    (hclass : ofClass.index < store.classes.size) :
    (store.newInstance ofClass).2.Consistent Known := by
  have hgrows : Grows store (store.newInstance ofClass).2 := grows_newInstance ..
  refine h.of_grows hgrows (fun i hi => .inl ⟨hi, rfl⟩) (fun i hi => .inl ⟨hi, rfl⟩)
    (fun i hi => .inl ⟨hi, rfl⟩) (fun i hi => .inl ⟨hi, rfl⟩) ?_ (holds_natives h hgrows rfl)
  intro i hi
  rcases Arena.get_push_cases _ _ hi with hold | ⟨rfl, hnew⟩
  · exact .inl hold
  · refine .inr ?_
    rw [show ((store.newInstance ofClass).2.instances.get store.instances.size) = _ from hnew]
    exact ⟨hclass, Table.holds_empty _⟩

/-! ## Properties

Fields may be set on functions, classes and instances. A field holds any valid value; nothing else
about the thing changes. -/

/-- A field of a function, which may be declared, native or bound. -/
theorem Consistent.modifyFunctionFields (h : store.Consistent Known) (ref : FunctionRef)
    {name : String} {value : Value} (hvalue : store.Valid value) :
    (store.modifyFunctionFields ref fun fields => fields.set name value).Consistent Known := by
  have hgrows := grows_modifyFunctionFields store ref fun fields => fields.set name value
  cases ref with
  | user id =>
    refine h.of_grows hgrows (fun i hi => .inl ⟨hi, rfl⟩) ?_ (fun i hi => .inl ⟨hi, rfl⟩)
      (fun i hi => .inl ⟨hi, rfl⟩) (fun i hi => .inl ⟨hi, rfl⟩) (holds_natives h hgrows rfl)
    intro i hi
    have hlt : i < store.functions.size := by rwa [← Arena.size_modify store.functions]
    rcases Arena.get_modify_cases _ _ _ hi with hold | ⟨-, hnew⟩
    · exact .inl ⟨hlt, hold⟩
    · refine .inr ?_
      have hfunction := (h.functions i hlt).mono hgrows
      refine Eq.mpr (congrArg _ hnew) ?_
      exact ⟨hfunction.known, hfunction.closure, hfunction.fields.set (hvalue.mono hgrows)⟩
  | native native =>
    refine h.of_grows hgrows (fun i hi => .inl ⟨hi, rfl⟩) (fun i hi => .inl ⟨hi, rfl⟩)
      (fun i hi => .inl ⟨hi, rfl⟩) (fun i hi => .inl ⟨hi, rfl⟩) (fun i hi => .inl ⟨hi, rfl⟩) ?_
    intro other
    have hfields := fun native => holds_valid_mono hgrows (h.natives native)
    have hvalue := hvalue.mono hgrows
    -- There are two native functions, each with fields of its own.
    cases native <;> cases other
    · exact (hfields .clock).set hvalue
    · exact hfields .toString
    · exact hfields .clock
    · exact (hfields .toString).set hvalue
  | bound id =>
    refine h.of_grows hgrows (fun i hi => .inl ⟨hi, rfl⟩) (fun i hi => .inl ⟨hi, rfl⟩) ?_
      (fun i hi => .inl ⟨hi, rfl⟩) (fun i hi => .inl ⟨hi, rfl⟩) (holds_natives h hgrows rfl)
    intro i hi
    have hlt : i < store.boundMethods.size := by rwa [← Arena.size_modify store.boundMethods]
    rcases Arena.get_modify_cases _ _ _ hi with hold | ⟨-, hnew⟩
    · exact .inl ⟨hlt, hold⟩
    · refine .inr ?_
      have hbound := (h.boundMethods i hlt).mono h hgrows
      refine Eq.mpr (congrArg _ hnew) ?_
      exact ⟨hbound.dispatches, hbound.fields.set (hvalue.mono hgrows)⟩

/-- Setting a property keeps the store consistent, if it succeeds. One entry changes in one of three
arenas, by its fields only, and the value that it now holds is valid. -/
theorem Consistent.setProperty (h : store.Consistent Known) {object value : Value} {name : String}
    (hvalue : store.Valid value) (hset : store.setProperty object name value = .ok store') :
    store'.Consistent Known := by
  have hgrows := grows_setProperty hset
  rcases setProperty_eq_ok.mp hset with ⟨id, -, rfl⟩ | ⟨id, -, rfl⟩ | ⟨ref, -, rfl⟩
  · refine h.of_grows hgrows (fun i hi => .inl ⟨hi, rfl⟩) (fun i hi => .inl ⟨hi, rfl⟩)
      (fun i hi => .inl ⟨hi, rfl⟩) (fun i hi => .inl ⟨hi, rfl⟩) ?_ (holds_natives h hgrows rfl)
    intro i hi
    have hlt : i < store.instances.size := by rwa [← Arena.size_modify store.instances]
    -- Each entry is the one that was there, or the one with the new field.
    rcases Arena.get_modify_cases _ _ _ hi with hold | ⟨-, hnew⟩
    · exact .inl ⟨hlt, hold⟩
    · refine .inr ?_
      have hinstance := (h.instances i hlt).mono hgrows
      rw [show Arena.get _ i = _ from hnew]
      exact ⟨hinstance.ofClass, hinstance.fields.set (hvalue.mono hgrows)⟩
  · refine h.of_grows hgrows (fun i hi => .inl ⟨hi, rfl⟩) (fun i hi => .inl ⟨hi, rfl⟩)
      (fun i hi => .inl ⟨hi, rfl⟩) ?_ (fun i hi => .inl ⟨hi, rfl⟩) (holds_natives h hgrows rfl)
    intro i hi
    have hlt : i < store.classes.size := by rwa [← Arena.size_modify store.classes]
    rcases Arena.get_modify_cases _ _ _ hi with hold | ⟨-, hnew⟩
    · exact .inl ⟨hlt, hold⟩
    · refine .inr ?_
      have hclass := (h.classes i hlt).mono hgrows hlt
      rw [show Arena.get _ i = _ from hnew]
      exact ⟨hclass.ancestors, hclass.methods, hclass.fields.set (hvalue.mono hgrows)⟩
  · exact h.modifyFunctionFields _ hvalue

/-- The fields of a function hold valid values. -/
theorem Consistent.functionFields (h : store.Consistent Known) {ref : FunctionRef}
    (href : store.Valid (.function ref)) : (store.functionFields ref).Holds store.Valid := by
  cases ref with
  | user id => exact (h.functions id.index href).fields
  | native native => exact h.natives native
  | bound id => exact (h.boundMethods id.index href).fields

/-- A property of a class is a field or a method, which is read as a function. -/
theorem Consistent.classProperty_valid (h : store.Consistent Known) {id : ClassId}
    (hid : id.index < store.classes.size) (name : String) :
    store.Valid (store.classProperty id name) := by
  unfold Store.classProperty
  split
  · next value hvalue => exact (h.classes id.index hid).fields name value hvalue
  · split
    · next resolution hfound =>
      obtain ⟨hmem, hmethod⟩ := method?_eq_some hfound
      exact h.method_lt (h.lineage_lt hid hmem) ⟨name, hmethod⟩
    · trivial

/-- Reading a property keeps the store consistent and yields a valid value. -/
theorem Consistent.property (h : store.Consistent Known) {object : Value}
    (hobject : store.Valid object) (name : String) :
    (store.property object name).2.Consistent Known ∧
      (store.property object name).2.Valid (store.property object name).1 := by
  cases object with
  | instanceRef id =>
    show (store.instanceProperty id name).2.Consistent Known ∧
      (store.instanceProperty id name).2.Valid (store.instanceProperty id name).1
    unfold Store.instanceProperty
    split
    · next value hvalue => exact ⟨h, (h.instances id.index hobject).fields name value hvalue⟩
    · split
      · -- No field of this name: a method that is found is bound to the instance.
        next resolution hfound => exact h.bindMethod hobject (.head _) hfound
      · exact ⟨h, trivial⟩
  | classRef id => exact ⟨h, h.classProperty_valid hobject name⟩
  | function ref =>
    refine ⟨h, ?_⟩
    show store.Valid (((store.functionFields ref).get? name).getD .nil)
    cases hfound : (store.functionFields ref).get? name with
    | none => trivial
    | some value => exact h.functionFields hobject name value hfound
  | _ => exact ⟨h, trivial⟩

end Store

end Script
