import Script.Proofs.Grammar.Recasting
import Script.Proofs.Scoping.Definitions
import Script.Proofs.Session.Mask

/-!
# Stores under other names

A *disguise* is a mask that changes names as well: those in the trees of functions, and those under
which scopes, objects and classes hold what they hold. The names that the evaluator itself uses
(`ownNames`) are not changed.

Every way to look at a store, and every way to change it, finds in the disguised store under the
new name what it finds in the store itself under the old one. Only texts that show names could tell
the two apart, so the disguise has to leave the names of functions and classes as they are
(`Disguise.Suits`).
-/

namespace Script

/-! ## Tables

An injective map keeps names apart, so a table under the new names finds, replaces and adds as the
table itself does. -/

namespace Table

variable {α : Type} {f : String → String}

/-- The table with other names, in the same order and with the same values. -/
def rename (f : String → String) (table : Table α) : Table α :=
  ⟨table.entries.map (Prod.map f id)⟩

/-- What is found under the new name is what is found under the old one. -/
theorem findIn_rename (hf : f.Injective) (name : String) (entries : List (String × α)) :
    findIn (f name) (entries.map (Prod.map f id)) = findIn name entries := by
  induction entries with
  | nil => rfl
  | cons entry rest ih =>
    obtain ⟨key, value⟩ := entry
    rw [List.map_cons, Prod.map_apply, findIn, findIn, ih]
    simp only [hf.eq_iff, id]

/-- A value is found under its new name. -/
theorem get?_rename (hf : f.Injective) (table : Table α) (name : String) :
    (table.rename f).get? (f name) = table.get? name := findIn_rename hf name table.entries

/-- A name is bound under its new form exactly if it was bound before. -/
theorem contains_rename (hf : f.Injective) (table : Table α) (name : String) :
    (table.rename f).contains (f name) = table.contains name := by
  rw [contains, get?_rename hf, contains]

/-- The same entry is replaced, or both names are added at the end. -/
theorem setIn_rename (hf : f.Injective) (name : String) (value : α)
    (entries : List (String × α)) :
    setIn (f name) value (entries.map (Prod.map f id)) =
      (setIn name value entries).map (Prod.map f id) := by
  induction entries with
  | nil => rfl
  | cons entry rest ih =>
    obtain ⟨key, old⟩ := entry
    rw [List.map_cons, Prod.map_apply, setIn, setIn, ih]
    simp only [hf.eq_iff]
    split <;> rfl

/-- A value may be set before or after the names are changed. -/
theorem set_rename (hf : f.Injective) (table : Table α) (name : String) (value : α) :
    (table.rename f).set (f name) value = (table.set name value).rename f :=
  congrArg Table.mk (setIn_rename hf name value table.entries)

/-- A table may be made before or after the names are changed. -/
theorem ofList_rename (hf : f.Injective) (entries : List (String × α)) :
    ofList (entries.map (Prod.map f id)) = (ofList entries).rename f := by
  -- The entries are set one by one, from any table on.
  have hfoldl : ∀ table : Table α,
      (entries.map (Prod.map f id)).foldl (fun table entry => table.set entry.1 entry.2)
          (table.rename f) =
        (entries.foldl (fun table entry => table.set entry.1 entry.2) table).rename f := by
    induction entries with
    | nil => exact fun table => rfl
    | cons entry rest ih =>
      intro table
      rw [List.map_cons, List.foldl_cons, List.foldl_cons, ← ih, ← set_rename hf]
      rfl
  exact hfoldl empty

/-- The first name that is there twice is so under both names. -/
theorem addDistinct_rename (hf : f.Injective) (table : Table α) (entries : List (String × α)) :
    (table.rename f).addDistinct (entries.map (Prod.map f id)) =
      ((table.addDistinct entries).map (rename f)).mapError f := by
  induction entries generalizing table with
  | nil => rfl
  | cons entry rest ih =>
    obtain ⟨name, value⟩ := entry
    rw [List.map_cons, Prod.map_apply, addDistinct, addDistinct, contains_rename hf]
    split
    · rfl
    · rw [id, set_rename hf, ih]

/-- Names that are left as they are change nothing. -/
theorem rename_id (table : Table α) : table.rename id = table := by
  show Table.mk _ = _
  rw [Prod.map_id, List.map_id]

end Table

/-! ## Errors

Three of the errors carry a name of the program. Everything else in a message is the evaluator's
own. -/

/-- The error with another name, if it carries one. -/
def RuntimeError.rename (f : String → String) : RuntimeError → RuntimeError
  | .redeclaredVariable name => .redeclaredVariable (f name)
  | .undefinedVariable name => .undefinedVariable (f name)
  | .notAClass name => .notAClass (f name)
  | other => other

/-- The interrupt with another name, if it carries one. -/
def Interrupt.rename (f : String → String) : Interrupt → Interrupt
  | .error e => .error (e.rename f)
  | other => other

/-- Names that are left as they are change no interrupt. -/
theorem Interrupt.rename_id (interrupt : Interrupt) : interrupt.rename id = interrupt := by
  cases interrupt with
  | error e => cases e <;> rfl
  | _ => rfl

/-! ## Disguises

A disguise is applied to a store part by part. References are indices, so they stay what they are,
and so do values, which hold references and no names. -/

/-- The names that the evaluator uses without having read them in a program. The empty one is that
of the default function and of the default class. -/
def ownNames : List String :=
  [thisName, superName, constructorName, Native.clock.name, Native.toString.name,
    Store.rootClassName, ""]

/-- A change of the names of variables, parameters, properties and methods, besides what a mask
changes. -/
structure Disguise extends Mask where
  name : String → String
  injective : name.Injective
  own : ∀ special ∈ ownNames, name special = special

namespace Disguise

variable (d : Disguise)

/-- What becomes of trees: new names for identifiers, and other places. -/
def recast : Recast := ⟨d.name, d.move⟩

/-- A scope, with other names for its variables. -/
def scope (scope : Scope) : Scope := ⟨scope.enclosing, scope.bindings.rename d.name⟩

/-- A function, with other names in its tree and for its fields. -/
def function (f : UserFunction) : UserFunction :=
  ⟨f.decl.recast d.recast, f.closure, f.fields.rename d.name⟩

/-- A bound method, with other names for its fields. -/
def boundMethod (m : BoundMethod) : BoundMethod :=
  ⟨m.method, m.receiver, m.declaringClass, m.fields.rename d.name⟩

/-- A class under another name, with other names for its methods and fields. -/
def classOf (c : Class) : Class :=
  ⟨d.name c.name, c.ancestors, c.methods.rename d.name, c.fields.rename d.name⟩

/-- An object, with other names for its fields. -/
def instanceOf (i : Instance) : Instance := ⟨i.ofClass, i.fields.rename d.name⟩

/-- The store under the new names. References stay as they are, so that values mean the same things
in both stores. -/
def store (store : Store) : Store where
  scopes := store.scopes.map d.scope
  functions := store.functions.map d.function
  boundMethods := store.boundMethods.map d.boundMethod
  classes := store.classes.map d.classOf
  instances := store.instances.map d.instanceOf
  nativeFields :=
    ⟨store.nativeFields.clock.rename d.name, store.nativeFields.toString.rename d.name⟩

/-- The state under the new names. Its output is the same but for what the disguise hides, and its
clock is the same. -/
def state (s : State) : State := ⟨d.store s.store, d.sink s.output, s.clock⟩

/-- The outcome of the corresponding evaluation. An error that carries a name carries the new
one. -/
def outcome {α β : Type} (f : α → β) :
    EStateM.Result Interrupt State α → EStateM.Result Interrupt State β
  | .ok a s => .ok (f a) (d.state s)
  | .error interrupt s => .error (interrupt.rename d.name) (d.state s)

/-! ## Looking at the store

What an index is out of range of is the default, so that has to stay what it is: hence the empty
name and the place at the origin. -/

section

variable (store : Store)

theorem scope_default : d.scope default = default := rfl

/-- A scope of the disguised store is a scope disguised. -/
theorem store_scope (id : ScopeId) : (d.store store).scope id = d.scope (store.scope id) :=
  Arena.get_map d.scope_default ..

/-- The default function has the empty name, which stays. -/
theorem function_default : d.function default = default := by
  have hname : (Token.anonymous).rename d.recast = .anonymous := by
    show Token.mk .identifier (d.name "") none (d.move .origin) = _
    rw [d.own _ (by decide), d.move_origin]
    rfl
  show UserFunction.mk (FunctionDecl.recast _ ⟨.anonymous, [], []⟩) _ _ = _
  rw [FunctionDecl.recast, hname]
  rfl

/-- A function of the disguised store is a function disguised. -/
theorem store_function (id : FunctionId) :
    (d.store store).function id = d.function (store.function id) :=
  Arena.get_map d.function_default ..

/-- The default bound method has no names. -/
theorem boundMethod_default : d.boundMethod default = default := rfl

/-- A bound method of the disguised store is a bound method disguised. -/
theorem store_boundMethod (id : BoundMethodId) :
    (d.store store).boundMethod id = d.boundMethod (store.boundMethod id) :=
  Arena.get_map d.boundMethod_default ..

/-- The default class has the empty name, which stays. -/
theorem classOf_default : d.classOf default = default := by
  show Class.mk (d.name "") [] .empty .empty = _
  rw [d.own _ (by decide)]
  rfl

/-- A class of the disguised store is a class disguised. -/
theorem store_classOf (id : ClassId) : (d.store store).classOf id = d.classOf (store.classOf id) :=
  Arena.get_map d.classOf_default ..

theorem instanceOf_default : d.instanceOf default = default := rfl

/-- An object of the disguised store is an object disguised. -/
theorem store_instanceOf (id : InstanceId) :
    (d.store store).instanceOf id = d.instanceOf (store.instanceOf id) :=
  Arena.get_map d.instanceOf_default ..

/-- A scope binds the new names, each to the value of the old one. -/
theorem store_bindings (id : ScopeId) :
    (d.store store).bindings id = (store.bindings id).rename d.name := by
  rw [Store.bindings, store_scope]
  rfl

/-- A scope has the same scopes around it. -/
theorem store_chain (id : ScopeId) : (d.store store).chain id = store.chain id := by
  rw [Store.chain, store_scope]
  rfl

/-- A scope declares the new name if it declares the old one. -/
theorem store_declares (id : ScopeId) (name : String) :
    (d.store store).declares id (d.name name) = store.declares id name := by
  rw [Store.declares, store_bindings, Table.contains_rename d.injective]
  rfl

/-- The scope that holds a variable is the same. -/
theorem store_owner? (id : ScopeId) (name : String) :
    (d.store store).owner? id (d.name name) = store.owner? id name := by
  unfold Store.owner?
  simp only [store_chain, store_declares]

/-- A variable is found under its new name, or missing under it. -/
theorem store_lookup (id : ScopeId) (name : String) :
    (d.store store).lookup id (d.name name) =
      (store.lookup id name).mapError (RuntimeError.rename d.name) := by
  unfold Store.lookup
  simp only [store_chain, store_bindings, Table.get?_rename d.injective]
  cases (store.chain id).findSome? fun s => (store.bindings s).get? name <;> rfl

/-- A class has the same ancestors, since these are references. -/
theorem store_lineage (id : ClassId) : (d.store store).lineage id = store.lineage id := by
  rw [Store.lineage, store_classOf]
  rfl

theorem store_superclass? (id : ClassId) :
    (d.store store).superclass? id = store.superclass? id := by
  rw [Store.superclass?, store_classOf]
  rfl

/-- A method is found under its new name in the same class. -/
theorem store_method? (start : ClassId) (name : String) :
    (d.store store).method? start (d.name name) = store.method? start name := by
  -- In each class of the lineage the same method is found, if any.
  have hown : ∀ id, (d.store store).ownMethod? id (d.name name) = store.ownMethod? id name := by
    intro id
    rw [Store.ownMethod?, store_classOf]
    exact Table.get?_rename d.injective ..
  unfold Store.method?
  simp only [store_lineage, hown]

/-- The parameters of a function have new names. -/
theorem function_params (f : UserFunction) :
    (d.function f).decl.params = f.decl.params.map (Token.rename d.recast) := by
  rw [function, FunctionDecl.recast_eq]

/-- A function has as many parameters as before. -/
theorem store_arity (ref : FunctionRef) : (d.store store).arity ref = store.arity ref := by
  cases ref with
  | native native => rfl
  | user id => rw [Store.arity, Store.arity, store_function, function_params, List.length_map]
  | bound id =>
    rw [Store.arity, Store.arity, store_boundMethod, store_function, function_params,
      List.length_map]
    rfl

/-- A function has its new name; those of natives are the evaluator's own. -/
theorem store_functionName (ref : FunctionRef) :
    (d.store store).functionName ref = d.name (store.functionName ref) := by
  have hname : ∀ f, (d.function f).decl.name.lexeme = d.name f.decl.name.lexeme := fun f => by
    rw [function, FunctionDecl.recast_eq]
    rfl
  cases ref with
  | native native =>
    have hnative : native.name ∈ ownNames := by cases native <;> decide
    exact (d.own _ hnative).symm
  | user id => rw [Store.functionName, Store.functionName, store_function, hname]
  | bound id =>
    rw [Store.functionName, Store.functionName, store_boundMethod, store_function, hname]
    rfl

/-- The fields of a function have new names. -/
theorem store_functionFields (ref : FunctionRef) :
    (d.store store).functionFields ref = (store.functionFields ref).rename d.name := by
  cases ref with
  | native native => cases native <;> rfl
  | user id =>
    rw [Store.functionFields, store_function]
    rfl
  | bound id =>
    rw [Store.functionFields, store_boundMethod]
    rfl

end

/-! ## Adding to the store

Something is added to the disguised store at the same index as to the store itself. -/

section

variable (store : Store)

/-- A scope is added with the same scopes around it. -/
theorem store_newChild (parent : ScopeId) (bindings : Table Value) :
    (d.store store).newChild parent (bindings.rename d.name) =
      ((store.newChild parent bindings).1, d.store (store.newChild parent bindings).2) := by
  rw [Store.newChild, store_chain]
  simp only [Store.newChild, Store.newScope, Disguise.store, Arena.size_map, Arena.map_push]
  rfl

/-- A function is added with its tree disguised. -/
theorem store_newFunction (decl : FunctionDecl) (closure : ScopeId) :
    (d.store store).newFunction (decl.recast d.recast) closure =
      ((store.newFunction decl closure).1, d.store (store.newFunction decl closure).2) := by
  simp only [Store.newFunction, Disguise.store, Arena.size_map, Arena.map_push]
  rfl

/-- Methods are added one by one, each under its new name. -/
theorem store_newFunctions (closure : ScopeId) (decls : List FunctionDecl) :
    (d.store store).newFunctions closure (FunctionDecl.recastAll d.recast decls) =
      ((store.newFunctions closure decls).1.map (Prod.map d.name id),
        d.store (store.newFunctions closure decls).2) := by
  induction decls generalizing store with
  | nil => rfl
  | cons decl decls ih =>
    rw [FunctionDecl.recastAll, Store.newFunctions, Store.newFunctions, store_newFunction]
    dsimp only
    rw [ih, FunctionDecl.recast_eq]
    rfl

theorem store_bindMethod (resolution : MethodResolution) (receiver : InstanceId) :
    (d.store store).bindMethod resolution receiver =
      ((store.bindMethod resolution receiver).1,
        d.store (store.bindMethod resolution receiver).2) := by
  simp only [Store.bindMethod, Store.newBoundMethod, Disguise.store, Arena.size_map,
    Arena.map_push]
  rfl

/-- A class is added under its new name, with the same ancestors. -/
theorem store_declareClass (name : String) (superclass : Option ClassId)
    (methods : List (String × FunctionId)) :
    (d.store store).declareClass (d.name name) superclass (methods.map (Prod.map d.name id)) =
      ((store.declareClass name superclass methods).1,
        d.store (store.declareClass name superclass methods).2) := by
  unfold Store.declareClass
  rw [Table.ofList_rename d.injective]
  cases superclass with
  | none =>
    simp only [Store.newClass, Disguise.store, Arena.size_map, Arena.map_push]
    rfl
  | some parent =>
    dsimp only
    rw [store_lineage]
    simp only [Store.newClass, Disguise.store, Arena.size_map, Arena.map_push]
    rfl

theorem store_newInstance (ofClass : ClassId) :
    (d.store store).newInstance ofClass =
      ((store.newInstance ofClass).1, d.store (store.newInstance ofClass).2) := by
  simp only [Store.newInstance, Disguise.store, Arena.size_map, Arena.map_push]
  rfl

/-! ## Properties

Objects look for a field first and for a method then, classes and functions for fields. All of them
are looked for under the new name. -/

/-- A property of an object, for which a bound method may be added. -/
theorem store_instanceProperty (id : InstanceId) (name : String) :
    (d.store store).instanceProperty id (d.name name) =
      ((store.instanceProperty id name).1, d.store (store.instanceProperty id name).2) := by
  have hfields : ((d.store store).instanceOf id).fields.get? (d.name name) =
      (store.instanceOf id).fields.get? name := by
    rw [store_instanceOf]
    exact Table.get?_rename d.injective ..
  have hclass : ((d.store store).instanceOf id).ofClass = (store.instanceOf id).ofClass := by
    rw [store_instanceOf]
    rfl
  rw [Store.instanceProperty, Store.instanceProperty, hfields, hclass, store_method?]
  cases (store.instanceOf id).fields.get? name with
  | some value => rfl
  | none =>
    cases store.method? (store.instanceOf id).ofClass name with
    | none => rfl
    | some resolution => exact d.store_bindMethod store resolution id

theorem store_classProperty (id : ClassId) (name : String) :
    (d.store store).classProperty id (d.name name) = store.classProperty id name := by
  have hfields : ((d.store store).classOf id).fields.get? (d.name name) =
      (store.classOf id).fields.get? name := by
    rw [store_classOf]
    exact Table.get?_rename d.injective ..
  rw [Store.classProperty, Store.classProperty, hfields, store_method?]

theorem store_property (object : Value) (name : String) :
    (d.store store).property object (d.name name) =
      ((store.property object name).1, d.store (store.property object name).2) := by
  cases object with
  | instanceRef id => exact d.store_instanceProperty store id name
  | classRef id =>
    rw [Store.property, Store.property, store_classProperty]
  | function ref =>
    rw [Store.property, Store.property, store_functionFields, Table.get?_rename d.injective]
  | _ => rfl

/-- A field of a function is set under its new name. -/
theorem store_modifyFunctionFields (ref : FunctionRef) (name : String) (value : Value) :
    (d.store store).modifyFunctionFields ref (fun fields => fields.set (d.name name) value) =
      d.store (store.modifyFunctionFields ref fun fields => fields.set name value) := by
  have hset := fun fields : Fields => Table.set_rename d.injective fields name value
  cases ref with
  | native native =>
    simp only [Store.modifyFunctionFields, NativeFields.modify, Disguise.store]
    cases native <;> simp only [hset]
  -- Both stores are the same but for one function, which is changed at the same index.
  | user id =>
    simp only [Store.modifyFunctionFields, Disguise.store]
    congr 1
    refine (Arena.map_modify (fun f => ?_) ..).symm
    simp only [Disguise.function, hset]
  | bound id =>
    simp only [Store.modifyFunctionFields, Disguise.store]
    congr 1
    refine (Arena.map_modify (fun m => ?_) ..).symm
    simp only [Disguise.boundMethod, hset]

/-- A property of any value is set under its new name, or refused in the same way. Fields are
tables, in which a name is set in its place or at the end, and an injective renaming finds the same
place. -/
theorem store_setProperty (object : Value) (name : String) (value : Value) :
    (d.store store).setProperty object (d.name name) value =
      ((store.setProperty object name value).map d.store).mapError
        (RuntimeError.rename d.name) := by
  have hset := fun fields : Fields => Table.set_rename d.injective fields name value
  cases object with
  | function ref =>
    rw [Store.setProperty, Store.setProperty, store_modifyFunctionFields]
    rfl
  | instanceRef id =>
    refine congrArg Except.ok ?_
    simp only [Disguise.store]
    congr 1
    refine (Arena.map_modify (fun i => ?_) ..).symm
    simp only [Disguise.instanceOf, hset]
  | classRef id =>
    refine congrArg Except.ok ?_
    simp only [Disguise.store]
    congr 1
    refine (Arena.map_modify (fun c => ?_) ..).symm
    simp only [Disguise.classOf, hset]
  | _ => rfl

/-! ## Variables

A scope is changed in place. The errors carry the name that was asked for, so they carry the new
one. -/

/-- A variable is bound under its new name. -/
theorem store_bind (id : ScopeId) (name : String) (value : Value) :
    (d.store store).bind id (d.name name) value = d.store (store.bind id name value) := by
  simp only [Store.bind, Disguise.store]
  congr 1
  refine (Arena.map_modify (fun s => ?_) ..).symm
  simp only [Disguise.scope, Table.set_rename d.injective]

/-- A variable is declared under its new name, or refused if it is declared already. -/
theorem store_define (id : ScopeId) (name : String) (value : Value) :
    (d.store store).define id (d.name name) value =
      ((store.define id name value).map d.store).mapError (RuntimeError.rename d.name) := by
  unfold Store.define
  rw [store_declares, store_bind]
  split <;> rfl

/-- A variable is assigned to under its new name, in the same scope, or missing under it. -/
theorem store_assign (id : ScopeId) (name : String) (value : Value) :
    (d.store store).assign id (d.name name) value =
      ((store.assign id name value).map d.store).mapError (RuntimeError.rename d.name) := by
  unfold Store.assign
  rw [store_owner?]
  cases store.owner? id name with
  | none => rfl
  | some owner =>
    dsimp only
    rw [store_bind]
    rfl

end

end Disguise

end Script
