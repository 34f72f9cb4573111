import Script.Proofs.Store.Consistent
import Script.Proofs.Store.Pairing
import Script.Store.Display

/-!
# The same store but for blank scopes

Values refer to functions, classes and instances, but never to scopes: only functions and scopes
themselves do. So two stores can hold the same under the same references, and differ in how many
blank scopes there are around a scope (`Store.Paired`). What is read from the two is the same, and
what is done to both of them keeps them like this.
-/

namespace Script

/-! ## Arenas side by side

Two arenas that are changed alike, by the same pushes and modifications, stay related thing by
thing. -/

namespace Arena

variable {α : Type} [Inhabited α] {R : α → α → Prop} {a b : Arena α}

/-- There are as many things in both, related one to one, and so are the defaults. -/
structure Matches (R : α → α → Prop) (a b : Arena α) : Prop where
  size : b.size = a.size
  related : ∀ i, R (a.get i) (b.get i)

theorem Matches.mono {R' : α → α → Prop} (h : a.Matches R b) (himp : ∀ {x y}, R x y → R' x y) :
    a.Matches R' b :=
  ⟨h.size, fun i => himp (h.related i)⟩

theorem Matches.push (h : a.Matches R b) {x y : α} (hnew : R x y) :
    (a.push x).Matches R (b.push y) where
  size := by simp [h.size]
  related := by
    intro i
    by_cases hi : i = a.size
    · subst hi
      rw [get_push_size, ← h.size, get_push_size]
      exact hnew
    · rw [get_push_of_ne a x hi, get_push_of_ne b y (h.size ▸ hi)]
      exact h.related i

/-- Two related things are changed such that they are related again. -/
theorem Matches.modify (h : a.Matches R b) {f g : α → α} (hf : ∀ {x y}, R x y → R (f x) (g y))
    (i : Nat) : (a.modify i f).Matches R (b.modify i g) where
  size := by simp [h.size]
  related := by
    intro j
    by_cases hij : i = j
    · subst hij
      rcases Nat.lt_or_ge i a.size with hi | hi
      · rw [get_modify_self a f hi, get_modify_self b g (h.size ▸ hi)]
        exact hf (h.related i)
      -- Neither arena has the thing, and both yield the default as before.
      · have ha : a.cells.size ≤ i := hi
        have hb : b.cells.size ≤ i := by
          show b.size ≤ i
          rwa [h.size]
        have hrelated := h.related i
        simpa [get, Arena.modify, ha, hb] using hrelated
    · rw [get_modify_of_ne a f hij, get_modify_of_ne b g hij]
      exact h.related j

end Arena

/-! ## Stores side by side

Functions refer to scopes and are therefore compared by a relation. Bound methods, classes,
instances and native functions refer to no scopes and are simply equal. -/

/-- The functions are the same, with closures that are the same scopes. -/
structure UserFunction.Paired (W : Pairing) (f g : UserFunction) : Prop where
  decl : g.decl = f.decl
  fields : g.fields = f.fields
  closure : W.same f.closure g.closure

namespace Store

/-- The stores hold the same, but for blank scopes. -/
structure Paired (W : Pairing) (a b : Store) : Prop where
  scopes : W.Fits a.scopes b.scopes
  functions : a.functions.Matches (UserFunction.Paired W) b.functions
  boundMethods : b.boundMethods = a.boundMethods
  classes : b.classes = a.classes
  instances : b.instances = a.instances
  nativeFields : b.nativeFields = a.nativeFields

/-- What scopes and functions refer to as scopes around them is there. -/
structure ClosedScopes (store : Store) : Prop where
  enclosing : ∀ id : ScopeId, id.index < store.scopes.size →
    ∀ other ∈ (store.scope id).enclosing, other.index < store.scopes.size
  closures : ∀ id : FunctionId, id.index < store.functions.size →
    (store.function id).closure.index < store.scopes.size

/-- The references of a consistent store to scopes are closed. -/
theorem Consistent.closedScopes {Known : FunctionDecl → Prop} {store : Store}
    (h : store.Consistent Known) : store.ClosedScopes where
  enclosing := fun _ hid _ hother =>
    Nat.lt_of_le_of_lt (h.chain_lt hid (List.mem_cons_of_mem _ hother)) hid
  closures := fun id hid => (h.functions id.index hid).closure

/-- A store is the same as itself, with each scope paired with itself. This asks that it refers to
no scope that is not there. -/
theorem ClosedScopes.paired {store : Store} (h : store.ClosedScopes)
    (hscopes : 0 < store.scopes.size) :
    store.Paired (.identity store.scopes.size) store where
  scopes := by
    have haligned : ∀ l : List ScopeId, (∀ id ∈ l, id.index < store.scopes.size) →
        (Pairing.identity store.scopes.size).Aligned l l := by
      intro l hl
      induction l with
      | nil => exact .nil
      | cons id l ih =>
        exact .same ⟨hl id (.head _), rfl⟩ (ih fun other hother => hl other (.tail _ hother))
    refine ⟨?near_lt, nofun, nofun, ?unique, ?bindings, ?chains, nofun, nofun, ?all, ?all'⟩
    case near_lt =>
      rintro i j ⟨hi, rfl⟩
      exact ⟨hi, hi⟩
    case unique =>
      rintro i j i' j' ⟨-, rfl⟩ ⟨-, rfl⟩
      exact Iff.rfl
    case bindings =>
      rintro i j ⟨-, rfl⟩
      rfl
    case chains =>
      rintro i j ⟨hi, rfl⟩
      exact haligned _ (List.forall_mem_cons.mpr ⟨hi, h.enclosing _ hi⟩)
    case all => exact fun i hi => .inr ⟨i, hi, rfl⟩
    case all' => exact fun i hi => .inr ⟨i, hi, rfl⟩
  functions := by
    refine ⟨rfl, fun i => ⟨rfl, rfl, ?_, rfl⟩⟩
    rcases Nat.lt_or_ge i store.functions.size with hi | hi
    · exact h.closures ⟨i⟩ hi
    -- The default function is declared in the first scope.
    · have hcells : store.functions.cells.size ≤ i := hi
      have hdefault : (store.functions.get i).closure = ⟨0⟩ := by
        simp [Arena.get, hcells]
        rfl
      rwa [hdefault]
  boundMethods := rfl
  classes := rfl
  instances := rfl
  nativeFields := rfl

namespace Paired

variable {W W' : Pairing} {a b : Store} {i j : ScopeId}

/-- The relation seen from the second store. -/
theorem swap (h : a.Paired W b) : b.Paired W.swap a where
  scopes := h.scopes.swap
  functions := ⟨h.functions.size.symm, fun i =>
    have hpair := h.functions.related i
    ⟨hpair.decl.symm, hpair.fields.symm, hpair.closure⟩⟩
  boundMethods := h.boundMethods.symm
  classes := h.classes.symm
  instances := h.instances.symm
  nativeFields := h.nativeFields.symm

variable (h : a.Paired W b)

include h

/-! ## Reading

All that is read from a store is read the same from both stores: values contain no scopes, and the
texts that are displayed do not either. -/

/-- Scopes that are the same hold the same variables. -/
theorem bindings (hsame : W.same i j) : b.bindings j = a.bindings i := h.scopes.bindings hsame

/-- Scopes that are the same hold the same names. -/
theorem declares (hsame : W.same i j) (name : String) : b.declares j name = a.declares i name := by
  rw [Store.declares, h.bindings hsame, Store.declares]

/-- The scopes around two scopes that are near to each other. -/
theorem chains (hnear : W.near i j) : W.Aligned (a.chain i) (b.chain j) := h.scopes.chains hnear

/-- A blank scope of the first store holds nothing. -/
theorem bindings_blank (hblank : W.blank i) : a.bindings i = .empty := (h.scopes.empty hblank).1

/-- A blank scope of the second store holds nothing. -/
theorem bindings_blank' (hblank : W.blank' j) : b.bindings j = .empty := (h.scopes.empty' hblank).1

/-- A name stands for the same value in scopes that are near to each other: their chains differ by
blank scopes, and a search passes these. -/
theorem lookup (hnear : W.near i j) (name : String) : b.lookup j name = a.lookup i name := by
  have hfound : ((b.chain j).findSome? fun id => (b.bindings id).get? name) =
      (a.chain i).findSome? fun id => (a.bindings id).get? name := by
    -- Scopes that are the same hold the same value, and the others are passed.
    refine (h.chains hnear).findSome?_eq ?_ ?_ ?_
    · intro i j hsame
      rw [h.bindings hsame]
    · intro i hblank
      rw [h.bindings_blank hblank, Table.get?_empty]
    · intro j hblank
      rw [h.bindings_blank' hblank, Table.get?_empty]
  rw [Store.lookup, hfound, Store.lookup]

/-- A name belongs to scopes that are the same, or to none. -/
theorem owner?_cases (hnear : W.near i j) (name : String) :
    (a.owner? i name = none ∧ b.owner? j name = none) ∨
      ∃ i' j', W.same i' j' ∧ a.owner? i name = some i' ∧ b.owner? j name = some j' := by
  refine (h.chains hnear).find?_cases ?_ ?_ ?_
  · exact fun hsame => h.declares hsame name
  · intro i hblank
    rw [Store.declares, h.bindings_blank hblank]
    rfl
  · intro j hblank
    rw [Store.declares, h.bindings_blank' hblank]
    rfl

/-- A function has the same declaration and the same fields. -/
theorem function (id : FunctionId) : (a.function id).Paired W (b.function id) :=
  h.functions.related id.index

theorem boundMethod (id : BoundMethodId) : b.boundMethod id = a.boundMethod id := by
  rw [Store.boundMethod, h.boundMethods, Store.boundMethod]

theorem classOf (id : ClassId) : b.classOf id = a.classOf id := by
  rw [Store.classOf, h.classes, Store.classOf]

theorem instanceOf (id : InstanceId) : b.instanceOf id = a.instanceOf id := by
  rw [Store.instanceOf, h.instances, Store.instanceOf]

/-- The ancestors of a class are the same. -/
theorem lineage (id : ClassId) : b.lineage id = a.lineage id := by
  rw [Store.lineage, h.classOf, Store.lineage]

/-- The superclass of a class is the same. -/
theorem superclass? (id : ClassId) : b.superclass? id = a.superclass? id := by
  rw [Store.superclass?, h.classOf, Store.superclass?]

/-- A search for a method finds the same. -/
theorem method? (start : ClassId) (name : String) :
    b.method? start name = a.method? start name := by
  have hown : ∀ id, b.ownMethod? id name = a.ownMethod? id name := by
    intro id
    rw [Store.ownMethod?, h.classOf, Store.ownMethod?]
  simp only [Store.method?, h.lineage, hown]

/-- A function takes the same number of arguments. -/
theorem arity (ref : FunctionRef) : b.arity ref = a.arity ref := by
  cases ref with
  | user id => rw [Store.arity, (h.function id).decl, Store.arity]
  | native native => rfl
  | bound id => rw [Store.arity, h.boundMethod, (h.function _).decl, Store.arity]

theorem functionName (ref : FunctionRef) : b.functionName ref = a.functionName ref := by
  cases ref with
  | user id => rw [Store.functionName, (h.function id).decl, Store.functionName]
  | native native => rfl
  | bound id => rw [Store.functionName, h.boundMethod, (h.function _).decl, Store.functionName]

theorem display (value : Value) : b.display value = a.display value := by
  cases value with
  | nil | number | string => rfl
  | boolean value => cases value <;> rfl
  | function ref =>
    show b.displayFunction ref = a.displayFunction ref
    simp only [Store.displayFunction, h.functionName]
  | classRef id => simp only [Store.display, h.classOf]
  | instanceRef id => simp only [Store.display, h.classOf, h.instanceOf]

theorem functionFields (ref : FunctionRef) : b.functionFields ref = a.functionFields ref := by
  cases ref with
  | user id => exact (h.function id).fields
  | native native => rw [Store.functionFields, h.nativeFields, Store.functionFields]
  | bound id => rw [Store.functionFields, h.boundMethod, Store.functionFields]

/-! ## Scopes

A scope is added to both stores, which makes one more pair, or to one of them without names, which
makes it a blank one. The functions are related by the new pairing because it says all that the old
one said. -/

/-- Functions stay related while the pairing grows, since closures that are the same stay the
same. -/
theorem mono_functions (hle : W ≤ W') : a.functions.Matches (UserFunction.Paired W') b.functions :=
  h.functions.mono fun hpair => ⟨hpair.decl, hpair.fields, hle.same hpair.closure⟩

/-- New scopes inside scopes that are near to each other. -/
theorem newChild (hnear : W.near i j) (bindings : Table Value) :
    (a.newChild i bindings).2.Paired (W.addSame (a.newChild i bindings).1 (b.newChild j bindings).1)
      (b.newChild j bindings).2 :=
  { h with
    scopes := h.scopes.push hnear bindings
    functions := h.mono_functions (W.le_addSame _ _) }

/-- A new scope without names in the first store only. -/
theorem newBlank (parent : ScopeId) :
    (a.newChild parent .empty).2.Paired (W.addBlank (a.newChild parent .empty).1 parent) b :=
  { h with
    scopes := h.scopes.pushBlank parent
    functions := h.mono_functions (W.le_addBlank _ _) }

/-- The same value under the same name, in scopes that are the same. -/
theorem bind (hsame : W.same i j) (name : String) (value : Value) :
    (a.bind i name value).Paired W (b.bind j name value) :=
  { h with scopes := h.scopes.modify hsame fun bindings => bindings.set name value }

/-! ## Functions, classes and instances

The arenas of the two stores have the same size, so what is added to both of them gets the same
reference. -/

theorem newFunction (hsame : W.same i j) (decl : FunctionDecl) :
    (b.newFunction decl j).1 = (a.newFunction decl i).1 ∧
      (a.newFunction decl i).2.Paired W (b.newFunction decl j).2 :=
  ⟨congrArg FunctionId.mk h.functions.size,
    { h with functions := h.functions.push ⟨rfl, rfl, hsame⟩ }⟩

omit h in
/-- The functions of a row of declarations get the same references in both stores. -/
theorem newFunctions {a b : Store} (h : a.Paired W b) (hsame : W.same i j)
    (decls : List FunctionDecl) :
    (b.newFunctions j decls).1 = (a.newFunctions i decls).1 ∧
      (a.newFunctions i decls).2.Paired W (b.newFunctions j decls).2 := by
  induction decls generalizing a b with
  | nil => exact ⟨rfl, h⟩
  | cons decl rest ih =>
    obtain ⟨hid, hpaired⟩ := h.newFunction hsame decl
    obtain ⟨hrest, hpaired⟩ := ih hpaired
    refine ⟨?_, hpaired⟩
    show (decl.name.lexeme, (b.newFunction decl j).1) :: _ = (decl.name.lexeme, _) :: _
    rw [hid]
    exact congrArg _ hrest

theorem bindMethod (resolution : MethodResolution) (receiver : InstanceId) :
    (b.bindMethod resolution receiver).1 = (a.bindMethod resolution receiver).1 ∧
      (a.bindMethod resolution receiver).2.Paired W (b.bindMethod resolution receiver).2 := by
  have hsize : b.boundMethods.size = a.boundMethods.size := by rw [h.boundMethods]
  refine ⟨congrArg (fun n => Value.function (.bound ⟨n⟩)) hsize, ?_⟩
  refine { h with boundMethods := ?_ }
  exact congrArg (fun arena => Arena.push arena _) h.boundMethods

/-- A new class. Its ancestors are the same in both stores. -/
theorem declareClass (name : String) (superclass : Option ClassId)
    (methods : List (String × FunctionId)) :
    (b.declareClass name superclass methods).1 = (a.declareClass name superclass methods).1 ∧
      (a.declareClass name superclass methods).2.Paired W
        (b.declareClass name superclass methods).2 := by
  have hsize : b.classes.size = a.classes.size := by rw [h.classes]
  refine ⟨congrArg ClassId.mk hsize, { h with classes := ?_ }⟩
  show b.classes.push _ = a.classes.push _
  rw [h.classes]
  congr
  funext parent
  exact h.lineage parent

theorem newInstance (ofClass : ClassId) :
    (b.newInstance ofClass).1 = (a.newInstance ofClass).1 ∧
      (a.newInstance ofClass).2.Paired W (b.newInstance ofClass).2 := by
  have hsize : b.instances.size = a.instances.size := by rw [h.instances]
  refine ⟨congrArg InstanceId.mk hsize, { h with instances := ?_ }⟩
  exact congrArg (fun arena => Arena.push arena _) h.instances

/-! ## Properties

Fields stand in things that both stores have under the same reference. -/

/-- Reading a property yields the same, and may bind the same method. Only a method that is found on
an instance is allocated, and then in both stores under the same reference. -/
theorem property (object : Value) (name : String) :
    (b.property object name).1 = (a.property object name).1 ∧
      (a.property object name).2.Paired W (b.property object name).2 := by
  cases object with
  | instanceRef id =>
    show (b.instanceProperty id name).1 = (a.instanceProperty id name).1 ∧
      (a.instanceProperty id name).2.Paired W (b.instanceProperty id name).2
    unfold Store.instanceProperty
    rw [h.instanceOf, h.method?]
    cases (a.instanceOf id).fields.get? name with
    | some value => exact ⟨rfl, h⟩
    | none =>
      cases a.method? (a.instanceOf id).ofClass name with
      | some resolution => exact h.bindMethod resolution id
      | none => exact ⟨rfl, h⟩
  | classRef id =>
    refine ⟨?_, h⟩
    show b.classProperty id name = a.classProperty id name
    rw [Store.classProperty, h.classOf, h.method?, Store.classProperty]
  | function ref =>
    refine ⟨?_, h⟩
    show ((b.functionFields ref).get? name).getD .nil = _
    rw [h.functionFields]
    rfl
  | nil | boolean | number | string => exact ⟨rfl, h⟩

theorem modifyFunctionFields (ref : FunctionRef) (f : Fields → Fields) :
    (a.modifyFunctionFields ref f).Paired W (b.modifyFunctionFields ref f) := by
  cases ref with
  | user id =>
    refine { h with functions := h.functions.modify (fun hpair => ?_) id.index }
    exact ⟨hpair.decl, congrArg f hpair.fields, hpair.closure⟩
  | native native =>
    refine { h with nativeFields := ?_ }
    exact congrArg (fun fields => NativeFields.modify fields native f) h.nativeFields
  | bound id =>
    refine { h with boundMethods := ?_ }
    exact congrArg (fun arena => Arena.modify arena _ _) h.boundMethods

end Paired

/-! ## Changes that may fail -/

/-- Both changes fail for the same reason, or both yield stores that are the same but for blank
scopes. -/
inductive PairedChange (W : Pairing) :
    Except RuntimeError Store → Except RuntimeError Store → Prop
  | ok {a b : Store} (h : a.Paired W b) : PairedChange W (.ok a) (.ok b)
  | error (error : RuntimeError) : PairedChange W (.error error) (.error error)

namespace Paired

variable {W : Pairing} {a b : Store} {i j : ScopeId} (h : a.Paired W b)

include h

/-- Declaring a name fails in both stores or in neither. -/
theorem define (hsame : W.same i j) (name : String) (value : Value) :
    PairedChange W (a.define i name value) (b.define j name value) := by
  unfold Store.define
  rw [h.declares hsame]
  split
  · exact .error _
  · exact .ok (h.bind hsame name value)

/-- Assigning to a name fails if no scope holds it, and then none does in the other store. -/
theorem assign (hnear : W.near i j) (name : String) (value : Value) :
    PairedChange W (a.assign i name value) (b.assign j name value) := by
  unfold Store.assign
  rcases h.owner?_cases hnear name with ⟨hnone, hnone'⟩ | ⟨i', j', hsame, howner, howner'⟩
  · rw [hnone, hnone']
    exact .error _
  · rw [howner, howner']
    exact .ok (h.bind hsame name value)

/-- Setting a property fails for values that have none, whatever the store is. -/
theorem setProperty (object : Value) (name : String) (value : Value) :
    PairedChange W (a.setProperty object name value) (b.setProperty object name value) := by
  cases object with
  | instanceRef id =>
    refine .ok { h with instances := ?_ }
    exact congrArg (fun arena => Arena.modify arena _ _) h.instances
  | classRef id =>
    refine .ok { h with classes := ?_ }
    exact congrArg (fun arena => Arena.modify arena _ _) h.classes
  | function ref => exact .ok (h.modifyFunctionFields ref _)
  | nil | boolean | number | string => exact .error _

end Paired

end Store

end Script
