import Script.Proofs.Store.Hierarchy

/-!
# Writes to properties

Functions, classes and instances keep their fields in places of their own. Seen from the values
there is one table of fields for each value (`Store.fieldsOf`), and a write changes the table of
one value under one name (`Write.fieldsOf`). A name that is no field is looked for in classes, and
writes leave these and everything else as they are (`Store.SameButFields`).

So what is read after a write is what was written, if value and name are the same, and otherwise
what would have been read before (`Write.sameReading`).
-/

namespace Script

/-- Whether properties of the value can be set. -/
def Value.takesFields : Value → Bool
  | .function _ | .classRef _ | .instanceRef _ => true
  | .nil | .boolean _ | .number _ | .string _ => false

/-- References are equal when they are the same. -/
theorem Value.equal_iff {a b : Value} (ha : a.takesFields = true) : a.equal b = true ↔ a = b := by
  cases a with
  | function | classRef | instanceRef => exact decide_eq_true_iff
  | _ => cases ha

/-- A part of the things in an arena that a change of one thing changes. -/
theorem Arena.part_modify {α β : Type} [Inhabited α] (arena : Arena α) (part : α → β) {f : α → α}
    {g : β → β} (hpart : ∀ x, part (f x) = g (part x)) {i : Nat} (hi : i < arena.size) (j : Nat) :
    part ((arena.modify i f).get j) =
      if i = j then g (part (arena.get j)) else part (arena.get j) := by
  split
  case isTrue heq =>
    subst heq
    rw [get_modify_self arena f hi, hpart]
  case isFalse hne => rw [get_modify_of_ne arena f hne]

namespace Store

variable {Known : FunctionDecl → Prop} {store store' : Store}

/-! ## Fields

Reading a property is split in two: what the fields of the value say, and what is found under a name
that is no field. For values of the language that have no fields both are `nil`. -/

/-- The fields of a value, which are none for a value that takes none. -/
def fieldsOf (store : Store) : Value → Fields
  | .instanceRef id => (store.instanceOf id).fields
  | .classRef id => (store.classOf id).fields
  | .function ref => store.functionFields ref
  | .nil | .boolean _ | .number _ | .string _ => .empty

/-- What is read under a name that is no field. -/
def inherited (store : Store) (object : Value) (name : String) : Value × Store :=
  match object with
  | .instanceRef id =>
    match store.method? (store.instanceOf id).ofClass name with
    | some resolution => store.bindMethod resolution id
    | none => (.nil, store)
  | .classRef id =>
    match store.method? id name with
    | some resolution => (.function (.user resolution.method), store)
    | none => (.nil, store)
  | _ => (.nil, store)

/-- A field is read, and the store is left alone. -/
theorem property_of_field {object value : Value} {name : String}
    (h : (store.fieldsOf object).get? name = some value) :
    store.property object name = (value, store) := by
  cases object with
  | instanceRef id =>
    have h : (store.instanceOf id).fields.get? name = some value := h
    show store.instanceProperty id name = _
    rw [instanceProperty, h]
  | classRef id =>
    have h : (store.classOf id).fields.get? name = some value := h
    show (store.classProperty id name, store) = _
    rw [classProperty, h]
  | function ref =>
    have h : (store.functionFields ref).get? name = some value := h
    show (((store.functionFields ref).get? name).getD .nil, store) = _
    rw [h]
    rfl
  | _ => cases h

/-- A name that is no field is read from the class, or as `nil`. Functions have no class, so nothing
is inherited there. -/
theorem property_of_no_field {object : Value} {name : String}
    (h : (store.fieldsOf object).get? name = none) :
    store.property object name = store.inherited object name := by
  cases object with
  | instanceRef id =>
    have h : (store.instanceOf id).fields.get? name = none := h
    show store.instanceProperty id name = _
    rw [instanceProperty, h]
    rfl
  | classRef id =>
    have h : (store.classOf id).fields.get? name = none := h
    show (store.classProperty id name, store) = _
    rw [classProperty, h, inherited]
    cases store.method? id name <;> rfl
  | function ref =>
    have h : (store.functionFields ref).get? name = none := h
    show (((store.functionFields ref).get? name).getD .nil, store) = _
    rw [h]
    rfl
  | _ => rfl

/-! ## What writes leave alone

A write touches the fields of one thing. Everything that the search for methods depends on is the
same after it. -/

/-- The stores differ in the fields of functions, classes and instances at most. -/
structure SameButFields (a b : Store) : Prop where
  scopes : b.scopes = a.scopes
  functions : ∀ id, (a.function id).Kept (b.function id)
  boundMethods : ∀ id, (a.boundMethod id).Kept (b.boundMethod id)
  classes : ∀ id, (a.classOf id).Kept (b.classOf id)
  instances : ∀ id, (a.instanceOf id).Kept (b.instanceOf id)
  /-- The next bound method gets the same number. -/
  boundCount : b.boundMethods.size = a.boundMethods.size

/-- A store is the same as itself. -/
theorem SameButFields.refl (store : Store) : SameButFields store store :=
  ⟨rfl, fun _ => .refl _, fun _ => .refl _, fun _ => .refl _, fun _ => .refl _, rfl⟩

/-- Setting a property changes fields at most, and these of one object only. -/
theorem sameButFields_setProperty {object value : Value} {name : String}
    (h : store.setProperty object name value = .ok store') : SameButFields store store' := by
  cases object with
  -- One cell of one arena changes, and in it only the fields.
  | instanceRef id =>
    obtain rfl := Except.ok.inj h
    exact { SameButFields.refl store with
      instances := fun other =>
        store.instances.get_modify_part id.index other.index fun _ => rfl }
  | classRef id =>
    obtain rfl := Except.ok.inj h
    exact { SameButFields.refl store with
      classes := fun other =>
        { ancestors := store.classes.get_modify_part id.index other.index fun _ => rfl
          methods := store.classes.get_modify_part id.index other.index fun _ => rfl } }
  | function ref =>
    obtain rfl := Except.ok.inj h
    cases ref with
    | user id =>
      exact { SameButFields.refl store with
        functions := fun other =>
          { decl := store.functions.get_modify_part id.index other.index fun _ => rfl
            closure := store.functions.get_modify_part id.index other.index fun _ => rfl } }
    | native native => exact { SameButFields.refl store with }
    | bound id =>
      exact { SameButFields.refl store with
        boundMethods := fun other =>
          { method := store.boundMethods.get_modify_part id.index other.index fun _ => rfl
            receiver := store.boundMethods.get_modify_part id.index other.index fun _ => rfl
            declaringClass :=
              store.boundMethods.get_modify_part id.index other.index fun _ => rfl }
        boundCount := Arena.size_modify _ _ _ }
  | _ => cases h

/-- A search for a method finds the same. -/
theorem SameButFields.method? (h : SameButFields store store') (start : ClassId) (name : String) :
    store'.method? start name = store.method? start name := by
  have hlineage : store'.lineage start = store.lineage start := by
    unfold lineage
    rw [(h.classes start).ancestors]
  have hown : ∀ id, store'.ownMethod? id name = store.ownMethod? id name := fun id => by
    unfold ownMethod?
    rw [(h.classes id).methods]
  unfold Store.method?
  simp only [hlineage, hown]

/-- Two readings that yield the same. A method that is bound by the reading is a new one each time;
of such methods it is the same one that is bound, from the same class and to the same receiver. -/
structure SameReading (before after : Value × Store) : Prop where
  value : after.1 = before.1
  bound : ∀ id, before.1 = .function (.bound id) →
    (before.2.boundMethod id).Kept (after.2.boundMethod id)

/-- A name that is no field stands for the same in both stores. -/
theorem SameButFields.inherited (h : SameButFields store store') (object : Value) (name : String) :
    SameReading (store.inherited object name) (store'.inherited object name) := by
  have hnil : SameReading (.nil, store) (.nil, store') := ⟨rfl, nofun⟩
  cases object with
  | instanceRef id =>
    -- The search starts in the same class and finds the same method, which is bound to the
    -- instance.
    have hclass : (store'.instanceOf id).ofClass = (store.instanceOf id).ofClass := h.instances id
    unfold Store.inherited
    simp only [hclass, h.method?]
    cases store.method? (store.instanceOf id).ofClass name with
    | none => exact hnil
    | some resolution =>
      -- The two new methods have the same number.
      have hid : (store'.bindMethod resolution id).1 = (store.bindMethod resolution id).1 := by
        show Value.function (.bound ⟨store'.boundMethods.size⟩) = _
        rw [h.boundCount]
        rfl
      refine ⟨hid, fun bound hbound => ?_⟩
      obtain rfl : ⟨store.boundMethods.size⟩ = bound :=
        FunctionRef.bound.inj (Value.function.inj hbound)
      let new : BoundMethod := ⟨resolution.method, id, resolution.declaringClass, .empty⟩
      have hbefore : (store.boundMethods.push new).get store.boundMethods.size = new :=
        Arena.get_push_size _ _
      have hafter : (store'.boundMethods.push new).get store.boundMethods.size = new := by
        rw [← h.boundCount]
        exact Arena.get_push_size _ _
      show ((store.boundMethods.push new).get _).Kept ((store'.boundMethods.push new).get _)
      rw [hbefore, hafter]
      exact .refl new
  | classRef id =>
    unfold Store.inherited
    simp only [h.method?]
    cases store.method? id name with
    | none => exact hnil
    | some resolution => exact ⟨rfl, nofun⟩
  | _ => exact hnil

/-! ## Writes

The object of a write is one of the things of the store, so that its fields are at a place which is
there, and different from that of any other object. -/

/-- The first store becomes the second one when a property is set of a value that is there. -/
structure Write (store : Store) (object : Value) (name : String) (value : Value) (store' : Store) :
    Prop where
  valid : store.Valid object
  set : store.setProperty object name value = .ok store'

/-- Just those writes succeed that set a property of a function, a class or an instance. -/
theorem setProperty_cases (store : Store) (object : Value) (name : String) (value : Value) :
    (object.takesFields = true ∧ ∃ store', store.setProperty object name value = .ok store') ∨
      object.takesFields = false ∧
        store.setProperty object name value = .error (.immutableTarget object.type) := by
  cases object with
  | function | classRef | instanceRef => exact .inl ⟨rfl, _, rfl⟩
  | _ => exact .inr ⟨rfl, rfl⟩

/-- The fields of functions after those of one of them were changed. -/
theorem fields_modifyFunctionFields {ref : FunctionRef} (f : Fields → Fields)
    (hvalid : store.Valid (.function ref)) (other : FunctionRef) :
    (store.modifyFunctionFields ref f).functionFields other =
      if ref = other then f (store.functionFields other) else store.functionFields other := by
  cases ref with
  | user id =>
    cases other with
    | user other =>
      -- Two references are the same if their numbers are.
      have hiff : FunctionRef.user id = .user other ↔ id.index = other.index := by
        cases id; cases other; simp
      simp only [hiff]
      exact store.functions.part_modify UserFunction.fields (fun _ => rfl) hvalid other.index
    | _ => rfl
  | bound id =>
    cases other with
    | bound other =>
      have hiff : FunctionRef.bound id = .bound other ↔ id.index = other.index := by
        cases id; cases other; simp
      simp only [hiff]
      exact store.boundMethods.part_modify BoundMethod.fields (fun _ => rfl) hvalid other.index
    | _ => rfl
  | native native =>
    cases other with
    | native other => cases native <;> cases other <;> rfl
    | _ => cases native <;> rfl

namespace Write

variable {object value : Value} {name : String} (h : Write store object name value store')

include h

/-- A value that was written to has fields. -/
theorem takesFields : object.takesFields = true := by
  rcases setProperty_cases store object name value with ⟨htakes, -⟩ | ⟨-, herror⟩
  · exact htakes
  · have hset := h.set
    rw [herror] at hset
    cases hset

/-- A write changes the fields of its object under its name, and no other fields. -/
theorem fieldsOf (other : Value) :
    store'.fieldsOf other =
      if object = other then (store.fieldsOf other).set name value else store.fieldsOf other := by
  obtain ⟨hvalid, hset⟩ := h
  cases object with
  | instanceRef id =>
    obtain rfl := Except.ok.inj hset
    cases other with
    | instanceRef other =>
      -- Two instances are the same value just if they have the same number.
      have hiff : Value.instanceRef id = .instanceRef other ↔ id.index = other.index := by
        cases id; cases other; simp
      simp only [hiff]
      exact store.instances.part_modify Instance.fields (g := fun fields => fields.set name value)
        (fun _ => rfl) hvalid other.index
    | _ => rfl
  | classRef id =>
    obtain rfl := Except.ok.inj hset
    cases other with
    | classRef other =>
      have hiff : Value.classRef id = .classRef other ↔ id.index = other.index := by
        cases id; cases other; simp
      simp only [hiff]
      exact store.classes.part_modify Class.fields (g := fun fields => fields.set name value)
        (fun _ => rfl) hvalid other.index
    | _ => rfl
  | function ref =>
    obtain rfl := Except.ok.inj hset
    cases other with
    | function other =>
      simp only [Value.function.injEq]
      exact fields_modifyFunctionFields (fun fields => fields.set name value) hvalid other
    | _ => cases ref <;> rfl
  | _ => cases hset

/-- What was written is read back by the same name, and reading it allocates nothing. -/
theorem property_self : store'.property object name = (value, store') := by
  apply property_of_field
  rw [h.fieldsOf, if_pos rfl, Table.get?_set_self]

/-- Everything else is read as before: another name, or another object. What is read may be a method
that is bound anew, so the values are compared by what they refer to. -/
theorem sameReading {other : Value} {name' : String} (hother : ¬ (object = other ∧ name = name')) :
    SameReading (store.property other name') (store'.property other name') := by
  have hsame := sameButFields_setProperty h.set
  have hfield : (store'.fieldsOf other).get? name' = (store.fieldsOf other).get? name' := by
    rw [h.fieldsOf]
    split
    case isTrue heq =>
      have hname : name' ≠ name := fun hname => hother ⟨heq, hname.symm⟩
      exact Table.get?_set_of_ne _ _ hname
    case isFalse => rfl
  -- So both readings find the same field, or both go on to the methods.
  cases hread : (store.fieldsOf other).get? name' with
  | some field =>
    rw [property_of_field hread, property_of_field (hfield.trans hread)]
    exact ⟨rfl, fun id _ => hsame.boundMethods id⟩
  | none =>
    rw [property_of_no_field hread, property_of_no_field (hfield.trans hread)]
    exact hsame.inherited other name'

end Write

/-! ## Methods that are read off

Reading a method off an instance makes a bound method each time, with fields of its own. So two of
them are never equal, even where they are read one after the other under the same name. -/

/-- A method that is read off an instance is none of the values that were there. -/
theorem not_valid_bindMethod (resolution : MethodResolution) (receiver : InstanceId) :
    ¬ store.Valid (store.bindMethod resolution receiver).1 :=
  Nat.lt_irrefl _

/-- It is a value of the store that it was added to. -/
theorem valid_bindMethod (resolution : MethodResolution) (receiver : InstanceId) :
    (store.bindMethod resolution receiver).2.Valid (store.bindMethod resolution receiver).1 := by
  show store.boundMethods.size < (store.boundMethods.push _).size
  rw [Arena.size_push]
  exact Nat.lt_succ_self _

/-- Reading the name off the instance binds a method of its class. -/
structure Extracts (store : Store) (id : InstanceId) (name : String)
    (resolution : MethodResolution) : Prop where
  no_field : (store.instanceOf id).fields.get? name = none
  found : store.method? (store.instanceOf id).ofClass name = some resolution

/-- What is read then is the new bound method. -/
theorem Extracts.property {id : InstanceId} {name : String} {resolution : MethodResolution}
    (h : store.Extracts id name resolution) :
    store.property (.instanceRef id) name = store.bindMethod resolution id := by
  rw [@property_of_no_field store (.instanceRef id) name h.no_field, inherited, h.found]

/-- Two methods that are read off, one after the other, are not the same. -/
theorem extractions_ne {first second : InstanceId} {name name' : String}
    {resolution resolution' : MethodResolution} {later : Store}
    (hfirst : store.Extracts first name resolution)
    (hgrows : (store.property (.instanceRef first) name).2.Grows later)
    (hsecond : later.Extracts second name' resolution') :
    (store.property (.instanceRef first) name).1 ≠
      (later.property (.instanceRef second) name').1 := by
  rw [hfirst.property] at hgrows ⊢
  rw [hsecond.property]
  intro heq
  -- The first one is there when the second one is made, and that one was not.
  apply @not_valid_bindMethod later resolution' second
  rw [← heq]
  exact (valid_bindMethod resolution first).mono hgrows

/-- A class and one of its ancestors find the same method, if it is declared above the ancestor. -/
theorem Consistent.method?_ancestor (h : store.Consistent Known) {id ancestor : ClassId}
    {name : String} {resolution : MethodResolution} (hid : id.index < store.classes.size)
    (hancestor : ancestor ∈ store.lineage id) (hfound : store.method? id name = some resolution)
    (hdeclared : resolution.declaringClass ∈ store.lineage ancestor) :
    store.method? ancestor name = some resolution := by
  obtain ⟨-, below, hlineage⟩ := h.lineage_suffix hid hancestor
  have hnodup : (store.lineage id).Nodup := h.classes_rooted.descends.nodup id
  unfold Store.method? at hfound
  rw [hlineage] at hnodup hfound
  rw [List.findSome?_append] at hfound
  -- No class below the ancestor declares it, for each class has its place in the lineage.
  cases hbelow : below.findSome? (fun other =>
      (store.ownMethod? other name).map fun method => (⟨method, other⟩ : MethodResolution)) with
  | none =>
    rw [hbelow] at hfound
    exact hfound
  | some nearer =>
    rw [hbelow] at hfound
    obtain rfl := Option.some.inj hfound
    obtain ⟨other, hmem, hother⟩ := List.exists_of_findSome?_eq_some hbelow
    obtain ⟨method, -, rfl⟩ := Option.map_eq_some_iff.mp hother
    exact absurd rfl ((List.nodup_append.mp hnodup).2.2 other hmem other hdeclared)

end Store

end Script
