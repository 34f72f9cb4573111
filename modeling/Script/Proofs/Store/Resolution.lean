import Script.Proofs.Store.Hierarchy

/-!
# Resolution of methods

Classes are declared one after the other, each with a row of methods in which names may repeat, and
with a superclass that is there by then or with none (`Store.DeclaredBy`). Among such classes a
method is resolved to the last one of its name in the nearest class upward that declares it, and
the loops that go from a class to its superclass, looking for a method or for another class, agree
with this and with each other (`resolvesMethods_of_declared`).

A store says less than the declarations: each class has the table of its methods and the list of
its ancestors (`Store.Shaped`). That list only leads to older classes, so that the classes from a
given one upward are the end of what is upward from every class below it (`Descends.suffix`).
-/

namespace Script

/-- What a class is declared with: a name, a superclass if it has one, and methods of which some may
share a name. -/
structure ClassDeclaration where
  name : String
  superclass : Option ClassId
  methods : List (String × FunctionId)

/-- The last of the methods with this name. -/
def ClassDeclaration.lastMethod? (decl : ClassDeclaration) (name : String) : Option FunctionId :=
  (decl.methods.reverse.find? fun method => method.1 = name).map Prod.snd

namespace Store

/-- The classes of the store are those of the declarations, in their order. -/
inductive DeclaredBy : Store → List ClassDeclaration → Prop where
  | none {store : Store} (h : store.classes.size = 0) : DeclaredBy store []
  | declare {store : Store} {decls : List ClassDeclaration} (h : DeclaredBy store decls)
      (decl : ClassDeclaration)
      (hsuper : ∀ parent ∈ decl.superclass, parent.index < store.classes.size) :
      DeclaredBy (store.declareClass decl.name decl.superclass decl.methods).2 (decls ++ [decl])
  /-- Other changes of a store leave the ancestors and the methods of classes alone. -/
  | change {store store' : Store} {decls : List ClassDeclaration} (h : DeclaredBy store decls)
      (hsize : store'.classes.size = store.classes.size)
      (hkept : Arena.Extends Class.Kept store.classes store'.classes) : DeclaredBy store' decls

/-- The loop that looks for a method of a class, where it begins at `start`. This may be the class
itself or one of its ancestors. -/
structure LooksUp (store : Store) (id : ClassId) (name : String) (start : ClassId)
    (found : Option MethodResolution) : Prop where
  starts : store.isSubclass id start = true
  search : Search store.superclass?
    (fun other => (store.ownMethod? other name).map fun method => ⟨method, other⟩) start found

/-- The loop that looks for a class from another one upward. -/
def Climbs (store : Store) (id other : ClassId) (found : Option ClassId) : Prop :=
  Search store.superclass? (Option.guard fun ancestor => ancestor = other) id found

/-- How methods of declared classes are resolved, and how the classes are ordered. -/
structure ResolvesMethods (store : Store) (decls : List ClassDeclaration) : Prop where
  /-- Of several methods of one name the last one counts. -/
  own : ∀ id decl name, decls[id.index]? = some decl →
    store.ownMethod? id name = decl.lastMethod? name
  /-- What a class declares comes before what its superclass resolves. -/
  resolve : ∀ id decl name, decls[id.index]? = some decl →
    store.method? id name = match decl.lastMethod? name with
      | some method => some ⟨method, id⟩
      | none => decl.superclass.bind fun parent => store.method? parent name
  /-- Which class a look-up is for does not matter, only where it starts. -/
  lookUp : ∀ id start name, store.isSubclass id start = true →
    ∀ found, store.LooksUp id name start found ↔ found = store.method? start name
  /-- What is found is declared by a class from the start upward, and by none before it. -/
  nearest : ∀ id start name resolution, store.isSubclass id start = true →
    store.method? start name = some resolution →
    store.isSubclass id resolution.declaringClass = true ∧
      store.isSubclass start resolution.declaringClass = true ∧
      store.ownMethod? resolution.declaringClass name = some resolution.method ∧
      ∀ below, store.isSubclass start below = true →
        store.isSubclass below resolution.declaringClass = true →
        below ≠ resolution.declaringClass → store.ownMethod? below name = none
  climbs : ∀ id other found, store.Climbs id other found ↔
    found = if store.isSubclass id other then some other else none
  refl : ∀ id, store.isSubclass id id = true
  trans : ∀ id other third, store.isSubclass id other = true →
    store.isSubclass other third = true → store.isSubclass id third = true
  antisymm : ∀ id other, store.isSubclass id other = true → store.isSubclass other id = true →
    id = other
  /-- Of two ancestors of a class one is an ancestor of the other. -/
  chain : ∀ id other third, store.isSubclass id other = true → store.isSubclass id third = true →
    store.isSubclass other third = true ∨ store.isSubclass third other = true

/-! ## Stores of declared classes

The proof forgets how the classes were declared, and goes on from the shape that they have in the
store. The shape is kept by each declaration and by every change that leaves the structure of
classes alone. -/

/-- The store has the classes of the declarations, each with its methods and its ancestors, which
are older. -/
structure Shaped (store : Store) (decls : List ClassDeclaration) : Prop where
  size : store.classes.size = decls.length
  older : ∀ (i : Nat) decl, decls[i]? = some decl → ∀ parent ∈ decl.superclass, parent.index < i
  ancestors : ∀ (i : Nat) decl, decls[i]? = some decl →
    (store.classes.get i).ancestors = (decl.superclass.map store.lineage).getD []
  methods : ∀ (i : Nat) decl, decls[i]? = some decl →
    (store.classes.get i).methods = .ofList decl.methods

/-- A class inherits from those of its lineage. -/
theorem isSubclass_iff {store : Store} {id other : ClassId} :
    store.isSubclass id other = true ↔ other ∈ store.lineage id := decide_eq_true_iff

section

variable {store store' : Store} {decls : List ClassDeclaration}

/-- The classes keep their shape while new ones come after them. -/
theorem Shaped.of_kept (h : store.Shaped decls) {others : List ClassDeclaration}
    (hkept : Arena.Extends Class.Kept store.classes store'.classes)
    (hsize : store'.classes.size = (decls ++ others).length)
    (hothers : ∀ i decl, others[i]? = some decl →
      (∀ parent ∈ decl.superclass, parent.index < decls.length + i) ∧
      (store'.classes.get (decls.length + i)).ancestors =
        (decl.superclass.map store'.lineage).getD [] ∧
      (store'.classes.get (decls.length + i)).methods = .ofList decl.methods) :
    store'.Shaped (decls ++ others) := by
  -- A class is one of those that were there, or it is new.
  have hcases : ∀ i decl, (decls ++ others)[i]? = some decl →
      (i < store.classes.size ∧ decls[i]? = some decl) ∨
        ∃ j, i = decls.length + j ∧ others[j]? = some decl := by
    intro i decl hdecl
    rcases Nat.lt_or_ge i decls.length with hlt | hge
    · rw [List.getElem?_append_left hlt] at hdecl
      exact .inl ⟨h.size ▸ hlt, hdecl⟩
    · rw [List.getElem?_append_right hge] at hdecl
      exact .inr ⟨i - decls.length, by omega, hdecl⟩
  refine ⟨hsize, fun i decl hdecl => ?_, fun i decl hdecl => ?_, fun i decl hdecl => ?_⟩
  all_goals rcases hcases i decl hdecl with ⟨hi, hold⟩ | ⟨j, rfl, hnew⟩
  · exact h.older i decl hold
  · exact (hothers j decl hnew).1
  · rw [(hkept.related i hi).ancestors, h.ancestors i decl hold]
    cases hsuper : decl.superclass with
    | none => rfl
    | some parent =>
      -- The superclass is older, and keeps its ancestors as well.
      have hparent : parent.index < store.classes.size :=
        Nat.lt_trans (h.older i decl hold parent hsuper) hi
      show store.lineage parent = store'.lineage parent
      unfold lineage classOf
      rw [(hkept.related parent.index hparent).ancestors]
  · exact (hothers j decl hnew).2.1
  · rw [(hkept.related i hi).methods]
    exact h.methods i decl hold
  · exact (hothers j decl hnew).2.2

/-- One class more, below a class that is there. -/
theorem Shaped.declare (h : store.Shaped decls) (decl : ClassDeclaration)
    (hsuper : ∀ parent ∈ decl.superclass, parent.index < store.classes.size) :
    (store.declareClass decl.name decl.superclass decl.methods).2.Shaped (decls ++ [decl]) := by
  refine h.of_kept (Arena.extends_push Class.Kept.refl _ _) ?_ ?_
  · show (store.classes.push _).size = _
    rw [Arena.size_push, h.size, List.length_append, List.length_singleton]
  · intro i other hother
    obtain ⟨rfl, rfl⟩ : i = 0 ∧ other = decl := by
      cases i with
      | zero => exact ⟨rfl, (Option.some.inj hother).symm⟩
      | succ i => cases hother
    -- The new class stands at the end, with the lineage of its superclass.
    have hget : (store.declareClass other.name other.superclass other.methods).2.classes.get
        (decls.length + 0) = ⟨other.name, (other.superclass.map store.lineage).getD [],
          .ofList other.methods, .empty⟩ := by
      rw [Nat.add_zero, ← h.size]
      refine (Arena.get_push_size ..).trans ?_
      cases other.superclass <;> rfl
    refine ⟨fun parent hparent => h.size ▸ hsuper parent hparent, ?_, by rw [hget]⟩
    rw [hget]
    cases hparent : other.superclass with
    | none => rfl
    | some parent =>
      show store.lineage parent = lineage _ parent
      unfold lineage
      congr 2
      exact (Arena.get_push_of_lt store.classes _ (hsuper parent hparent)).symm

/-- Declared classes have the shape, by induction on the changes that have led to the store. -/
theorem DeclaredBy.shaped (h : store.DeclaredBy decls) : store.Shaped decls := by
  induction h with
  | none h => exact ⟨h, by simp, by simp, by simp⟩
  | declare _ decl hsuper ih => exact ih.declare decl hsuper
  | @change store store' decls _ hsize hkept ih =>
    rw [← List.append_nil decls]
    refine ih.of_kept hkept (by rw [List.append_nil, hsize, ih.size]) fun i decl hdecl => ?_
    cases hdecl

end

namespace Shaped

variable {store : Store} {decls : List ClassDeclaration} (h : store.Shaped decls)
variable {id other third start : ClassId} {decl : ClassDeclaration} {name : String}

include h

/-- The ancestors of a class are the lineage of its superclass. -/
theorem superclass_eq (hdecl : decls[id.index]? = some decl) :
    (store.classOf id).ancestors = (decl.superclass.map store.lineage).getD [] :=
  h.ancestors id.index decl hdecl

/-- Ancestors are older, and have those of each of them. -/
theorem descends : Descends ClassId.index fun id => (store.classOf id).ancestors := by
  intro id
  cases hdecl : decls[id.index]? with
  | none =>
    have hbeyond : store.classes.size ≤ id.index := h.size ▸ List.getElem?_eq_none_iff.mp hdecl
    -- Beyond the classes there is nothing.
    left
    show (store.classes.get id.index).ancestors = []
    rw [Arena.get_of_size_le _ hbeyond]
    rfl
  | some decl =>
    show (store.classOf id).ancestors = [] ∨ _
    rw [h.superclass_eq hdecl]
    cases hsuper : decl.superclass with
    | none => exact .inl rfl
    | some parent =>
      right
      refine ⟨parent, h.older id.index decl hdecl parent hsuper, ?_⟩
      simp [h.superclass_eq hdecl, hsuper, lineage]

/-- The lineage of an ancestor is the end of that of the class. -/
theorem lineage_suffix (hother : store.isSubclass id other = true) :
    store.lineage other <:+ store.lineage id :=
  h.descends.suffix (isSubclass_iff.mp hother)

/-- The lineage of a class is the way upward from it. -/
theorem walk (id : ClassId) : Walk store.superclass? id (store.lineage id) := h.descends.walk id

/-- What the table of a class holds for a name is the last method of this name. -/
theorem own (hdecl : decls[id.index]? = some decl) (name : String) :
    store.ownMethod? id name = decl.lastMethod? name := by
  show (store.classes.get id.index).methods.get? name = _
  rw [h.methods id.index decl hdecl]
  exact Table.get?_ofList decl.methods name

/-- A method of the class itself comes first, and what the superclass resolves after it. -/
theorem resolve (hdecl : decls[id.index]? = some decl) (name : String) :
    store.method? id name = match decl.lastMethod? name with
      | some method => some ⟨method, id⟩
      | none => decl.superclass.bind fun parent => store.method? parent name := by
  rw [method?, lineage, List.findSome?_cons, h.own hdecl, h.superclass_eq hdecl]
  cases decl.lastMethod? name with
  | some method => rfl
  | none =>
    dsimp only [Option.map_none]
    cases decl.superclass <;> rfl

/-- What is found is declared by a class from the start upward, and by none before it. -/
theorem nearest {resolution : MethodResolution} (hstart : store.isSubclass id start = true)
    (hfound : store.method? start name = some resolution) :
    store.isSubclass id resolution.declaringClass = true ∧
      store.isSubclass start resolution.declaringClass = true ∧
      store.ownMethod? resolution.declaringClass name = some resolution.method ∧
      ∀ below, store.isSubclass start below = true →
        store.isSubclass below resolution.declaringClass = true →
        below ≠ resolution.declaringClass → store.ownMethod? below name = none := by
  -- The lineage is split at the class in which the search has stopped.
  obtain ⟨nearer, declaring, further, hlineage, hfound, hnearer⟩ :=
    List.findSome?_eq_some_iff.mp hfound
  obtain ⟨method, hmethod, rfl⟩ := Option.map_eq_some_iff.mp hfound
  have hmem : declaring ∈ store.lineage start := by
    rw [hlineage]
    exact List.mem_append_right _ (.head _)
  refine ⟨isSubclass_iff.mpr ((h.lineage_suffix hstart).subset hmem), isSubclass_iff.mpr hmem,
    hmethod, ?_⟩
  intro below hbelow habove hne
  have hpairwise : (store.lineage start).Pairwise fun a b => b.index < a.index :=
    h.descends.pairwise start
  rw [hlineage] at hpairwise
  have hbelow : below ∈ nearer ++ declaring :: further := by
    rw [← hlineage]
    exact isSubclass_iff.mp hbelow
  rcases List.mem_append.mp hbelow with hbelow | hbelow
  · exact Option.map_eq_none_iff.mp (hnearer below hbelow)
  rcases List.mem_cons.mp hbelow with heq | hbelow
  · exact absurd heq hne
  -- What comes after the declaring class is older than it, but it was made after its ancestors.
  have holder : below.index < declaring.index :=
    (List.pairwise_cons.mp (List.pairwise_append.mp hpairwise).2.1).1 below hbelow
  have hyounger : declaring.index < below.index := by
    rcases List.mem_cons.mp (isSubclass_iff.mp habove) with heq | hmem
    · exact absurd heq.symm hne
    · exact h.descends.ahead_lt hmem
  omega

/-- The loop that compares classes ends with a hit just if the class is in the lineage. -/
theorem climbs {found : Option ClassId} : store.Climbs id other found ↔
    found = if store.isSubclass id other then some other else none := by
  have hsearch : store.Climbs id other
      ((store.lineage id).findSome? (Option.guard fun ancestor => ancestor = other)) :=
    (h.walk id).search _
  have hresult : (store.lineage id).findSome? (Option.guard fun ancestor => ancestor = other) =
      if store.isSubclass id other then some other else none := by
    rw [← List.find?_eq_findSome?_guard]
    by_cases hmem : other ∈ store.lineage id
    · rw [if_pos (isSubclass_iff.mpr hmem)]
      cases hfind : (store.lineage id).find? (fun ancestor => ancestor = other) with
      | none => simpa using List.find?_eq_none.mp hfind other hmem
      | some found => simpa using List.find?_some hfind
    · have hnone : ∀ ancestor ∈ store.lineage id, ancestor ≠ other := by
        rintro ancestor hancestor rfl
        exact hmem hancestor
      rw [if_neg (mt isSubclass_iff.mp hmem)]
      simpa using hnone
  -- A search has one result.
  rw [hresult] at hsearch
  constructor
  · intro hclimbs
    exact hclimbs.unique hsearch
  · intro heq
    rwa [heq]

/-- No two classes inherit from each other: an ancestor is older than what descends from it. -/
theorem antisymm (hother : store.isSubclass id other = true)
    (hid : store.isSubclass other id = true) : id = other := by
  rcases List.mem_cons.mp (isSubclass_iff.mp hother) with heq | hother
  · exact heq.symm
  rcases List.mem_cons.mp (isSubclass_iff.mp hid) with heq | hid
  · exact heq
  -- Each of them would be older than the other one.
  exact absurd (h.descends.ahead_lt hother) (Nat.lt_asymm (h.descends.ahead_lt hid))

/-- Two ends of one list are such that one of them is an end of the other. -/
theorem chain (hother : store.isSubclass id other = true)
    (hthird : store.isSubclass id third = true) :
    store.isSubclass other third = true ∨ store.isSubclass third other = true := by
  rcases List.suffix_or_suffix_of_suffix (h.lineage_suffix hother) (h.lineage_suffix hthird) with
    hsuffix | hsuffix
  · exact .inr (isSubclass_iff.mpr (hsuffix.subset List.mem_cons_self))
  · exact .inl (isSubclass_iff.mpr (hsuffix.subset List.mem_cons_self))

end Shaped

/-- Methods are resolved to the nearest class upward that declares them, and inheritance is an order
in which the ancestors of a class form a chain. The ancestors that a class carries along are the
classes that are met on the way upward, so that both ways to search agree. -/
theorem resolvesMethods_of_declared {store : Store} {decls : List ClassDeclaration}
    (h : store.DeclaredBy decls) : store.ResolvesMethods decls where
  own := fun _ _ name hdecl => h.shaped.own hdecl name
  resolve := fun _ _ name hdecl => h.shaped.resolve hdecl name
  lookUp := fun id start name hstart found => by
    have hsearch := (h.shaped.walk start).search
      fun other => (store.ownMethod? other name).map fun method =>
        (⟨method, other⟩ : MethodResolution)
    exact ⟨fun hlook => hlook.search.unique hsearch, fun heq => ⟨hstart, heq ▸ hsearch⟩⟩
  nearest := fun _ _ _ _ hstart hfound => h.shaped.nearest hstart hfound
  climbs := fun _ _ _ => h.shaped.climbs
  refl := fun _ => isSubclass_iff.mpr List.mem_cons_self
  trans := fun _ _ _ hother hthird =>
    isSubclass_iff.mpr ((h.shaped.lineage_suffix hother).subset (isSubclass_iff.mp hthird))
  antisymm := fun _ _ hother hid => h.shaped.antisymm hother hid
  chain := fun _ _ _ hother hthird => h.shaped.chain hother hthird

/-- Before a program runs there is the root class, which declares nothing. -/
theorem declaredBy_initial : initial.DeclaredBy [⟨rootClassName, none, []⟩] :=
  @DeclaredBy.declare { initial with classes := .empty } [] (.none rfl) ⟨rootClassName, none, []⟩
    (by simp)

/-- Setting a property declares nothing. -/
theorem DeclaredBy.setProperty {store store' : Store} {decls : List ClassDeclaration}
    {object value : Value} {name : String} (h : store.DeclaredBy decls)
    (hset : store.setProperty object name value = .ok store') : store'.DeclaredBy decls := by
  refine h.change ?_ (grows_setProperty hset).classes
  rcases setProperty_eq_ok.mp hset with ⟨id, -, rfl⟩ | ⟨id, -, rfl⟩ | ⟨ref, -, rfl⟩
  · rfl
  · exact Arena.size_modify ..
  · cases ref <;> rfl

/-- Two classes of one name, the second below the first: the first has two methods `m`, and each of
them has a method `n`. The last class declares nothing. -/
def namesakes : List ClassDeclaration :=
  [⟨rootClassName, none, []⟩, ⟨"A", some ⟨0⟩, [("m", ⟨0⟩), ("n", ⟨1⟩), ("m", ⟨2⟩)]⟩,
    ⟨"A", some ⟨1⟩, [("n", ⟨3⟩)]⟩, ⟨"B", some ⟨2⟩, []⟩]

/-- A field of a class hides none of their methods. -/
theorem resolvesMethods_namesakes : ∃ store : Store,
    store.DeclaredBy namesakes ∧ store.ResolvesMethods namesakes ∧
      store.method? ⟨3⟩ "m" = some ⟨⟨2⟩, ⟨1⟩⟩ ∧ store.method? ⟨3⟩ "n" = some ⟨⟨3⟩, ⟨2⟩⟩ := by
  have hfirst := declaredBy_initial.declare
    ⟨"A", some ⟨0⟩, [("m", ⟨0⟩), ("n", ⟨1⟩), ("m", ⟨2⟩)]⟩ (by decide)
  have hsecond := hfirst.declare ⟨"A", some ⟨1⟩, [("n", ⟨3⟩)]⟩ (by decide)
  have hthird := hsecond.declare ⟨"B", some ⟨2⟩, []⟩ (by decide)
  have hchanged := @DeclaredBy.setProperty _ _ _ (.classRef ⟨3⟩) .nil "m" hthird rfl
  exact ⟨_, hchanged, resolvesMethods_of_declared hchanged, by decide +kernel, by decide +kernel⟩

end Store

end Script
