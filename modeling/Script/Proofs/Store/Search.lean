import Script.Proofs.Store.Consistent

/-!
# Searches

A name is searched for along the scopes around a place, and a method along a class and its
ancestors. The first hit wins, so what is behind it does not matter; what is in front of it only
has to be known not to be one.
-/

namespace Script

namespace Store

variable {Known : FunctionDecl → Prop} {a b store : Store}

/-! ## Scopes -/

section

variable {scope owner : ScopeId} {n : Nat} {name : String}

/-- A scope further out splits the scopes around a place. -/
theorem chain_split (h : (store.chain scope)[n]? = some owner) :
    ∃ outer, store.chain scope = (store.chain scope).take n ++ owner :: outer := by
  obtain ⟨hlt, hget⟩ := List.getElem?_eq_some_iff.mp h
  refine ⟨(store.chain scope).drop (n + 1), ?_⟩
  rw [← hget, ← List.drop_eq_getElem_cons hlt, List.take_append_drop]

/-- A name is read in the first scope that holds it. -/
theorem lookup_reached (h : (store.chain scope)[n]? = some owner)
    (hpassed : ∀ id ∈ (store.chain scope).take n, (store.bindings id).get? name = none)
    {value : Value} (hvalue : (store.bindings owner).get? name = some value) :
    store.lookup scope name = .ok value := by
  obtain ⟨outer, hchain⟩ := chain_split h
  unfold lookup
  rw [hchain, List.findSome?_append, List.findSome?_eq_none_iff.mpr hpassed, List.findSome?_cons,
    hvalue]
  rfl

end

/-! ## Classes -/

/-- The classes strictly above a class, from its superclass to the root of its hierarchy. -/
def above (store : Store) (id : ClassId) : List ClassId := (store.classOf id).ancestors

/-- The first declaration of a method strictly above a class. -/
def methodAbove? (store : Store) (id : ClassId) (name : String) : Option MethodResolution :=
  (store.above id).findSome? fun other =>
    (store.ownMethod? other name).map fun method => ⟨method, other⟩

section

variable {id parent : ClassId} {name : String} {resolution : MethodResolution}

/-- To search strictly above a class is to search from its superclass upward. -/
theorem methodAbove?_eq (h : store.Consistent Known) (hid : id.index < store.classes.size)
    (hparent : store.superclass? id = some parent) :
    store.methodAbove? id name = store.method? parent name := by
  obtain ⟨-, hlineage⟩ := h.superclass_lineage hid hparent
  have habove : store.above id = store.lineage parent := List.tail_eq_of_cons_eq hlineage
  unfold methodAbove? method?
  rw [habove]

/-- What is found is declared by a class strictly above, and by no class before that one. -/
theorem methodAbove?_eq_some (h : store.methodAbove? id name = some resolution) :
    ∃ nearer further, store.above id = nearer ++ resolution.declaringClass :: further ∧
      (∀ other ∈ nearer, store.ownMethod? other name = none) ∧
      store.ownMethod? resolution.declaringClass name = some resolution.method := by
  obtain ⟨nearer, other, further, habove, hfound, hnearer⟩ := List.findSome?_eq_some_iff.mp h
  obtain ⟨method, hmethod, rfl⟩ := Option.map_eq_some_iff.mp hfound
  refine ⟨nearer, further, habove, ?_, hmethod⟩
  exact fun other hother => Option.map_eq_none_iff.mp (hnearer other hother)

/-- The search depends on the classes above and on what they declare under the name. -/
theorem methodAbove?_congr (habove : b.above id = a.above id)
    (hown : ∀ other ∈ a.above id, b.ownMethod? other name = a.ownMethod? other name) :
    b.methodAbove? id name = a.methodAbove? id name := by
  unfold methodAbove?
  rw [habove]
  clear habove
  generalize a.above id = ids at hown
  induction ids with
  | nil => rfl
  | cons first rest ih =>
    obtain ⟨hfirst, hrest⟩ := List.forall_mem_cons.mp hown
    rw [List.findSome?_cons, List.findSome?_cons, hfirst, ih hrest]

/-- What is found above a class never changes. -/
theorem Grows.methodAbove? (hgrows : Grows a b) (h : a.Consistent Known)
    (hid : id.index < a.classes.size) : b.methodAbove? id name = a.methodAbove? id name := by
  have hlineage := hgrows.lineage hid
  refine methodAbove?_congr (List.tail_eq_of_cons_eq hlineage) fun other hother => ?_
  exact hgrows.ownMethod? (Nat.lt_trans (h.ancestor_lt hid hother) hid) name

/-- What a class finds is fixed once the class is there. -/
theorem Grows.method? (hgrows : Grows a b) (h : a.Consistent Known)
    (hid : id.index < a.classes.size) : b.method? id name = a.method? id name := by
  have habove : b.methodAbove? id name = a.methodAbove? id name := hgrows.methodAbove? h hid
  unfold Store.methodAbove? Store.above at habove
  unfold Store.method? Store.lineage
  rw [List.findSome?_cons, List.findSome?_cons, hgrows.ownMethod? hid, habove]

end

end Store

end Script
