import Script.Proofs.Store.Growth

/-!
# Pairs of scopes

Two runs that do the same may differ in scopes that hold no names: one of them has opened such a
scope where the other one has not. A `Pairing` says which scopes of the one run are which scopes of
the other, and which scopes of either are *blank*, that is without names and without a partner.

Names are looked up along chains of scopes. Where two chains go through the same scopes, blank ones
apart (`Pairing.Aligned`), a name is found in the same place or not at all, and this does not change
when new scopes come up on either side (`Pairing.Fits`).
-/

namespace Script

/-- Which scopes of two stores belong together. -/
structure Pairing where
  /-- The first scope is, in the first store, what the second one is in the second store. -/
  same : ScopeId → ScopeId → Prop
  /-- Around the two scopes, themselves included, there are the same scopes but for blank ones. -/
  near : ScopeId → ScopeId → Prop
  /-- The scope of the first store is blank. -/
  blank : ScopeId → Prop
  /-- The scope of the second store is blank. -/
  blank' : ScopeId → Prop
  near_of_same : ∀ {i j}, same i j → near i j

namespace Pairing

variable {W W' W'' : Pairing} {i j : ScopeId} {l r : List ScopeId}

/-- The second pairing says all that the first one says. -/
structure Within (W W' : Pairing) : Prop where
  same : ∀ {i j}, W.same i j → W'.same i j
  near : ∀ {i j}, W.near i j → W'.near i j
  blank : ∀ {i}, W.blank i → W'.blank i
  blank' : ∀ {j}, W.blank' j → W'.blank' j

instance : LE Pairing := ⟨Within⟩

theorem le_refl (W : Pairing) : W ≤ W := ⟨id, id, id, id⟩

theorem le_trans (h : W ≤ W') (h' : W' ≤ W'') : W ≤ W'' :=
  ⟨h'.same ∘ h.same, h'.near ∘ h.near, h'.blank ∘ h.blank, h'.blank' ∘ h.blank'⟩

/-- The pairing seen from the second store. -/
def swap (W : Pairing) : Pairing where
  same := fun j i => W.same i j
  near := fun j i => W.near i j
  blank := W.blank'
  blank' := W.blank
  near_of_same := W.near_of_same

/-- Seen from the second store it is the same. -/
theorem swap_le_swap (h : W ≤ W') : W.swap ≤ W'.swap := ⟨h.same, h.near, h.blank', h.blank⟩

/-- Each scope of a store with `count` scopes is paired with itself. -/
def identity (count : Nat) : Pairing where
  same := fun i j => i.index < count ∧ j = i
  near := fun i j => i.index < count ∧ j = i
  blank := fun _ => False
  blank' := fun _ => False
  near_of_same := id

/-- The pairing with two more scopes that are the same. -/
def addSame (W : Pairing) (i j : ScopeId) : Pairing :=
  { W with
    same := fun x y => W.same x y ∨ x = i ∧ y = j
    near := fun x y => W.near x y ∨ x = i ∧ y = j
    near_of_same := fun hxy => hxy.imp W.near_of_same id }

/-- The pairing with one more blank scope of the first store, inside `parent`. -/
def addBlank (W : Pairing) (i parent : ScopeId) : Pairing :=
  { W with
    near := fun x y => W.near x y ∨ x = i ∧ W.near parent y
    blank := fun x => W.blank x ∨ x = i
    near_of_same := fun hxy => .inl (W.near_of_same hxy) }

/-- A pair is added to what the pairing says. -/
theorem le_addSame (W : Pairing) (i j : ScopeId) : W ≤ W.addSame i j := ⟨.inl, .inl, id, id⟩

/-- A blank scope is added to what the pairing says. -/
theorem le_addBlank (W : Pairing) (i parent : ScopeId) : W ≤ W.addBlank i parent :=
  ⟨id, .inl, .inl, id⟩

/-! ## Chains

A chain is walked from a scope outward. Two chains are aligned if they agree once the blank scopes
are left out, and blank scopes of the one may stand anywhere between those of the other. -/

/-- The chains go through the same scopes, blank ones apart. -/
inductive Aligned (W : Pairing) : List ScopeId → List ScopeId → Prop
  | nil : Aligned W [] []
  | same {i j : ScopeId} {l r : List ScopeId} (h : W.same i j) (hrest : Aligned W l r) :
    Aligned W (i :: l) (j :: r)
  | blank {i : ScopeId} {l r : List ScopeId} (h : W.blank i) (hrest : Aligned W l r) :
    Aligned W (i :: l) r
  | blank' {j : ScopeId} {l r : List ScopeId} (h : W.blank' j) (hrest : Aligned W l r) :
    Aligned W l (j :: r)

namespace Aligned

/-- Chains stay aligned while the pairing grows. -/
theorem mono (h : W.Aligned l r) (hle : W ≤ W') : W'.Aligned l r := by
  induction h with
  | nil => exact .nil
  | same h _ ih => exact .same (hle.same h) ih
  | blank h _ ih => exact .blank (hle.blank h) ih
  | blank' h _ ih => exact .blank' (hle.blank' h) ih

/-- The two chains exchanged. -/
theorem swap (h : W.Aligned l r) : W.swap.Aligned r l := by
  induction h with
  | nil => exact .nil
  | same h _ ih => exact .same h ih
  | blank h _ ih => exact .blank' h ih
  | blank' h _ ih => exact .blank h ih

/-- What is searched for in scopes that are no blank ones is found along both chains. -/
theorem findSome?_eq {α : Type} {f g : ScopeId → Option α} (h : W.Aligned l r)
    (hsame : ∀ {i j}, W.same i j → g j = f i) (hblank : ∀ {i}, W.blank i → f i = none)
    (hblank' : ∀ {j}, W.blank' j → g j = none) : r.findSome? g = l.findSome? f := by
  -- Along the alignment: a pair is looked at on both sides, and a blank scope has nothing to be
  -- found.
  induction h with
  | nil => rfl
  | same h _ ih => rw [List.findSome?_cons, List.findSome?_cons, hsame h, ih]
  | blank h _ ih => rw [List.findSome?_cons, hblank h, ih]
  | blank' h _ ih => rw [List.findSome?_cons, hblank' h, ih]

/-- The scope that is searched for is found along both chains. -/
theorem find?_cases {p q : ScopeId → Bool} (h : W.Aligned l r)
    (hsame : ∀ {i j}, W.same i j → q j = p i) (hblank : ∀ {i}, W.blank i → p i = false)
    (hblank' : ∀ {j}, W.blank' j → q j = false) :
    (l.find? p = none ∧ r.find? q = none) ∨
      ∃ i j, W.same i j ∧ l.find? p = some i ∧ r.find? q = some j := by
  induction h with
  | nil => exact .inl ⟨rfl, rfl⟩
  | @same i j l r h _ ih =>
    rw [List.find?_cons, List.find?_cons, hsame h]
    cases p i with
    | true => exact .inr ⟨i, j, h, rfl, rfl⟩
    | false => exact ih
  | blank h _ ih => rwa [List.find?_cons, hblank h]
  | blank' h _ ih => rwa [List.find?_cons, hblank' h]

end Aligned

/-! ## Scopes in stores

`Fits` is the invariant that a pairing has with two arenas of scopes. Three changes keep it: a scope
in both, a blank scope in one, and a change of the variables of a pair. -/

/-- A scope and those around it, in an arena of scopes. In a store this is `Store.chain`. -/
def chainIn (scopes : Arena Scope) (id : ScopeId) : List ScopeId :=
  id :: (scopes.get id.index).enclosing

/-- The pairing is right about these scopes: scopes that are the same hold the same variables, a
blank scope holds none, and every scope is blank or has one partner. -/
structure Fits (W : Pairing) (a b : Arena Scope) : Prop where
  near_lt : ∀ {i j}, W.near i j → i.index < a.size ∧ j.index < b.size
  blank_lt : ∀ {i}, W.blank i → i.index < a.size
  blank_lt' : ∀ {j}, W.blank' j → j.index < b.size
  unique : ∀ {i j i' j'}, W.same i j → W.same i' j' → (i = i' ↔ j = j')
  bindings : ∀ {i j}, W.same i j → (b.get j.index).bindings = (a.get i.index).bindings
  chains : ∀ {i j}, W.near i j → W.Aligned (chainIn a i) (chainIn b j)
  empty : ∀ {i}, W.blank i → (a.get i.index).bindings = .empty ∧ ∀ j, ¬ W.same i j
  empty' : ∀ {j}, W.blank' j → (b.get j.index).bindings = .empty ∧ ∀ i, ¬ W.same i j
  all : ∀ i : ScopeId, i.index < a.size → W.blank i ∨ ∃ j, W.same i j
  all' : ∀ j : ScopeId, j.index < b.size → W.blank' j ∨ ∃ i, W.same i j

namespace Fits

variable {a b : Arena Scope}

/-- The invariant seen from the second store. -/
theorem swap (h : W.Fits a b) : W.swap.Fits b a where
  near_lt := fun hnear => (h.near_lt hnear).symm
  blank_lt := h.blank_lt'
  blank_lt' := h.blank_lt
  unique := fun hsame hsame' => (h.unique hsame hsame').symm
  bindings := fun hsame => (h.bindings hsame).symm
  chains := fun hnear => (h.chains hnear).swap
  empty := h.empty'
  empty' := h.empty
  all := h.all'
  all' := h.all

/-- Everything in an arena is the same after something was added. -/
theorem get_push {i : ScopeId} (hi : i.index < a.size) (scope : Scope) :
    (a.push scope).get i.index = a.get i.index :=
  Arena.get_push_of_lt a scope hi

/-- The scopes around an old scope are the same after something was added. -/
theorem chainIn_push {i : ScopeId} (hi : i.index < a.size) (scope : Scope) :
    chainIn (a.push scope) i = chainIn a i := by
  rw [chainIn, get_push hi, chainIn]

/-- An old scope is still there. -/
theorem lt_push {i : ScopeId} (hi : i.index < a.size) (scope : Scope) :
    i.index < (a.push scope).size := by
  rw [Arena.size_push]
  omega

/-- A scope of an arena that was added to is the new one or an old one. -/
theorem eq_or_lt {i : ScopeId} {scope : Scope} (hi : i.index < (a.push scope).size) :
    i = ⟨a.size⟩ ∨ i.index < a.size := by
  rw [Arena.size_push] at hi
  rcases Nat.lt_succ_iff_lt_or_eq.mp hi with hlt | heq
  · exact .inr hlt
  · left
    rw [← heq]

/-- An old scope is not the new one. -/
theorem ne_new {i : ScopeId} (hi : i.index < a.size) : i ≠ ⟨a.size⟩ := by
  rintro rfl
  exact Nat.lt_irrefl _ hi

/-- New scopes with the same variables inside scopes that are near to each other. -/
theorem push (h : W.Fits a b) (hnear : W.near i j) (bindings : Table Value) :
    (W.addSame ⟨a.size⟩ ⟨b.size⟩).Fits (a.push ⟨chainIn a i, bindings⟩)
      (b.push ⟨chainIn b j, bindings⟩) := by
  have hle := W.le_addSame ⟨a.size⟩ ⟨b.size⟩
  have hlt : ∀ {x y}, W.same x y → x.index < a.size ∧ y.index < b.size := fun hsame =>
    h.near_lt (W.near_of_same hsame)
  constructor
  -- A pair of the new relation is an old one, or the pair of the two new scopes.
  case near_lt =>
    rintro x y (hxy | ⟨rfl, rfl⟩)
    · exact ⟨lt_push (h.near_lt hxy).1 _, lt_push (h.near_lt hxy).2 _⟩
    · simp
  case blank_lt => exact fun hblank => lt_push (h.blank_lt hblank) _
  case blank_lt' => exact fun hblank => lt_push (h.blank_lt' hblank) _
  case unique =>
    rintro x y x' y' (hxy | ⟨rfl, rfl⟩) (hxy' | ⟨rfl, rfl⟩)
    · exact h.unique hxy hxy'
    · simp [ne_new (hlt hxy).1, ne_new (hlt hxy).2]
    · simp [(ne_new (hlt hxy').1).symm, (ne_new (hlt hxy').2).symm]
    · simp
  case bindings =>
    rintro x y (hxy | ⟨rfl, rfl⟩)
    · rw [get_push (hlt hxy).1, get_push (hlt hxy).2]
      exact h.bindings hxy
    · simp
  case chains =>
    rintro x y (hxy | ⟨rfl, rfl⟩)
    · rw [chainIn_push (h.near_lt hxy).1, chainIn_push (h.near_lt hxy).2]
      exact (h.chains hxy).mono hle
    · -- The new scopes are a pair, and around them are scopes that are aligned already.
      simp only [chainIn, Arena.get_push_size]
      exact .same (.inr ⟨rfl, rfl⟩) ((h.chains hnear).mono hle)
  -- A blank scope is an old one, so it stays empty and is paired with none of the new ones.
  case empty =>
    intro x hblank
    refine ⟨by rw [get_push (h.blank_lt hblank)]; exact (h.empty hblank).1, ?_⟩
    rintro y (hxy | ⟨rfl, -⟩)
    · exact (h.empty hblank).2 y hxy
    · exact ne_new (h.blank_lt hblank) rfl
  case empty' =>
    intro y hblank
    refine ⟨by rw [get_push (h.blank_lt' hblank)]; exact (h.empty' hblank).1, ?_⟩
    rintro x (hxy | ⟨-, rfl⟩)
    · exact (h.empty' hblank).2 x hxy
    · exact ne_new (h.blank_lt' hblank) rfl
  -- Every scope is an old one, or the one that has just been pushed.
  case all =>
    intro x hx
    rcases eq_or_lt hx with rfl | hx
    · exact .inr ⟨_, .inr ⟨rfl, rfl⟩⟩
    · exact (h.all x hx).imp id fun ⟨y, hxy⟩ => ⟨y, .inl hxy⟩
  case all' =>
    intro y hy
    rcases eq_or_lt hy with rfl | hy
    · exact .inr ⟨_, .inr ⟨rfl, rfl⟩⟩
    · exact (h.all' y hy).imp id fun ⟨x, hxy⟩ => ⟨x, .inl hxy⟩

/-- A new scope without variables in the first store only. -/
theorem pushBlank (h : W.Fits a b) (parent : ScopeId) :
    (W.addBlank ⟨a.size⟩ parent).Fits (a.push ⟨chainIn a parent, .empty⟩) b := by
  have hle := W.le_addBlank ⟨a.size⟩ parent
  have hlt : ∀ {x y}, W.same x y → x.index < a.size := fun hsame =>
    (h.near_lt (W.near_of_same hsame)).1
  constructor
  case near_lt =>
    rintro x y (hxy | ⟨rfl, hxy⟩)
    · exact ⟨lt_push (h.near_lt hxy).1 _, (h.near_lt hxy).2⟩
    · simpa using (h.near_lt hxy).2
  case blank_lt =>
    rintro x (hblank | rfl)
    · exact lt_push (h.blank_lt hblank) _
    · simp
  case blank_lt' => exact h.blank_lt'
  case unique => exact h.unique
  -- No new pair of scopes with variables has come up.
  case bindings =>
    intro x y hxy
    rw [get_push (hlt hxy)]
    exact h.bindings hxy
  case chains =>
    rintro x y (hxy | ⟨rfl, hxy⟩)
    · rw [chainIn_push (h.near_lt hxy).1]
      exact (h.chains hxy).mono hle
    · -- The new scope is passed, and the rest of its chain is aligned already.
      simp only [chainIn, Arena.get_push_size]
      exact .blank (.inr rfl) ((h.chains hxy).mono hle)
  case empty =>
    rintro x (hblank | rfl)
    · rw [get_push (h.blank_lt hblank)]
      exact h.empty hblank
    · exact ⟨by rw [Arena.get_push_size], fun y hxy => ne_new (hlt hxy) rfl⟩
  case empty' => exact h.empty'
  case all =>
    intro x hx
    rcases eq_or_lt hx with rfl | hx
    · exact .inl (.inr rfl)
    · exact (h.all x hx).imp .inl id
  case all' => exact h.all'

/-- Two scopes that are the same have their variables changed alike. -/
theorem modify (h : W.Fits a b) (hsame : W.same i j) (f : Table Value → Table Value) :
    W.Fits (a.modify i.index fun s => { s with bindings := f s.bindings })
      (b.modify j.index fun s => { s with bindings := f s.bindings }) := by
  have hlt := h.near_lt (W.near_of_same hsame)
  -- A change of variables leaves the scopes around a scope alone.
  have hchain : ∀ (arena : Arena Scope) (k x : ScopeId),
      chainIn (arena.modify k.index fun s => { s with bindings := f s.bindings }) x =
        chainIn arena x := by
    intro arena k x
    unfold chainIn
    congr 1
    exact Arena.get_modify_part arena k.index x.index fun _ => rfl
  have hother : ∀ (arena : Arena Scope) {k x : ScopeId}, x ≠ k →
      (arena.modify k.index fun s => { s with bindings := f s.bindings }).get x.index =
        arena.get x.index := by
    intro arena k x hne
    refine Arena.get_modify_of_ne arena _ fun heq => hne ?_
    obtain ⟨x⟩ := x
    obtain ⟨k⟩ := k
    exact congrArg ScopeId.mk heq.symm
  constructor
  case near_lt =>
    intro x y hxy
    simpa using h.near_lt hxy
  case blank_lt =>
    intro x hblank
    simpa using h.blank_lt hblank
  case blank_lt' =>
    intro y hblank
    simpa using h.blank_lt' hblank
  case unique => exact h.unique
  case bindings =>
    intro x y hxy
    by_cases hx : x = i
    · have hy : y = j := (h.unique hxy hsame).mp hx
      subst hx hy
      rw [Arena.get_modify_self _ _ hlt.1, Arena.get_modify_self _ _ hlt.2]
      exact congrArg f (h.bindings hxy)
    · have hy : y ≠ j := fun heq => hx ((h.unique hxy hsame).mpr heq)
      rw [hother a hx, hother b hy]
      exact h.bindings hxy
  case chains =>
    intro x y hxy
    rw [hchain, hchain]
    exact h.chains hxy
  -- A blank scope has no partner, so it is none of the two.
  case empty =>
    intro x hblank
    have hne : x ≠ i := by
      rintro rfl
      exact (h.empty hblank).2 _ hsame
    rw [hother a hne]
    exact h.empty hblank
  case empty' =>
    intro y hblank
    have hne : y ≠ j := by
      rintro rfl
      exact (h.empty' hblank).2 _ hsame
    rw [hother b hne]
    exact h.empty' hblank
  case all => simpa using h.all
  case all' => simpa using h.all'

end Fits

end Pairing

end Script
