import Script.Proofs.Run.SoundStore

/-!
# Scopes follow the text

The scopes around a place of a run mirror the regions around the place of the text that is being
run: `Follows store scope context` says that the scopes from `scope` outward were opened one for
each region of the context, and that each of them holds at least the names that its region has
declared. What a scope holds at most is known as well, since it was opened for a region of which
all the names are known (`Nested.bounded`).

A function carries the scope that its declaration stood in, which follows the context of that place
(`Placed`). So the scopes around a call follow the text of the function, whoever calls it.
-/

namespace Script

/-! ## Openings and regions

A trace tells for each scope what it was opened for, which is an opening; the text has regions. The
two are told apart because an opening knows a little more: the function that was called, and what it
is bound to. A scope for a region has room for the names that the region declares, and the one for
the parameters of a method has `this` and `super` besides. -/

/-- All the names that may be declared in a scope that is opened for this, apart from `this` and
`super`. -/
def Opening.declared : Opening → List String
  | .block statements => Stmt.declaredByAll statements
  | .branch stmt => stmt.declared
  | .header init => declaredByInit init
  | .parameters decl _ _ => decl.params.map Token.lexeme
  | .body decl => Stmt.declaredByAll decl.body

/-- A scope for this region of the text is opened so. Only methods have receivers. -/
inductive Opening.For : Opening → Region → Prop where
  | block (body : List Stmt) : For (.block body) (.block body)
  | branch (stmt : Stmt) : For (.branch stmt) (.branch stmt)
  | header (init : Option Stmt) : For (.header init) (.header init)
  | parameters (decl : FunctionDecl) (function : FunctionId)
      {binding : Option (InstanceId × ClassId)} {isMethod : Bool}
      (h : binding.isSome = true → isMethod = true) :
      For (.parameters decl function binding) (.parameters decl isMethod)
  | body (decl : FunctionDecl) : For (.body decl) (.body decl)

/-- What a scope may hold is what its region declares. -/
theorem Opening.For.declared_eq {opening : Opening} {region : Region} (h : opening.For region) :
    opening.declared = region.declared := by
  cases h <;> rfl

/-! ## Scopes and contexts

`Follows` goes along the scopes and the regions at the same time, from the inside to the outside. It
says what the scopes hold at least. That the innermost scope holds nothing else is said by `At`; it
is wanted where names are resolved, because a name that a scope has and the context has not would be
found too early. -/

/-- The scopes from this one outward mirror the context: each was opened for the region of its
frame, stands in the scope for the next frame, and holds the names of the frame. The global scope
mirrors the empty context. -/
inductive Follows (Occurs : Moment → Prop) (store : Store) : ScopeId → Context → Prop where
  | global (hlt : Store.globalScope.index < store.scopes.size)
      (hchain : store.chain Store.globalScope = [Store.globalScope]) :
      Follows Occurs store Store.globalScope []
  | inner {id parent : ScopeId} {frame : Frame} {outer : Context} {opening : Opening}
      (hlt : id.index < store.scopes.size) (hchain : store.chain id = id :: store.chain parent)
      (hopened : Opened Occurs id opening) (hregion : opening.For frame.region)
      (hnames : ∀ name ∈ frame.names, store.declares id name = true)
      (houter : Follows Occurs store parent outer) : Follows Occurs store id (frame :: outer)

/-- The scope mirrors the context, and holds no more names than the context has. -/
structure At (Occurs : Moment → Prop) (store : Store) (scope : ScopeId) (context : Context) :
    Prop where
  follows : Follows Occurs store scope context
  exact : ∀ frame ∈ context.head?, ∀ name, store.declares scope name = true →
    name ∈ frame.names ∨ name ∈ reservedNames

/-- The innermost region of the context declares these names, now or later. -/
def Context.HasRoom (context : Context) (names : List String) : Prop :=
  ∀ frame ∈ context.head?, ∀ name ∈ names, name ∈ frame.region.declared

/-- There is always room for no names. -/
theorem Context.hasRoom_nil (context : Context) : context.HasRoom [] :=
  fun _ _ _ hmem => nomatch hmem

/-- A region that has just been entered has room for all its names. -/
theorem Context.hasRoom_enter (outer : Context) (region : Region) :
    Context.HasRoom (outer.enter region) region.declared := by
  intro frame hframe name hname
  obtain rfl := Option.some.inj hframe
  exact hname

/-- Names that come first are names of the region, too. -/
theorem Context.HasRoom.first {context : Context} {names names' : List String}
    (h : context.HasRoom (names ++ names')) : context.HasRoom names :=
  fun frame hframe name hname => h frame hframe name (List.mem_append_left _ hname)

/-- The names that are declared later keep their room. -/
theorem Context.HasRoom.rest {context : Context} {names names' : List String}
    (h : context.HasRoom (names ++ names')) : Context.HasRoom (context.declare names) names' := by
  intro frame hframe name hname
  cases context with
  | nil => cases hframe
  | cons innermost outer =>
    obtain rfl := Option.some.inj hframe
    exact h innermost rfl name (List.mem_append_right _ hname)

/-- A function of the program stands in a scope that follows the text around its declaration, with
all its occurrences among those of the program. If a class declares it, then it is a method, and its
text may use `this` and `super`. -/
def Placed (U : List Occurrence) (Occurs : Moment → Prop) (store : Store) (id : FunctionId) :
    Prop :=
  ∃ context isMethod, Follows Occurs store (store.function id).closure context ∧
    (store.function id).decl.occurrences context isMethod ⊆ U ∧
    ∀ c : ClassId, c.index < store.classes.size → store.Declares c id → isMethod = true

/-- The scopes and functions of the store are where the text of the program has them. This is what
runs keep; where a task begins in a store like this, at a place that follows its text, it goes on to
do so. -/
structure Nested (U : List Occurrence) (Occurs : Moment → Prop) (store : Store) : Prop where
  bounded : ∀ id : ScopeId, id.index < store.scopes.size → ∀ opening, Opened Occurs id opening →
    ∀ name, store.declares id name = true → name ∈ opening.declared ∨ name ∈ reservedNames
  placed : ∀ id : FunctionId, id.index < store.functions.size → Placed U Occurs store id
  /-- A method belongs to one class. -/
  distinct : ∀ (c c' : ClassId) (id : FunctionId), c.index < store.classes.size →
    c'.index < store.classes.size → store.Declares c id → store.Declares c' id → c = c'

/-- Classes that have been declared since `a` have no method in common with others. -/
def Store.DeclaresApart (a b : Store) : Prop :=
  ∀ (c c' : ClassId) (id : FunctionId), c.index < b.classes.size → c'.index < b.classes.size →
    b.Declares c id → b.Declares c' id →
    (c.index < a.classes.size ∧ c'.index < a.classes.size) ∨ c = c'

section

variable {U : List Occurrence} {Occurs : Moment → Prop} {a b store : Store} {scope : ScopeId}
  {context : Context}

/-- A scope that follows a context is one of the store. -/
theorem Follows.lt (h : Follows Occurs store scope context) :
    scope.index < store.scopes.size := by
  cases h with
  | global hlt _ => exact hlt
  | inner hlt => exact hlt

/-- Stores only grow: chains stay what they are, and scopes lose no names. -/
theorem Follows.mono (hgrows : a.Grows b) (h : Follows Occurs a scope context) :
    Follows Occurs b scope context := by
  induction h with
  | global hlt hchain =>
    refine .global (Nat.lt_of_lt_of_le hlt hgrows.scopes.size) ?_
    rw [hgrows.chain hlt]
    exact hchain
  | @inner id parent frame outer opening hlt hchain hopened hregion hnames houter ih =>
    refine .inner (Nat.lt_of_lt_of_le hlt hgrows.scopes.size) ?_ hopened hregion ?_ ih
    · rw [hgrows.chain hlt, hgrows.chain houter.lt]
      exact hchain
    · exact fun name hname => hgrows.declares hlt (hnames name hname)

/-- More names of the innermost region have been declared. -/
theorem Follows.declare {names : List String} (h : Follows Occurs store scope context)
    (hnames : ∀ name ∈ names, store.declares scope name = true) :
    Follows Occurs store scope (context.declare names) := by
  cases h with
  | global hlt hchain => exact .global hlt hchain
  | inner hlt hchain hopened hregion hdeclared houter =>
    refine .inner hlt hchain hopened hregion ?_ houter
    -- A name of the frame has been there, or it is one of the new names.
    intro name hname
    exact (List.mem_append.mp hname).elim (hdeclared name) (hnames name)

/-- A place remains what it is while its scope gains no name. -/
theorem At.later (hgrows : a.Grows b) (h : At Occurs a scope context)
    (hsame : ∀ name, b.declares scope name = true → a.declares scope name = true) :
    At Occurs b scope context where
  follows := h.follows.mono hgrows
  exact := fun frame hframe name hname => h.exact frame hframe name (hsame name hname)

/-- After a declaration the scope follows the context with the new names. -/
theorem At.declare {names : List String} (hgrows : a.Grows b) (h : At Occurs a scope context)
    (hnames : ∀ name ∈ names, b.declares scope name = true)
    (hgains : ∀ name, b.declares scope name = true →
      a.declares scope name = true ∨ name ∈ names) :
    At Occurs b scope (context.declare names) where
  follows := (h.follows.mono hgrows).declare hnames
  exact := by
    intro frame hframe name hname
    cases context with
    | nil => cases hframe
    | cons innermost outer =>
      obtain rfl := Option.some.inj hframe
      -- What the scope holds it held before, or it was declared now.
      rcases hgains name hname with hbefore | hnew
      · rcases h.exact innermost rfl name hbefore with hmem | hreserved
        · exact .inl (List.mem_append_left _ hmem)
        · exact .inr hreserved
      · exact .inl (List.mem_append_right _ hnew)

/-! ## Growth keeps the nesting

What is to be shown of a change is only what is new in it: names that a scope has gained, functions
that have been added, and classes. For the rest the nesting of the store before is carried over,
since scopes, functions and classes keep what they are. -/

/-- Without a new class there is nothing to show. -/
theorem Store.DeclaresApart.of_size (h : b.classes.size = a.classes.size) :
    a.DeclaresApart b := by
  intro c c' id hc hc' _ _
  rw [h] at hc hc'
  exact .inl ⟨hc, hc'⟩

/-- One new class has no method in common with the others if its methods are new. -/
theorem Store.DeclaresApart.of_new {Known : FunctionDecl → Prop} (h : a.Consistent Known)
    (hgrows : a.Grows b) (hsize : b.classes.size = a.classes.size + 1)
    (hold : ∀ (c : ClassId) (id : FunctionId), c.index < b.classes.size → b.Declares c id →
      id.index < a.functions.size → c.index < a.classes.size) : a.DeclaresApart b := by
  intro c c' id hc hc' hdeclares hdeclares'
  -- A method of an older class is an older function, which the new class does not declare.
  by_cases hlt : c.index < a.classes.size
  · have hid : id.index < a.functions.size := h.method_lt hlt (hdeclares.of_grows hgrows hlt)
    exact .inl ⟨hlt, hold c' id hc' hdeclares' hid⟩
  · by_cases hlt' : c'.index < a.classes.size
    · have hid : id.index < a.functions.size := h.method_lt hlt' (hdeclares'.of_grows hgrows hlt')
      exact .inl ⟨hold c id hc hdeclares hid, hlt'⟩
    · -- Both are the new class.
      have hindex : c.index = c'.index := by omega
      obtain ⟨i⟩ := c
      obtain ⟨j⟩ := c'
      exact .inr (congrArg ClassId.mk hindex)

/-- A function stays in its place: its declaration, its scope and the classes that declare it are
those of the store before. -/
theorem Placed.mono (hgrows : a.Grows b) {id : FunctionId} (hid : id.index < a.functions.size)
    (hclasses : ∀ c : ClassId, c.index < b.classes.size → b.Declares c id →
      c.index < a.classes.size) (h : Placed U Occurs a id) : Placed U Occurs b id := by
  obtain ⟨context, isMethod, hfollows, hwithin, hmethod⟩ := h
  refine ⟨context, isMethod, ?_, ?_, ?_⟩
  · rw [hgrows.closure hid]
    exact hfollows.mono hgrows
  · rw [hgrows.decl hid]
    exact hwithin
  · intro c hc hdeclares
    have hold := hclasses c hc hdeclares
    exact hmethod c hold (hdeclares.of_grows hgrows hold)

/-- What has to be shown of a store that has grown: that new names belong to where they are, that
new functions do, and that classes have no method of others. -/
theorem Nested.grow (h : Nested U Occurs a) (hgrows : a.Grows b)
    (hbounded : ∀ id : ScopeId, id.index < b.scopes.size → ∀ opening, Opened Occurs id opening →
      ∀ name, b.declares id name = true → (id.index < a.scopes.size ∧ a.declares id name = true) ∨
        name ∈ opening.declared ∨ name ∈ reservedNames)
    (hplaced : ∀ id : FunctionId, a.functions.size ≤ id.index → id.index < b.functions.size →
      Placed U Occurs b id)
    (hclasses : ∀ (c : ClassId) (id : FunctionId), c.index < b.classes.size → b.Declares c id →
      id.index < a.functions.size → c.index < a.classes.size) (hapart : a.DeclaresApart b) :
    Nested U Occurs b where
  bounded := by
    intro id hid opening hopened name hname
    rcases hbounded id hid opening hopened name hname with ⟨hlt, hbefore⟩ | hnew
    · exact h.bounded id hlt opening hopened name hbefore
    · exact hnew
  placed := by
    intro id hid
    by_cases hlt : id.index < a.functions.size
    · exact (h.placed id hlt).mono hgrows hlt fun c hc hdeclares => hclasses c id hc hdeclares hlt
    · exact hplaced id (Nat.le_of_not_lt hlt) hid
  distinct := by
    intro c c' id hc hc' hdeclares hdeclares'
    -- Two classes that were there before had no method in common; what is new has none of another
    -- class.
    rcases hapart c c' id hc hc' hdeclares hdeclares' with ⟨hold, hold'⟩ | rfl
    · exact h.distinct c c' id hold hold' (hdeclares.of_grows hgrows hold)
        (hdeclares'.of_grows hgrows hold')
    · rfl

/-- Nothing has happened that the nesting depends on. -/
structure Store.SameNames (a b : Store) : Prop where
  scopes : b.scopes.size = a.scopes.size
  functions : b.functions.size = a.functions.size
  classes : b.classes.size = a.classes.size
  names : ∀ id : ScopeId, id.index < a.scopes.size → ∀ name, b.declares id name = true →
    a.declares id name = true

/-- Where nothing happens at all, the names stay. -/
theorem Store.SameNames.refl (a : Store) : a.SameNames a := ⟨rfl, rfl, rfl, fun _ _ _ h => h⟩

/-- Where no scope gets a new name and nothing is declared, the nesting stays. -/
theorem Nested.same (h : Nested U Occurs a) (hgrows : a.Grows b) (hsame : a.SameNames b) :
    Nested U Occurs b := by
  refine h.grow hgrows ?_ ?_ ?_ (.of_size hsame.classes)
  · intro id hid opening _ name hname
    rw [hsame.scopes] at hid
    exact .inl ⟨hid, hsame.names id hid name hname⟩
  · intro id hle hlt
    rw [hsame.functions] at hlt
    omega
  · intro c id hc _ _
    rw [hsame.classes] at hc
    exact hc

end

end Script
