import Script.Proofs.Renaming.Disguise
import Script.Proofs.Store.Growth

/-!
# Evaluations under other names

An evaluation and another one *correspond* (`Corresponds`) when the second does in the disguised
state what the first does in the state itself, and ends in the same state disguised. This holds as
long as the disguise does not show in the state (`Disguise.Hides`), and evaluations that correspond
keep it that way.

This module treats the single actions; `Renaming.Evaluator` puts them together for the evaluator.
-/

namespace Script

namespace Disguise

variable {d : Disguise}

/-! ## Names that show

The store holds functions and classes that are there already, and trees that will define others when
they are called. Neither may show a new name. -/

/-- What is defined is left its name. -/
def Keeps (d : Disguise) (definitions : List Definition) : Prop :=
  ∀ definition ∈ definitions, d.name definition.name.lexeme = definition.name.lexeme

/-- All functions and classes in the store are left their names, and so are those that calling the
functions may define. -/
structure Suits (d : Disguise) (store : Store) : Prop where
  functions : ∀ id, d.Keeps (store.function id).decl.definitions
  classes : ∀ id, d.name (store.classOf id).name = (store.classOf id).name

/-- The disguise does not show in the state. -/
structure Hides (d : Disguise) (s : State) : Prop where
  store : d.Suits s.store
  output : d.fits s.output

/-- A function that is defined keeps its own name. -/
theorem Keeps.name {decl : FunctionDecl} (h : d.Keeps decl.definitions) :
    d.name decl.name.lexeme = decl.name.lexeme := by
  cases decl with
  | mk name params body =>
    rw [FunctionDecl.definitions] at h
    exact h _ (.head _)

/-- So do the functions and classes that its body defines. -/
theorem Keeps.body {decl : FunctionDecl} (h : d.Keeps decl.definitions) :
    d.Keeps (Stmt.definitionsOfAll decl.body) := by
  cases decl with
  | mk name params body =>
    rw [FunctionDecl.definitions] at h
    exact (List.forall_mem_cons.mp h).2

/-- Definitions in a row are left their names one by one. -/
theorem keeps_append {a b : List Definition} : d.Keeps (a ++ b) ↔ d.Keeps a ∧ d.Keeps b :=
  List.forall_mem_append

namespace Suits

variable {store store' : Store}

/-- The disguise does not show if the functions and classes are the same. -/
theorem of_same (h : d.Suits store) (hfunctions : store'.functions = store.functions)
    (hclasses : store'.classes = store.classes) : d.Suits store' where
  functions := fun id => by
    rw [Store.function, hfunctions]
    exact h.functions id
  classes := fun id => by
    rw [Store.classOf, hclasses]
    exact h.classes id

/-- Functions of all kinds keep their names: native ones have names that are fixed, and others show
names that the renaming has to leave alone. -/
theorem functionName (h : d.Suits store) (ref : FunctionRef) :
    d.name (store.functionName ref) = store.functionName ref := by
  cases ref with
  | native native =>
    have hnative : native.name ∈ ownNames := by cases native <;> decide
    exact d.own _ hnative
  | user id => exact (h.functions id).name
  | bound id => exact (h.functions _).name

/-- Display texts show the names of functions and classes only. -/
theorem display (h : d.Suits store) (value : Value) :
    (d.store store).display value = store.display value := by
  cases value with
  | function ref =>
    show (d.store store).displayFunction ref = store.displayFunction ref
    simp only [Store.displayFunction, d.store_functionName, h.functionName]
  | classRef id =>
    rw [Store.display, Store.display, d.store_classOf]
    exact congrArg (fun name => "<class " ++ name ++ ">") (h.classes id)
  | instanceRef id =>
    rw [Store.display, Store.display, d.store_instanceOf, d.store_classOf]
    exact congrArg (fun name => "<instance " ++ name ++ ">") (h.classes _)
  | boolean b => cases b <;> rfl
  | _ => rfl

/-- So do representations; those of strings show no names. -/
theorem repr (h : d.Suits store) (value : Value) :
    (d.store store).repr value = store.repr value := by
  cases value with
  | string s => rfl
  | boolean b => exact h.display (.boolean b)
  | function ref => exact h.display (.function ref)
  | classRef id => exact h.display (.classRef id)
  | instanceRef id => exact h.display (.instanceRef id)
  | nil | number n => rfl

/-- A function may be added if what it defines keeps its name. -/
theorem newFunction (h : d.Suits store) {decl : FunctionDecl} (hdecl : d.Keeps decl.definitions)
    (closure : ScopeId) : d.Suits (store.newFunction decl closure).2 where
  functions := fun id => by
    show d.Keeps ((store.functions.push ⟨decl, closure, .empty⟩).get id.index).decl.definitions
    -- An index that is in use keeps its function, and one that is not keeps the default function.
    by_cases hnew : id.index = store.functions.size
    · rw [hnew, Arena.get_push_size]
      exact hdecl
    · rw [Arena.get_push_of_ne _ _ hnew]
      exact h.functions id
  classes := h.classes

theorem newFunctions (h : d.Suits store) {decls : List FunctionDecl}
    (hdecls : d.Keeps (FunctionDecl.definitionsOfAll decls)) (closure : ScopeId) :
    d.Suits (store.newFunctions closure decls).2 := by
  induction decls generalizing store with
  | nil => exact h
  | cons decl rest ih =>
    rw [FunctionDecl.definitionsOfAll] at hdecls
    obtain ⟨hdecl, hrest⟩ := keeps_append.mp hdecls
    exact ih (h.newFunction hdecl closure) hrest

/-- A class may be added if it keeps its name. -/
theorem declareClass (h : d.Suits store) {name : String} (hname : d.name name = name)
    (superclass : Option ClassId) (methods : List (String × FunctionId)) :
    d.Suits (store.declareClass name superclass methods).2 where
  functions := h.functions
  classes := fun id => by
    unfold Store.declareClass Store.newClass Store.classOf
    dsimp only
    by_cases hnew : id.index = store.classes.size
    · rw [hnew, Arena.get_push_size]
      exact hname
    · rw [Arena.get_push_of_ne _ _ hnew]
      exact h.classes id

/-- Looking for a property adds at most a bound method. -/
theorem property (h : d.Suits store) (object : Value) (name : String) :
    d.Suits (store.property object name).2 := by
  rcases store.property_cases object name with hsame | ⟨resolution, receiver, hbound⟩
  · rw [hsame]
    exact h
  · rw [hbound]
    exact h.of_same rfl rfl

/-- A property of a function or a class may change, not its name. -/
theorem setProperty (h : d.Suits store) {object value : Value} {name : String}
    (hset : store.setProperty object name value = .ok store') : d.Suits store' := by
  cases object with
  | function ref =>
    obtain rfl := Except.ok.inj hset
    cases ref with
    | user id =>
      refine ⟨fun other => ?_, h.classes⟩
      -- The fields of a function are changed, its declaration is not.
      have hdecl : ((store.functions.modify id.index fun x =>
          { x with fields := x.fields.set name value }).get other.index).decl =
          (store.function other).decl :=
        store.functions.get_modify_part id.index other.index fun _ => rfl
      show d.Keeps ((store.functions.modify id.index _).get other.index).decl.definitions
      rw [hdecl]
      exact h.functions other
    | native native => exact h.of_same rfl rfl
    | bound id => exact h.of_same rfl rfl
  | classRef id =>
    obtain rfl := Except.ok.inj hset
    refine ⟨h.functions, fun other => ?_⟩
    -- The fields of a class are changed, its name is not.
    have hname : ((store.classes.modify id.index fun x =>
        { x with fields := x.fields.set name value }).get other.index).name =
        (store.classOf other).name :=
      store.classes.get_modify_part id.index other.index fun _ => rfl
    show d.name ((store.classes.modify id.index _).get other.index).name = _
    rw [hname]
    exact (h.classes other).trans hname.symm
  | instanceRef id =>
    obtain rfl := Except.ok.inj hset
    exact h.of_same rfl rfl
  | _ => cases hset

/-- Declaring a variable changes neither functions nor classes. -/
theorem define (h : d.Suits store) {scope : ScopeId} {name : String} {value : Value}
    (hdefine : store.define scope name value = .ok store') : d.Suits store' := by
  obtain ⟨-, rfl⟩ := Store.define_eq_ok.mp hdefine
  exact h.of_same rfl rfl

theorem assign (h : d.Suits store) {scope : ScopeId} {name : String} {value : Value}
    (hassign : store.assign scope name value = .ok store') : d.Suits store' := by
  obtain ⟨owner, -, rfl⟩ := Store.assign_eq_ok.mp hassign
  exact h.of_same rfl rfl

end Suits

end Disguise

/-! ## Evaluations

The second evaluation is never compared with the first one step by step: each lemma takes a state
and says what both do in it. A failure carries a name at most, and the disguised state is the state
after the failure, disguised. -/

section

variable {α β γ δ : Type} {d : Disguise}

/-- In the disguised state `y` does what `x` does in the state itself, with the result that `f`
gives. -/
def Corresponds (d : Disguise) (f : α → β) (x : Eval α) (y : Eval β) : Prop :=
  ∀ s, d.Hides s → y (d.state s) = d.outcome f (x s) ∧ d.Hides (finalState (x s))

theorem corresponds_pure {f : α → β} {a : α} {b : β} (h : b = f a) :
    Corresponds d f (pure a) (pure b) := by
  subst h
  exact fun _ hhides => ⟨rfl, hhides⟩

/-- Both fail, the second with the new name in its error. -/
theorem corresponds_fail (f : α → β) (error : RuntimeError) :
    Corresponds d f (Eval.fail error) (Eval.fail (error.rename d.name)) :=
  fun _ hhides => ⟨rfl, hhides⟩

theorem corresponds_malformed (f : α → β) :
    Corresponds d f Eval.malformed Eval.malformed := fun _ hhides => ⟨rfl, hhides⟩

theorem corresponds_exhausted (f : α → β) :
    Corresponds d f Eval.exhausted Eval.exhausted := fun _ hhides => ⟨rfl, hhides⟩

/-- Evaluations that correspond may follow each other. An error ends both, with states that
correspond. -/
theorem Corresponds.bind {f : α → β} {g : γ → δ} {x : Eval α} {y : Eval β} {k : α → Eval γ}
    {l : β → Eval δ} (hx : Corresponds d f x y) (hk : ∀ a, Corresponds d g (k a) (l (f a))) :
    Corresponds d g (x >>= k) (y >>= l) := by
  intro s hhides
  obtain ⟨hrun, hhides⟩ := hx s hhides
  show EStateM.bind y l (d.state s) = d.outcome g (EStateM.bind x k s) ∧
    d.Hides (finalState (EStateM.bind x k s))
  rw [EStateM.bind, EStateM.bind, hrun]
  -- The second part begins in the state that the first one leaves, which does not show the disguise
  -- either.
  cases hstep : x s with
  | ok a s' =>
    rw [hstep] at hhides
    exact hk a s' hhides
  | error interrupt s' =>
    rw [hstep] at hhides
    exact ⟨rfl, hhides⟩

theorem corresponds_ite {p : Prop} [Decidable p] {f : α → β} {x x' : Eval α} {y y' : Eval β}
    (hthen : Corresponds d f x y) (helse : Corresponds d f x' y') :
    Corresponds d f (if p then x else x') (if p then y else y') := by
  split
  · exact hthen
  · exact helse

/-- Both look at the store, which may rely on names that do not show. -/
theorem corresponds_read {f : α → β} {g : Store → α} {h : Store → β}
    (hcommute : ∀ store, d.Suits store → h (d.store store) = f (g store)) :
    Corresponds d f (Eval.read g) (Eval.read h) := by
  intro s hhides
  refine ⟨?_, hhides⟩
  show EStateM.Result.ok (h (d.store s.store)) (d.state s) = _
  rw [hcommute s.store hhides.store]
  rfl

/-- What comes after a look at the store may rely on what was found there. -/
theorem Corresponds.read_bind {f : α → β} {g : Store → α} {h : Store → β} {f' : γ → δ}
    {k : α → Eval γ} {l : β → Eval δ}
    (hcommute : ∀ store, d.Suits store → h (d.store store) = f (g store))
    (hk : ∀ store, d.Suits store → Corresponds d f' (k (g store)) (l (f (g store)))) :
    Corresponds d f' (Eval.read g >>= k) (Eval.read h >>= l) := by
  intro s hhides
  have hrun : (Eval.read h >>= l) (d.state s) = l (f (g s.store)) (d.state s) := by
    rw [← hcommute s.store hhides.store]
    rfl
  rw [hrun]
  exact hk s.store hhides.store s hhides

/-- Both look for something by its name, and one finds it if the other does. -/
theorem corresponds_readOrFail {g h : Store → Except RuntimeError α}
    (hcommute : ∀ store, h (d.store store) = (g store).mapError (RuntimeError.rename d.name)) :
    Corresponds d id (Eval.readOrFail g) (Eval.readOrFail h) := by
  intro s hhides
  unfold Eval.readOrFail
  rw [show (d.state s).store = d.store s.store from rfl, hcommute]
  cases g s.store <;> exact ⟨rfl, hhides⟩

theorem corresponds_allocate {f : α → β} {g : Store → α × Store} {h : Store → β × Store}
    (hcommute : ∀ store, h (d.store store) = (f (g store).1, d.store (g store).2))
    (hsuits : ∀ store, d.Suits store → d.Suits (g store).2) :
    Corresponds d f (Eval.allocate g) (Eval.allocate h) := by
  intro s hhides
  obtain ⟨store, output, clock⟩ := s
  refine ⟨?_, hsuits store hhides.store, hhides.output⟩
  simp only [Eval.allocate, Disguise.state, hcommute]
  rfl

/-- Both change their stores, or both are refused. -/
theorem corresponds_update {g h : Store → Except RuntimeError Store}
    (hcommute : ∀ store, h (d.store store) =
      ((g store).map d.store).mapError (RuntimeError.rename d.name))
    (hsuits : ∀ {store store'}, d.Suits store → g store = .ok store' → d.Suits store') :
    Corresponds d id (Eval.update g) (Eval.update h) := by
  intro s hhides
  unfold Eval.update
  rw [show (d.state s).store = d.store s.store from rfl, hcommute]
  cases hresult : g s.store with
  | ok store' => exact ⟨rfl, hsuits hhides.store hresult, hhides.output⟩
  | error error => exact ⟨rfl, hhides⟩

/-- Both write the same text, and to the sink of the mask as much of it as to the sink itself. -/
theorem corresponds_write (text : String) :
    Corresponds d id (Eval.write text) (Eval.write text) := by
  intro s hhides
  obtain ⟨store, output, clock⟩ := s
  obtain ⟨hwrite, hfits⟩ := d.write hhides.output text
  simp only [Eval.write, Disguise.state]
  rw [hwrite]
  cases hresult : output.write text with
  | mk taken refusal =>
    rw [hresult] at hfits
    cases refusal <;> exact ⟨rfl, hhides.store, hfits⟩

theorem corresponds_readClock : Corresponds d id Eval.readClock Eval.readClock :=
  fun _ hhides => ⟨rfl, hhides.store, hhides.output⟩

/-! ## Actions of the evaluator

Each action with the lemma on the store that it comes down to. -/

/-- Both open a scope for variables, the second one for the new names. -/
theorem corresponds_newChild (parent : ScopeId) (bindings : Table Value) :
    Corresponds d id (Eval.allocate fun store => store.newChild parent bindings)
      (Eval.allocate fun store => store.newChild parent (bindings.rename d.name)) :=
  corresponds_allocate (fun store => d.store_newChild store parent bindings)
    fun _ hsuits => hsuits.of_same rfl rfl

theorem corresponds_child (scope : ScopeId) :
    Corresponds d id (Eval.child scope) (Eval.child scope) :=
  corresponds_newChild scope .empty

theorem corresponds_lookup (scope : ScopeId) (name : String) :
    Corresponds d id (Eval.lookup scope name) (Eval.lookup scope (d.name name)) :=
  corresponds_readOrFail fun store => d.store_lookup store scope name

theorem corresponds_define (scope : ScopeId) (name : String) (value : Value) :
    Corresponds d id (Eval.define scope name value) (Eval.define scope (d.name name) value) :=
  corresponds_update (fun store => d.store_define store scope name value)
    fun hsuits hresult => hsuits.define hresult

theorem corresponds_assign (scope : ScopeId) (name : String) (value : Value) :
    Corresponds d id (Eval.assign scope name value) (Eval.assign scope (d.name name) value) :=
  corresponds_update (fun store => d.store_assign store scope name value)
    fun hsuits hresult => hsuits.assign hresult

theorem corresponds_property (object : Value) (name : String) :
    Corresponds d id (Eval.property object name) (Eval.property object (d.name name)) :=
  corresponds_allocate (fun store => d.store_property store object name)
    fun _ hsuits => hsuits.property object name

theorem corresponds_setProperty (object : Value) (name : String) (value : Value) :
    Corresponds d id (Eval.setProperty object name value)
      (Eval.setProperty object (d.name name) value) :=
  corresponds_update (fun store => d.store_setProperty store object name value)
    fun hsuits hresult => hsuits.setProperty hresult

/-- Both bind a method to an object, under the same reference. -/
theorem corresponds_bindMethod (resolution : MethodResolution) (receiver : InstanceId) :
    Corresponds d id (Eval.allocate fun store => store.bindMethod resolution receiver)
      (Eval.allocate fun store => store.bindMethod resolution receiver) :=
  corresponds_allocate (fun store => d.store_bindMethod store resolution receiver)
    fun _ hsuits => hsuits.of_same rfl rfl

theorem corresponds_newInstance (ofClass : ClassId) :
    Corresponds d id (Eval.allocate fun store => store.newInstance ofClass)
      (Eval.allocate fun store => store.newInstance ofClass) :=
  corresponds_allocate (fun store => d.store_newInstance store ofClass)
    fun _ hsuits => hsuits.of_same rfl rfl

/-- Both find the same number of parameters. -/
theorem corresponds_arity (ref : FunctionRef) :
    Corresponds d id (Eval.read fun store => store.arity ref)
      (Eval.read fun store => store.arity ref) :=
  corresponds_read fun store _ => d.store_arity store ref

/-- Both find the same text for a value. -/
theorem corresponds_display (value : Value) :
    Corresponds d id (Eval.read fun store => store.display value)
      (Eval.read fun store => store.display value) :=
  corresponds_read fun _ hsuits => hsuits.display value

/-- Both find the number of arguments right, or both do not. -/
theorem corresponds_checkArity (expected actual : Nat) :
    Corresponds d id (Eval.checkArity expected actual) (Eval.checkArity expected actual) :=
  corresponds_ite (corresponds_pure rfl) (corresponds_fail _ _)

/-- Both find the same object for `this`, whose name is fixed. -/
theorem corresponds_receiver (scope : ScopeId) (keyword : String) :
    Corresponds d id (Eval.receiver scope keyword) (Eval.receiver scope keyword) := by
  refine corresponds_readOrFail fun store => ?_
  -- The keyword serves for the error only; the look-up is always under the same name.
  have hthis := d.store_lookup store scope thisName
  rw [d.own thisName (by decide)] at hthis
  rw [hthis]
  cases store.lookup scope thisName with
  | error error => rfl
  | ok value => cases value <;> rfl

/-- Both find the same superclass for `super`, whose name is fixed. -/
theorem corresponds_superclass (scope : ScopeId) :
    Corresponds d id (Eval.superclass scope) (Eval.superclass scope) := by
  refine corresponds_readOrFail fun store => ?_
  -- The superclass is kept under a name of the evaluator's own.
  have hsuper := d.store_lookup store scope superName
  rw [d.own superName (by decide)] at hsuper
  rw [hsuper]
  cases store.lookup scope superName with
  | error error => rfl
  | ok value => cases value <;> rfl

theorem corresponds_native (function : Native) (arguments : List Value) :
    Corresponds d id (Eval.native function arguments) (Eval.native function arguments) := by
  unfold Eval.native
  split
  · exact corresponds_readClock.bind fun reading => corresponds_pure rfl
  · exact corresponds_read fun _ hsuits => congrArg Value.string (hsuits.display _)
  · exact corresponds_fail _ _

/-- An operator is applied to the same operand, and its place is of no account. -/
theorem corresponds_applyUnary (operator : Token) (operand : Value) :
    Corresponds d id (applyUnary operator operand)
      (applyUnary (operator.relocate d.move) operand) := by
  intro s hhides
  show applyUnary operator operand (d.state s) = _ ∧ _
  unfold applyUnary
  generalize operator.kind = kind
  split
  · cases operand <;> exact ⟨rfl, hhides⟩
  · exact ⟨rfl, hhides⟩
  · exact ⟨rfl, hhides⟩

/-- An operator between its operands corresponds to itself. It looks at no name, and its error
carries the lexeme of the operator and kinds of value. -/
theorem corresponds_applyBinary (left : Value) (operator : Token) (right : Value) :
    Corresponds d id (applyBinary left operator right)
      (applyBinary left (operator.relocate d.move) right) := by
  intro s hhides
  show applyBinary left operator right (d.state s) = _ ∧ _
  unfold applyBinary
  generalize operator.kind = kind
  split
  · exact ⟨rfl, hhides⟩
  · exact ⟨rfl, hhides⟩
  · cases numericOperator? kind with
    | none => exact ⟨rfl, hhides⟩
    -- A numeric operator wants numbers on both sides, and they are the same.
    | some compute =>
      dsimp only
      split <;> exact ⟨rfl, hhides⟩

end

end Script
