import Script.Interpreter.State
import Script.Proofs.Number.Digits
import Script.Proofs.Representation.Quotes
import Script.Proofs.Store.Growth

/-!
# Stores without quotes

Where no variable and no property holds a string with a quote, and the names of functions and
classes are free of quotes, whatever is read from the store is so too, the display texts included
(`Store.Quoteless.display`). Every way to change the store keeps it like this as long as the values
that are put in are without quotes.
-/

namespace Script

/-! ## Arenas

A property is asked of whatever an index yields, and an index that is out of range yields the
default. So the default needs it too, and nothing is ever said about which indices are in use. -/

namespace Arena

variable {α : Type} [Inhabited α] {P : α → Prop} {arena : Arena α}

/-- Whatever an arena yields has the property, the default included. -/
def All (P : α → Prop) (arena : Arena α) : Prop := ∀ i, P (arena.get i)

/-- Of an empty arena all that is asked is that the default has the property. -/
theorem all_empty (h : P default) : (empty : Arena α).All P := fun _ => h

/-- What is added must have the property. Nothing is asked of the rest but that it has it
already. -/
theorem All.push (h : arena.All P) {x : α} (hx : P x) : (arena.push x).All P := by
  intro i
  by_cases hi : i = arena.size
  · subst hi
    rwa [get_push_size]
  · rw [get_push_of_ne arena x hi]
    exact h i

/-- What is changed must keep the property, for whatever had it before. -/
theorem All.modify (h : arena.All P) {f : α → α} (hf : ∀ x, P x → P (f x)) (i : Nat) :
    (arena.modify i f).All P := by
  intro j
  -- Beyond the end there is the default before and after the change.
  rcases Nat.lt_or_ge j arena.size with hj | hj
  · by_cases hij : i = j
    · subst hij
      rw [get_modify_self arena f hj]
      exact hf _ (h i)
    · rw [get_modify_of_ne arena f hij]
      exact h j
  · have hcells : arena.cells.size ≤ j := hj
    have hdefault : (arena.modify i f).get j = arena.get j := by simp [get, Arena.modify, hcells]
    rw [hdefault]
    exact h j

end Arena

/-! ## What a store holds

Strings are held by variables and by fields. Names of functions and classes count as well, since
display texts show them, while the names of variables and fields never become strings. -/

/-- No string in the table has a quote in it. -/
abbrev Table.Quoteless (table : Table Value) : Prop := table.Holds Value.Quoteless

/-- No variable of the scope holds a string with a quote. -/
def Scope.Quoteless (scope : Scope) : Prop := scope.bindings.Quoteless

/-- Neither the declaration of the function nor its fields have a quote. -/
structure UserFunction.Quoteless (function : UserFunction) : Prop where
  decl : function.decl.Quoteless
  fields : function.fields.Quoteless

/-- No field of the bound method holds a string with a quote. -/
def BoundMethod.Quoteless (bound : BoundMethod) : Prop := bound.fields.Quoteless

/-- Neither the name of the class nor its fields have a quote. -/
structure Class.Quoteless (c : Class) : Prop where
  name : Script.Quoteless c.name
  fields : c.fields.Quoteless

/-- No field of the object holds a string with a quote. -/
def Instance.Quoteless (i : Instance) : Prop := i.fields.Quoteless

namespace Store

/-- No string in the store has a quote in it, and no name of a function or a class. -/
structure Quoteless (store : Store) : Prop where
  scopes : store.scopes.All Scope.Quoteless
  functions : store.functions.All UserFunction.Quoteless
  boundMethods : store.boundMethods.All BoundMethod.Quoteless
  classes : store.classes.All Class.Quoteless
  instances : store.instances.All Instance.Quoteless
  natives : ∀ native, (store.nativeFields.get native).Quoteless

variable {store : Store}

/-- The store that every program starts in is without quotes. -/
theorem quoteless_initial : Store.initial.Quoteless where
  scopes := by
    have hglobals : ∀ entry ∈ globalBindings, Value.Quoteless entry.2 := by
      unfold globalBindings
      simp [Value.Quoteless]
    have hglobal : (⟨[], .ofList globalBindings⟩ : Scope).Quoteless := Table.holds_ofList hglobals
    -- What lies beyond the scopes there are is an empty one.
    have hdefault : (default : Scope).Quoteless := Table.holds_empty _
    exact (Arena.all_empty hdefault).push hglobal
  functions := Arena.all_empty ⟨⟨by decide, trivial⟩, Table.holds_empty _⟩
  boundMethods := Arena.all_empty (Table.holds_empty _)
  classes := (Arena.all_empty ⟨by decide, Table.holds_empty _⟩).push
    ⟨by decide, Table.holds_empty _⟩
  instances := Arena.all_empty (Table.holds_empty _)
  natives := fun native => by cases native <;> exact Table.holds_empty _

namespace Quoteless

variable (h : store.Quoteless)
include h

/-! ## Reading

Whatever is found in the store is one of its parts. -/

/-- The fields of a function of any kind are without quotes. -/
theorem fields (ref : FunctionRef) : (store.functionFields ref).Quoteless := by
  cases ref with
  | user id => exact (h.functions id.index).fields
  | native native => exact h.natives native
  | bound id => exact h.boundMethods id.index

/-- The value of a variable is without quotes. -/
theorem lookup {scope : ScopeId} {name : String} {value : Value}
    (hfound : store.lookup scope name = .ok value) : value.Quoteless := by
  unfold Store.lookup at hfound
  split at hfound
  · next found hsome =>
    obtain rfl := Except.ok.inj hfound
    -- It is bound in one of the scopes that were searched.
    obtain ⟨id, -, hid⟩ := List.exists_of_findSome?_eq_some hsome
    exact h.scopes id.index name _ hid
  · cases hfound

/-- The name of a function of any kind is without quotes. -/
theorem functionName (ref : FunctionRef) : Script.Quoteless (store.functionName ref) := by
  cases ref with
  | user id => exact (h.functions id.index).decl.name
  | native native =>
    show Script.Quoteless native.name
    cases native <;> decide
  | bound id => exact (h.functions _).decl.name

omit h in
/-- The text of a number has no quote: it is a numeral or the word for what is none. -/
theorem number (n : Number) : Script.Quoteless (toString n) := by
  -- A numeral has digits and at most a point.
  have hnumeral : ∀ text, Lexeme .number text → '"' ∉ text := by
    intro text htext hmem
    have hdigit : Decimal.isDigit '"' = false := by decide
    cases htext with
    | spelled hspelling => cases hspelling
    | whole hdigits =>
      rw [hdigits.2 _ hmem] at hdigit
      cases hdigit
    | fraction hwhole hdigits =>
      have hmem := List.mem_append.mp hmem
      rw [List.mem_cons] at hmem
      rcases hmem with hmem | hpoint | hmem
      · rw [hwhole.2 _ hmem] at hdigit
        cases hdigit
      · cases hpoint
      · rw [hdigits.2 _ hmem] at hdigit
        cases hdigit
  show '"' ∉ (String.ofList n.text).toList
  rw [String.toList_ofList]
  unfold Number.text
  split
  · decide
  · -- There may be a minus before it.
    have hsign : '"' ∉ (if n.negative then ['-'] else []) := by split <;> decide
    dsimp only
    split
    · exact fun hmem => (List.mem_append.mp hmem).elim hsign (hnumeral _ (Decimal.lexeme_text _))
    · exact fun hmem => (List.mem_append.mp hmem).elim hsign (by decide)

/-- The text of a value without quotes has no quote either. -/
theorem display {value : Value} (hvalue : value.Quoteless) :
    Script.Quoteless (store.display value) := by
  have hnil : Script.Quoteless "nil" := by decide
  have htrue : Script.Quoteless "true" := by decide
  have hfalse : Script.Quoteless "false" := by decide
  have hclose : Script.Quoteless ">" := by decide
  cases value with
  | nil => exact hnil
  | boolean b =>
    cases b with
    | true => exact htrue
    | false => exact hfalse
  | number n => exact number n
  | string text => exact hvalue
  -- The text shows the name of the function between words of the evaluator.
  | function ref =>
    show Script.Quoteless (store.displayFunction ref)
    unfold Store.displayFunction
    refine (Script.Quoteless.append ?_ (h.functionName ref)).append hclose
    cases ref <;> dsimp only <;> decide
  | classRef id =>
    have hopen : Script.Quoteless "<class " := by decide
    exact (hopen.append (h.classes id.index).name).append hclose
  | instanceRef id =>
    have hopen : Script.Quoteless "<instance " := by decide
    exact (hopen.append (h.classes _).name).append hclose

/-! ## Changes

What is put into the store is a value without quotes, or a tree of the program. -/

/-- A scope may be added with variables whose values are without quotes. -/
theorem newChild (parent : ScopeId) {bindings : Table Value} (hbindings : bindings.Quoteless) :
    (store.newChild parent bindings).2.Quoteless :=
  { h with scopes := h.scopes.push hbindings }

/-- A variable may be bound to a value without quotes. -/
theorem bind (scope : ScopeId) (name : String) {value : Value} (hvalue : value.Quoteless) :
    (store.bind scope name value).Quoteless := by
  refine { h with scopes := h.scopes.modify (fun s hs => ?_) scope.index }
  have hs : s.bindings.Quoteless := hs
  exact hs.set hvalue

/-- A variable may be declared with such a value. -/
theorem define {scope : ScopeId} {name : String} {value : Value} {store' : Store}
    (hvalue : value.Quoteless) (hresult : store.define scope name value = .ok store') :
    store'.Quoteless := by
  obtain ⟨-, rfl⟩ := Store.define_eq_ok.mp hresult
  exact h.bind scope name hvalue

/-- A variable may be assigned such a value. -/
theorem assign {scope : ScopeId} {name : String} {value : Value} {store' : Store}
    (hvalue : value.Quoteless) (hresult : store.assign scope name value = .ok store') :
    store'.Quoteless := by
  obtain ⟨owner, -, rfl⟩ := Store.assign_eq_ok.mp hresult
  exact h.bind owner name hvalue

/-- A function may be added whose tree is without quotes. -/
theorem newFunction {decl : FunctionDecl} (hdecl : decl.Quoteless) (closure : ScopeId) :
    (store.newFunction decl closure).2.Quoteless :=
  { h with functions := h.functions.push ⟨hdecl, Table.holds_empty _⟩ }

omit h in
theorem newFunctions {decls : List FunctionDecl} (h : store.Quoteless)
    (hdecls : FunctionDecl.AllQuoteless decls) (closure : ScopeId) :
    (store.newFunctions closure decls).2.Quoteless := by
  induction decls generalizing store with
  | nil => exact h
  | cons decl rest ih => exact ih (h.newFunction hdecls.1 closure) hdecls.2

/-- A class may be added whose name is without quotes. -/
theorem declareClass {name : String} (hname : Script.Quoteless name) (superclass : Option ClassId)
    (methods : List (String × FunctionId)) :
    (store.declareClass name superclass methods).2.Quoteless :=
  { h with classes := h.classes.push ⟨hname, Table.holds_empty _⟩ }

theorem newInstance (ofClass : ClassId) : (store.newInstance ofClass).2.Quoteless :=
  { h with instances := h.instances.push (Table.holds_empty _) }

/-- A bound method is added without fields. -/
theorem bindMethod (resolution : MethodResolution) (receiver : InstanceId) :
    (store.bindMethod resolution receiver).2.Quoteless :=
  { h with boundMethods := h.boundMethods.push (Table.holds_empty _) }

/-- A property that is found is without quotes, and so is the store afterwards. -/
theorem property (object : Value) (name : String) :
    (store.property object name).1.Quoteless ∧ (store.property object name).2.Quoteless := by
  cases object with
  -- It is a field of the object, a bound method, or `nil`.
  | instanceRef id =>
    show (store.instanceProperty id name).1.Quoteless ∧
      (store.instanceProperty id name).2.Quoteless
    unfold Store.instanceProperty
    split
    · next value hfield => exact ⟨h.instances id.index name value hfield, h⟩
    · split
      · exact ⟨trivial, h.bindMethod _ id⟩
      · exact ⟨trivial, h⟩
  | classRef id =>
    refine ⟨?_, h⟩
    show (store.classProperty id name).Quoteless
    unfold Store.classProperty
    split
    · next value hfield => exact (h.classes id.index).fields name value hfield
    · split <;> exact trivial
  | function ref =>
    refine ⟨?_, h⟩
    show (((store.functionFields ref).get? name).getD .nil).Quoteless
    cases hfield : (store.functionFields ref).get? name with
    | some value => exact h.fields ref name value hfield
    | none => exact trivial
  | nil | boolean | number | string => exact ⟨trivial, h⟩

/-- A property may be set to a value without quotes. -/
theorem setProperty {object : Value} {name : String} {value : Value} {store' : Store}
    (hvalue : value.Quoteless) (hresult : store.setProperty object name value = .ok store') :
    store'.Quoteless := by
  cases object with
  | instanceRef id =>
    obtain rfl := Except.ok.inj hresult
    refine { h with instances := h.instances.modify (fun x hx => ?_) id.index }
    have hfields : x.fields.Quoteless := hx
    exact hfields.set hvalue
  | classRef id =>
    obtain rfl := Except.ok.inj hresult
    refine { h with classes := h.classes.modify (fun x hx => ?_) id.index }
    exact ⟨hx.name, hx.fields.set hvalue⟩
  | function ref =>
    obtain rfl := Except.ok.inj hresult
    cases ref with
    | user id =>
      refine { h with functions := h.functions.modify (fun x hx => ?_) id.index }
      exact ⟨hx.decl, hx.fields.set hvalue⟩
    | bound id =>
      refine { h with boundMethods := h.boundMethods.modify (fun x hx => ?_) id.index }
      have hfields : x.fields.Quoteless := hx
      exact hfields.set hvalue
    -- The two natives have fields of their own.
    | native native =>
      refine { h with natives := fun other => ?_ }
      have hother := h.natives other
      cases native <;> cases other <;> first
        | exact hother
        | exact hother.set hvalue
  | nil | boolean | number | string => cases hresult

end Quoteless

end Store

end Script
