import Script.Store.Basic

/-!
# Variables

A name stands for the variable of the nearest scope around that holds it. Declaring a name touches
the table of its own scope only, and assigning to it the table of that nearest scope.
-/

namespace Script

namespace Store

/-- A scope and the scopes around it, from the inside to the outside. -/
def chain (store : Store) (scope : ScopeId) : List ScopeId :=
  scope :: (store.scope scope).enclosing

/-- The variables of a scope itself, without those of the scopes around it. -/
def bindings (store : Store) (scope : ScopeId) : Table Value := (store.scope scope).bindings

/-- Whether the scope itself holds the name. -/
def declares (store : Store) (scope : ScopeId) (name : String) : Bool :=
  (store.bindings scope).contains name

/-- The nearest scope, from `scope` outward, that holds the name. -/
def owner? (store : Store) (scope : ScopeId) (name : String) : Option ScopeId :=
  (store.chain scope).find? fun s => store.declares s name

/-- A scope with these variables nested in `parent`. -/
def newChild (store : Store) (parent : ScopeId) (bindings : Table Value) : ScopeId × Store :=
  store.newScope (store.chain parent) bindings

/-- Gives a variable of the scope a value, whether it is there or not. -/
def bind (store : Store) (scope : ScopeId) (name : String) (value : Value) : Store :=
  { store with
    scopes := store.scopes.modify scope.index fun s =>
      { s with bindings := s.bindings.set name value } }

/-- The value that a name stands for in a scope: that of the first scope of the chain that holds
it. -/
def lookup (store : Store) (scope : ScopeId) (name : String) : Except RuntimeError Value :=
  match (store.chain scope).findSome? fun s => (store.bindings s).get? name with
  | some value => .ok value
  | none => .error (.undefinedVariable name)

/-- Declares a name in a scope, which must not hold it yet. The scopes around it may hold it, and
keep it. -/
@[inline] def define (store : Store) (scope : ScopeId) (name : String) (value : Value) :
    Except RuntimeError Store :=
  if store.declares scope name then .error (.redeclaredVariable name)
  else .ok (store.bind scope name value)

/-- Changes the value that a name stands for in a scope, where `lookup` would find it. -/
@[inline] def assign (store : Store) (scope : ScopeId) (name : String) (value : Value) :
    Except RuntimeError Store :=
  match store.owner? scope name with
  | some owner => .ok (store.bind owner name value)
  | none => .error (.undefinedVariable name)

/-- Whether there is no scope around this one. -/
def isOutermost (store : Store) (scope : ScopeId) : Bool := (store.scope scope).enclosing.isEmpty

end Store

end Script
