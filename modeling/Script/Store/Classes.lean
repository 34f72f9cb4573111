import Script.Store.Basic

/-!
# Methods

A class has one superclass at most. A method is looked up by name along the classes from a given
one upward, and the first class that declares it wins.
-/

namespace Script

/-- The name of the method that a new instance is initialised with. -/
def constructorName : String := "constructor"

/-- A method, and the class that declares it. -/
structure MethodResolution where
  method : FunctionId
  declaringClass : ClassId
deriving DecidableEq, Repr

namespace Store

/-- A class and its ancestors, from the class upward. -/
def lineage (store : Store) (id : ClassId) : List ClassId := id :: (store.classOf id).ancestors

/-- The superclass of a class, which is the first of its ancestors. The root of a hierarchy has
none. -/
def superclass? (store : Store) (id : ClassId) : Option ClassId :=
  (store.classOf id).ancestors.head?

/-- The method that a class itself declares under a name. -/
def ownMethod? (store : Store) (id : ClassId) (name : String) : Option FunctionId :=
  (store.classOf id).methods.get? name

/-- The method with this name in the first class from `start` upward that declares one. -/
def method? (store : Store) (start : ClassId) (name : String) : Option MethodResolution :=
  (store.lineage start).findSome? fun id =>
    (store.ownMethod? id name).map fun method => ⟨method, id⟩

/-- Whether `other` is the class or one of its ancestors. -/
def isSubclass (store : Store) (id other : ClassId) : Bool := other ∈ store.lineage id

/-- A class with these methods, of which a later one replaces an earlier one of the same name. -/
def declareClass (store : Store) (name : String) (superclass : Option ClassId)
    (methods : List (String × FunctionId)) : ClassId × Store :=
  let ancestors := match superclass with
    | none => []
    | some parent => store.lineage parent
  store.newClass name ancestors (.ofList methods)

/-- Functions for these declarations, all declared in one scope, by name. -/
def newFunctions (store : Store) (closure : ScopeId) :
    List FunctionDecl → List (String × FunctionId) × Store
  | [] => ([], store)
  | decl :: rest =>
    let (id, store) := store.newFunction decl closure
    let (others, store) := store.newFunctions closure rest
    ((decl.name.lexeme, id) :: others, store)

/-- The number of parameters of a function. A bound method takes as many arguments as its method,
since the receiver is none of them. -/
def arity (store : Store) : FunctionRef → Nat
  | .user id => (store.function id).decl.params.length
  | .native native => native.arity
  | .bound id => (store.function (store.boundMethod id).method).decl.params.length

/-- The name that a function was declared under; that of a bound method is the name of its
method. -/
def functionName (store : Store) : FunctionRef → String
  | .user id => (store.function id).decl.name.lexeme
  | .native native => native.name
  | .bound id => (store.function (store.boundMethod id).method).decl.name.lexeme

end Store

end Script
