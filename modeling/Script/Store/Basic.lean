import Script.RuntimeError
import Script.Store.Arena
import Script.Syntax.Tree
import Script.Table

/-!
# The store

The store holds everything that values refer to: scopes, functions, bound methods, classes and
instances. A scope keeps the list of the scopes around it and a class the list of its ancestors,
the nearest first, so that looking a name up is a walk along a list.
-/

namespace Script

/-- The properties set on a function, a class or an instance. -/
abbrev Fields := Table Value

/-- A table of variables, with the scopes around it from the nearest to the outermost. -/
structure Scope where
  enclosing : List ScopeId
  bindings : Table Value
deriving Inhabited

/-- A function that a program declares, with the scope that its declaration stood in. -/
structure UserFunction where
  decl : FunctionDecl
  closure : ScopeId
  fields : Fields

/-- A method that was read off an instance or with `super`: what is called, the instance that
`this` stands for, and the class that declares the method. -/
structure BoundMethod where
  method : FunctionId
  receiver : InstanceId
  declaringClass : ClassId
  fields : Fields

/-- A class, with its ancestors from its superclass to the root of its hierarchy. -/
structure Class where
  name : String
  ancestors : List ClassId
  methods : Table FunctionId
  fields : Fields
deriving Inhabited

/-- An instance of a class. What its class declares is not copied: fields hold only what was set. -/
structure Instance where
  ofClass : ClassId
  fields : Fields

/-- The default name: the empty identifier at the beginning of a source. -/
def Token.anonymous : Token := ⟨.identifier, "", none, .origin⟩

instance : Inhabited UserFunction := ⟨⟨⟨.anonymous, [], []⟩, ⟨0⟩, .empty⟩⟩

instance : Inhabited BoundMethod := ⟨⟨⟨0⟩, ⟨0⟩, ⟨0⟩, .empty⟩⟩

instance : Inhabited Instance := ⟨⟨⟨0⟩, .empty⟩⟩

/-- The properties set on the native functions. -/
structure NativeFields where
  clock : Fields
  toString : Fields
deriving Inhabited

namespace NativeFields

def get (fields : NativeFields) : Native → Fields
  | .clock => fields.clock
  | .toString => fields.toString

def modify (fields : NativeFields) (native : Native) (f : Fields → Fields) : NativeFields :=
  match native with
  | .clock => { fields with clock := f fields.clock }
  | .toString => { fields with toString := f fields.toString }

end NativeFields

/-- Everything that values refer to, in one arena for each kind of reference. The fields of the two
native functions stand apart, since those are there from the start and refer to no arena. -/
structure Store where
  scopes : Arena Scope
  functions : Arena UserFunction
  boundMethods : Arena BoundMethod
  classes : Arena Class
  instances : Arena Instance
  nativeFields : NativeFields
deriving Inhabited

namespace Store

/-! ## What references refer to -/

def scope (store : Store) (id : ScopeId) : Scope := store.scopes.get id.index

def function (store : Store) (id : FunctionId) : UserFunction := store.functions.get id.index

def boundMethod (store : Store) (id : BoundMethodId) : BoundMethod :=
  store.boundMethods.get id.index

def classOf (store : Store) (id : ClassId) : Class := store.classes.get id.index

def instanceOf (store : Store) (id : InstanceId) : Instance := store.instances.get id.index

/-! ## Allocation

Each of these yields the reference to something new, and the store that holds it. -/

/-- A scope with these variables inside the scopes `enclosing`. -/
def newScope (store : Store) (enclosing : List ScopeId) (bindings : Table Value) :
    ScopeId × Store :=
  (⟨store.scopes.size⟩, { store with scopes := store.scopes.push ⟨enclosing, bindings⟩ })

/-- A function declared in the scope `closure`. -/
def newFunction (store : Store) (decl : FunctionDecl) (closure : ScopeId) : FunctionId × Store :=
  (⟨store.functions.size⟩, { store with functions := store.functions.push ⟨decl, closure, .empty⟩ })

/-- A method bound to a receiver; it differs from every other one. -/
def newBoundMethod (store : Store) (method : FunctionId) (receiver : InstanceId)
    (declaringClass : ClassId) : BoundMethodId × Store :=
  (⟨store.boundMethods.size⟩,
    { store with
      boundMethods := store.boundMethods.push ⟨method, receiver, declaringClass, .empty⟩ })

/-- A class without fields. Its ancestors are given as a list, so that no later change of a variable
that held the superclass can reach it. -/
def newClass (store : Store) (name : String) (ancestors : List ClassId)
    (methods : Table FunctionId) : ClassId × Store :=
  (⟨store.classes.size⟩,
    { store with classes := store.classes.push ⟨name, ancestors, methods, .empty⟩ })

/-- An instance without fields, whose class is `ofClass` for good. -/
def newInstance (store : Store) (ofClass : ClassId) : InstanceId × Store :=
  (⟨store.instances.size⟩, { store with instances := store.instances.push ⟨ofClass, .empty⟩ })

end Store

end Script
