import Script.Store.Classes

/-!
# Properties

Functions, classes and instances have properties; reading one that is not there yields `nil`. On
an instance a name that is no field stands for a method of its class, bound to the instance; on a
class it stands for the method itself.
-/

namespace Script

namespace Store

/-- The fields of a function. Each bound method has fields of its own, apart from those of its
method. -/
def functionFields (store : Store) : FunctionRef → Fields
  | .user id => (store.function id).fields
  | .native native => store.nativeFields.get native
  | .bound id => (store.boundMethod id).fields

/-- A method bound to a receiver, as a value. -/
def bindMethod (store : Store) (resolution : MethodResolution) (receiver : InstanceId) :
    Value × Store :=
  let (id, store) := store.newBoundMethod resolution.method receiver resolution.declaringClass
  (.function (.bound id), store)

/-- Reads a property of an instance: a field if there is one, or else a method of its class, which
is bound anew each time it is read. -/
def instanceProperty (store : Store) (id : InstanceId) (name : String) : Value × Store :=
  match (store.instanceOf id).fields.get? name with
  | some value => (value, store)
  | none =>
    match store.method? (store.instanceOf id).ofClass name with
    | some resolution => store.bindMethod resolution id
    | none => (.nil, store)

/-- Reads a property of a class: a field if there is one, or else a method as it was declared, bound
to nothing. -/
def classProperty (store : Store) (id : ClassId) (name : String) : Value :=
  match (store.classOf id).fields.get? name with
  | some value => value
  | none =>
    match store.method? id name with
    | some resolution => .function (.user resolution.method)
    | none => .nil

/-- Reads a property of any value. A value without fields has no property, and reading one is no
error. -/
def property (store : Store) (object : Value) (name : String) : Value × Store :=
  match object with
  | .instanceRef id => store.instanceProperty id name
  | .classRef id => (store.classProperty id name, store)
  | .function ref => (((store.functionFields ref).get? name).getD .nil, store)
  | .nil | .boolean _ | .number _ | .string _ => (.nil, store)

/-- Changes the fields of a function, in the arena that its reference belongs to. -/
def modifyFunctionFields (store : Store) (ref : FunctionRef) (f : Fields → Fields) : Store :=
  match ref with
  | .user id =>
    { store with
      functions := store.functions.modify id.index fun x => { x with fields := f x.fields } }
  | .native native => { store with nativeFields := store.nativeFields.modify native f }
  | .bound id =>
    { store with
      boundMethods := store.boundMethods.modify id.index fun x => { x with fields := f x.fields } }

/-- Sets a property of a value that can have some. -/
@[inline] def setProperty (store : Store) (object : Value) (name : String) (value : Value) :
    Except RuntimeError Store :=
  match object with
  | .instanceRef id =>
    .ok { store with
      instances := store.instances.modify id.index fun x =>
        { x with fields := x.fields.set name value } }
  | .classRef id =>
    .ok { store with
      classes := store.classes.modify id.index fun x =>
        { x with fields := x.fields.set name value } }
  | .function ref => .ok (store.modifyFunctionFields ref fun fields => fields.set name value)
  | .nil | .boolean _ | .number _ | .string _ => .error (.immutableTarget object.type)

end Store

end Script
