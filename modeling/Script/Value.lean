import Script.Number.Basic

/-!
# Values

What expressions evaluate to. Functions, classes and instances are references into the store:
copies of a value share them, and two references are equal exactly when they refer to the same
thing.
-/

namespace Script

/-! ## References -/

/-- The reference to a scope of the store. -/
structure ScopeId where
  index : Nat
deriving DecidableEq, Repr

/-- The reference to a function of the store that a program declares. -/
structure FunctionId where
  index : Nat
deriving DecidableEq, Repr

/-- The reference to a method of the store that is bound to a receiver. -/
structure BoundMethodId where
  index : Nat
deriving DecidableEq, Repr

/-- The reference to a class of the store. -/
structure ClassId where
  index : Nat
deriving DecidableEq, Repr

/-- The reference to an instance of the store. -/
structure InstanceId where
  index : Nat
deriving DecidableEq, Repr

/-- The functions that every program finds in its global scope. -/
inductive Native where
  /-- The time in seconds. -/
  | clock
  /-- The display text of a value. -/
  | toString
deriving DecidableEq, Repr

namespace Native

def name : Native → String
  | clock => "clock"
  | toString => "toString"

def arity : Native → Nat
  | clock => 0
  | toString => 1

end Native

/-- What a call expression can invoke apart from a class. -/
inductive FunctionRef where
  | user (id : FunctionId)
  | native (native : Native)
  | bound (id : BoundMethodId)
deriving DecidableEq, Repr

/-! ## Values -/

/-- What an expression evaluates to. The first four kinds carry what they are, and the others are
references into the store. -/
inductive Value where
  | nil
  | boolean (value : Bool)
  | number (value : Number)
  | string (value : String)
  | function (ref : FunctionRef)
  | classRef (id : ClassId)
  | instanceRef (id : InstanceId)
deriving DecidableEq, Repr, Inhabited

/-- The kinds of value, as they are named in reports. -/
inductive ValueType where
  | nil | boolean | number | string | function | classType | instanceType
deriving DecidableEq, Repr

namespace ValueType

/-- The name of a kind in a report. -/
def name : ValueType → String
  | nil => "Nil"
  | boolean => "Boolean"
  | number => "Number"
  | string => "String"
  | function => "Function"
  | classType => "Class"
  | instanceType => "Instance"

end ValueType

namespace Value

/-- The kind of a value. It says nothing about what a reference refers to. -/
def type : Value → ValueType
  | nil => .nil
  | boolean _ => .boolean
  | number _ => .number
  | string _ => .string
  | function _ => .function
  | classRef _ => .classType
  | instanceRef _ => .instanceType

/-- Only `nil` and `false` count as false. -/
def isTruthy : Value → Bool
  | nil => false
  | boolean value => value
  | _ => true

/-- Equality as the language has it: numbers compare as numbers, and otherwise values are equal when
they are the same. Functions, classes and instances are the same when they are the same
reference. -/
def equal : Value → Value → Bool
  | number a, number b => a.equal b
  | a, b => decide (a = b)

end Value

end Script
