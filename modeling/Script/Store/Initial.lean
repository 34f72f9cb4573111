import Script.Store.Classes
import Script.Store.Scopes

/-!
# The initial store

Before a program runs there is one scope, the global one, and one class, the root of every
hierarchy. The root class is among the global variables, next to the native functions.
-/

namespace Script

namespace Store

/-- The scope without a scope around it in which programs run. -/
def globalScope : ScopeId := ⟨0⟩

/-- The class that every class declared without a superclass inherits from. It has no methods. -/
def rootClass : ClassId := ⟨0⟩

/-- The name of the root class, under which programs find it as well. -/
def rootClassName : String := "Object"

/-- The variables that every program finds. A program may assign to them but not declare them again
in the global scope. -/
def globalBindings : List (String × Value) :=
  [(Native.clock.name, .function (.native .clock)),
   (Native.toString.name, .function (.native .toString)),
   (rootClassName, .classRef rootClass)]

/-- The store before a program runs: one scope with the variables that are always there, and the
root class with nothing in it. -/
def initial : Store where
  scopes := Arena.empty.push ⟨[], .ofList globalBindings⟩
  functions := .empty
  boundMethods := .empty
  classes := Arena.empty.push ⟨rootClassName, [], .empty, .empty⟩
  instances := .empty
  nativeFields := ⟨.empty, .empty⟩

end Store

end Script
