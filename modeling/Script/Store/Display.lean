import Script.Number.Decimal
import Script.Store.Classes

/-!
# Display texts

The text that `print` writes for a value, and its *representation*, which puts strings between
quotes so that they can be told from other texts.
-/

namespace Script

namespace Store

/-- The display text of a function, by which the three kinds of function can be told apart. -/
def displayFunction (store : Store) (ref : FunctionRef) : String :=
  let kind := match ref with
    | .user _ => "<fn "
    | .native _ => "<native fn "
    | .bound _ => "<bound fn "
  kind ++ store.functionName ref ++ ">"

/-- The text that `print` writes for a value. -/
def display (store : Store) : Value → String
  | .nil => "nil"
  | .boolean true => "true"
  | .boolean false => "false"
  | .number n => toString n
  | .string s => s
  | .function ref => store.displayFunction ref
  | .classRef id => "<class " ++ (store.classOf id).name ++ ">"
  | .instanceRef id =>
    "<instance " ++ (store.classOf (store.instanceOf id).ofClass).name ++ ">"

/-- The display text of a value, but a string between quotes. -/
def repr (store : Store) : Value → String
  | .string s => "\"" ++ s ++ "\""
  | value => store.display value

end Store

end Script
