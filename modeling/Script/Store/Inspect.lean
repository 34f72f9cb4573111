import Script.Store.Display
import Script.Store.Scopes
import Script.Text.Escape

/-!
# Inspection texts

A value or a scope written out for someone who examines the store: with its kind, and for scopes,
classes and instances with the names that they hold, sorted. What the names stand for is left out,
since it may lead back to where it came from.
-/

namespace Script

/-- The names in order, by their code points. -/
def sortedNames (names : List String) : List String := names.mergeSort fun a b => decide (a ≤ b)

/-- Names in quotes, with commas between them. -/
def quotedNames (names : List String) : String :=
  ", ".intercalate ((sortedNames names).map Text.quoted)

/-- Names in quotes as a list, between brackets. -/
def nameList (names : List String) : String := "[" ++ quotedNames names ++ "]"

/-- Names in quotes as a set, between braces. -/
def nameSet (names : List String) : String := "\x7b" ++ quotedNames names ++ "\x7d"

/-- A kind of thing with named parts. -/
def record (kind : String) (parts : List (String × String)) : String :=
  kind ++ " \x7b " ++ ", ".intercalate (parts.map fun (name, text) => name ++ ": " ++ text)
    ++ " \x7d"

/-- A kind of thing with named parts, some of which are left out. -/
def openRecord (kind : String) (parts : List (String × String)) : String :=
  kind ++ " \x7b " ++ String.join (parts.map fun (name, text) => name ++ ": " ++ text ++ ", ")
    ++ ".. \x7d"

/-- A truth value as a word of the language. -/
def truthWord (b : Bool) : String := if b then "true" else "false"

/-- The digits of a number with one of them before the point, and the power of ten that they are
multiplied by. -/
def scientificText (n : Number) : String :=
  let d := n.magnitude.shortest
  let digits := Nat.toDigits 10 d.coefficient
  let significant := (digits.reverse.dropWhile (· = '0')).reverse
  let fraction := significant.drop 1
  let point := if fraction = [] then [] else '.' :: fraction
  let exponent : Int := digits.length - 1 - d.places
  String.ofList (significant.take 1 ++ point) ++ "e" ++ toString exponent

/-- A number, which shows that it is one: very large and very small numbers are written with an
exponent, and the others have a point. -/
def inspectNumber (n : Number) : String :=
  let text := toString n
  if !n.isFinite || n.units = 0 then if n.units = 0 then text ++ ".0" else text
  else
    let exponent := Number.decimalExponent n.units
    if exponent ≤ -4 ∨ 17 ≤ exponent then (if n.negative then "-" else "") ++ scientificText n
    else if text.contains '.' then text
    else text ++ ".0"

namespace Store

/-- The inspection text of a scope: the names it holds, and whether it is the global one. -/
def inspectScope (store : Store) (id : ScopeId) : String :=
  record "Environment"
    [("names", nameList (store.bindings id).names), ("global", truthWord (store.isOutermost id))]

/-- The name and the number of parameters of a function. -/
def inspectSignature (store : Store) (ref : FunctionRef) : List (String × String) :=
  [("name", Text.quoted (store.functionName ref)), ("arity", toString (store.arity ref))]

/-- The inspection text of a class. Of the superclass only the name is shown, so that the text
ends. -/
def inspectClass (store : Store) (id : ClassId) : String :=
  let c := store.classOf id
  let parent := match store.superclass? id with
    | none => "None"
    | some parent => "Some(" ++ Text.quoted (store.classOf parent).name ++ ")"
  record "Class"
    [("name", Text.quoted c.name), ("superclass", parent), ("methods", nameList c.methods.names),
     ("fields", nameSet c.fields.names)]

/-- The inspection text of an instance. Fields are shown by their names only, since a value may
refer back to the instance. -/
def inspectInstance (store : Store) (id : InstanceId) : String :=
  let i := store.instanceOf id
  record "RefCell"
    [("value", record "Instance"
      [("class", Text.quoted (store.classOf i.ofClass).name),
       ("fields", nameList i.fields.names)])]

/-- The inspection text of a function, by the three kinds of function. -/
def inspectFunction (store : Store) : FunctionRef → String
  | .native native =>
    "Native(" ++ openRecord "NativeFunction" (store.inspectSignature (.native native)) ++ ")"
  | .user id =>
    "User(" ++ openRecord "UserFunction" (store.inspectSignature (.user id)) ++ ")"
  | .bound id =>
    let bound := store.boundMethod id
    "Bound(" ++ record "BoundMethod"
      [("method", openRecord "UserFunction" (store.inspectSignature (.user bound.method))),
       ("receiver", store.inspectInstance bound.receiver),
       ("declaring_class", store.inspectClass bound.declaringClass),
       ("fields", nameSet bound.fields.names)] ++ ")"

/-- The inspection text of a value, which tells more than its display text and is for the log. -/
def inspect (store : Store) : Value → String
  | .nil => "Nil"
  | .boolean b => "Boolean(" ++ truthWord b ++ ")"
  | .number n => "Number(" ++ inspectNumber n ++ ")"
  | .string s => "String(" ++ Text.quoted s ++ ")"
  | .function ref => "Function(" ++ store.inspectFunction ref ++ ")"
  | .classRef id => "Class(" ++ store.inspectClass id ++ ")"
  | .instanceRef id => "Instance(" ++ store.inspectInstance id ++ ")"

end Store

end Script
