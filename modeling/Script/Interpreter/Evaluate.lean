import Script.Interpreter.Operators
import Script.Store.Display
import Script.Store.Properties

/-!
# Evaluation

The rules of the language, one case for each kind of expression and statement. Every function here
takes a bound on the nested steps first; a bound that is large enough makes no difference to the
outcome.

A block, a branch, the clauses of a `for` and each run of a loop body have a scope of their own. A
call makes two: one for the parameters, inside the scope that the function was declared in, and
one for the body, inside that. A method's receiver and the superclass of the class that declares
it are variables of the first, under names that no program can declare.
-/

namespace Script

/-- How a statement ends: with a value, or with a `return` that leaves the function. -/
inductive Completion where
  | normal (value : Value)
  | returned (value : Value)
deriving DecidableEq, Repr

/-- The variable that holds the receiver of a method. -/
def thisName : String := "this"

/-- The variable that holds the superclass of the class that declares a method. -/
def superName : String := "super"

/-! ## Single steps -/

namespace Eval

/-- A new scope without variables inside `scope`. The scopes around it stay as they are, so leaving
it again takes no step of its own. -/
def child (scope : ScopeId) : Eval ScopeId := allocate fun store => store.newChild scope .empty

/-- The value that a name stands for: that of the nearest scope around `scope` that holds the name.
If none does, the name is reported as undefined. -/
def lookup (scope : ScopeId) (name : String) : Eval Value :=
  readOrFail fun store => store.lookup scope name

/-- Declares a name in `scope` itself, whatever the scopes around it hold. A name that is already
there is reported, and keeps its value. -/
def define (scope : ScopeId) (name : String) (value : Value) : Eval Unit :=
  update fun store => store.define scope name value

/-- Changes the value that a name stands for, in the scope in which `lookup` would find it. Nothing
is declared: a name that is not found is reported as undefined. -/
def assign (scope : ScopeId) (name : String) (value : Value) : Eval Unit :=
  update fun store => store.assign scope name value

/-- Reads a property. This may change the store: a method that is read off an instance is bound to
it, and each reading makes a bound method of its own. -/
def property (object : Value) (name : String) : Eval Value :=
  allocate fun store => store.property object name

/-- Sets a property. Functions, classes and instances take fields under any name; no other value
does, and the attempt is reported. -/
def setProperty (object : Value) (name : String) (value : Value) : Eval Unit :=
  update fun store => store.setProperty object name value

/-- Fails unless as many arguments are passed as there are parameters. The report tells both
numbers. -/
def checkArity (expected actual : Nat) : Eval Unit :=
  if expected = actual then pure () else fail (.arityMismatch expected actual)

/-- The instance that the running method was called on, found as a variable like any other. The
keyword is for the report where no method is running. -/
def receiver (scope : ScopeId) (keyword : String) : Eval InstanceId :=
  readOrFail fun store =>
    match store.lookup scope thisName with
    | .ok (.instanceRef id) => .ok id
    | _ => .error (.unboundThis keyword)

/-- The superclass of the class that declares the running method, if it has one. It is the class
that declares the method that matters here, and not the class of the receiver. -/
def superclass (scope : ScopeId) : Eval (Option ClassId) :=
  readOrFail fun store =>
    match store.lookup scope superName with
    | .ok (.classRef id) => .ok (some id)
    | .ok _ => .ok none
    | .error _ => .error (.unboundThis superName)

/-- Calls a native function. Its own check of the arguments matters only to callers that do not
compare their number with the arity first. -/
def native (function : Native) (arguments : List Value) : Eval Value :=
  match function, arguments with
  | .clock, _ => return .number (← readClock)
  | .toString, [value] => read fun store => .string (store.display value)
  | .toString, _ => fail (.arityMismatch 1 arguments.length)

/-- The variables of a call: `this` and `super` if a method is called on a receiver, and the
parameters with the arguments. -/
def callBindings (store : Store) (function : UserFunction)
    (binding : Option (InstanceId × ClassId)) (arguments : List Value) : List (String × Value) :=
  let receiver := match binding with
    | none => []
    | some (id, declaringClass) =>
      let parent := match store.superclass? declaringClass with
        | some parent => .classRef parent
        | none => .nil
      [(thisName, .instanceRef id), (superName, parent)]
  receiver ++ (function.decl.params.map Token.lexeme).zip arguments

/-- The scope in which the body of a called function runs, inside that of its parameters. Two
parameters of one name are an error, which comes up in the call and not in the declaration. -/
def enter (function : UserFunction) (binding : Option (InstanceId × ClassId))
    (arguments : List Value) : Eval ScopeId := do
  let bindings ← read fun store => callBindings store function binding arguments
  match Table.empty.addDistinct bindings with
  | .error name => fail (.redeclaredVariable name)
  | .ok table =>
    let parameters ← allocate fun store => store.newChild function.closure table
    child parameters

/-- Declares a class: its superclass is looked up first, then its methods and the class itself
come into being, and the name is declared last. -/
def declareClass (scope : ScopeId) (name : Token) (superclass : Option Token)
    (methods : List FunctionDecl) : Eval Unit := do
  let parent ← (do
    match superclass with
    | none => pure Store.rootClass
    | some parent =>
      match ← lookup scope parent.lexeme with
      | .classRef id => pure id
      | _ => fail (.notAClass parent.lexeme))
  let functions ← allocate fun store => store.newFunctions scope methods
  let id ← allocate fun store => store.declareClass name.lexeme (some parent) functions
  define scope name.lexeme (.classRef id)

/-! ## Expressions, calls and statements -/

mutual

/-- Evaluates an expression, its parts from left to right. A variable is read when its turn comes,
and an assignment yields the value that it assigns; only `or` and `and` may leave an operand out. -/
def evaluate : Nat → ScopeId → Expr → Eval Value
  | 0, _, _ => exhausted
  | _ + 1, _, .literal token => pure token.value
  | _ + 1, scope, .variable name => lookup scope name.lexeme
  | fuel + 1, scope, .grouping inner => evaluate fuel scope inner
  | fuel + 1, scope, .unary operator operand => do
    let value ← evaluate fuel scope operand
    applyUnary operator value
  | fuel + 1, scope, .binary left operator right =>
    match operator.kind with
    | .equal =>
      match left with
      | .variable name => do
        let value ← evaluate fuel scope right
        assign scope name.lexeme value
        pure value
      | _ => malformed
    -- The right side is evaluated only where the left one does not decide.
    | .kwOr => do
      let value ← evaluate fuel scope left
      if value.isTruthy then pure value else evaluate fuel scope right
    | .kwAnd => do
      let value ← evaluate fuel scope left
      if value.isTruthy then evaluate fuel scope right else pure value
    | _ => do
      let leftValue ← evaluate fuel scope left
      let rightValue ← evaluate fuel scope right
      applyBinary leftValue operator rightValue
  | fuel + 1, scope, .call callee _ arguments => do
    let function ← evaluate fuel scope callee
    let values ← evaluateAll fuel scope arguments
    call fuel function values
  | fuel + 1, scope, .get object name => do
    let value ← evaluate fuel scope object
    property value name.lexeme
  -- The value comes last, so an error in it comes before that of an object without fields.
  | fuel + 1, scope, .set object name value => do
    let target ← evaluate fuel scope object
    let result ← evaluate fuel scope value
    setProperty target name.lexeme result
    pure result
  | _ + 1, scope, .this _ => do
    let id ← receiver scope thisName
    pure (.instanceRef id)
  | _ + 1, scope, .superGet _ method => do
    let id ← receiver scope superName
    match ← superclass scope with
    | none => pure .nil
    | some parent =>
      match ← read fun store => store.method? parent method.lexeme with
      | none => pure .nil
      | some resolution => allocate fun store => store.bindMethod resolution id
  | fuel + 1, scope, .superCall _ arguments => do
    let id ← receiver scope superName
    let parent ← superclass scope
    let values ← evaluateAll fuel scope arguments
    construct fuel id parent values
    pure .nil

/-- Evaluates expressions from left to right. The first one that fails ends the row, and what the
earlier ones have done stays done. -/
def evaluateAll : Nat → ScopeId → List Expr → Eval (List Value)
  | 0, _, _ => exhausted
  | _ + 1, _, [] => pure []
  | fuel + 1, scope, expr :: rest => do
    let value ← evaluate fuel scope expr
    let others ← evaluateAll fuel scope rest
    pure (value :: others)

/-- Calls a function, or makes an instance of a class. Nothing else can be called, and of a function
the number of arguments is checked before anything of its body runs. -/
def call : Nat → Value → List Value → Eval Value
  | 0, _, _ => exhausted
  | fuel + 1, .function ref, arguments => do
    let arity ← read fun store => store.arity ref
    checkArity arity arguments.length
    match ref with
    | .native function => native function arguments
    | .user id => invoke fuel id none arguments
    | .bound id => do
      let bound ← read fun store => store.boundMethod id
      invoke fuel bound.method (some (bound.receiver, bound.declaringClass)) arguments
  -- The instance is there before its constructor is looked for, and stays if this fails.
  | fuel + 1, .classRef id, arguments => do
    let created ← allocate fun store => store.newInstance id
    construct fuel created (some id) arguments
    pure (.instanceRef created)
  | _ + 1, other, _ => fail (.notCallable other.type)

/-- Runs the first constructor from the class `start` upward on an instance; where there is none,
no arguments may be passed. What the constructor returns is dropped. -/
def construct : Nat → InstanceId → Option ClassId → List Value → Eval Unit
  | 0, _, _, _ => exhausted
  | fuel + 1, id, start, arguments => do
    let found ← read fun store => start.bind fun start => store.method? start constructorName
    match found with
    | none => checkArity 0 arguments.length
    | some resolution =>
      let arity ← read fun store => store.arity (.user resolution.method)
      checkArity arity arguments.length
      let _ ← invoke fuel resolution.method (some (id, resolution.declaringClass)) arguments
      pure ()

/-- Runs the body of a function; `binding` tells the receiver and the declaring class of a method.
The number of arguments must have been checked. -/
def invoke : Nat → FunctionId → Option (InstanceId × ClassId) → List Value → Eval Value
  | 0, _, _, _ => exhausted
  | fuel + 1, id, binding, arguments => do
    let function ← read fun store => store.function id
    let body ← enter function binding arguments
    match ← executeAll fuel body function.decl.body with
    | .returned value => pure value
    | .normal _ => pure .nil

/-- Runs a statement. An expression yields its value, and all other statements that run to their end
yield `nil`, or the value of the statement that they ended with. -/
def execute : Nat → ScopeId → Stmt → Eval Completion
  | 0, _, _ => exhausted
  | fuel + 1, scope, .expression expr => do
    let value ← evaluate fuel scope expr
    pure (.normal value)
  | fuel + 1, scope, .print expr => do
    let value ← evaluate fuel scope expr
    let text ← read fun store => store.display value
    write (text ++ "\n")
    pure (.normal .nil)
  | fuel + 1, scope, .varDecl name init => do
    let value ← evaluateOption fuel scope init
    define scope name.lexeme value
    pure (.normal .nil)
  | fuel + 1, scope, .block body => do
    let inner ← child scope
    executeAll fuel inner body
  | fuel + 1, scope, .ifElse condition thenBranch elseBranch => do
    let value ← evaluate fuel scope condition
    if value.isTruthy then
      let inner ← child scope
      execute fuel inner thenBranch
    else
      match elseBranch with
      | none => pure (.normal .nil)
      | some elseBranch =>
        let inner ← child scope
        execute fuel inner elseBranch
  | fuel + 1, scope, .whileLoop condition body => whileLoop fuel scope condition body
  -- The variables of the initialiser live in a scope of their own around all rounds.
  | fuel + 1, scope, .forLoop init condition post body => do
    let clauses ← child scope
    match init with
    | none => forLoop fuel clauses condition post body
    | some init =>
      let _ ← execute fuel clauses init
      forLoop fuel clauses condition post body
  -- The function is made before its name is declared, so that it is there if the name is taken.
  | _ + 1, scope, .function decl => do
    let id ← allocate fun store => store.newFunction decl scope
    define scope decl.name.lexeme (.function (.user id))
    pure (.normal .nil)
  | fuel + 1, scope, .returnValue _ value => do
    let result ← evaluateOption fuel scope value
    pure (.returned result)
  | _ + 1, scope, .classDecl name superclass methods => do
    declareClass scope name superclass methods
    pure (.normal .nil)

/-- Evaluates an expression that may be missing; the value is then `nil`. -/
def evaluateOption : Nat → ScopeId → Option Expr → Eval Value
  | 0, _, _ => exhausted
  | _ + 1, _, none => pure .nil
  | fuel + 1, scope, some expr => evaluate fuel scope expr

/-- Runs statements until one of them returns. The value is that of the last statement, which is why
a row of one statement has a case of its own. -/
def executeAll : Nat → ScopeId → List Stmt → Eval Completion
  | 0, _, _ => exhausted
  | _ + 1, _, [] => pure (.normal .nil)
  | fuel + 1, scope, [last] => execute fuel scope last
  | fuel + 1, scope, stmt :: rest => do
    match ← execute fuel scope stmt with
    | .returned value => pure (.returned value)
    | .normal _ => executeAll fuel scope rest

/-- Runs a `while` loop. Each turn has a scope of its own inside `scope`, so that what one turn
declares is gone in the next; a `return` in the body ends the loop. -/
def whileLoop : Nat → ScopeId → Expr → Stmt → Eval Completion
  | 0, _, _, _ => exhausted
  | fuel + 1, scope, condition, body => do
    let value ← evaluate fuel scope condition
    if value.isTruthy then
      let inner ← child scope
      match ← execute fuel inner body with
      | .returned value => pure (.returned value)
      | .normal _ => whileLoop fuel scope condition body
    else pure (.normal .nil)

/-- Runs a `for` loop whose initialiser has run in the scope of its clauses. Condition and last
clause are evaluated in that scope, and each turn of the body in a new one inside it. -/
def forLoop : Nat → ScopeId → Option Expr → Option Expr → Stmt → Eval Completion
  | 0, _, _, _, _ => exhausted
  | fuel + 1, clauses, condition, post, body => do
    let goOn ← (do
      match condition with
      | none => pure true
      | some condition => return (← evaluate fuel clauses condition).isTruthy)
    if goOn then
      let inner ← child clauses
      match ← execute fuel inner body with
      | .returned value => pure (.returned value)
      | .normal _ =>
        let _ ← evaluateOption fuel clauses post
        forLoop fuel clauses condition post body
    else pure (.normal .nil)

end

end Eval

end Script
