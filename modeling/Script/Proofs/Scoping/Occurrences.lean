import Script.Syntax.Tree

/-!
# Where names occur

The scopes that a run opens are foretold by the nesting of the text: a block, a branch, the clauses
of a `for`, the parameters of a function and its body each are a *region* of the text. A *context*
lists the regions around a place of the text from the inside to the outside, each with the names
that it has declared before that place; the global scope is around all of them and is not listed.

`Stmt.occurrencesOfAll` walks over a program and lists every place where a name is declared, read
or assigned, or where a class is named as a superclass, together with the context of the place. An
initial value and a superclass stand before the declaration that they belong to, and the body of a
function or a method stands after it. The keywords `this` and `super` are listed as well.
-/

namespace Script

/-- A part of the text that has a scope of its own. -/
inductive Region where
  /-- The body of a block. -/
  | block (body : List Stmt)
  /-- A branch of an `if`, or the body of a loop. -/
  | branch (stmt : Stmt)
  /-- A `for` that starts in this way. -/
  | header (init : Option Stmt)
  /-- The parameters of a function or of a method. -/
  | parameters (decl : FunctionDecl) (isMethod : Bool)
  /-- The body of a function. -/
  | body (decl : FunctionDecl)

/-- The name that a statement declares in the scope that it stands in. -/
def Stmt.declared : Stmt → List String
  | .varDecl name _ => [name.lexeme]
  | .function ⟨name, _, _⟩ => [name.lexeme]
  | .classDecl name _ _ => [name.lexeme]
  | _ => []

/-- The names that statements declare in the scope that they stand in. -/
def Stmt.declaredByAll : List Stmt → List String
  | [] => []
  | stmt :: rest => stmt.declared ++ Stmt.declaredByAll rest

/-- The name that is declared before the first semicolon of a `for`. -/
def declaredByInit : Option Stmt → List String
  | none => []
  | some init => init.declared

/-- All the names that a region declares. -/
def Region.declared : Region → List String
  | .block statements => Stmt.declaredByAll statements
  | .branch stmt => stmt.declared
  | .header init => declaredByInit init
  | .parameters decl _ => decl.params.map Token.lexeme
  | .body decl => Stmt.declaredByAll decl.body

/-- A region, with the names that it has declared before some place in it. -/
structure Frame where
  region : Region
  names : List String

/-- The regions around a place of the text, the innermost first. -/
abbrev Context := List Frame

/-- The context after the innermost region has declared more names. What is declared in no region
is global and leaves no mark. -/
def Context.declare (names : List String) : Context → Context
  | [] => []
  | frame :: outer => ⟨frame.region, frame.names ++ names⟩ :: outer

/-- The context inside a region that has declared nothing yet. -/
def Context.enter (context : Context) (region : Region) : Context := ⟨region, []⟩ :: context

/-- The context inside the body of a function that is declared in `context`. -/
def Context.enterFunction (context : Context) (decl : FunctionDecl) (isMethod : Bool) : Context :=
  Context.enter (⟨.parameters decl isMethod, decl.params.map Token.lexeme⟩ :: context) (.body decl)

/-- What a name is for where it occurs. -/
inductive Role where
  | declared
  | read
  | assigned
  | superclass
  /-- One of the keywords `this` and `super`. -/
  | receiver
deriving DecidableEq, Repr

/-- A token that names something, and the context of its place in the text. -/
structure Occurrence where
  role : Role
  token : Token
  context : Context

/-! ## Expressions

An expression opens no region and declares nothing, so all its names stand at the place of the
statement that it is part of. They are listed without their place first. A variable on the left of
an equals sign is a target and not read. -/

/-- The variable on the left of an equals sign. -/
def Expr.targets : Expr → List (Role × Token)
  | .variable name => [(.assigned, name)]
  | _ => []

mutual

/-- What an expression names, in the order of the text. -/
def Expr.uses : Expr → List (Role × Token)
  | .literal _ => []
  | .variable name => [(.read, name)]
  | .grouping inner => inner.uses
  | .unary _ operand => operand.uses
  | .binary left operator right =>
    (if operator.kind = .equal then left.targets else left.uses) ++ right.uses
  | .call callee _ arguments => callee.uses ++ Expr.usesOfAll arguments
  | .get object _ => object.uses
  | .set object _ value => object.uses ++ value.uses
  | .this keyword => [(.receiver, keyword)]
  | .superGet keyword _ => [(.receiver, keyword)]
  | .superCall keyword arguments => (.receiver, keyword) :: Expr.usesOfAll arguments

/-- What a row of expressions names, from the first to the last. -/
def Expr.usesOfAll : List Expr → List (Role × Token)
  | [] => []
  | expr :: rest => expr.uses ++ Expr.usesOfAll rest

end

/-- What an expression names, unless there is none. -/
def clauseUses : Option Expr → List (Role × Token)
  | none => []
  | some expr => expr.uses

/-- These uses, all at one place: nothing is declared between the parts of one expression. -/
def Context.place (context : Context) (uses : List (Role × Token)) : List Occurrence :=
  uses.map fun use => ⟨use.1, use.2, context⟩

/-- The names that are declared at one place. -/
def Context.placeDeclared (context : Context) (names : List Token) : List Occurrence :=
  context.place (names.map fun name => (.declared, name))

/-! ## Statements

A statement is walked with the context of its place. Where it opens a region its parts get a context
with one more frame; where a row of statements goes on, the frame of the row has gained the names of
the statements before. The conditions of branches and loops are evaluated outside of them, and the
clauses of a `for` inside its header. -/

mutual

/-- The occurrences of names in a statement. -/
def Stmt.occurrences (context : Context) : Stmt → List Occurrence
  | .expression expr => context.place expr.uses
  | .print expr => context.place expr.uses
  | .varDecl name init => context.placeDeclared [name] ++ context.place (clauseUses init)
  | .block body => Stmt.occurrencesOfAll (context.enter (.block body)) body
  | .ifElse condition thenBranch none =>
    context.place condition.uses ++ thenBranch.occurrences (context.enter (.branch thenBranch))
  | .ifElse condition thenBranch (some elseBranch) =>
    context.place condition.uses ++ thenBranch.occurrences (context.enter (.branch thenBranch)) ++
      elseBranch.occurrences (context.enter (.branch elseBranch))
  | .whileLoop condition body =>
    context.place condition.uses ++ body.occurrences (context.enter (.branch body))
  | .forLoop none condition post body =>
    let clauses := context.enter (.header none)
    clauses.place (clauseUses condition) ++ clauses.place (clauseUses post) ++
      body.occurrences (clauses.enter (.branch body))
  | .forLoop (some init) condition post body =>
    let clauses := (context.enter (.header (some init))).declare init.declared
    init.occurrences (context.enter (.header (some init))) ++
      clauses.place (clauseUses condition) ++ clauses.place (clauseUses post) ++
      body.occurrences (clauses.enter (.branch body))
  | .function decl =>
    context.placeDeclared [decl.name] ++
      decl.occurrences (context.declare [decl.name.lexeme]) false
  | .returnValue _ value => context.place (clauseUses value)
  | .classDecl name superclass methods =>
    context.placeDeclared [name] ++
      context.place (superclass.toList.map fun parent => (.superclass, parent)) ++
      FunctionDecl.occurrencesOfAll (context.declare [name.lexeme]) methods

/-- The occurrences of names in statements that follow each other. -/
def Stmt.occurrencesOfAll (context : Context) : List Stmt → List Occurrence
  | [] => []
  | stmt :: rest =>
    stmt.occurrences context ++ Stmt.occurrencesOfAll (context.declare stmt.declared) rest

/-- The occurrences of names in a function, apart from its own name. -/
def FunctionDecl.occurrences (context : Context) : FunctionDecl → Bool → List Occurrence
  | ⟨name, params, body⟩, isMethod =>
    context.placeDeclared params ++
      Stmt.occurrencesOfAll (context.enterFunction ⟨name, params, body⟩ isMethod) body

/-- The occurrences of names in the methods of a class. -/
def FunctionDecl.occurrencesOfAll (context : Context) : List FunctionDecl → List Occurrence
  | [] => []
  | decl :: rest =>
    decl.occurrences context true ++ FunctionDecl.occurrencesOfAll context rest

end

/-- The occurrences of names in a program. -/
def programOccurrences (program : List Stmt) : List Occurrence := Stmt.occurrencesOfAll [] program

/-- The equation for functions, for a declaration that is not taken apart. -/
theorem FunctionDecl.occurrences_eq (context : Context) (decl : FunctionDecl) (isMethod : Bool) :
    decl.occurrences context isMethod = context.placeDeclared decl.params ++
      Stmt.occurrencesOfAll (context.enterFunction decl isMethod) decl.body := by
  cases decl
  rw [FunctionDecl.occurrences]

/-- What occurs in a method occurs in its class, and in the same context for all methods. -/
theorem occurrences_subset_methods {context : Context} {decls : List FunctionDecl}
    {decl : FunctionDecl} (h : decl ∈ decls) :
    decl.occurrences context true ⊆ FunctionDecl.occurrencesOfAll context decls := by
  induction decls with
  | nil => cases h
  | cons first rest ih =>
    rw [FunctionDecl.occurrencesOfAll]
    rcases List.mem_cons.mp h with rfl | h
    · exact List.subset_append_left ..
    · exact List.Subset.trans (ih h) (List.subset_append_right ..)

/-- Each statement of a program stands in the global scope: names that are declared there leave no
mark in a context, so it does not matter which statements came before. -/
theorem occurrences_subset_program {program : List Stmt} {stmt : Stmt} (h : stmt ∈ program) :
    stmt.occurrences [] ⊆ programOccurrences program := by
  unfold programOccurrences
  induction program with
  | nil => cases h
  | cons first rest ih =>
    rw [Stmt.occurrencesOfAll]
    rcases List.mem_cons.mp h with rfl | h
    · exact List.subset_append_left ..
    · exact List.Subset.trans (ih h) (List.subset_append_right ..)

end Script
