import Script.Syntax.Tree

/-!
# What programs define

The functions, methods and classes that a program declares, at any depth: inside blocks, loops and
branches, inside the bodies of functions, and inside the methods of classes.
-/

namespace Script

/-- Something that is declared with `fun` or with `class`. -/
inductive Definition where
  /-- A function, or a method of a class. -/
  | function (decl : FunctionDecl)
  | classNamed (name : Token)

/-- The name that is declared, by a function or by a class. -/
def Definition.name : Definition → Token
  | function decl => decl.name
  | classNamed name => name

mutual

/-- What a statement defines, itself or anywhere inside. -/
def Stmt.definitions : Stmt → List Definition
  | .expression _ | .print _ | .varDecl _ _ | .returnValue _ _ => []
  | .block body => Stmt.definitionsOfAll body
  | .ifElse _ thenBranch none => thenBranch.definitions
  | .ifElse _ thenBranch (some elseBranch) => thenBranch.definitions ++ elseBranch.definitions
  | .whileLoop _ body => body.definitions
  | .forLoop none _ _ body => body.definitions
  | .forLoop (some init) _ _ body => init.definitions ++ body.definitions
  | .function decl => decl.definitions
  | .classDecl name _ methods => .classNamed name :: FunctionDecl.definitionsOfAll methods

/-- What the statements define, from the first to the last. -/
def Stmt.definitionsOfAll : List Stmt → List Definition
  | [] => []
  | stmt :: rest => stmt.definitions ++ Stmt.definitionsOfAll rest

/-- A function itself, and what its body defines. -/
def FunctionDecl.definitions : FunctionDecl → List Definition
  | ⟨name, params, body⟩ => .function ⟨name, params, body⟩ :: Stmt.definitionsOfAll body

/-- What the methods of a class define, each of them and what is inside it. -/
def FunctionDecl.definitionsOfAll : List FunctionDecl → List Definition
  | [] => []
  | decl :: rest => decl.definitions ++ FunctionDecl.definitionsOfAll rest

end

end Script
