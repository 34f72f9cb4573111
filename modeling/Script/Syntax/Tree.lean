import Script.Token.Basic

/-!
# Syntax trees

Programs after parsing. The nodes keep the tokens that later stages need: for their text, for the
value of a literal, or for a place to report.
-/

namespace Script

/-- Expressions, with the tokens that say which operator, which name or which literal it is and
where it stands. -/
inductive Expr where
  /-- A number, a string, `true`, `false` or `nil`. -/
  | literal (token : Token)
  | variable (name : Token)
  | grouping (inner : Expr)
  | unary (operator : Token) (operand : Expr)
  /-- Arithmetic, comparison and equality, and also `and`, `or` and the assignment `=` to a
  variable, which the operator tells apart. -/
  | binary (left : Expr) (operator : Token) (right : Expr)
  | call (callee : Expr) (paren : Token) (arguments : List Expr)
  | get (object : Expr) (name : Token)
  | set (object : Expr) (name : Token) (value : Expr)
  | this (keyword : Token)
  | superGet (keyword : Token) (method : Token)
  | superCall (keyword : Token) (arguments : List Expr)
deriving Repr

mutual

/-- Statements and declarations. Blocks and bodies of functions hold both. -/
inductive Stmt where
  | expression (expr : Expr)
  | print (expr : Expr)
  | varDecl (name : Token) (init : Option Expr)
  | block (body : List Stmt)
  | ifElse (condition : Expr) (thenBranch : Stmt) (elseBranch : Option Stmt)
  | whileLoop (condition : Expr) (body : Stmt)
  | forLoop (init : Option Stmt) (condition : Option Expr) (post : Option Expr) (body : Stmt)
  | function (decl : FunctionDecl)
  | returnValue (keyword : Token) (value : Option Expr)
  | classDecl (name : Token) (superclass : Option Token) (methods : List FunctionDecl)

/-- A function or a method: its name, its parameters and its body. -/
structure FunctionDecl where
  name : Token
  params : List Token
  body : List Stmt

end

end Script
