import Script.Syntax.Tree

/-!
# Dumps

The fully parenthesised text of a syntax tree, in which every operator, keyword or declaration
comes before its parts.
-/

namespace Script

mutual

/-- The dump of an expression: an operator or a word in front of its operands, in parentheses.
Leaves are dumped as they were written. -/
def Expr.dump : Expr → String
  | .literal token => token.lexeme
  | .variable name => name.lexeme
  | .grouping inner => "(group " ++ inner.dump ++ ")"
  | .unary operator operand => "(" ++ operator.lexeme ++ " " ++ operand.dump ++ ")"
  | .binary left operator right =>
    "(" ++ operator.lexeme ++ " " ++ left.dump ++ " " ++ right.dump ++ ")"
  | .call callee _ arguments => "(call " ++ callee.dump ++ Expr.dumpEach arguments ++ ")"
  | .get object name => "(. " ++ object.dump ++ " " ++ name.lexeme ++ ")"
  | .set object name value =>
    "(= (. " ++ object.dump ++ " " ++ name.lexeme ++ ") " ++ value.dump ++ ")"
  | .this _ => "this"
  | .superGet _ method => "(super " ++ method.lexeme ++ ")"
  | .superCall _ arguments => "(super-call" ++ Expr.dumpEach arguments ++ ")"

/-- The dumps of expressions, a blank before each. -/
def Expr.dumpEach : List Expr → String
  | [] => ""
  | expr :: rest => " " ++ expr.dump ++ Expr.dumpEach rest

end

/-- The dump of a clause that may be missing. -/
def dumpClause (clause : Option Expr) : String :=
  match clause with
  | none => "nil"
  | some expr => expr.dump

mutual

/-- The dump of a statement: a word for its kind in front of its parts, in parentheses. A clause of
a `for` that is missing is dumped as `nil`. -/
def Stmt.dump : Stmt → String
  | .expression expr => "(expr " ++ expr.dump ++ ")"
  | .print expr => "(print " ++ expr.dump ++ ")"
  | .varDecl name none => "(var " ++ name.lexeme ++ ")"
  | .varDecl name (some init) => "(var " ++ name.lexeme ++ " " ++ init.dump ++ ")"
  | .block body => "(block" ++ Stmt.dumpEach body ++ ")"
  | .ifElse condition thenBranch none =>
    "(if " ++ condition.dump ++ " " ++ thenBranch.dump ++ ")"
  | .ifElse condition thenBranch (some elseBranch) =>
    "(if " ++ condition.dump ++ " " ++ thenBranch.dump ++ " " ++ elseBranch.dump ++ ")"
  | .whileLoop condition body => "(while " ++ condition.dump ++ " " ++ body.dump ++ ")"
  | .forLoop none condition post body =>
    "(for nil " ++ dumpClause condition ++ " " ++ dumpClause post ++ " " ++ body.dump ++ ")"
  | .forLoop (some init) condition post body =>
    "(for " ++ init.dump ++ " " ++ dumpClause condition ++ " " ++ dumpClause post ++ " "
      ++ body.dump ++ ")"
  | .function decl => decl.dump
  | .returnValue _ none => "(return)"
  | .returnValue _ (some value) => "(return " ++ value.dump ++ ")"
  | .classDecl name none methods =>
    "(class " ++ name.lexeme ++ FunctionDecl.dumpEach methods ++ ")"
  | .classDecl name (some superclass) methods =>
    "(class " ++ name.lexeme ++ " < " ++ superclass.lexeme ++ FunctionDecl.dumpEach methods ++ ")"

/-- The dumps of statements, a blank before each. -/
def Stmt.dumpEach : List Stmt → String
  | [] => ""
  | stmt :: rest => " " ++ stmt.dump ++ Stmt.dumpEach rest

/-- The dump of a function or method. -/
def FunctionDecl.dump : FunctionDecl → String
  | ⟨name, params, body⟩ =>
    "(fun " ++ name.lexeme ++ " (" ++ " ".intercalate (params.map Token.lexeme) ++ ")"
      ++ Stmt.dumpEach body ++ ")"

/-- The dumps of methods, a blank before each. -/
def FunctionDecl.dumpEach : List FunctionDecl → String
  | [] => ""
  | decl :: rest => " " ++ decl.dump ++ FunctionDecl.dumpEach rest

end

end Script
