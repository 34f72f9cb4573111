import Mathlib.Data.List.Forall2
import Script.Syntax.Parser.Expression

/-!
# The grammar

The trees that the grammar derives, one predicate for each of its nonterminals. The rules are those
of the language's reference:

```
declaration → classDecl | funDecl | varDecl | statement
classDecl   → "class" IDENT ( "<" IDENT )? "{" funDecl* "}"
funDecl     → "fun" IDENT "(" params? ")" block
varDecl     → "var" IDENT ( "=" expression )? ";"
statement   → exprStmt | forStmt | ifStmt | printStmt | returnStmt | whileStmt | block
expression  → assignment
assignment  → ( call "." IDENT "=" assignment ) | IDENT "=" assignment | logic_or
logic_or    → logic_and ( "or" logic_and )*
logic_and   → equality ( "and" equality )*
equality    → comparison ( ( "!=" | "==" ) comparison )*
comparison  → term ( ( ">" | ">=" | "<" | "<=" ) term )*
term        → factor ( ( "-" | "+" ) factor )*
factor      → unary ( ( "/" | "*" ) unary )*
unary       → ( "!" | "-" ) unary | call
call        → primary ( "(" arguments? ")" | "." IDENT )*
```

What the grammar leaves open is settled here as well: an operator of a level takes its left operand
from the same level and its right one from the next, and the branch between an `if` and its `else`
must not end in an `if` that lacks one (`awaitsElse`).

Nothing here is taken from the parser. The operators of the six binary levels are listed once more
(`precedence`), and the last section compares this table with the one that the parser walks down
(`binary_operatorLevels`).
-/

namespace Script

/-- Whether the statement ends in an `if` without an `else`, which an `else` after it would join. -/
def Stmt.awaitsElse : Stmt → Bool
  | .ifElse _ _ none => true
  | .ifElse _ _ (some elseBranch) => elseBranch.awaitsElse
  | .whileLoop _ body => body.awaitsElse
  | .forLoop _ _ _ body => body.awaitsElse
  | _ => false

namespace Grammar

/-- The kinds of the tokens that stand for a value by themselves. -/
def literalKinds : List TokenKind := [.kwFalse, .kwTrue, .kwNil, .number, .string]

/-- The kinds of the unary operators. A minus sign is a binary operator as well, which the tree
tells apart. -/
def unaryKinds : List TokenKind := [.bang, .minus]

/-- The binary operators of `logic_or`, `logic_and`, `equality`, `comparison`, `term` and `factor`,
in this order. The operands of a level belong to the next one, so the operators of later levels bind
tighter; those of one level bind alike. -/
def precedence : List (List TokenKind) :=
  [[.kwOr],
   [.kwAnd],
   [.bangEqual, .equalEqual],
   [.greater, .greaterEqual, .less, .lessEqual],
   [.minus, .plus],
   [.slash, .star]]

/-! ## Expressions -/

mutual

/-- `assignment`, which is what an expression is. A target is a name, or a property of a call chain;
what stands on its right side is again an assignment, so that these group to the right. -/
inductive Assignment : Expr → Prop where
  | toVariable {name equals : Token} {value : Expr} (hname : name.kind = .identifier)
      (hequals : equals.kind = .equal) (hvalue : Assignment value) :
      Assignment (.binary (.variable name) equals value)
  | toProperty {object : Expr} {name : Token} {value : Expr} (hobject : Call object)
      (hname : name.kind = .identifier) (hvalue : Assignment value) :
      Assignment (.set object name value)
  | noTarget {expr : Expr} (h : Binary precedence expr) : Assignment expr

/-- The levels from `logic_or` to `factor`: operands joined by the operators of the first of these
levels. Operators of one level group to the left. -/
inductive Binary : List (List TokenKind) → Expr → Prop where
  | operand {expr : Expr} (h : Unary expr) : Binary [] expr
  | tighter {operators : List TokenKind} {tighter : List (List TokenKind)} {expr : Expr}
      (h : Binary tighter expr) : Binary (operators :: tighter) expr
  | joined {operators : List TokenKind} {tighter : List (List TokenKind)} {left right : Expr}
      {operator : Token} (hleft : Binary (operators :: tighter) left)
      (hoperator : operator.kind ∈ operators) (hright : Binary tighter right) :
      Binary (operators :: tighter) (.binary left operator right)

/-- `unary`: any number of operators in front of a call chain. They bind tighter than all binary
operators. -/
inductive Unary : Expr → Prop where
  | applied {operator : Token} {operand : Expr} (hoperator : operator.kind ∈ unaryKinds)
      (hoperand : Unary operand) : Unary (.unary operator operand)
  | call {expr : Expr} (h : Call expr) : Unary expr

/-- `call`: a primary expression, and behind it any number of argument lists and properties. The
tree keeps the opening parenthesis of each list. -/
inductive Call : Expr → Prop where
  | primary {expr : Expr} (h : Primary expr) : Call expr
  | applied {callee : Expr} {paren : Token} {arguments : List Expr} (hcallee : Call callee)
      (hparen : paren.kind = .leftParen) (harguments : ∀ e ∈ arguments, Assignment e) :
      Call (.call callee paren arguments)
  | property {object : Expr} {name : Token} (hobject : Call object)
      (hname : name.kind = .identifier) : Call (.get object name)

/-- `primary`: what stands by itself or between parentheses. A parenthesis lets any expression in,
so that the levels start again. -/
inductive Primary : Expr → Prop where
  | literal {token : Token} (h : token.kind ∈ literalKinds) : Primary (.literal token)
  | variable {name : Token} (h : name.kind = .identifier) : Primary (.variable name)
  | this {keyword : Token} (h : keyword.kind = .kwThis) : Primary (.this keyword)
  | grouping {inner : Expr} (h : Assignment inner) : Primary (.grouping inner)
  | superGet {keyword method : Token} (hkeyword : keyword.kind = .kwSuper)
      (hmethod : method.kind = .identifier) : Primary (.superGet keyword method)
  | superCall {keyword : Token} {arguments : List Expr} (hkeyword : keyword.kind = .kwSuper)
      (harguments : ∀ e ∈ arguments, Assignment e) : Primary (.superCall keyword arguments)

end

/-- An expression that may be missing, as an initial value, a clause of a `for` or the value of a
`return`. -/
def Clause (clause : Option Expr) : Prop := ∀ expr ∈ clause, Assignment expr

/-! ## Statements -/

/-- `varDecl`: a name, and an initial value if there is one. -/
inductive VariableDecl : Stmt → Prop where
  | mk {name : Token} {init : Option Expr} (hname : name.kind = .identifier)
      (hinit : Clause init) : VariableDecl (.varDecl name init)

/-- What may stand before the first semicolon of a `for`. -/
inductive Initializer : Option Stmt → Prop where
  | absent : Initializer none
  | declaration {stmt : Stmt} (h : VariableDecl stmt) : Initializer (some stmt)
  | expression {expr : Expr} (h : Assignment expr) : Initializer (some (.expression expr))

mutual

/-- `statement`: what the branches of an `if` and the bodies of loops are. -/
inductive Statement : Stmt → Prop where
  | expression {expr : Expr} (h : Assignment expr) : Statement (.expression expr)
  | print {expr : Expr} (h : Assignment expr) : Statement (.print expr)
  | block {body : List Stmt} (h : ∀ stmt ∈ body, Declaration stmt) : Statement (.block body)
  | ifThen {condition : Expr} {thenBranch : Stmt} (hcondition : Assignment condition)
      (hthen : Statement thenBranch) : Statement (.ifElse condition thenBranch none)
  | ifElse {condition : Expr} {thenBranch elseBranch : Stmt} (hcondition : Assignment condition)
      (hthen : Statement thenBranch) (hclosed : thenBranch.awaitsElse = false)
      (helse : Statement elseBranch) :
      Statement (.ifElse condition thenBranch (some elseBranch))
  | whileLoop {condition : Expr} {body : Stmt} (hcondition : Assignment condition)
      (hbody : Statement body) : Statement (.whileLoop condition body)
  | forLoop {init : Option Stmt} {condition post : Option Expr} {body : Stmt}
      (hinit : Initializer init) (hcondition : Clause condition) (hpost : Clause post)
      (hbody : Statement body) : Statement (.forLoop init condition post body)
  | returnValue {keyword : Token} {value : Option Expr} (hkeyword : keyword.kind = .kwReturn)
      (hvalue : Clause value) : Statement (.returnValue keyword value)

/-- `declaration`: what programs and blocks are made of. -/
inductive Declaration : Stmt → Prop where
  | statement {stmt : Stmt} (h : Statement stmt) : Declaration stmt
  | variable {stmt : Stmt} (h : VariableDecl stmt) : Declaration stmt
  | function {decl : FunctionDecl} (h : Function decl) : Declaration (.function decl)
  | classDecl {name : Token} {superclass : Option Token} {methods : List FunctionDecl}
      (hname : name.kind = .identifier)
      (hsuperclass : ∀ token ∈ superclass, token.kind = .identifier)
      (hmethods : ∀ decl ∈ methods, Function decl) :
      Declaration (.classDecl name superclass methods)

/-- `funDecl`: functions and methods. Parameters are names, and the body is a block, so it may hold
declarations. -/
inductive Function : FunctionDecl → Prop where
  | mk {name : Token} {params : List Token} {body : List Stmt} (hname : name.kind = .identifier)
      (hparams : ∀ token ∈ params, token.kind = .identifier)
      (hbody : ∀ stmt ∈ body, Declaration stmt) : Function ⟨name, params, body⟩

end

/-- `program`: a row of declarations. Of the end of the input that follows it, the tree keeps
nothing. -/
def Program (statements : List Stmt) : Prop := ∀ stmt ∈ statements, Declaration stmt

/-! ## The levels of the parser

The parser keeps a table of its own (`Parser.operatorLevels`). It has the same levels, though the
operators of a level stand in another order there; since they bind alike, both tables derive the
same trees. -/

/-- Level by level, the parser looks for the operators that the grammar has there. -/
theorem operatorLevels_agree : List.Forall₂ List.Perm Parser.operatorLevels precedence :=
  .cons (by decide) <| .cons (by decide) <| .cons (by decide) <| .cons (by decide) <|
    .cons (by decide) <| .cons (by decide) .nil

/-- The order in which the operators of a level are listed does not matter to the trees. -/
theorem Binary.perm {expr : Expr} {levels levels' : List (List TokenKind)}
    (hlevels : List.Forall₂ List.Perm levels levels') : Binary levels expr → Binary levels' expr
  | .operand h => by
    cases hlevels
    exact .operand h
  | .tighter h => by
    cases hlevels with
    | cons _ htighter => exact .tighter (h.perm htighter)
  | .joined hleft hoperator hright => by
    have hwhole := hleft.perm hlevels
    cases hlevels with
    | cons hoperators htighter =>
      exact .joined hwhole (hoperators.mem_iff.mp hoperator) (hright.perm htighter)

/-- What the parser's levels join is what the grammar's levels join. -/
theorem binary_operatorLevels {expr : Expr} :
    Binary Parser.operatorLevels expr ↔ Binary precedence expr := by
  constructor
  · exact Binary.perm operatorLevels_agree
  · have hperm : List.Forall₂ (fun a b => List.Perm b a) Parser.operatorLevels precedence :=
      operatorLevels_agree.imp fun _ _ h => h.symm
    exact Binary.perm hperm.flip

end Grammar

end Script
