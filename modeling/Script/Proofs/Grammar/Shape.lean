import Script.Proofs.Grammar.Parse

/-!
# The shape of parsed programs

What the evaluator relies on in a tree is less than the grammar says: which operators the nodes
carry, what stands on the left of an assignment and in the head of a `for`, and that a branch or
the body of a loop is no declaration. A tree is *formed* if this holds of each of its nodes, those
in the bodies of functions included. Whatever row of tokens the parser accepts, what it builds from
it is formed (`parse_formed`).
-/

namespace Script

/-- The kinds of the operators between two operands, the assignment among them. -/
def binaryKinds : List TokenKind :=
  [.equal, .kwOr, .kwAnd, .equalEqual, .bangEqual, .plus, .minus, .star, .slash, .greater,
    .greaterEqual, .less, .lessEqual]

mutual

/-- Each operator in the expression is one of its arity, and only variables are assigned to with
`=`. -/
def Expr.Formed : Expr → Prop
  | .literal _ | .variable _ | .this _ | .superGet _ _ => True
  | .grouping inner => inner.Formed
  | .unary operator operand =>
    (operator.kind = .bang ∨ operator.kind = .minus) ∧ operand.Formed
  | .binary left operator right =>
    operator.kind ∈ binaryKinds ∧ (operator.kind = .equal → ∃ name, left = .variable name) ∧
      left.Formed ∧ right.Formed
  | .call callee _ arguments => callee.Formed ∧ Expr.AllFormed arguments
  | .get object _ => object.Formed
  | .set object _ value => object.Formed ∧ value.Formed
  | .superCall _ arguments => Expr.AllFormed arguments

/-- `Expr.Formed` for each of these expressions. -/
def Expr.AllFormed : List Expr → Prop
  | [] => True
  | expr :: rest => expr.Formed ∧ Expr.AllFormed rest

end

/-- The expression is formed, if it is there. -/
def FormedClause : Option Expr → Prop
  | none => True
  | some expr => expr.Formed

namespace Stmt

/-- Whether the statement declares a variable, a function or a class. -/
def isDeclaration : Stmt → Bool
  | .varDecl _ _ | .function _ | .classDecl _ _ _ => true
  | _ => false

/-- Whether the statement may start a `for`: as a declaration of a variable, or an expression. -/
def isInitializer : Stmt → Bool
  | .varDecl _ _ | .expression _ => true
  | _ => false

end Stmt

mutual

/-- All expressions in the statement are formed, each `for` starts with a declaration of a variable
or an expression, if with anything, and no declaration is a branch or the body of a loop. -/
def Stmt.Formed : Stmt → Prop
  | .expression expr => expr.Formed
  | .print expr => expr.Formed
  | .varDecl _ init => FormedClause init
  | .block body => Stmt.AllFormed body
  | .ifElse condition thenBranch none =>
    condition.Formed ∧ thenBranch.isDeclaration = false ∧ thenBranch.Formed
  | .ifElse condition thenBranch (some elseBranch) =>
    condition.Formed ∧ (thenBranch.isDeclaration = false ∧ thenBranch.Formed) ∧
      elseBranch.isDeclaration = false ∧ elseBranch.Formed
  | .whileLoop condition body =>
    condition.Formed ∧ body.isDeclaration = false ∧ body.Formed
  | .forLoop none condition post body =>
    (FormedClause condition ∧ FormedClause post) ∧ body.isDeclaration = false ∧ body.Formed
  | .forLoop (some init) condition post body =>
    (init.isInitializer = true ∧ init.Formed) ∧ (FormedClause condition ∧ FormedClause post) ∧
      body.isDeclaration = false ∧ body.Formed
  | .function decl => decl.Formed
  | .returnValue _ value => FormedClause value
  | .classDecl _ _ methods => FunctionDecl.AllFormed methods

/-- `Stmt.Formed` for each of these statements. -/
def Stmt.AllFormed : List Stmt → Prop
  | [] => True
  | stmt :: rest => stmt.Formed ∧ Stmt.AllFormed rest

/-- The body of the function is formed. -/
def FunctionDecl.Formed : FunctionDecl → Prop
  | ⟨_, _, body⟩ => Stmt.AllFormed body

/-- `FunctionDecl.Formed` for each of these functions. -/
def FunctionDecl.AllFormed : List FunctionDecl → Prop
  | [] => True
  | decl :: rest => decl.Formed ∧ FunctionDecl.AllFormed rest

end

/-- A row of expressions is formed if each of them is. -/
theorem Expr.allFormed_iff {exprs : List Expr} :
    Expr.AllFormed exprs ↔ ∀ expr ∈ exprs, expr.Formed := by
  induction exprs with
  | nil => simp [AllFormed]
  | cons expr rest ih => simp [AllFormed, ih]

/-- A row of statements is formed if each of them is. -/
theorem Stmt.allFormed_iff {statements : List Stmt} :
    Stmt.AllFormed statements ↔ ∀ stmt ∈ statements, stmt.Formed := by
  induction statements with
  | nil => simp [AllFormed]
  | cons stmt rest ih => simp [AllFormed, ih]

/-- A row of functions is formed if each of them is. -/
theorem FunctionDecl.allFormed_iff {decls : List FunctionDecl} :
    FunctionDecl.AllFormed decls ↔ ∀ decl ∈ decls, decl.Formed := by
  induction decls with
  | nil => simp [AllFormed]
  | cons decl rest ih => simp [AllFormed, ih]

/-- The body of a formed function is formed. -/
theorem FunctionDecl.Formed.body {decl : FunctionDecl} (h : decl.Formed) :
    Stmt.AllFormed decl.body := by
  cases decl with
  | mk name params body => exact h

/-! ## What the grammar derives is formed

By induction on the derivation: each rule of the grammar asks for at least what a formed node
needs. -/

/-- These levels hold binary operators, none of which assigns. -/
def JoinOperands (levels : List (List TokenKind)) : Prop :=
  ∀ operators ∈ levels, ∀ kind ∈ operators, kind ∈ binaryKinds ∧ kind ≠ .equal

/-- No level of precedence holds the assignment, so what the levels join is no target with a
value. -/
theorem joinOperands_precedence : JoinOperands Grammar.precedence := by
  unfold JoinOperands
  decide

namespace Grammar

mutual

/-- What stands on the left of an assignment is a variable, since the rule takes nothing else. -/
theorem Assignment.formed {expr : Expr} : Assignment expr → expr.Formed
  | @Assignment.toVariable name equals value _ hequals hvalue => by
    have hkind : equals.kind ∈ binaryKinds := by
      rw [hequals]
      decide
    exact ⟨hkind, fun _ => ⟨name, rfl⟩, trivial, hvalue.formed⟩
  | .toProperty hobject _ hvalue => ⟨hobject.formed, hvalue.formed⟩
  | .noTarget h => h.formed joinOperands_precedence

/-- Nodes with two operands carry an operator of some level. -/
theorem Binary.formed {levels : List (List TokenKind)} {expr : Expr} :
    Binary levels expr → JoinOperands levels → expr.Formed
  | .operand h, _ => h.formed
  | .tighter h, hlevels => h.formed fun operators hmem => hlevels operators (.tail _ hmem)
  | @Binary.joined operators tighter left right operator hleft hoperator hright, hlevels => by
    -- None of these operators assigns, so nothing is asked of the left operand.
    obtain ⟨hkind, hassigns⟩ := hlevels operators (.head _) operator.kind hoperator
    have hright : right.Formed :=
      hright.formed fun operators hmem => hlevels operators (.tail _ hmem)
    exact ⟨hkind, fun hequal => absurd hequal hassigns, hleft.formed hlevels, hright⟩

/-- An operator before one operand is one of the two that the evaluator knows. -/
theorem Unary.formed {expr : Expr} : Unary expr → expr.Formed
  | .applied hoperator hoperand => by
    have hkind := hoperator
    simp only [unaryKinds, List.mem_cons, List.not_mem_nil, or_false] at hkind
    exact ⟨hkind, hoperand.formed⟩
  | .call h => h.formed

/-- Calls and properties are formed if what they are made of is: no operator comes in. -/
theorem Call.formed {expr : Expr} : Call expr → expr.Formed
  | .primary h => h.formed
  | .applied hcallee _ harguments =>
    ⟨hcallee.formed, Expr.allFormed_iff.mpr fun e hmem => (harguments e hmem).formed⟩
  | .property hobject _ => hobject.formed

/-- The smallest expressions carry no operator, and those in parentheses are formed by induction. -/
theorem Primary.formed {expr : Expr} : Primary expr → expr.Formed
  | .literal _ => trivial
  | .variable _ => trivial
  | .this _ => trivial
  | .grouping h => h.formed
  | .superGet _ _ => trivial
  | .superCall _ harguments => Expr.allFormed_iff.mpr fun e hmem => (harguments e hmem).formed

end

/-- A clause of a `for`, if it is there. -/
theorem Clause.formed {clause : Option Expr} (h : Clause clause) : FormedClause clause := by
  cases clause with
  | none => trivial
  | some expr => exact (h expr rfl).formed

/-- The declaration of a variable may start a `for`. -/
theorem VariableDecl.formed {stmt : Stmt} (h : VariableDecl stmt) :
    stmt.isInitializer = true ∧ stmt.Formed := by
  cases h with
  | mk hname hinit => exact ⟨rfl, hinit.formed⟩

/-- No statement of the grammar is a declaration. -/
theorem Statement.isDeclaration {stmt : Stmt} (h : Statement stmt) :
    stmt.isDeclaration = false := by
  cases h <;> rfl

mutual

/-- Branches and bodies of loops are statements of the grammar, and so no declarations. -/
theorem Statement.formed {stmt : Stmt} : Statement stmt → stmt.Formed
  | .expression h => h.formed
  | .print h => h.formed
  | .block h => Stmt.allFormed_iff.mpr fun stmt hmem => (h stmt hmem).formed
  | .ifThen hcondition hthen => ⟨hcondition.formed, hthen.isDeclaration, hthen.formed⟩
  | .ifElse hcondition hthen _ helse =>
    ⟨hcondition.formed, ⟨hthen.isDeclaration, hthen.formed⟩, helse.isDeclaration, helse.formed⟩
  | .whileLoop hcondition hbody => ⟨hcondition.formed, hbody.isDeclaration, hbody.formed⟩
  | .forLoop .absent hcondition hpost hbody =>
    ⟨⟨hcondition.formed, hpost.formed⟩, hbody.isDeclaration, hbody.formed⟩
  | .forLoop (.declaration hinit) hcondition hpost hbody =>
    ⟨hinit.formed, ⟨hcondition.formed, hpost.formed⟩, hbody.isDeclaration, hbody.formed⟩
  | .forLoop (.expression hinit) hcondition hpost hbody =>
    ⟨⟨rfl, hinit.formed⟩, ⟨hcondition.formed, hpost.formed⟩, hbody.isDeclaration, hbody.formed⟩
  | .returnValue _ hvalue => hvalue.formed

/-- Declarations are formed because their parts are. -/
theorem Declaration.formed {stmt : Stmt} : Declaration stmt → stmt.Formed
  | .statement h => h.formed
  | .variable h => h.formed.2
  | .function h => h.formed
  | .classDecl _ _ hmethods =>
    FunctionDecl.allFormed_iff.mpr fun decl hmem => (hmethods decl hmem).formed

/-- A function is formed if its body is. -/
theorem Function.formed {decl : FunctionDecl} : Function decl → decl.Formed
  | .mk _ _ hbody => Stmt.allFormed_iff.mpr fun stmt hmem => (hbody stmt hmem).formed

end

end Grammar

/-- The parser builds formed trees only, from whatever row of tokens. -/
theorem parse_formed {tokens : List Token} {program : List Stmt}
    (h : parse tokens = .ok program) : Stmt.AllFormed program :=
  Stmt.allFormed_iff.mpr fun stmt hmem => ((fits_of_parse h).1 stmt hmem).formed

end Script
