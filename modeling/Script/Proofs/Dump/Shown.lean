import Script.Proofs.Dump.Trees
import Script.Proofs.Session.Alike

/-!
# What a dump shows

A dump writes no places, and where a `for` lacks its condition or its last expression it writes
`nil`, which is also how it writes that literal. `Stmt.shown` is the statement with the places
forgotten and such clauses filled in; it has the same dump (`Stmt.dump_shown`).
-/

namespace Script

/-! ## What is hidden -/

/-- The token with its place forgotten. Kind, lexeme and literal stay. -/
def Token.bare (token : Token) : Token := token.relocate fun _ => .origin

/-- The expression with all places forgotten. What it evaluates to is the same. -/
def Expr.bare (expr : Expr) : Expr := expr.relocate fun _ => .origin

/-- The literal `nil` at no place, which fills in for a clause that is missing. -/
def Expr.nil : Expr := .literal ⟨.kwNil, "nil", none, .origin⟩

/-- The clause, or the literal `nil` where it is missing. -/
def filledClause (clause : Option Expr) : Option Expr := some (clause.getD .nil)

mutual

/-- The statement with the literal `nil` for each condition or last expression that a `for` in it
lacks. -/
def Stmt.filled : Stmt → Stmt
  | .block body => .block (Stmt.filledAll body)
  | .ifElse condition thenBranch none => .ifElse condition thenBranch.filled none
  | .ifElse condition thenBranch (some elseBranch) =>
    .ifElse condition thenBranch.filled (some elseBranch.filled)
  | .whileLoop condition body => .whileLoop condition body.filled
  | .forLoop none condition post body =>
    .forLoop none (filledClause condition) (filledClause post) body.filled
  | .forLoop (some init) condition post body =>
    .forLoop (some init.filled) (filledClause condition) (filledClause post) body.filled
  | .function decl => .function decl.filled
  | .classDecl name superclass methods =>
    .classDecl name superclass (FunctionDecl.filledAll methods)
  | .expression expr => .expression expr
  | .print expr => .print expr
  | .varDecl name init => .varDecl name init
  | .returnValue keyword value => .returnValue keyword value

/-- `Stmt.filled` for each of these statements. -/
def Stmt.filledAll : List Stmt → List Stmt
  | [] => []
  | stmt :: rest => stmt.filled :: Stmt.filledAll rest

/-- `Stmt.filled` in the body of a function. -/
def FunctionDecl.filled : FunctionDecl → FunctionDecl
  | ⟨name, params, body⟩ => ⟨name, params, Stmt.filledAll body⟩

/-- `FunctionDecl.filled` for each of these functions. -/
def FunctionDecl.filledAll : List FunctionDecl → List FunctionDecl
  | [] => []
  | decl :: rest => decl.filled :: FunctionDecl.filledAll rest

end

/-- What a dump shows of a statement. -/
def Stmt.shown (stmt : Stmt) : Stmt := stmt.bare.filled

/-! ## What is hidden makes no difference

The form of a tree holds the texts of its tokens only, so it does not change when they are moved.
Nor does it change when a missing clause is filled in, since the form of a missing clause is that of
the literal. -/

section

variable (move : Span → Span)

mutual

/-- The form of an expression does not depend on the places of its tokens. -/
theorem Expr.form_relocate : ∀ expr : Expr, (expr.relocate move).form = expr.form
  | .literal _ | .variable _ | .this _ | .superGet _ _ => rfl
  | .grouping inner => by simp [Expr.relocate, Expr.form, inner.form_relocate]
  | .unary _ operand => by simp [Expr.relocate, Expr.form, operand.form_relocate]
  | .binary left _ right => by
    simp [Expr.relocate, Expr.form, left.form_relocate, right.form_relocate]
  | .call callee _ arguments => by
    simp [Expr.relocate, Expr.form, callee.form_relocate, Expr.forms_relocate arguments]
  | .get object _ => by simp [Expr.relocate, Expr.form, object.form_relocate]
  | .set object _ value => by
    simp [Expr.relocate, Expr.form, object.form_relocate, value.form_relocate]
  | .superCall _ arguments => by simp [Expr.relocate, Expr.form, Expr.forms_relocate arguments]

theorem Expr.forms_relocate : ∀ es : List Expr,
    Expr.forms (Expr.relocateAll move es) = Expr.forms es
  | [] => rfl
  | expr :: rest => by
    simp [Expr.relocateAll, Expr.forms, expr.form_relocate, Expr.forms_relocate rest]

end

theorem clauseForm_relocate (clause : Option Expr) :
    clauseForm (relocateClause move clause) = clauseForm clause := by
  cases clause with
  | none => rfl
  | some expr => exact expr.form_relocate move

theorem nameForm_relocate (params : List Token) :
    (params.map (Token.relocate move)).map nameForm = params.map nameForm := by
  rw [List.map_map]
  rfl

mutual

/-- The form of a statement does not depend on the places of its tokens. A form is built of lexemes
only, so a move of the spans passes through every constructor; what may be absent has a case of its
own, since the form leaves no word for it. -/
theorem Stmt.form_relocate : ∀ stmt : Stmt, (stmt.relocate move).form = stmt.form
  | .expression expr | .print expr => by
    simp [Stmt.relocate, Stmt.form, expr.form_relocate]
  | .varDecl _ none | .returnValue _ none => rfl
  | .varDecl _ (some init) => by
    simp [Stmt.relocate, relocateClause, Stmt.form, nameForm, init.form_relocate]
  | .returnValue _ (some value) => by
    simp [Stmt.relocate, relocateClause, Stmt.form, value.form_relocate]
  | .block body => by simp [Stmt.relocate, Stmt.form, Stmt.forms_relocate body]
  | .ifElse condition thenBranch none => by
    simp [Stmt.relocate, Stmt.form, condition.form_relocate, thenBranch.form_relocate]
  | .ifElse condition thenBranch (some elseBranch) => by
    simp [Stmt.relocate, Stmt.form, condition.form_relocate, thenBranch.form_relocate,
      elseBranch.form_relocate]
  | .whileLoop condition body => by
    simp [Stmt.relocate, Stmt.form, condition.form_relocate, body.form_relocate]
  | .forLoop none condition post body => by
    simp [Stmt.relocate, Stmt.form, clauseForm_relocate, body.form_relocate]
  | .forLoop (some init) condition post body => by
    simp [Stmt.relocate, Stmt.form, clauseForm_relocate, init.form_relocate, body.form_relocate]
  | .function decl => by simp [Stmt.relocate, Stmt.form, decl.form_relocate]
  | .classDecl _ none methods => by
    simp [Stmt.relocate, Stmt.form, nameForm, FunctionDecl.forms_relocate methods]
  | .classDecl _ (some _) methods => by
    simp [Stmt.relocate, Stmt.form, nameForm, FunctionDecl.forms_relocate methods]

theorem Stmt.forms_relocate : ∀ statements : List Stmt,
    Stmt.forms (Stmt.relocateAll move statements) = Stmt.forms statements
  | [] => rfl
  | stmt :: rest => by
    simp [Stmt.relocateAll, Stmt.forms, stmt.form_relocate, Stmt.forms_relocate rest]

theorem FunctionDecl.form_relocate : ∀ decl : FunctionDecl,
    (decl.relocate move).form = decl.form
  | ⟨name, params, body⟩ => by
    have hparams := nameForm_relocate move params
    rw [FunctionDecl.relocate, FunctionDecl.form, FunctionDecl.form, hparams,
      Stmt.forms_relocate body]
    rfl

theorem FunctionDecl.forms_relocate : ∀ decls : List FunctionDecl,
    FunctionDecl.forms (FunctionDecl.relocateAll move decls) = FunctionDecl.forms decls
  | [] => rfl
  | decl :: rest => by
    simp [FunctionDecl.relocateAll, FunctionDecl.forms, decl.form_relocate,
      FunctionDecl.forms_relocate rest]

end

end

/-- A missing clause has the form of the literal that it is filled with. -/
theorem clauseForm_filled (clause : Option Expr) :
    clauseForm (filledClause clause) = clauseForm clause := by
  cases clause <;> rfl

mutual

/-- A statement has the same form with its missing clauses filled in. -/
theorem Stmt.form_filled : ∀ stmt : Stmt, stmt.filled.form = stmt.form
  | .expression _ | .print _ | .varDecl _ _ | .returnValue _ _ => rfl
  | .block body => by simp [Stmt.filled, Stmt.form, Stmt.forms_filled body]
  | .ifElse _ thenBranch none => by simp [Stmt.filled, Stmt.form, thenBranch.form_filled]
  | .ifElse _ thenBranch (some elseBranch) => by
    simp [Stmt.filled, Stmt.form, thenBranch.form_filled, elseBranch.form_filled]
  | .whileLoop _ body => by simp [Stmt.filled, Stmt.form, body.form_filled]
  | .forLoop none _ _ body => by
    simp [Stmt.filled, Stmt.form, clauseForm_filled, body.form_filled]
  | .forLoop (some init) _ _ body => by
    simp [Stmt.filled, Stmt.form, clauseForm_filled, init.form_filled, body.form_filled]
  | .function decl => by simp [Stmt.filled, Stmt.form, decl.form_filled]
  | .classDecl _ none methods => by
    simp [Stmt.filled, Stmt.form, FunctionDecl.forms_filled methods]
  | .classDecl _ (some _) methods => by
    simp [Stmt.filled, Stmt.form, FunctionDecl.forms_filled methods]

theorem Stmt.forms_filled : ∀ statements : List Stmt,
    Stmt.forms (Stmt.filledAll statements) = Stmt.forms statements
  | [] => rfl
  | stmt :: rest => by
    simp [Stmt.filledAll, Stmt.forms, stmt.form_filled, Stmt.forms_filled rest]

theorem FunctionDecl.form_filled : ∀ decl : FunctionDecl, decl.filled.form = decl.form
  | ⟨_, _, body⟩ => by
    simp [FunctionDecl.filled, FunctionDecl.form, Stmt.forms_filled body]

theorem FunctionDecl.forms_filled : ∀ decls : List FunctionDecl,
    FunctionDecl.forms (FunctionDecl.filledAll decls) = FunctionDecl.forms decls
  | [] => rfl
  | decl :: rest => by
    simp [FunctionDecl.filledAll, FunctionDecl.forms, decl.form_filled,
      FunctionDecl.forms_filled rest]

end

/-- A statement is dumped as what is shown of it. -/
theorem Stmt.dump_shown (stmt : Stmt) : stmt.shown.dump = stmt.dump := by
  refine String.toList_inj.mp ?_
  rw [Stmt.toList_dump, Stmt.toList_dump, Stmt.shown, Stmt.form_filled, Stmt.bare,
    Stmt.form_relocate]

end Script
