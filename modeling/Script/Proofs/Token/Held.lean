import Script.Proofs.Scoping.Names
import Script.Proofs.Token.Spelled

/-!
# The tokens in trees

A tree keeps the tokens of its marks. In the program of a source all of them are tokens that
scanning has found (`heldScanned_of_read`), so that their texts say what they stand for. The lemmas
before it take the tokens of a tree apart into those of its parts.
-/

namespace Script

/-- The tokens that these marks keep are tokens as scanning finds them. -/
def HeldScanned (marks : List Mark) : Prop := ∀ token ∈ heldTokens marks, token.Scanned

section

variable {a b marks : List Mark} {token : Token} {kind : TokenKind}

@[simp] theorem heldScanned_nil : HeldScanned [] := fun _ hmem => absurd hmem List.not_mem_nil

/-- A mark that keeps its token adds one. -/
@[simp] theorem heldScanned_held :
    HeldScanned (.held token :: marks) ↔ token.Scanned ∧ HeldScanned marks := by
  simp [HeldScanned]

/-- A mark of a fixed kind adds none. -/
@[simp] theorem heldScanned_fixed : HeldScanned (.fixed kind :: marks) ↔ HeldScanned marks :=
  Iff.rfl

/-- Marks in a row keep the tokens of both parts. -/
@[simp] theorem heldScanned_append : HeldScanned (a ++ b) ↔ HeldScanned a ∧ HeldScanned b := by
  simp [HeldScanned, or_imp, forall_and]

/-- Arguments after the first keep the tokens of each of them. -/
theorem heldScanned_moreArguments {arguments : List Expr} :
    HeldScanned (Expr.moreArgumentMarks arguments) ↔ ∀ e ∈ arguments, HeldScanned e.marks := by
  induction arguments with
  | nil => simp [Expr.moreArgumentMarks]
  | cons first others ih => simp [Expr.moreArgumentMarks, ih]

/-- Arguments keep the tokens of each of them. -/
theorem heldScanned_arguments {arguments : List Expr} :
    HeldScanned (Expr.argumentMarks arguments) ↔ ∀ e ∈ arguments, HeldScanned e.marks := by
  cases arguments with
  | nil => simp [Expr.argumentMarks]
  | cons first others => simp [Expr.argumentMarks, heldScanned_moreArguments]

/-- Parameters are tokens themselves. -/
theorem heldScanned_parameters {params : List Token} :
    HeldScanned (parameterMarks params) ↔ ∀ token ∈ params, token.Scanned := by
  rw [HeldScanned, heldTokens_parameters]

/-- Statements keep the tokens of each of them. -/
theorem heldScanned_statements {statements : List Stmt} :
    HeldScanned (Stmt.marksOfAll statements) ↔ ∀ stmt ∈ statements, HeldScanned stmt.marks := by
  induction statements with
  | nil => simp [Stmt.marksOfAll]
  | cons first others ih => simp [Stmt.marksOfAll, ih]

theorem heldScanned_functions {decls : List FunctionDecl} :
    HeldScanned (FunctionDecl.marksOfAll decls) ↔ ∀ decl ∈ decls, HeldScanned decl.marks := by
  induction decls with
  | nil => simp [FunctionDecl.marksOfAll]
  | cons first others ih => simp [FunctionDecl.marksOfAll, ih]

end

/-- The tokens that the program of a source keeps are scanned. -/
theorem heldScanned_of_read {source : String} {program : List Stmt}
    (h : readProgram source = .ok program) : HeldScanned (Stmt.marksOfAll program) := by
  intro token hmem
  have htoken : token ∈ textOf (tokens source) :=
    (heldTokens_sublist (fits_of_read h).2).subset hmem
  refine tokens_scanned ((List.takeWhile_sublist _).subset htoken) ?_
  simpa using List.mem_takeWhile_imp htoken

end Script
