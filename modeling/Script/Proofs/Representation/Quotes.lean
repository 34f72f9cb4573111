import Script.Interpreter.Operators
import Script.Proofs.Grammar.Shape
import Script.Proofs.Run.Maintained
import Script.Proofs.Token.Held

/-!
# Texts without quotes

A string literal ends at the next quote, and no name holds a quote. So no literal in the program of
a source stands for a string with a quote in it, and the functions and classes that the program
declares have names without one (`quoteless_of_read`). Together with the texts that the language
itself has for kinds of values, these are all the texts that strings can come from.
-/

namespace Script

/-- There is no quote in the text. -/
def Quoteless (text : String) : Prop := '"' ∉ text.toList

instance (text : String) : Decidable (Quoteless text) :=
  inferInstanceAs (Decidable ('"' ∉ text.toList))

/-- Texts without quotes may be joined. -/
theorem Quoteless.append {a b : String} (ha : Quoteless a) (hb : Quoteless b) :
    Quoteless (a ++ b) := by
  unfold Quoteless
  rw [String.toList_append, List.mem_append]
  exact not_or.mpr ⟨ha, hb⟩

/-- The value is no string with a quote in it. -/
def Value.Quoteless : Value → Prop
  | .string text => Script.Quoteless text
  | _ => True

/-! ## Trees

A tree holds texts in its tokens. Only literals become strings, and only names that are declared
with `fun` and `class` are ever shown, so nothing is asked of the other tokens. -/

mutual

/-- No literal in the expression stands for a string with a quote. -/
def Expr.Quoteless : Expr → Prop
  | .literal token => token.value.Quoteless
  | .variable _ | .this _ | .superGet _ _ => True
  | .grouping inner => inner.Quoteless
  | .unary _ operand => operand.Quoteless
  | .binary left _ right => left.Quoteless ∧ right.Quoteless
  | .call callee _ arguments => callee.Quoteless ∧ Expr.AllQuoteless arguments
  | .get object _ => object.Quoteless
  | .set object _ value => object.Quoteless ∧ value.Quoteless
  | .superCall _ arguments => Expr.AllQuoteless arguments

/-- `Expr.Quoteless` for each of these expressions. -/
def Expr.AllQuoteless : List Expr → Prop
  | [] => True
  | expr :: rest => expr.Quoteless ∧ Expr.AllQuoteless rest

end

/-- The expression is quoteless, if it is there. -/
def QuotelessClause : Option Expr → Prop
  | none => True
  | some expr => expr.Quoteless

mutual

/-- No literal in the statement stands for a string with a quote, and no function or class that is
declared in it has a name with a quote. -/
def Stmt.Quoteless : Stmt → Prop
  | .expression expr => expr.Quoteless
  | .print expr => expr.Quoteless
  | .varDecl _ init => QuotelessClause init
  | .block body => Stmt.AllQuoteless body
  | .ifElse condition thenBranch none => condition.Quoteless ∧ thenBranch.Quoteless
  | .ifElse condition thenBranch (some elseBranch) =>
    condition.Quoteless ∧ thenBranch.Quoteless ∧ elseBranch.Quoteless
  | .whileLoop condition body => condition.Quoteless ∧ body.Quoteless
  | .forLoop none condition post body =>
    QuotelessClause condition ∧ QuotelessClause post ∧ body.Quoteless
  | .forLoop (some init) condition post body =>
    init.Quoteless ∧ QuotelessClause condition ∧ QuotelessClause post ∧ body.Quoteless
  | .function decl => decl.Quoteless
  | .returnValue _ value => QuotelessClause value
  | .classDecl name _ methods =>
    Script.Quoteless name.lexeme ∧ FunctionDecl.AllQuoteless methods

/-- `Stmt.Quoteless` for each of these statements. -/
def Stmt.AllQuoteless : List Stmt → Prop
  | [] => True
  | stmt :: rest => stmt.Quoteless ∧ Stmt.AllQuoteless rest

/-- The name of the function and its body are quoteless. -/
def FunctionDecl.Quoteless : FunctionDecl → Prop
  | ⟨name, _, body⟩ => Script.Quoteless name.lexeme ∧ Stmt.AllQuoteless body

/-- `FunctionDecl.Quoteless` for each of these functions. -/
def FunctionDecl.AllQuoteless : List FunctionDecl → Prop
  | [] => True
  | decl :: rest => decl.Quoteless ∧ FunctionDecl.AllQuoteless rest

end

/-- Expressions are without quotes if each of them is. -/
theorem Expr.allQuoteless_iff {exprs : List Expr} :
    Expr.AllQuoteless exprs ↔ ∀ expr ∈ exprs, expr.Quoteless := by
  induction exprs with
  | nil => simp [AllQuoteless]
  | cons expr rest ih => simp [AllQuoteless, ih]

/-- Statements are without quotes if each of them is. -/
theorem Stmt.allQuoteless_iff {statements : List Stmt} :
    Stmt.AllQuoteless statements ↔ ∀ stmt ∈ statements, stmt.Quoteless := by
  induction statements with
  | nil => simp [AllQuoteless]
  | cons stmt rest ih => simp [AllQuoteless, ih]

/-- Functions are without quotes if each of them is. -/
theorem FunctionDecl.allQuoteless_iff {decls : List FunctionDecl} :
    FunctionDecl.AllQuoteless decls ↔ ∀ decl ∈ decls, decl.Quoteless := by
  induction decls with
  | nil => simp [AllQuoteless]
  | cons decl rest ih => simp [AllQuoteless, ih]

/-- The name of a function without quotes has none. -/
theorem FunctionDecl.Quoteless.name {decl : FunctionDecl} (h : decl.Quoteless) :
    Script.Quoteless decl.name.lexeme := by
  cases decl with
  | mk name params body => exact h.1

/-- The statements in the body of a function without quotes have none either. -/
theorem FunctionDecl.Quoteless.body {decl : FunctionDecl} (h : decl.Quoteless) :
    Stmt.AllQuoteless decl.body := by
  cases decl with
  | mk name params body => exact h.2

/-! ## Scanned tokens

Both facts come from what a lexeme can be: a word has no quote among its characters, and the second
quote of a string is its last character. -/

/-- The quote is no character of a word. -/
theorem not_quote_mem_word {word : List Char} (h : IsWord word) : '"' ∉ word := by
  obtain ⟨first, others, rfl, hfirst, hothers⟩ := h
  intro hmem
  rcases List.mem_cons.mp hmem with rfl | hmem
  · exact absurd hfirst (by decide)
  · exact absurd (hothers _ hmem) (by decide)

/-- An identifier has no quote, since a quote is no word character. -/
theorem Token.Scanned.quoteless_of_identifier {token : Token} (h : token.Scanned)
    (hkind : token.kind = .identifier) : Script.Quoteless token.lexeme := by
  have hlexeme := h.lexeme
  rw [hkind] at hlexeme
  generalize htext : token.lexeme.toList = text at hlexeme
  unfold Script.Quoteless
  rw [htext]
  cases hlexeme with
  | spelled hspelling => cases hspelling
  | identifier hword _ => exact not_quote_mem_word hword

/-- A literal that stands for a string is a string literal, and the string is the text between its
first and its last character. -/
theorem literal?_eq_string {kind : TokenKind} {text : List Char} {value : String}
    (h : literal? kind text = some (.string value)) :
    kind = .string ∧ value = String.ofList text.tail.dropLast := by
  unfold literal? at h
  split at h <;> cases h
  exact ⟨rfl, rfl⟩

/-- What a string literal stands for is what stands between its quotes. A scanned string has no
quote but the first and the last of its characters, and these two are dropped. -/
theorem Token.Scanned.quoteless_value {token : Token} (h : token.Scanned) :
    token.value.Quoteless := by
  unfold Token.value
  split
  · trivial
  · next value hvalue =>
    have hliteral := h.literal
    rw [hvalue] at hliteral
    obtain ⟨hkind, rfl⟩ := literal?_eq_string hliteral.symm
    have hlexeme := h.lexeme
    rw [hkind] at hlexeme
    generalize token.lexeme.toList = text at hlexeme ⊢
    show '"' ∉ (String.ofList text.tail.dropLast).toList
    rw [String.toList_ofList]
    cases hlexeme with
    | spelled hspelling => cases hspelling
    | @string inside hinside =>
      rw [List.tail_cons, List.dropLast_concat]
      exact hinside
  · trivial
  · trivial

/-! ## What the grammar derives

An induction over the derivation of the program, which says of each token in the tree that it was
scanned. -/

namespace Grammar

mutual

/-- An expression of the grammar is without quotes. -/
theorem Assignment.quoteless {expr : Expr} :
    Assignment expr → HeldScanned expr.marks → expr.Quoteless
  | .toVariable _ _ hvalue, h => by
    simp only [Expr.marks, heldScanned_append, heldScanned_held] at h
    exact ⟨trivial, hvalue.quoteless h.2.2⟩
  | .toProperty hobject _ hvalue, h => by
    simp only [Expr.marks, heldScanned_append, heldScanned_held, heldScanned_fixed] at h
    exact ⟨hobject.quoteless h.1, hvalue.quoteless h.2.2⟩
  | .noTarget hbinary, h => hbinary.quoteless h

/-- A tree of some level is without quotes if its operands are; of the operator nothing is shown. -/
theorem Binary.quoteless {levels : List (List TokenKind)} {expr : Expr} :
    Binary levels expr → HeldScanned expr.marks → expr.Quoteless
  | .operand hunary, h => hunary.quoteless h
  | .tighter hbinary, h => hbinary.quoteless h
  | .joined hleft _ hright, h => by
    simp only [Expr.marks, heldScanned_append, heldScanned_held] at h
    exact ⟨hleft.quoteless h.1, hright.quoteless h.2.2⟩

theorem Unary.quoteless {expr : Expr} : Unary expr → HeldScanned expr.marks → expr.Quoteless
  | .applied _ hoperand, h => hoperand.quoteless (heldScanned_held.mp h).2
  | .call hcall, h => hcall.quoteless h

theorem Call.quoteless {expr : Expr} : Call expr → HeldScanned expr.marks → expr.Quoteless
  | .primary hprimary, h => hprimary.quoteless h
  | .applied hcallee _ harguments, h => by
    simp only [Expr.marks, heldScanned_append, heldScanned_held, heldScanned_arguments] at h
    exact ⟨hcallee.quoteless h.1, Expr.allQuoteless_iff.mpr fun e hmem =>
      (harguments e hmem).quoteless (h.2.2 e hmem)⟩
  | .property hobject _, h => by
    simp only [Expr.marks, heldScanned_append] at h
    exact hobject.quoteless h.1

/-- So is a primary expression; it is here that literals come up. -/
theorem Primary.quoteless {expr : Expr} : Primary expr → HeldScanned expr.marks → expr.Quoteless
  | .literal _, h => (heldScanned_held.mp h).1.quoteless_value
  | .variable _, _ => trivial
  | .this _, _ => trivial
  | .grouping hinner, h => by
    simp only [Expr.marks, heldScanned_append, heldScanned_fixed] at h
    exact hinner.quoteless h.1
  | .superGet _ _, _ => trivial
  | .superCall _ harguments, h => by
    simp only [Expr.marks, heldScanned_held, heldScanned_fixed, heldScanned_arguments] at h
    exact Expr.allQuoteless_iff.mpr fun e hmem => (harguments e hmem).quoteless (h.2 e hmem)

end

theorem Clause.quoteless {clause : Option Expr} (h : Clause clause)
    (hmarks : HeldScanned (clauseMarks clause)) : QuotelessClause clause := by
  cases clause with
  | none => trivial
  | some expr => exact (h expr rfl).quoteless hmarks

theorem VariableDecl.quoteless {stmt : Stmt} (h : VariableDecl stmt)
    (hmarks : HeldScanned stmt.marks) : stmt.Quoteless := by
  cases h with
  | @mk name init hname hinit =>
    simp only [Stmt.marks, heldScanned_append, heldScanned_held, heldScanned_fixed] at hmarks
    refine hinit.quoteless ?_
    cases init with
    | none => exact heldScanned_nil
    | some expr => exact hmarks.2.1

mutual

/-- A statement of the grammar is without quotes if the tokens that it holds are scanned. The tokens
of the parts are among those of the statement, so each case hands on its share of the hypothesis. -/
theorem Statement.quoteless {stmt : Stmt} :
    Statement stmt → HeldScanned stmt.marks → stmt.Quoteless
  | .expression hexpr, h => by
    simp only [Stmt.marks, heldScanned_append] at h
    exact hexpr.quoteless h.1
  | .print hexpr, h => by
    simp only [Stmt.marks, heldScanned_append, heldScanned_fixed] at h
    exact hexpr.quoteless h.1
  | .block hbody, h => by
    simp only [Stmt.marks, heldScanned_append, heldScanned_fixed, heldScanned_statements] at h
    exact Stmt.allQuoteless_iff.mpr fun stmt hmem => (hbody stmt hmem).quoteless (h.1 stmt hmem)
  | .ifThen hcondition hthen, h => by
    simp only [Stmt.marks, heldScanned_append, heldScanned_fixed] at h
    exact ⟨hcondition.quoteless h.1, hthen.quoteless h.2⟩
  | .ifElse hcondition hthen _ helse, h => by
    simp only [Stmt.marks, heldScanned_append, heldScanned_fixed] at h
    exact ⟨hcondition.quoteless h.1, hthen.quoteless h.2.1, helse.quoteless h.2.2⟩
  | .whileLoop hcondition hbody, h => by
    simp only [Stmt.marks, heldScanned_append, heldScanned_fixed] at h
    exact ⟨hcondition.quoteless h.1, hbody.quoteless h.2⟩
  | .forLoop hinit hcondition hpost hbody, h => by
    simp only [marks_forLoop, heldScanned_append, heldScanned_fixed] at h
    obtain ⟨hfirst, hcond, hlast, hloop⟩ := h
    have hclauses := And.intro (hcondition.quoteless hcond)
      (And.intro (hpost.quoteless hlast) (hbody.quoteless hloop))
    cases hinit with
    | absent => exact hclauses
    | declaration hinit => exact ⟨hinit.quoteless hfirst, hclauses⟩
    | expression hinit =>
      simp only [initializerMarks, Stmt.marks, heldScanned_append] at hfirst
      exact ⟨hinit.quoteless hfirst.1, hclauses⟩
  | .returnValue _ hvalue, h => by
    simp only [Stmt.marks, heldScanned_append, heldScanned_held] at h
    exact hvalue.quoteless h.2.1

/-- So is a declaration; the name of a class is an identifier. -/
theorem Declaration.quoteless {stmt : Stmt} :
    Declaration stmt → HeldScanned stmt.marks → stmt.Quoteless
  | .statement hstmt, h => hstmt.quoteless h
  | .variable hstmt, h => hstmt.quoteless h
  | .function hdecl, h => hdecl.quoteless h
  | .classDecl hname _ hmethods, h => by
    simp only [Stmt.marks, heldScanned_append, heldScanned_held, heldScanned_fixed,
      heldScanned_functions] at h
    obtain ⟨hscanned, -, hmarks, -⟩ := h
    exact ⟨hscanned.quoteless_of_identifier hname, FunctionDecl.allQuoteless_iff.mpr
      fun decl hmem => (hmethods decl hmem).quoteless (hmarks decl hmem)⟩

/-- So is a function; its name is an identifier. -/
theorem Function.quoteless {decl : FunctionDecl} :
    Function decl → HeldScanned decl.marks → decl.Quoteless
  | .mk hname _ hbody, h => by
    simp only [FunctionDecl.marks, heldScanned_append, heldScanned_held, heldScanned_fixed,
      heldScanned_parameters, heldScanned_statements] at h
    obtain ⟨hscanned, -, hmarks, -⟩ := h
    exact ⟨hscanned.quoteless_of_identifier hname, Stmt.allQuoteless_iff.mpr
      fun stmt hmem => (hbody stmt hmem).quoteless (hmarks stmt hmem)⟩

end

end Grammar

/-- The program of a source is without quotes. -/
theorem quoteless_of_read {source : String} {program : List Stmt}
    (h : readProgram source = .ok program) : ∀ stmt ∈ program, stmt.Quoteless := by
  intro stmt hmem
  have hmarks := heldScanned_statements.mp (heldScanned_of_read h)
  exact ((fits_of_read h).1 stmt hmem).quoteless (hmarks stmt hmem)

end Script
