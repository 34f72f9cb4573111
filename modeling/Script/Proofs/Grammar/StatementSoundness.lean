import Script.Proofs.Grammar.ExpressionSoundness
import Script.Syntax.Parser.Statement

/-!
# What the statement parser accepts

The same for declarations and statements as `ExpressionSoundness` says for expressions, and last
for programs (`program_sound`). A statement that awaits an `else` is followed by none, since the
`if` at its end would have taken it; this is how a run knows which `if` an `else` belongs to.
-/

namespace Script

namespace Parser

open Grammar

variable {fuel : Nat} {s s' : State}

/-! ## The parts that hold no statements

The steps of a run are taken apart from the first to the last, but what they read is put together
from the last to the first: errors are only ever added, so that a run without one at its end had
none at any state before it, and each step hands that on to the step before it. -/

/-- A clause of a `for` or the value of a `return` that was read without an error is absent or an
expression of the grammar, and the tokens read are its marks. -/
theorem clause_sound {stop : TokenKind} {found : Option Expr}
    (h : clause fuel stop s = .ok found s') (hclean : s'.errors = []) :
    Clause found ∧ Reads (clauseMarks found) s s' := by
  rw [clause] at h
  obtain ⟨kind, s₁, hpeek, h⟩ := bind_eq_ok.mp h
  obtain ⟨-, rfl⟩ := peek_eq_ok.mp hpeek
  split at h
  · -- The closing token comes at once: the clause is absent and nothing was read.
    obtain ⟨rfl, rfl⟩ := pure_eq_ok.mp h
    exact ⟨by simp [Clause], .refl hclean⟩
  · obtain ⟨e, he, rfl⟩ := map_eq_ok.mp h
    obtain ⟨hassignment, hreads⟩ := (expressionSound fuel).expression he hclean
    exact ⟨by simpa [Clause] using hassignment, hreads⟩

/-- An expression statement that was read without an error is an expression of the grammar with a
semicolon after it. -/
theorem expressionStatement_sound {stmt : Stmt}
    (h : expressionStatement fuel s = .ok stmt s') (hclean : s'.errors = []) :
    ∃ e, stmt = .expression e ∧ Assignment e ∧ Reads stmt.marks s s' := by
  rw [expressionStatement] at h
  obtain ⟨e, s₁, he, h⟩ := bind_eq_ok.mp h
  obtain ⟨_, s₂, hend, h⟩ := bind_eq_ok.mp h
  obtain ⟨rfl, rfl⟩ := pure_eq_ok.mp h
  have hreadsEnd := expect_fixed (by decide) hend hclean
  obtain ⟨hassignment, hreads⟩ := (expressionSound fuel).expression he hreadsEnd.clean
  exact ⟨e, rfl, hassignment, hreads.trans hreadsEnd⟩

/-- A variable declaration that was read without an error is one of the grammar, where it began at
the keyword. -/
theorem variableDecl_sound {stmt : Stmt} (hnext : s.nextKind = .kwVar)
    (h : variableDecl fuel s = .ok stmt s') (hclean : s'.errors = []) :
    VariableDecl stmt ∧ Reads stmt.marks s s' := by
  rw [variableDecl] at h
  obtain ⟨_, s₁, hkeyword, h⟩ := bind_eq_ok.mp h
  obtain ⟨name, s₂, hname, h⟩ := bind_eq_ok.mp h
  obtain ⟨init, s₃, hinit, h⟩ := bind_eq_ok.mp h
  obtain ⟨_, s₄, hend, h⟩ := bind_eq_ok.mp h
  obtain ⟨rfl, rfl⟩ := pure_eq_ok.mp h
  have hreadsEnd := expect_fixed (by decide) hend hclean
  -- The equals sign decides whether there is an initial value.
  have hvalue : Clause init ∧ Reads (initialValueMarks init) s₂ s₃ := by
    obtain ⟨found, s₅, hfound, hinit⟩ := bind_eq_ok.mp hinit
    cases found with
    | none =>
      obtain ⟨rfl, rfl⟩ := pure_eq_ok.mp hinit
      obtain ⟨rfl, -⟩ := accept_none (by decide) hfound
      exact ⟨by simp [Clause], .refl hreadsEnd.clean⟩
    | some equals =>
      obtain ⟨e, he, rfl⟩ := map_eq_ok.mp hinit
      obtain ⟨hassignment, hreads⟩ := (expressionSound fuel).expression he hreadsEnd.clean
      obtain ⟨hequals, hreadsEquals⟩ := accept_reads (by decide) hfound hreads.clean
      refine ⟨by simpa [Clause] using hassignment, ?_⟩
      exact (hreadsEquals.fixed (by simpa using hequals)).cons hreads
  obtain ⟨hinit, hreadsInit⟩ := hvalue
  obtain ⟨hidentifier, hreadsName⟩ := expect_reads (by decide) hname hreadsInit.clean
  have hreads := accept_next hnext (by decide) hkeyword hreadsName.clean
  exact ⟨.mk hidentifier hinit, hreads.cons (hreadsName.cons (hreadsInit.trans hreadsEnd))⟩

/-- A row of parameters that was read without an error holds identifiers only and is not empty; the
tokens read are the names with commas between them and the parenthesis after the last. -/
theorem parameterRow_sound {fuel : Nat} {s s' : State} {params : List Token}
    (h : parameterRow fuel s = .ok params s') (hclean : s'.errors = []) :
    (∀ token ∈ params, token.kind = .identifier) ∧ ∃ first others, params = first :: others ∧
      Reads (.held first :: moreParameterMarks others) s s' := by
  induction fuel generalizing s s' params with
  | zero => simp [parameterRow, exhausted] at h
  | succ fuel ih =>
    rw [parameterRow] at h
    obtain ⟨first, s₁, hfirst, h⟩ := bind_eq_ok.mp h
    obtain ⟨found, s₂, hfound, h⟩ := bind_eq_ok.mp h
    cases found with
    -- A comma promises another parameter, so the row after it is not empty either.
    | some comma =>
      obtain ⟨others, s₃, hothers, h⟩ := bind_eq_ok.mp h
      obtain ⟨rfl, rfl⟩ := pure_eq_ok.mp h
      obtain ⟨hkinds, next, others, rfl, hreadsOthers⟩ := ih hothers hclean
      obtain ⟨hcomma, hreadsComma⟩ := accept_reads (by decide) hfound hreadsOthers.clean
      obtain ⟨hkind, hreads⟩ := expect_reads (by decide) hfirst hreadsComma.clean
      refine ⟨by simpa [hkind] using hkinds, first, next :: others, rfl, ?_⟩
      exact hreads.cons ((hreadsComma.fixed (by simpa using hcomma)).cons hreadsOthers)
    | none =>
      obtain ⟨_, s₃, hparen, h⟩ := bind_eq_ok.mp h
      obtain ⟨rfl, rfl⟩ := pure_eq_ok.mp h
      have hreadsParen := expect_fixed (by decide) hparen hclean
      obtain ⟨rfl, -⟩ := accept_none (by decide) hfound
      obtain ⟨hkind, hreads⟩ := expect_reads (by decide) hfirst hreadsParen.clean
      exact ⟨by simpa using hkind, first, [], rfl, hreads.cons hreadsParen⟩

/-- A list of parameters that was read without an error holds identifiers only, and the tokens read
are its marks with the closing parenthesis. -/
theorem parameters_sound {params : List Token} (h : parameters fuel s = .ok params s')
    (hclean : s'.errors = []) :
    (∀ token ∈ params, token.kind = .identifier) ∧ Reads (parameterMarks params) s s' := by
  rw [parameters] at h
  obtain ⟨found, s₁, hfound, h⟩ := bind_eq_ok.mp h
  cases found with
  | some paren =>
    obtain ⟨rfl, rfl⟩ := pure_eq_ok.mp h
    obtain ⟨hkind, hreads⟩ := accept_reads (by decide) hfound hclean
    exact ⟨by simp, hreads.fixed (by simpa using hkind)⟩
  | none =>
    obtain ⟨hkinds, first, others, rfl, hreads⟩ := parameterRow_sound h hclean
    obtain ⟨rfl, -⟩ := accept_none (by decide) hfound
    exact ⟨hkinds, hreads⟩

/-! ## One step of each function

The functions call one another with less fuel, so that all of them are proved sound at once. For a
statement the run also says that no `else` follows one that awaits it: the `if` at its end asked for
an `else` and found none. -/

/-- The statement parser is sound with this much fuel. -/
structure StatementSound (fuel : Nat) : Prop where
  declaration : ∀ {s s' : State} {stmt : Stmt}, declaration fuel s = .ok stmt s' →
    s'.errors = [] → Declaration stmt ∧ Reads stmt.marks s s'
  classDecl : ∀ {s s' : State} {stmt : Stmt}, s.nextKind = .kwClass →
    classDecl fuel s = .ok stmt s' → s'.errors = [] → Declaration stmt ∧ Reads stmt.marks s s'
  methods : ∀ {s s' : State} {decls : List FunctionDecl}, methods fuel s = .ok decls s' →
    s'.errors = [] →
    (∀ decl ∈ decls, Function decl) ∧ Reads (FunctionDecl.marksOfAll decls) s s'
  function : ∀ {role : FunctionRole} {s s' : State} {decl : FunctionDecl},
    function fuel role s = .ok decl s' → s'.errors = [] → Function decl ∧ Reads decl.marks s s'
  statement : ∀ {s s' : State} {stmt : Stmt}, statement fuel s = .ok stmt s' →
    s'.errors = [] → Statement stmt ∧ Reads stmt.marks s s' ∧
      (stmt.awaitsElse = true → s'.nextKind ≠ .kwElse)
  ifElse : ∀ {s s' : State} {stmt : Stmt}, ifElse fuel s = .ok stmt s' → s'.errors = [] →
    Statement stmt ∧ (∃ marks, stmt.marks = .fixed .kwIf :: marks ∧ Reads marks s s') ∧
      (stmt.awaitsElse = true → s'.nextKind ≠ .kwElse)
  whileLoop : ∀ {s s' : State} {stmt : Stmt}, whileLoop fuel s = .ok stmt s' → s'.errors = [] →
    Statement stmt ∧ (∃ marks, stmt.marks = .fixed .kwWhile :: marks ∧ Reads marks s s') ∧
      (stmt.awaitsElse = true → s'.nextKind ≠ .kwElse)
  forLoop : ∀ {s s' : State} {stmt : Stmt}, forLoop fuel s = .ok stmt s' → s'.errors = [] →
    Statement stmt ∧ (∃ marks, stmt.marks = .fixed .kwFor :: marks ∧ Reads marks s s') ∧
      (stmt.awaitsElse = true → s'.nextKind ≠ .kwElse)
  block : ∀ {s s' : State} {body : List Stmt}, block fuel s = .ok body s' → s'.errors = [] →
    (∀ stmt ∈ body, Declaration stmt) ∧
      Reads (Stmt.marksOfAll body ++ [.fixed .rightBrace]) s s'

/-- The keyword at the front tells which declaration it is; without one it is a statement. -/
theorem declaration_sound (ih : StatementSound fuel) {stmt : Stmt}
    (h : declaration (fuel + 1) s = .ok stmt s') (hclean : s'.errors = []) :
    Declaration stmt ∧ Reads stmt.marks s s' := by
  rw [declaration] at h
  obtain ⟨kind, s₁, hpeek, h⟩ := bind_eq_ok.mp h
  obtain ⟨hnext, rfl⟩ := peek_eq_ok.mp hpeek
  split at h
  · exact ih.classDecl hnext h hclean
  · obtain ⟨decl, hdecl, rfl⟩ := map_eq_ok.mp h
    obtain ⟨hfunction, hreads⟩ := ih.function hdecl hclean
    exact ⟨.function hfunction, hreads⟩
  · obtain ⟨hvariable, hreads⟩ := variableDecl_sound hnext h hclean
    exact ⟨.variable hvariable, hreads⟩
  · obtain ⟨hstatement, hreads, -⟩ := ih.statement h hclean
    exact ⟨.statement hstatement, hreads⟩

/-- A class declaration: its name, the superclass if a `<` follows, and its methods in braces. -/
theorem classDecl_sound (ih : StatementSound fuel) {stmt : Stmt} (hnext : s.nextKind = .kwClass)
    (h : classDecl (fuel + 1) s = .ok stmt s') (hclean : s'.errors = []) :
    Declaration stmt ∧ Reads stmt.marks s s' := by
  rw [classDecl] at h
  obtain ⟨_, s₁, hkeyword, h⟩ := bind_eq_ok.mp h
  obtain ⟨name, s₂, hname, h⟩ := bind_eq_ok.mp h
  obtain ⟨superclass, s₃, hsuperclass, h⟩ := bind_eq_ok.mp h
  obtain ⟨_, s₄, hstart, h⟩ := bind_eq_ok.mp h
  obtain ⟨decls, s₅, hdecls, h⟩ := bind_eq_ok.mp h
  obtain ⟨_, s₆, hend, h⟩ := bind_eq_ok.mp h
  obtain ⟨rfl, rfl⟩ := pure_eq_ok.mp h
  have hreadsEnd := expect_fixed (by decide) hend hclean
  obtain ⟨hfunctions, hreadsMethods⟩ := ih.methods hdecls hreadsEnd.clean
  have hreadsStart := expect_fixed (by decide) hstart hreadsMethods.clean
  -- The superclass is read only where a `<` was found.
  have hparent : (∀ token ∈ superclass, token.kind = .identifier) ∧
      Reads (superclassMarks superclass) s₂ s₃ := by
    obtain ⟨found, s₇, hfound, hsuperclass⟩ := bind_eq_ok.mp hsuperclass
    cases found with
    | none =>
      obtain ⟨rfl, rfl⟩ := pure_eq_ok.mp hsuperclass
      obtain ⟨rfl, -⟩ := accept_none (by decide) hfound
      exact ⟨by simp, .refl hreadsStart.clean⟩
    | some less =>
      obtain ⟨parent, hparent, rfl⟩ := map_eq_ok.mp hsuperclass
      obtain ⟨hkind, hreads⟩ := expect_reads (by decide) hparent hreadsStart.clean
      obtain ⟨hless, hreadsLess⟩ := accept_reads (by decide) hfound hreads.clean
      refine ⟨by simpa using hkind, ?_⟩
      exact (hreadsLess.fixed (by simpa using hless)).cons hreads
  obtain ⟨hparentKind, hreadsParent⟩ := hparent
  obtain ⟨hidentifier, hreadsName⟩ := expect_reads (by decide) hname hreadsParent.clean
  have hreads := accept_next hnext (by decide) hkeyword hreadsName.clean
  refine ⟨.classDecl hidentifier hparentKind hfunctions, ?_⟩
  exact hreads.cons (hreadsName.cons (hreadsParent.trans
    (hreadsStart.cons (hreadsMethods.trans hreadsEnd))))

/-- The methods of a class, up to the brace or the end of the input. -/
theorem methods_sound (ih : StatementSound fuel) {decls : List FunctionDecl}
    (h : methods (fuel + 1) s = .ok decls s') (hclean : s'.errors = []) :
    (∀ decl ∈ decls, Function decl) ∧ Reads (FunctionDecl.marksOfAll decls) s s' := by
  rw [methods] at h
  obtain ⟨kind, s₁, hpeek, h⟩ := bind_eq_ok.mp h
  obtain ⟨-, rfl⟩ := peek_eq_ok.mp hpeek
  split at h
  · -- The row ends before a closing brace, and before the end of the input, where the brace is then
    -- found missing.
    obtain ⟨rfl, rfl⟩ := pure_eq_ok.mp h
    exact ⟨by simp, .refl hclean⟩
  · obtain ⟨rfl, rfl⟩ := pure_eq_ok.mp h
    exact ⟨by simp, .refl hclean⟩
  · obtain ⟨first, s₂, hfirst, h⟩ := bind_eq_ok.mp h
    obtain ⟨others, s₃, hothers, h⟩ := bind_eq_ok.mp h
    obtain ⟨rfl, rfl⟩ := pure_eq_ok.mp h
    obtain ⟨hfunctions, hreadsOthers⟩ := ih.methods hothers hclean
    obtain ⟨hfunction, hreads⟩ := ih.function hfirst hreadsOthers.clean
    exact ⟨by simpa [hfunction] using hfunctions, hreads.trans hreadsOthers⟩

/-- A function with its name, its parameters and its body. -/
theorem function_sound (ih : StatementSound fuel) {role : FunctionRole} {decl : FunctionDecl}
    (h : function (fuel + 1) role s = .ok decl s') (hclean : s'.errors = []) :
    Function decl ∧ Reads decl.marks s s' := by
  rw [function] at h
  obtain ⟨_, s₁, hkeyword, h⟩ := bind_eq_ok.mp h
  obtain ⟨name, s₂, hname, h⟩ := bind_eq_ok.mp h
  obtain ⟨_, s₃, hparen, h⟩ := bind_eq_ok.mp h
  obtain ⟨params, s₄, hparams, h⟩ := bind_eq_ok.mp h
  obtain ⟨_, s₅, hbrace, h⟩ := bind_eq_ok.mp h
  obtain ⟨body, s₆, hbody, h⟩ := bind_eq_ok.mp h
  obtain ⟨rfl, rfl⟩ := pure_eq_ok.mp h
  -- The parts are taken from the back: nothing is reported at the end, hence nothing before it.
  obtain ⟨hdeclarations, hreadsBody⟩ := ih.block hbody hclean
  have hreadsBrace := expect_fixed (by decide) hbrace hreadsBody.clean
  obtain ⟨hkinds, hreadsParams⟩ := parameters_sound hparams hreadsBrace.clean
  have hreadsParen := expect_fixed (by decide) hparen hreadsParams.clean
  obtain ⟨hidentifier, hreadsName⟩ := expect_reads (by decide) hname hreadsParen.clean
  have hreads := expect_fixed (by decide) hkeyword hreadsName.clean
  refine ⟨.mk hidentifier hkinds hdeclarations, ?_⟩
  exact hreads.cons (hreadsName.cons (hreadsParen.cons
    (hreadsParams.trans (hreadsBrace.cons hreadsBody))))

/-- A statement: the keyword that was taken tells which one it is. -/
theorem statement_sound (ih : StatementSound fuel) {stmt : Stmt}
    (h : statement (fuel + 1) s = .ok stmt s') (hclean : s'.errors = []) :
    Statement stmt ∧ Reads stmt.marks s s' ∧ (stmt.awaitsElse = true → s'.nextKind ≠ .kwElse) := by
  rw [statement] at h
  obtain ⟨found, s₁, hfound, h⟩ := bind_eq_ok.mp h
  cases found with
  -- No keyword was taken, so that the statement is an expression.
  | none =>
    obtain ⟨e, rfl, hassignment, hreads⟩ := expressionStatement_sound h hclean
    obtain ⟨rfl, -⟩ := accept_none (by decide) hfound
    exact ⟨.expression hassignment, hreads, by simp [Stmt.awaitsElse]⟩
  | some token =>
    have hkinds := (accept_some hfound).1
    dsimp only at h
    -- The branches are told apart by the kind of the token alone.
    generalize hkind : token.kind = kind at h
    split at h
    · next =>
      obtain ⟨e, s₂, he, h⟩ := bind_eq_ok.mp h
      obtain ⟨_, s₃, hend, h⟩ := bind_eq_ok.mp h
      obtain ⟨rfl, rfl⟩ := pure_eq_ok.mp h
      have hreadsEnd := expect_fixed (by decide) hend hclean
      obtain ⟨hassignment, hreadsValue⟩ := (expressionSound fuel).expression he hreadsEnd.clean
      obtain ⟨-, hreads⟩ := accept_reads (by decide) hfound hreadsValue.clean
      refine ⟨.print hassignment, ?_, by simp [Stmt.awaitsElse]⟩
      exact (hreads.fixed hkind).cons (hreadsValue.trans hreadsEnd)
    · next =>
      obtain ⟨body, hbody, rfl⟩ := map_eq_ok.mp h
      obtain ⟨hdeclarations, hreadsBody⟩ := ih.block hbody hclean
      obtain ⟨-, hreads⟩ := accept_reads (by decide) hfound hreadsBody.clean
      exact ⟨.block hdeclarations, (hreads.fixed hkind).cons hreadsBody,
        by simp [Stmt.awaitsElse]⟩
    · next =>
      obtain ⟨hstatement, ⟨marks, hmarks, hreadsRest⟩, helse⟩ := ih.ifElse h hclean
      obtain ⟨-, hreads⟩ := accept_reads (by decide) hfound hreadsRest.clean
      exact ⟨hstatement, hmarks ▸ (hreads.fixed hkind).cons hreadsRest, helse⟩
    · next =>
      obtain ⟨hstatement, ⟨marks, hmarks, hreadsRest⟩, helse⟩ := ih.whileLoop h hclean
      obtain ⟨-, hreads⟩ := accept_reads (by decide) hfound hreadsRest.clean
      exact ⟨hstatement, hmarks ▸ (hreads.fixed hkind).cons hreadsRest, helse⟩
    · next =>
      obtain ⟨hstatement, ⟨marks, hmarks, hreadsRest⟩, helse⟩ := ih.forLoop h hclean
      obtain ⟨-, hreads⟩ := accept_reads (by decide) hfound hreadsRest.clean
      exact ⟨hstatement, hmarks ▸ (hreads.fixed hkind).cons hreadsRest, helse⟩
    · next hprint hblock hif hwhile hfor =>
      -- Of the kinds that can be taken here only this one is left.
      have hreturn : token.kind = .kwReturn := by
        simp only [hkind, List.mem_cons, List.not_mem_nil, or_false] at hkinds ⊢
        simpa only [eq_false hprint, eq_false hblock, eq_false hif, eq_false hwhile,
          eq_false hfor, false_or] using hkinds
      obtain ⟨value, s₂, hvalue, h⟩ := bind_eq_ok.mp h
      obtain ⟨_, s₃, hend, h⟩ := bind_eq_ok.mp h
      obtain ⟨rfl, rfl⟩ := pure_eq_ok.mp h
      have hreadsEnd := expect_fixed (by decide) hend hclean
      obtain ⟨hclause, hreadsValue⟩ := clause_sound hvalue hreadsEnd.clean
      obtain ⟨-, hreads⟩ := accept_reads (by decide) hfound hreadsValue.clean
      refine ⟨.returnValue hreturn hclause, ?_, by simp [Stmt.awaitsElse]⟩
      exact hreads.cons (hreadsValue.trans hreadsEnd)

/-- An `if` with its branches. With an `else` the branch before it awaits none, which is what the
grammar demands of it; without one, what follows is no `else`. -/
theorem ifElse_sound (ih : StatementSound fuel) {stmt : Stmt}
    (h : ifElse (fuel + 1) s = .ok stmt s') (hclean : s'.errors = []) :
    Statement stmt ∧ (∃ marks, stmt.marks = .fixed .kwIf :: marks ∧ Reads marks s s') ∧
      (stmt.awaitsElse = true → s'.nextKind ≠ .kwElse) := by
  rw [ifElse] at h
  obtain ⟨_, s₁, hopen, h⟩ := bind_eq_ok.mp h
  obtain ⟨condition, s₂, hcondition, h⟩ := bind_eq_ok.mp h
  obtain ⟨_, s₃, hclose, h⟩ := bind_eq_ok.mp h
  obtain ⟨thenBranch, s₄, hthen, h⟩ := bind_eq_ok.mp h
  obtain ⟨found, s₅, hfound, h⟩ := bind_eq_ok.mp h
  cases found with
  | some keyword =>
    obtain ⟨elseBranch, s₆, helse, h⟩ := bind_eq_ok.mp h
    obtain ⟨rfl, rfl⟩ := pure_eq_ok.mp h
    obtain ⟨hstatementElse, hreadsElse, hawaits⟩ := ih.statement helse hclean
    obtain ⟨hkind, hreadsKeyword⟩ := accept_reads (by decide) hfound hreadsElse.clean
    obtain ⟨hstatementThen, hreadsThen, hthenAwaits⟩ := ih.statement hthen hreadsKeyword.clean
    have hreadsClose := expect_fixed (by decide) hclose hreadsThen.clean
    obtain ⟨hassignment, hreadsCondition⟩ :=
      (expressionSound fuel).expression hcondition hreadsClose.clean
    have hreadsOpen := expect_fixed (by decide) hopen hreadsCondition.clean
    have hkeyword : keyword.kind = .kwElse := by simpa using hkind
    -- the branch before an `else` does not await one, or it would have taken it
    have hclosed : thenBranch.awaitsElse = false := by
      refine Bool.eq_false_iff.mpr fun hawaits => hthenAwaits hawaits ?_
      rw [State.nextKind_eq, (accept_some hfound).2.1]
      exact hkeyword
    refine ⟨.ifElse hassignment hstatementThen hclosed hstatementElse, ⟨_, rfl, ?_⟩, hawaits⟩
    exact hreadsOpen.cons (hreadsCondition.trans (hreadsClose.cons
      (hreadsThen.trans ((hreadsKeyword.fixed hkeyword).cons hreadsElse))))
  | none =>
    obtain ⟨rfl, rfl⟩ := pure_eq_ok.mp h
    -- No `else` was found where one was asked for, so none follows the whole statement.
    obtain ⟨rfl, hnext⟩ := accept_none (by decide) hfound
    obtain ⟨hstatementThen, hreadsThen, -⟩ := ih.statement hthen hclean
    have hreadsClose := expect_fixed (by decide) hclose hreadsThen.clean
    obtain ⟨hassignment, hreadsCondition⟩ :=
      (expressionSound fuel).expression hcondition hreadsClose.clean
    have hreadsOpen := expect_fixed (by decide) hopen hreadsCondition.clean
    refine ⟨.ifThen hassignment hstatementThen, ⟨_, rfl, ?_⟩, fun _ => by simpa using hnext⟩
    exact hreadsOpen.cons (hreadsCondition.trans (hreadsClose.cons hreadsThen))

/-- A `while` awaits an `else` if its body does. -/
theorem whileLoop_sound (ih : StatementSound fuel) {stmt : Stmt}
    (h : whileLoop (fuel + 1) s = .ok stmt s') (hclean : s'.errors = []) :
    Statement stmt ∧ (∃ marks, stmt.marks = .fixed .kwWhile :: marks ∧ Reads marks s s') ∧
      (stmt.awaitsElse = true → s'.nextKind ≠ .kwElse) := by
  rw [whileLoop] at h
  obtain ⟨_, s₁, hopen, h⟩ := bind_eq_ok.mp h
  obtain ⟨condition, s₂, hcondition, h⟩ := bind_eq_ok.mp h
  obtain ⟨_, s₃, hclose, h⟩ := bind_eq_ok.mp h
  obtain ⟨body, s₄, hbody, h⟩ := bind_eq_ok.mp h
  obtain ⟨rfl, rfl⟩ := pure_eq_ok.mp h
  obtain ⟨hstatement, hreadsBody, hawaits⟩ := ih.statement hbody hclean
  have hreadsClose := expect_fixed (by decide) hclose hreadsBody.clean
  obtain ⟨hassignment, hreadsCondition⟩ :=
    (expressionSound fuel).expression hcondition hreadsClose.clean
  have hreadsOpen := expect_fixed (by decide) hopen hreadsCondition.clean
  refine ⟨.whileLoop hassignment hstatement, ⟨_, rfl, ?_⟩, hawaits⟩
  exact hreadsOpen.cons (hreadsCondition.trans (hreadsClose.cons hreadsBody))

/-- A `for` with its three clauses, any of which may be absent, and its body. -/
theorem forLoop_sound (ih : StatementSound fuel) {stmt : Stmt}
    (h : forLoop (fuel + 1) s = .ok stmt s') (hclean : s'.errors = []) :
    Statement stmt ∧ (∃ marks, stmt.marks = .fixed .kwFor :: marks ∧ Reads marks s s') ∧
      (stmt.awaitsElse = true → s'.nextKind ≠ .kwElse) := by
  rw [forLoop] at h
  obtain ⟨_, s₁, hopen, h⟩ := bind_eq_ok.mp h
  obtain ⟨init, s₂, hinit, h⟩ := bind_eq_ok.mp h
  obtain ⟨condition, s₃, hcondition, h⟩ := bind_eq_ok.mp h
  obtain ⟨_, s₄, hsemicolon, h⟩ := bind_eq_ok.mp h
  obtain ⟨post, s₅, hpost, h⟩ := bind_eq_ok.mp h
  obtain ⟨_, s₆, hclose, h⟩ := bind_eq_ok.mp h
  obtain ⟨body, s₇, hbody, h⟩ := bind_eq_ok.mp h
  obtain ⟨rfl, rfl⟩ := pure_eq_ok.mp h
  obtain ⟨hstatement, hreadsBody, hawaits⟩ := ih.statement hbody hclean
  have hreadsClose := expect_fixed (by decide) hclose hreadsBody.clean
  obtain ⟨hclausePost, hreadsPost⟩ := clause_sound hpost hreadsClose.clean
  have hreadsSemicolon := expect_fixed (by decide) hsemicolon hreadsPost.clean
  obtain ⟨hclauseCondition, hreadsCondition⟩ := clause_sound hcondition hreadsSemicolon.clean
  -- What stands before the condition is told apart by the token at its front.
  have hbefore : Initializer init ∧ Reads (initializerMarks init) s₁ s₂ := by
    obtain ⟨kind, s₈, hpeek, hinit⟩ := bind_eq_ok.mp hinit
    obtain ⟨hnext, rfl⟩ := peek_eq_ok.mp hpeek
    split at hinit
    · obtain ⟨found, s₉, hfound, hinit⟩ := bind_eq_ok.mp hinit
      obtain ⟨rfl, rfl⟩ := pure_eq_ok.mp hinit
      exact ⟨.absent, accept_next hnext (by decide) hfound hreadsCondition.clean⟩
    · obtain ⟨stmt, hstmt, rfl⟩ := map_eq_ok.mp hinit
      obtain ⟨hvariable, hreads⟩ := variableDecl_sound hnext hstmt hreadsCondition.clean
      exact ⟨.declaration hvariable, hreads⟩
    · obtain ⟨stmt, hstmt, rfl⟩ := map_eq_ok.mp hinit
      obtain ⟨e, rfl, hassignment, hreads⟩ :=
        expressionStatement_sound hstmt hreadsCondition.clean
      exact ⟨.expression hassignment, hreads⟩
  obtain ⟨hinitializer, hreadsInit⟩ := hbefore
  have hreadsOpen := expect_fixed (by decide) hopen hreadsInit.clean
  refine ⟨.forLoop hinitializer hclauseCondition hclausePost hstatement,
    ⟨_, marks_forLoop .., ?_⟩, hawaits⟩
  exact hreadsOpen.cons (hreadsInit.trans (hreadsCondition.trans (hreadsSemicolon.cons
    (hreadsPost.trans (hreadsClose.cons hreadsBody)))))

/-- The declarations of a block and the brace that closes it. A declaration that was left out for an
error would have left an error behind. -/
theorem block_sound (ih : StatementSound fuel) {body : List Stmt}
    (h : block (fuel + 1) s = .ok body s') (hclean : s'.errors = []) :
    (∀ stmt ∈ body, Declaration stmt) ∧
      Reads (Stmt.marksOfAll body ++ [.fixed .rightBrace]) s s' := by
  rw [block] at h
  obtain ⟨kind, s₁, hpeek, h⟩ := bind_eq_ok.mp h
  obtain ⟨hnext, rfl⟩ := peek_eq_ok.mp hpeek
  split at h
  · obtain ⟨found, s₂, hfound, h⟩ := bind_eq_ok.mp h
    obtain ⟨rfl, rfl⟩ := pure_eq_ok.mp h
    exact ⟨by simp, accept_next hnext (by decide) hfound hclean⟩
  · -- At the end of the input the block is rejected.
    simp [reject] at h
  · obtain ⟨first, s₂, hfirst, h⟩ := bind_eq_ok.mp h
    obtain ⟨others, s₃, hothers, h⟩ := bind_eq_ok.mp h
    obtain ⟨rfl, rfl⟩ := pure_eq_ok.mp h
    obtain ⟨hdeclarations, hreadsOthers⟩ := ih.block hothers hclean
    -- Without an error the declaration was not skipped.
    obtain ⟨stmt, rfl, hstmt⟩ := recovering_eq_ok hfirst hreadsOthers.clean
    obtain ⟨hdeclaration, hreads⟩ := ih.declaration hstmt hreadsOthers.clean
    refine ⟨by simpa [hdeclaration] using hdeclarations, ?_⟩
    simpa [Stmt.marksOfAll] using hreads.trans hreadsOthers

/-! ## Any fuel

Without fuel no function gives a result; each step is carried by the steps with less fuel. -/

/-- The statement parser is sound with any fuel. -/
theorem statementSound (fuel : Nat) : StatementSound fuel := by
  induction fuel with
  | zero =>
    constructor <;> intros <;> simp_all [declaration, classDecl, methods, function, statement,
      ifElse, whileLoop, forLoop, block, exhausted]
  | succ fuel ih =>
    exact
      { declaration := declaration_sound ih
        classDecl := classDecl_sound ih
        methods := methods_sound ih
        function := function_sound ih
        statement := statement_sound ih
        ifElse := ifElse_sound ih
        whileLoop := whileLoop_sound ih
        forLoop := forLoop_sound ih
        block := block_sound ih }

/-- A program that was read without an error is one that the grammar derives, and the tokens up to
the end of the input are its text. -/
theorem program_sound {fuel : Nat} {s s' : State} {statements : List Stmt}
    (h : program fuel s = .ok statements s') (hclean : s'.errors = []) :
    Program statements ∧ Reads (Stmt.marksOfAll statements) s s' ∧ s'.nextKind = .endOfFile := by
  induction fuel generalizing s statements with
  | zero => simp [program, exhausted] at h
  | succ fuel ih =>
    rw [program] at h
    obtain ⟨kind, s₁, hpeek, h⟩ := bind_eq_ok.mp h
    obtain ⟨hnext, rfl⟩ := peek_eq_ok.mp hpeek
    split at h
    · -- The program ends where the tokens do.
      obtain ⟨rfl, rfl⟩ := pure_eq_ok.mp h
      exact ⟨by simp [Program], .refl hclean, hnext⟩
    · obtain ⟨first, s₂, hfirst, h⟩ := bind_eq_ok.mp h
      obtain ⟨others, s₃, hothers, h⟩ := bind_eq_ok.mp h
      obtain ⟨rfl, rfl⟩ := pure_eq_ok.mp h
      obtain ⟨hprogram, hreadsOthers, hend⟩ := ih hothers
      obtain ⟨stmt, rfl, hstmt⟩ := recovering_eq_ok hfirst hreadsOthers.clean
      obtain ⟨hdeclaration, hreads⟩ :=
        (statementSound fuel).declaration hstmt hreadsOthers.clean
      refine ⟨?_, hreads.trans hreadsOthers, hend⟩
      simpa [Program, hdeclaration] using hprogram

end Parser

end Script
