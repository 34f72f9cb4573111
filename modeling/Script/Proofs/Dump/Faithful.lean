import Script.Proofs.Dump.Undump
import Script.Proofs.Token.Held

/-!
# Dumps are faithful

A dump hides places and missing clauses of `for`, and nothing else: the programs of two accepted
sources have the same dumps exactly when they are shown alike (`dump_eq_iff`). It follows the
derivation of the program in the grammar, which says which tokens the tree keeps, together with the
source, which says what these tokens are.
-/

namespace Script

/-! ## What the grammar derives

One induction over the derivation of a program. The marks of the tree say which tokens it keeps;
that they were scanned from a source (`HeldScanned`) is split between the parts of the tree. -/

namespace Grammar

mutual

/-- An expression of the grammar is shown by its form. -/
theorem Assignment.undumps {expr : Expr} : Assignment expr → HeldScanned expr.marks → expr.Undumps
  | @Assignment.toVariable name equals value hname hequals hvalue, h => by
    simp only [Expr.marks, heldScanned_append, heldScanned_held] at h
    obtain ⟨⟨hscanned, -⟩, hoperator, hmarks⟩ := h
    have hkind : equals.kind ∈ binaryKinds := by
      rw [hequals]
      decide
    exact undumps_binary hoperator hkind (fun _ => ⟨name, rfl⟩) (undumps_variable hscanned hname)
      (hvalue.undumps hmarks)
  | .toProperty hobject hname hvalue, h => by
    simp only [Expr.marks, heldScanned_append, heldScanned_held, heldScanned_fixed] at h
    obtain ⟨hleft, hscanned, hright⟩ := h
    exact undumps_set hscanned hname (hobject.undumps hleft) (hvalue.undumps hright)
  | .noTarget hbinary, h => hbinary.undumps joinOperands_precedence h

/-- So is a tree of some level. The levels join operands, and none of them assigns. -/
theorem Binary.undumps {levels : List (List TokenKind)} {expr : Expr} :
    Binary levels expr → JoinOperands levels → HeldScanned expr.marks → expr.Undumps
  | .operand hunary, _, h => hunary.undumps h
  | .tighter hbinary, hlevels, h =>
    hbinary.undumps (fun operators hmem => hlevels operators (.tail _ hmem)) h
  | @Binary.joined operators tighter left right operator hleft hoperator hright, hlevels, h => by
    simp only [Expr.marks, heldScanned_append, heldScanned_held] at h
    obtain ⟨hmarks, hscanned, hmarks'⟩ := h
    obtain ⟨hkind, hassigns⟩ := hlevels operators (.head _) operator.kind hoperator
    have hright : right.Undumps :=
      hright.undumps (fun operators hmem => hlevels operators (.tail _ hmem)) hmarks'
    exact undumps_binary hscanned hkind (fun hequal => absurd hequal hassigns)
      (hleft.undumps hlevels hmarks) hright

theorem Unary.undumps {expr : Expr} : Unary expr → HeldScanned expr.marks → expr.Undumps
  | .applied hoperator hoperand, h => by
    simp only [Expr.marks, heldScanned_held] at h
    exact undumps_unary h.1 hoperator (hoperand.undumps h.2)
  | .call hcall, h => hcall.undumps h

theorem Call.undumps {expr : Expr} : Call expr → HeldScanned expr.marks → expr.Undumps
  | .primary hprimary, h => hprimary.undumps h
  | .applied hcallee hparen harguments, h => by
    simp only [Expr.marks, heldScanned_append, heldScanned_held, heldScanned_arguments] at h
    obtain ⟨hmarks, hscanned, hmarks'⟩ := h
    exact undumps_call hscanned hparen (hcallee.undumps hmarks) fun e hmem =>
      (harguments e hmem).undumps (hmarks' e hmem)
  | .property hobject hname, h => by
    simp only [Expr.marks, heldScanned_append, heldScanned_fixed, heldScanned_held] at h
    exact undumps_get h.2.1 hname (hobject.undumps h.1)

theorem Primary.undumps {expr : Expr} : Primary expr → HeldScanned expr.marks → expr.Undumps
  | .literal hkind, h => undumps_literal (heldScanned_held.mp h).1 hkind
  | .variable hkind, h => undumps_variable (heldScanned_held.mp h).1 hkind
  | .this hkind, h => undumps_this (heldScanned_held.mp h).1 hkind
  | .grouping hinner, h => by
    simp only [Expr.marks, heldScanned_append, heldScanned_fixed] at h
    exact undumps_grouping (hinner.undumps h.1)
  | .superGet hkeyword hmethod, h => by
    simp only [Expr.marks, heldScanned_held, heldScanned_fixed] at h
    exact undumps_superGet h.1 hkeyword h.2.1 hmethod
  | .superCall hkeyword harguments, h => by
    simp only [Expr.marks, heldScanned_held, heldScanned_fixed, heldScanned_arguments] at h
    exact undumps_superCall h.1 hkeyword fun e hmem => (harguments e hmem).undumps (h.2 e hmem)

end

theorem Clause.undumps {clause : Option Expr} (h : Clause clause)
    (hmarks : HeldScanned (clauseMarks clause)) : ∀ expr ∈ clause, expr.Undumps := by
  rintro expr rfl
  exact (h expr rfl).undumps hmarks

/-- A declaration of a variable is shown by its form. -/
theorem VariableDecl.undumps {stmt : Stmt} (h : VariableDecl stmt)
    (hmarks : HeldScanned stmt.marks) : stmt.Undumps := by
  cases h with
  | @mk name init hname hinit =>
    simp only [Stmt.marks, heldScanned_append, heldScanned_held, heldScanned_fixed] at hmarks
    refine undumps_varDecl hmarks.1 hname (hinit.undumps ?_)
    cases init with
    | none => exact heldScanned_nil
    | some expr => exact hmarks.2.1

mutual

/-- A statement of the grammar is shown by its form. -/
theorem Statement.undumps {stmt : Stmt} : Statement stmt → HeldScanned stmt.marks → stmt.Undumps
  | .expression hexpr, h => by
    simp only [Stmt.marks, heldScanned_append] at h
    exact undumps_expression (hexpr.undumps h.1)
  | .print hexpr, h => by
    simp only [Stmt.marks, heldScanned_append, heldScanned_fixed] at h
    exact undumps_print (hexpr.undumps h.1)
  | .block hbody, h => by
    simp only [Stmt.marks, heldScanned_append, heldScanned_fixed, heldScanned_statements] at h
    exact undumps_block fun stmt hmem => (hbody stmt hmem).undumps (h.1 stmt hmem)
  | .ifThen hcondition hthen, h => by
    simp only [Stmt.marks, heldScanned_append, heldScanned_fixed] at h
    exact undumps_ifThen (hcondition.undumps h.1) (hthen.undumps h.2)
  | .ifElse hcondition hthen _ helse, h => by
    simp only [Stmt.marks, heldScanned_append, heldScanned_fixed] at h
    exact undumps_ifElse (hcondition.undumps h.1) (hthen.undumps h.2.1) (helse.undumps h.2.2)
  | .whileLoop hcondition hbody, h => by
    simp only [Stmt.marks, heldScanned_append, heldScanned_fixed] at h
    exact undumps_whileLoop (hcondition.undumps h.1) (hbody.undumps h.2)
  | .forLoop hinit hcondition hpost hbody, h => by
    simp only [marks_forLoop, heldScanned_append, heldScanned_fixed] at h
    obtain ⟨hfirst, hcond, hlast, hloop⟩ := h
    have hcondition := clauseUndumps (hcondition.undumps hcond)
    have hpost := clauseUndumps (hpost.undumps hlast)
    have hbody := hbody.undumps hloop
    -- The three kinds of initializers: none, a declaration, and an expression statement.
    cases hinit with
    | absent => exact undumps_for hcondition hpost hbody
    | declaration hinit =>
      exact undumps_forInit hinit.formed.1 (hinit.undumps hfirst) hcondition hpost hbody
    | expression hinit =>
      simp only [initializerMarks, Stmt.marks, heldScanned_append] at hfirst
      have hfirst := undumps_expression (hinit.undumps hfirst.1)
      exact undumps_forInit rfl hfirst hcondition hpost hbody
  | .returnValue hkeyword hvalue, h => by
    simp only [Stmt.marks, heldScanned_append, heldScanned_held] at h
    exact undumps_return h.1 hkeyword (hvalue.undumps h.2.1)

theorem Declaration.undumps {stmt : Stmt} :
    Declaration stmt → HeldScanned stmt.marks → stmt.Undumps
  | .statement hstmt, h => hstmt.undumps h
  | .variable hstmt, h => hstmt.undumps h
  | .function hdecl, h => hdecl.undumps h
  | @Declaration.classDecl name superclass methods hname hsuperclass hmethods, h => by
    simp only [Stmt.marks, heldScanned_append, heldScanned_held, heldScanned_fixed,
      heldScanned_functions] at h
    obtain ⟨hscanned, hsuper, hmarks, -⟩ := h
    have hundumps : ∀ decl ∈ methods, (Stmt.function decl).Undumps := fun decl hmem =>
      (hmethods decl hmem).undumps (hmarks decl hmem)
    cases superclass with
    | none => exact undumps_class hscanned hname hundumps
    | some superclass =>
      simp only [superclassMarks, heldScanned_held, heldScanned_fixed] at hsuper
      exact undumps_subclass hscanned hname hsuper.1 (hsuperclass superclass rfl) hundumps

/-- So is a function, and thereby a method. -/
theorem Function.undumps {decl : FunctionDecl} :
    Function decl → HeldScanned decl.marks → (Stmt.function decl).Undumps
  | .mk hname hparams hbody, h => by
    simp only [FunctionDecl.marks, heldScanned_append, heldScanned_held, heldScanned_fixed,
      heldScanned_parameters, heldScanned_statements] at h
    obtain ⟨hscanned, hnames, hmarks, -⟩ := h
    exact undumps_function hscanned hname
      (fun token hmem => ⟨hnames token hmem, hparams token hmem⟩)
      fun stmt hmem => (hbody stmt hmem).undumps (hmarks stmt hmem)

end

end Grammar

/-! ## Accepted sources

The two sources need not be alike in any way. Their dumps are equal texts, which are texts of one
form only, and from that form both statements are rebuilt. -/

/-- All statements of an accepted source are shown by their forms. -/
theorem undumps_of_read {source : String} {program : List Stmt}
    (h : readProgram source = .ok program) : ∀ stmt ∈ program, stmt.Undumps := by
  intro stmt hmem
  have hmarks := heldScanned_statements.mp (heldScanned_of_read h)
  exact ((fits_of_read h).1 stmt hmem).undumps (hmarks stmt hmem)

/-- Statements with the same dump are shown alike. -/
theorem Stmt.Undumps.shown_eq {stmt other : Stmt} (h : stmt.Undumps) (h' : other.Undumps)
    (hdump : stmt.dump = other.dump) : stmt.shown = other.shown := by
  have htext : stmt.form.text ++ [] = other.form.text ++ [] := by
    rw [← stmt.toList_dump, ← other.toList_dump, hdump]
  have hend : Form.Closes [] := fun _ hmem => nomatch hmem
  -- Nothing comes after either text.
  obtain ⟨hform, -⟩ := Form.eq_of_text h.valid h'.valid hend hend htext
  have hread := h.read
  rw [hform, h'.read] at hread
  exact (Option.some.inj hread).symm

/-- Programs with the same dumps are shown alike, statement by statement. -/
theorem map_shown_eq {statements others : List Stmt} (h : ∀ stmt ∈ statements, stmt.Undumps)
    (h' : ∀ stmt ∈ others, stmt.Undumps) (hdump : statements.map Stmt.dump = others.map Stmt.dump) :
    statements.map Stmt.shown = others.map Stmt.shown := by
  induction statements generalizing others with
  | nil =>
    obtain rfl : others = [] := by simpa using hdump.symm
    rfl
  | cons first rest ih =>
    cases others with
    | nil => cases hdump
    | cons other rest' =>
      obtain ⟨hfirst, hrest⟩ := List.cons.inj hdump
      have hshown := (h first (.head _)).shown_eq (h' other (.head _)) hfirst
      have hothers := ih (fun stmt hmem => h stmt (.tail _ hmem))
        (fun stmt hmem => h' stmt (.tail _ hmem)) hrest
      rw [List.map_cons, List.map_cons, hshown, hothers]

/-- The program that is shown has the same dumps. -/
theorem map_dump_shown (statements : List Stmt) :
    (statements.map Stmt.shown).map Stmt.dump = statements.map Stmt.dump := by
  rw [List.map_map]
  exact List.map_congr_left fun stmt _ => stmt.dump_shown

/-- The programs of two sources have the same dumps exactly when they are the same but for places
and for the literal `nil` in place of missing clauses of `for`. A dump can be read back, to the tree
without its places; so two trees with one dump are the same up to what it does not show. -/
theorem dump_eq_iff {source source' : String} {program program' : List Stmt}
    (h : readProgram source = .ok program) (h' : readProgram source' = .ok program') :
    program.map Stmt.dump = program'.map Stmt.dump ↔
      program.map Stmt.shown = program'.map Stmt.shown := by
  constructor
  · exact map_shown_eq (undumps_of_read h) (undumps_of_read h')
  · intro hshown
    rw [← map_dump_shown program, hshown, map_dump_shown]

/-- A loop that never stops and one that never starts, which print a string that looks like a part
of a dump. -/
theorem dump_eq_iff_clauses :
    ∃ program program', readProgram "for (;;) print \"(group a) (\";" = .ok program ∧
      readProgram "for (; nil; nil) print \"(group a) (\";" = .ok program' ∧
      program.map Stmt.shown = program'.map Stmt.shown := by
  obtain ⟨program, h, hdump⟩ :=
    @exists_read "for (;;) print \"(group a) (\";"
      (fun program => program.map Stmt.dump = ["(for nil nil nil (print \"(group a) (\"))"]) _
      (by decide +kernel)
  obtain ⟨program', h', hdump'⟩ :=
    @exists_read "for (; nil; nil) print \"(group a) (\";"
      (fun program => program.map Stmt.dump = ["(for nil nil nil (print \"(group a) (\"))"]) _
      (by decide +kernel)
  exact ⟨program, program', h, h', (dump_eq_iff h h').mp (hdump.trans hdump'.symm)⟩

end Script
