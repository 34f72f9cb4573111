import Mathlib.Data.List.Forall2
import Mathlib.Data.List.Perm.Basic
import Script.Proofs.Grammar.Nodes
import Script.Proofs.Scoping.Names

/-!
# Every excess is reported

A source that scans and parses is rejected exactly if one of its calls has too many arguments or
one of its functions too many parameters, however deep it stands, and there is one error for each
of these nodes, in the order of the source (`limitsChecked`).

That none is left out and none is reported twice is said of any tree: up to their order, the errors
are those of the nodes taken one by one (`Node.limitErrors_subtree`). For the order the errors are
held against the text of the tree. Each stands at one of the tokens that the tree keeps, and they
take these tokens in the order of the text (`Reported`), in which places only grow.
-/

namespace Script

/-! ## One error for each node

The functions that collect the errors go through a tree in the order of its text. Node by node they
report what `Node.excess?` says. -/

/-- The error of a node whose row of arguments or parameters is too long, and its place: the opening
parenthesis of a call, the keyword of a superclass call, the name of a function. -/
def Node.excess? : Node → Option (LimitError × Span)
  | .expr (.call _ paren arguments) =>
    if 255 < arguments.length then some (.tooManyArguments arguments.length, paren.span) else none
  | .expr (.superCall keyword arguments) =>
    if 255 < arguments.length then some (.tooManyArguments arguments.length, keyword.span) else none
  | .function decl =>
    if 255 < decl.params.length then
      some (.tooManyParameters decl.params.length, decl.name.span)
    else none
  | _ => none

/-- The limits that a node exceeds, those below it included. -/
def Node.limitErrors : Node → List (LimitError × Span)
  | .expr e => e.limitErrors
  | .stmt s => s.limitErrors
  | .function decl => decl.limitErrors

/-- Arguments are reported when there are more than 255 of them. -/
theorem argumentErrors_eq (count : Nat) (span : Span) : argumentErrors count span =
    (if 255 < count then some (LimitError.tooManyArguments count, span) else none).toList := by
  unfold argumentErrors maxArity
  split <;> rfl

/-- The same number bounds the parameters, and the error carries how many there are. -/
theorem parameterErrors_eq (count : Nat) (span : Span) : parameterErrors count span =
    (if 255 < count then some (LimitError.tooManyParameters count, span) else none).toList := by
  unfold parameterErrors maxArity
  split <;> rfl

/-- The errors of a row of expressions are those of its members, in their order. -/
theorem Expr.limitErrorsOfAll_eq (exprs : List Expr) :
    Expr.limitErrorsOfAll exprs = (exprs.map Node.expr).flatMap Node.limitErrors := by
  induction exprs with
  | nil => rfl
  | cons first others ih =>
    rw [Expr.limitErrorsOfAll, ih]
    rfl

/-- A clause that is left out has none. -/
theorem clauseLimitErrors_eq (clause : Option Expr) :
    clauseLimitErrors clause = (clause.toList.map Node.expr).flatMap Node.limitErrors := by
  cases clause with
  | none => rfl
  | some expr => simp [clauseLimitErrors, Node.limitErrors]

/-- The errors of a row of statements, as those of their nodes one after the other. -/
theorem Stmt.limitErrorsOfAll_eq (statements : List Stmt) :
    Stmt.limitErrorsOfAll statements = (statements.map Node.stmt).flatMap Node.limitErrors := by
  induction statements with
  | nil => rfl
  | cons first others ih =>
    rw [Stmt.limitErrorsOfAll, ih]
    rfl

/-- The errors of a row of functions, as those of their nodes one after the other. -/
theorem FunctionDecl.limitErrorsOfAll_eq (decls : List FunctionDecl) :
    FunctionDecl.limitErrorsOfAll decls = (decls.map Node.function).flatMap Node.limitErrors := by
  induction decls with
  | nil => rfl
  | cons first others ih =>
    rw [FunctionDecl.limitErrorsOfAll, ih]
    rfl

/-- The errors below an expression are its own and those of its operands. Those of a callee come
before that of the call itself. -/
theorem Expr.limitErrors_perm (expr : Expr) : expr.limitErrors.Perm
    ((Node.expr expr).excess?.toList ++ (Node.expr expr).children.flatMap Node.limitErrors) := by
  cases expr with
  | call callee paren arguments =>
    -- The only node whose own error is not the first one.
    show (callee.limitErrors ++ argumentErrors arguments.length paren.span ++
      Expr.limitErrorsOfAll arguments).Perm _
    rw [argumentErrors_eq, Expr.limitErrorsOfAll_eq, List.append_assoc]
    exact List.perm_append_comm_assoc _ _ _
  | superCall keyword arguments =>
    show (argumentErrors arguments.length keyword.span ++ Expr.limitErrorsOfAll arguments).Perm _
    rw [argumentErrors_eq, Expr.limitErrorsOfAll_eq]
    exact .refl _
  | _ => simp [Expr.limitErrors, Node.excess?, Node.children, Expr.operands, Node.limitErrors]

/-- A statement exceeds nothing by itself, so its errors are those of its parts. -/
theorem Stmt.limitErrors_eq (stmt : Stmt) :
    stmt.limitErrors = stmt.parts.flatMap Node.limitErrors := by
  cases stmt with
  | ifElse condition thenBranch elseBranch =>
    cases elseBranch <;> simp [Stmt.limitErrors, Stmt.parts, Node.limitErrors]
  | forLoop init condition post body =>
    cases init <;>
      simp [Stmt.limitErrors, Stmt.parts, Node.limitErrors, clauseLimitErrors_eq]
  | _ =>
    simp [Stmt.limitErrors, Stmt.parts, Node.limitErrors, clauseLimitErrors_eq,
      Stmt.limitErrorsOfAll_eq, FunctionDecl.limitErrorsOfAll_eq]

/-- The errors of a function are its own and those of its body. -/
theorem FunctionDecl.limitErrors_eq (decl : FunctionDecl) : decl.limitErrors =
    (Node.function decl).excess?.toList ++ (decl.body.map Node.stmt).flatMap Node.limitErrors := by
  cases decl with
  | mk name params body =>
    rw [FunctionDecl.limitErrors, parameterErrors_eq, Stmt.limitErrorsOfAll_eq]
    rfl

/-- The errors of a node are its own and those of its children. -/
theorem Node.limitErrors_perm (node : Node) : node.limitErrors.Perm
    (node.excess?.toList ++ node.children.flatMap Node.limitErrors) := by
  cases node with
  | expr e => exact e.limitErrors_perm
  | stmt s => exact .of_eq s.limitErrors_eq
  | function decl => exact .of_eq decl.limitErrors_eq

/-- Up to their order, the errors of a node are those of the nodes from it downwards, taken one by
one. -/
theorem Node.limitErrors_subtree (node : Node) :
    node.limitErrors.Perm (node.subtree.filterMap Node.excess?) := by
  induction node using Node.subtree.induct with
  | case1 node ih =>
    have hchildren : (node.children.flatMap Node.limitErrors).Perm
        (node.children.flatMap fun child => child.subtree.filterMap Node.excess?) :=
      .flatMap_left _ fun child hmem => ih ⟨child, hmem⟩
    -- A node comes before all those below it, as its own error does.
    have hsubtree : node.subtree.filterMap Node.excess? = node.excess?.toList ++
        node.children.flatMap fun child => child.subtree.filterMap Node.excess? := by
      rw [Node.subtree_eq, List.filterMap_cons, List.filterMap_flatMap]
      cases node.excess? <;> rfl
    rw [hsubtree]
    exact node.limitErrors_perm.trans (hchildren.append_left _)

/-- So the errors of a program are those of its nodes, up to their order. -/
theorem limitErrors_nodesOf (program : List Stmt) :
    (Stmt.limitErrorsOfAll program).Perm ((nodesOf program).filterMap Node.excess?) := by
  rw [Stmt.limitErrorsOfAll_eq, nodesOf, List.filterMap_flatMap]
  exact .flatMap_left _ fun node _ => node.limitErrors_subtree

/-! ## The order of the text

An error and the token that it stands at come in the same order in the two lists. Tokens may be left
out, errors may not. -/

/-- The error stands at this token: at the opening parenthesis of a call, at the keyword of a
superclass call, at the name of a function. -/
def ReportedAt (error : LimitError × Span) (token : Token) : Prop :=
  error.2 = token.span ∧
    match error.1 with
    | .tooManyArguments _ => token.kind = .leftParen ∨ token.kind = .kwSuper
    | .tooManyParameters _ => token.kind = .identifier

/-- The errors stand at tokens that the marks keep, and are in the order of these. -/
def Reported (errors : List (LimitError × Span)) (marks : List Mark) : Prop :=
  List.SublistForall₂ ReportedAt errors (heldTokens marks)

section

variable {errors errors' : List (LimitError × Span)} {marks marks' : List Mark} {token : Token}

/-- Where there is no error, the text does not matter. -/
theorem reported_nil (marks : List Mark) : Reported [] marks := .nil

/-- Two texts in a row report the errors of the first, and then those of the second. -/
theorem Reported.append (h : Reported errors marks) (h' : Reported errors' marks') :
    Reported (errors ++ errors') (marks ++ marks') := by
  unfold Reported at h h' ⊢
  rw [heldTokens_append]
  generalize heldTokens marks = kept at h
  -- The induction goes along the tokens of the first text; where these end the second begins.
  induction h with
  | @nil kept =>
    induction kept with
    | nil => exact h'
    | cons _ _ ih => exact .cons_right ih
  | cons hat _ ih => exact .cons hat ih
  | cons_right _ ih => exact .cons_right ih

/-- A text that holds the tokens of the errors may be part of a longer one. -/
theorem Reported.within (h : Reported errors marks) (before after : List Mark) :
    Reported errors (before ++ marks ++ after) := by
  have hwithin := ((reported_nil before).append h).append (reported_nil after)
  rwa [List.nil_append, List.append_nil] at hwithin

/-- Too many arguments are reported at the parenthesis, or at the keyword. -/
theorem reported_argumentErrors (count : Nat)
    (hkind : token.kind = .leftParen ∨ token.kind = .kwSuper) :
    Reported (argumentErrors count token.span) [.held token] := by
  unfold argumentErrors
  split
  · exact .cons ⟨rfl, hkind⟩ .nil
  · exact .nil

/-- Too many parameters are reported at the name of the function. -/
theorem reported_parameterErrors (count : Nat) (hkind : token.kind = .identifier) :
    Reported (parameterErrors count token.span) [.held token] := by
  unfold parameterErrors
  split
  · exact .cons ⟨rfl, hkind⟩ .nil
  · exact .nil

/-- One more token in front of the text changes nothing. -/
theorem Reported.held (h : Reported errors marks) (token : Token) :
    Reported errors (.held token :: marks) := .cons_right h

end

/-! ### Rows

The members of a row come in the order of the text, with commas between arguments. A comma is no
token that an error could stand at. -/

/-- Arguments after the first one, each with a comma before it. -/
theorem reported_moreArguments {arguments : List Expr}
    (h : ∀ e ∈ arguments, Reported e.limitErrors e.marks) :
    Reported (Expr.limitErrorsOfAll arguments) (Expr.moreArgumentMarks arguments) := by
  induction arguments with
  | nil => exact reported_nil _
  | cons first others ih =>
    have hothers := ih fun e hmem => h e (.tail _ hmem)
    exact (h first (.head _)).append hothers

theorem reported_arguments {arguments : List Expr}
    (h : ∀ e ∈ arguments, Reported e.limitErrors e.marks) :
    Reported (Expr.limitErrorsOfAll arguments) (Expr.argumentMarks arguments) := by
  cases arguments with
  | nil => exact reported_nil _
  | cons first others =>
    have hothers := reported_moreArguments fun e hmem => h e (.tail _ hmem)
    exact (h first (.head _)).append hothers

/-- A row of statements, with nothing between them. -/
theorem reported_statements {statements : List Stmt}
    (h : ∀ stmt ∈ statements, Reported stmt.limitErrors stmt.marks) :
    Reported (Stmt.limitErrorsOfAll statements) (Stmt.marksOfAll statements) := by
  induction statements with
  | nil => exact reported_nil _
  | cons first others ih =>
    have hothers := ih fun stmt hmem => h stmt (.tail _ hmem)
    exact (h first (.head _)).append hothers

theorem reported_functions {decls : List FunctionDecl}
    (h : ∀ decl ∈ decls, Reported decl.limitErrors decl.marks) :
    Reported (FunctionDecl.limitErrorsOfAll decls) (FunctionDecl.marksOfAll decls) := by
  induction decls with
  | nil => exact reported_nil _
  | cons first others ih =>
    have hothers := ih fun decl hmem => h decl (.tail _ hmem)
    exact (h first (.head _)).append hothers

/-! ### Programs of the grammar

By induction on the derivation, which tells where the text of a node lies around those of its
parts. -/

namespace Grammar

mutual

/-- The errors of an assignment are in the order of its text. -/
theorem Assignment.reported {expr : Expr} : Assignment expr → Reported expr.limitErrors expr.marks
  | @Assignment.toVariable name equals value _ _ hvalue =>
    (reported_nil [.held name]).append (hvalue.reported.held equals)
  | @Assignment.toProperty object name value hobject _ hvalue =>
    hobject.reported.append (hvalue.reported.held name)
  | .noTarget h => h.reported

/-- An operator stands between its operands, and reports nothing itself. -/
theorem Binary.reported {levels : List (List TokenKind)} {expr : Expr} :
    Binary levels expr → Reported expr.limitErrors expr.marks
  | .operand h => h.reported
  | .tighter h => h.reported
  | .joined hleft _ hright => hleft.reported.append (hright.reported.held _)

/-- And before its operand, if it has only one. -/
theorem Unary.reported {expr : Expr} : Unary expr → Reported expr.limitErrors expr.marks
  | .applied _ hoperand => hoperand.reported.held _
  | .call h => h.reported

/-- Chains of calls and properties grow to the right. -/
theorem Call.reported {expr : Expr} : Call expr → Reported expr.limitErrors expr.marks
  | .primary h => h.reported
  | @Call.applied callee paren arguments hcallee hparen harguments => by
    -- The parenthesis stands between the callee and the arguments, and so does its error.
    have hrow := reported_arguments fun e hmem => (harguments e hmem).reported
    have hparen := reported_argumentErrors arguments.length (.inl hparen)
    rw [Expr.limitErrors, Expr.marks, List.append_assoc]
    exact hcallee.reported.append (hparen.append hrow)
  | .property hobject _ => hobject.reported.within [] _

/-- The smallest expressions hold others in parentheses, or as the arguments of a superclass
call. -/
theorem Primary.reported {expr : Expr} : Primary expr → Reported expr.limitErrors expr.marks
  | .literal _ | .variable _ | .this _ | .superGet _ _ => reported_nil _
  | .grouping h => h.reported.within [.fixed .leftParen] [.fixed .rightParen]
  | @Primary.superCall keyword arguments hkeyword harguments => by
    have hrow := reported_arguments fun e hmem => (harguments e hmem).reported
    exact (reported_argumentErrors arguments.length (.inr hkeyword)).append hrow

end

/-- A clause of a `for`, which may be left out. -/
theorem Clause.reported {clause : Option Expr} (h : Clause clause) :
    Reported (clauseLimitErrors clause) (clauseMarks clause) := by
  cases clause with
  | none => exact reported_nil _
  | some expr => exact (h expr rfl).reported

/-- The declaration of a variable reports what its initial value reports. -/
theorem VariableDecl.reported {stmt : Stmt} (h : VariableDecl stmt) :
    Reported stmt.limitErrors stmt.marks := by
  cases h with
  | @mk name init hname hinit =>
    have hvalue : Reported (clauseLimitErrors init) (initialValueMarks init) := by
      cases init with
      | none => exact reported_nil _
      | some expr => exact (hinit expr rfl).reported
    exact (hvalue.within [] [.fixed .semicolon]).held name

mutual

/-- Statements report what their parts report, in the order of these. The parts stand in the text
one behind the other, and so do the places of their errors; keywords and punctuation between them
report nothing. -/
theorem Statement.reported {stmt : Stmt} : Statement stmt → Reported stmt.limitErrors stmt.marks
  | .expression h => h.reported.within [] _
  | .print h => h.reported.within [.fixed .kwPrint] [.fixed .semicolon]
  | .block h =>
    (reported_statements fun stmt hmem => (h stmt hmem).reported).within
      [.fixed .leftBrace] [.fixed .rightBrace]
  | .ifThen hcondition hthen => hcondition.reported.append hthen.reported
  | .ifElse hcondition hthen _ helse => by
    rw [Stmt.limitErrors, List.append_assoc]
    exact hcondition.reported.append (hthen.reported.append helse.reported)
  | .whileLoop hcondition hbody => hcondition.reported.append hbody.reported
  | @Statement.forLoop init condition post body hinit hcondition hpost hbody => by
    -- The header differs in its first part only, and what follows it is the same in all three
    -- cases.
    have hclauses : Reported (clauseLimitErrors condition ++ (clauseLimitErrors post ++
        body.limitErrors)) (clauseMarks condition ++ .fixed .semicolon ::
          (clauseMarks post ++ .fixed .rightParen :: body.marks)) :=
      hcondition.reported.append (hpost.reported.append hbody.reported)
    cases hinit with
    | absent =>
      rw [Stmt.limitErrors, List.append_assoc]
      exact hclauses
    | declaration hinit =>
      rw [Stmt.limitErrors, List.append_assoc, List.append_assoc]
      exact hinit.reported.append hclauses
    | expression hinit =>
      rw [Stmt.limitErrors, List.append_assoc, List.append_assoc]
      exact (hinit.reported.within [] [.fixed .semicolon]).append hclauses
  | @Statement.returnValue keyword value _ hvalue =>
    (hvalue.reported.within [] [.fixed .semicolon]).held keyword

theorem Declaration.reported {stmt : Stmt} :
    Declaration stmt → Reported stmt.limitErrors stmt.marks
  | .statement h => h.reported
  | .variable h => h.reported
  | .function h => h.reported
  | @Declaration.classDecl name superclass methods _ _ hmethods => by
    have hrow := reported_functions fun decl hmem => (hmethods decl hmem).reported
    have hbody := (reported_nil (superclassMarks superclass)).append
      (hrow.within [.fixed .leftBrace] [.fixed .rightBrace])
    exact hbody.held name

theorem Function.reported {decl : FunctionDecl} :
    Function decl → Reported decl.limitErrors decl.marks
  | @Function.mk name params body hname _ hbody => by
    have hrow := reported_statements fun stmt hmem => (hbody stmt hmem).reported
    have hrest := (reported_nil (parameterMarks params)).append
      (hrow.within [.fixed .leftBrace] [.fixed .rightBrace])
    exact (reported_parameterErrors params.length hname).append hrest

end

end Grammar

/-! ## Sources -/

/-- The errors of a parsed program stand at tokens of its source, in the order of these. -/
theorem limitErrors_tokens {row : List Token} {program : List Stmt} (h : parse row = .ok program) :
    List.SublistForall₂ ReportedAt (Stmt.limitErrorsOfAll program) row := by
  obtain ⟨hprogram, hfits⟩ := fits_of_parse h
  -- The tree leaves out some tokens of the row, and the end of the input.
  have hkept : (heldTokens (Stmt.marksOfAll program)).Sublist row :=
    (heldTokens_sublist hfits).trans (List.takeWhile_sublist _)
  have hreported : Reported (Stmt.limitErrorsOfAll program) (Stmt.marksOfAll program) :=
    reported_statements fun stmt hmem => (hprogram stmt hmem).reported
  obtain ⟨reported, herrors, hsublist⟩ := List.sublistForall₂_iff.mp hreported
  exact List.sublistForall₂_iff.mpr ⟨reported, herrors, hsublist.trans hkept⟩

/-- Every error that is reported has its token in the row. -/
theorem exists_token_of_reported {errors : List (LimitError × Span)} {row : List Token}
    (h : List.SublistForall₂ ReportedAt errors row) {error : LimitError × Span}
    (hmem : error ∈ errors) : ∃ token ∈ row, ReportedAt error token := by
  induction h with
  | nil => cases hmem
  | cons hat _ ih =>
    rcases List.mem_cons.mp hmem with rfl | hmem
    · exact ⟨_, .head _, hat⟩
    · obtain ⟨token, htoken, hat⟩ := ih hmem
      exact ⟨token, .tail _ htoken, hat⟩
  | cons_right _ ih =>
    obtain ⟨token, htoken, hat⟩ := ih hmem
    exact ⟨token, .tail _ htoken, hat⟩

/-- Errors that stand at tokens one after the other have places that grow. -/
theorem pairwise_of_reported {errors : List (LimitError × Span)} {row : List Token}
    (h : List.SublistForall₂ ReportedAt errors row)
    (hrow : row.Pairwise fun a b => a.span.start < b.span.start) :
    errors.Pairwise fun earlier later => earlier.2.start < later.2.start := by
  obtain ⟨reported, herrors, hsublist⟩ := List.sublistForall₂_iff.mp h
  have hstarts : errors.map (fun error => error.2.start) =
      reported.map fun token => token.span.start := by
    clear h hsublist
    induction herrors with
    | nil => rfl
    | cons hat _ ih => rw [List.map_cons, List.map_cons, hat.1, ih]
  have hordered : (reported.map fun token => token.span.start).Pairwise (· < ·) :=
    List.pairwise_map.mpr (hrow.sublist hsublist)
  rw [← hstarts] at hordered
  exact List.pairwise_map.mp hordered

/-- `found` is what a source is rejected with that scans and parses to this program. -/
structure LimitsChecked (source : String) (program : List Stmt)
    (found : List (LimitError × Span)) : Prop where
  /-- One error for each node of the program that exceeds its limit, and no others. -/
  each : found.Perm ((nodesOf program).filterMap Node.excess?)
  /-- Each stands at a token of the source, and they are in the order of these tokens. -/
  placed : List.SublistForall₂ ReportedAt found (tokens source)
  ordered : found.Pairwise fun earlier later => earlier.2.start < later.2.start
  /-- There are no other errors. -/
  read : readProgram source =
    if found = [] then .ok program else .error (found.map SourceError.ofLimit)
  rejected : (∃ errors, readProgram source = .error errors) ↔
    ∃ node ∈ nodesOf program, node.excess?.isSome

/-- A source that scans and parses is rejected for exactly the calls and functions that exceed their
limits, one error for each of them, in the order of the source. That the list is complete comes from
the recursion over the nodes, and its order from the derivation of the program. -/
theorem limitsChecked {source : String} {program : List Stmt} (hscan : scanErrors source = [])
    (hparse : parse (tokens source) = .ok program) :
    LimitsChecked source program (Stmt.limitErrorsOfAll program) := by
  have heach := limitErrors_nodesOf program
  have hplaced := limitErrors_tokens hparse
  have hread : readProgram source = if Stmt.limitErrorsOfAll program = [] then .ok program
      else .error ((Stmt.limitErrorsOfAll program).map SourceError.ofLimit) := by
    simp only [readProgram, hscan, hparse, List.map_nil, ne_eq, not_true_eq_false, if_false]
    cases Stmt.limitErrorsOfAll program <;> rfl
  refine ⟨heach, hplaced, pairwise_of_reported hplaced (tokens_pairwise source), hread, ?_⟩
  have hrejected : (∃ errors, readProgram source = .error errors) ↔
      Stmt.limitErrorsOfAll program ≠ [] := by
    rw [hread]
    by_cases hkept : Stmt.limitErrorsOfAll program = [] <;> simp [hkept]
  -- The list is empty just if no node has an error.
  have hkept : Stmt.limitErrorsOfAll program = [] ↔
      ∀ node ∈ nodesOf program, node.excess? = none := by
    rw [← List.filterMap_eq_nil_iff]
    constructor
    · intro hnil
      rw [hnil] at heach
      exact List.nil_perm.mp heach
    · intro hnil
      rw [hnil] at heach
      exact List.perm_nil.mp heach
  rw [hrejected, ne_eq, hkept]
  simp [Option.isSome_iff_ne_none]

/-- The text of a row of 256 names. -/
def crowdedRow : List Char := (List.replicate 255 ['a', ',']).flatten ++ ['a']

/-- A call with 257 arguments, the first of which is a call with 256. -/
def crowdedCalls : String :=
  String.ofList (['f', '(', 'g', '('] ++ crowdedRow ++ [')', ','] ++ crowdedRow ++ [')', ';'])

/-- The outer call is reported first, since its parenthesis comes first. -/
theorem limitsChecked_nestedCalls : ∃ program, scanErrors crowdedCalls = [] ∧
    parse (tokens crowdedCalls) = .ok program ∧ LimitsChecked crowdedCalls program
      [(.tooManyArguments 257, ⟨1, 2⟩), (.tooManyArguments 256, ⟨3, 4⟩)] := by
  have hscan : scanErrors crowdedCalls = [] := by
    rw [scanErrors, scan, crowdedCalls, String.toList_ofList]
    decide +kernel
  -- The tree of this source is too large to be written out: it is taken from the parser, and what
  -- is computed is a test of it.
  have hfound : ((parse (tokens crowdedCalls)).toOption.any fun program =>
      Stmt.limitErrorsOfAll program =
        [(.tooManyArguments 257, ⟨1, 2⟩), (.tooManyArguments 256, ⟨3, 4⟩)]) = true := by
    rw [tokens, scan, crowdedCalls, String.toList_ofList]
    decide +kernel
  cases hparse : parse (tokens crowdedCalls) with
  | error errors =>
    rw [hparse] at hfound
    cases hfound
  | ok program =>
    rw [hparse] at hfound
    have hchecked := limitsChecked hscan hparse
    rw [of_decide_eq_true hfound] at hchecked
    exact ⟨program, hscan, rfl, hchecked⟩

end Script
