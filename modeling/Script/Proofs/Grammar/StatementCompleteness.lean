import Script.Proofs.Grammar.ExpressionCompleteness
import Script.Syntax.Parser.Statement

/-!
# What the statement parser finds

The same for declarations and statements as `ExpressionCompleteness` says for expressions, and last
for programs (`program_complete`). A declaration ends with its last token whatever comes after it,
but for an `else`, which an `if` at its end would take.
-/

namespace Script

namespace Parser

open Grammar

variable {fuel : Nat} {s : State} {rest : List Token}

/-! ## First tokens

The parser tells statements and declarations apart by the token at the front alone. For each
derivation the first mark is of one of the kinds that the parser looks for there, and where it reads
an expression for want of such a token, no kind that it looks for can begin one. -/

/-- The kinds of the keywords and of the brace that tell which statement it is. -/
def leadingKinds : List TokenKind := [.kwPrint, .leftBrace, .kwIf, .kwWhile, .kwFor, .kwReturn]

/-- The kinds of the tokens that a statement may begin with. -/
def statementKinds : List TokenKind := expressionKinds ++ leadingKinds

/-- The kinds of the tokens that a declaration may begin with. -/
def declarationKinds : List TokenKind := [.kwClass, .kwFun, .kwVar] ++ statementKinds

/-- A statement begins with its keyword, its brace, or the first token of an expression. -/
theorem starts_of_statement {stmt : Stmt} (h : Statement stmt) :
    Starts statementKinds stmt.marks := by
  cases h with
  | expression h =>
    exact ((starts_of_assignment h).mono (List.subset_append_left _ _)).append _
  | print => exact ⟨_, _, rfl, by rw [Mark.kind]; decide⟩
  | block => exact ⟨_, _, rfl, by rw [Mark.kind]; decide⟩
  | ifThen => exact ⟨_, _, rfl, by rw [Mark.kind]; decide⟩
  | ifElse => exact ⟨_, _, rfl, by rw [Mark.kind]; decide⟩
  | whileLoop => exact ⟨_, _, rfl, by rw [Mark.kind]; decide⟩
  | forLoop => exact ⟨_, _, marks_forLoop .., by rw [Mark.kind]; decide⟩
  | returnValue h => exact ⟨_, _, rfl, by rw [Mark.kind, h]; decide⟩

/-- A function begins with its keyword, by which the parser knows that another method comes. -/
theorem starts_of_function (decl : FunctionDecl) : Starts [.kwFun] decl.marks := by
  cases decl with
  | mk name params body => exact ⟨_, _, rfl, by rw [Mark.kind]; decide⟩

/-- A declaration begins with its keyword, or as a statement does. -/
theorem starts_of_declaration {stmt : Stmt} (h : Declaration stmt) :
    Starts declarationKinds stmt.marks := by
  cases h with
  | statement h => exact (starts_of_statement h).mono (List.subset_append_right _ _)
  | «variable» h =>
    cases h with
    | mk => exact ⟨_, _, rfl, by rw [Mark.kind]; decide⟩
  | function => exact (starts_of_function _).mono (by decide)
  | classDecl => exact ⟨_, _, rfl, by rw [Mark.kind]; decide⟩

/-! ## The parts that hold no statements

The fuel that is asked for is a multiple of the number of tokens. An expression takes a fixed number
of calls for each of its tokens, one for each level of precedence, and sixteen is more than that. -/

/-- A declaration that is read without an error is not skipped. -/
theorem Parses.recovering {α : Type} {x : Parser α} {a : α} (h : Parses x a s rest) :
    Parses (recovering x) (some a) s rest := by
  obtain ⟨s', hrun, hrest, herrors⟩ := h
  exact ⟨s', recovering_of_ok hrun, hrest, herrors⟩

/-- A clause is read from its text where the token that closes it follows. No expression begins with
such a token, so an absent clause and a present one are told apart. -/
theorem clause_complete {stop : TokenKind} {found : Option Expr} (h : Clause found)
    (hstop : stop ∈ closingKinds) (hfuel : 16 * (clauseMarks found).length + 10 ≤ fuel)
    (hspells : Spells (clauseMarks found) s.rest rest) (hnext : headKind rest = stop) :
    Parses (clause fuel stop) found s rest := by
  rw [clause]
  refine (parses_peek rfl rfl).bind fun s₁ hs₁ => ?_
  cases found with
  | none =>
    cases hspells
    -- An absent clause has no tokens: what closes it is next.
    rw [if_pos hnext]
    exact .pure _ hs₁
  | some e =>
    have hassignment := h e rfl
    have hkinds := (starts_of_assignment hassignment).headKind_mem hspells
    have hclosing : ∀ kind ∈ closingKinds, kind ∉ expressionKinds := by decide
    have hother : headKind s.rest ≠ stop := by
      intro heq
      exact hclosing stop hstop (heq ▸ hkinds)
    rw [if_neg hother]
    exact ((expressionComplete fuel).expression hassignment hfuel (hs₁ ▸ hspells)
      (hnext ▸ hstop)).map

/-- An expression statement is read from its text, whatever follows the semicolon. -/
theorem expressionStatement_complete {e : Expr} (h : Assignment e)
    (hfuel : 16 * (Stmt.expression e).marks.length ≤ fuel + 6)
    (hspells : Spells (Stmt.expression e).marks s.rest rest) :
    Parses (expressionStatement fuel) (.expression e) s rest := by
  rw [expressionStatement]
  obtain ⟨_, hvalue, semicolon, _, rfl, hend, -, rfl⟩ := spells_append.mp hspells
  have hkind : semicolon.kind = .semicolon := hend
  simp only [Stmt.marks, List.length_append, List.length_singleton] at hfuel
  refine ((expressionComplete fuel).expression h (by omega) hvalue
    (by rw [headKind, hkind]; decide)).bind fun s₁ hs₁ => ?_
  exact (parses_expect hs₁ hkind).bind fun s₂ hs₂ => .pure _ hs₂

theorem initialValue_complete {init : Option Expr} (h : Clause init)
    (hfuel : 16 * (initialValueMarks init).length ≤ fuel + 6)
    (hspells : Spells (initialValueMarks init) s.rest rest) (hnext : headKind rest = .semicolon) :
    Parses (do
      match ← accept [.equal] with
      | some _ => some <$> expression fuel
      | none => pure none) init s rest := by
  cases init with
  | none =>
    cases hspells
    -- The semicolon is next, not an equals sign.
    refine (parses_accept_none rfl (by rw [hnext]; decide)).bind fun s₁ hs₁ => ?_
    exact .pure _ hs₁
  | some e =>
    obtain ⟨equals, value, hrest, hequals, -, hvalue⟩ := hspells
    simp only [initialValueMarks, List.length_cons] at hfuel
    refine (parses_accept hrest (List.mem_singleton.mpr hequals)).bind fun s₁ hs₁ => ?_
    exact ((expressionComplete fuel).expression (h e rfl) (by omega) (hs₁ ▸ hvalue)
      (by rw [hnext]; decide)).map

/-- A variable declaration is read from its text, whatever follows it. -/
theorem variableDecl_complete {stmt : Stmt} (h : VariableDecl stmt)
    (hfuel : 16 * stmt.marks.length ≤ fuel + 16) (hspells : Spells stmt.marks s.rest rest) :
    Parses (variableDecl fuel) stmt s rest := by
  cases h with
  | @mk name init hname hinit =>
    obtain ⟨keyword, _, hrest, hkeyword, -, _, others, rfl, rfl, -, hspells⟩ := hspells
    obtain ⟨_, hvalue, semicolon, rest, rfl, hend, -, rfl⟩ := spells_append.mp hspells
    have hnext : headKind (semicolon :: rest) = .semicolon := hend
    simp only [Stmt.marks, List.length_append, List.length_cons, List.length_nil] at hfuel
    rw [variableDecl]
    refine (parses_accept hrest (List.mem_singleton.mpr hkeyword)).bind fun s₁ hs₁ => ?_
    refine (parses_expect hs₁ hname).bind fun s₂ hs₂ => ?_
    refine (initialValue_complete hinit (by omega) (hs₂ ▸ hvalue) hnext).bind fun s₃ hs₃ => ?_
    exact (parses_expect hs₃ hend).bind fun s₄ hs₄ => .pure _ hs₄

/-- A row of parameters is read from its text. Each parameter takes one call, so the induction is on
the fuel, and the length of the row bounds it. -/
theorem parameterRow_complete {fuel : Nat} {s : State} {first : Token} {others : List Token}
    (h : ∀ token ∈ first :: others, token.kind = .identifier)
    (hfuel : (moreParameterMarks others).length ≤ fuel)
    (hspells : Spells (.held first :: moreParameterMarks others) s.rest rest) :
    Parses (parameterRow fuel) (first :: others) s rest := by
  induction fuel generalizing s first others with
  | zero => cases others <;> simp [moreParameterMarks] at hfuel
  | succ fuel ih =>
    rw [parameterRow]
    obtain ⟨_, after, hrest, rfl, -, hspells⟩ := hspells
    refine (parses_expect hrest (h _ (.head _))).bind fun s₁ hs₁ => ?_
    cases others with
    | nil =>
      obtain ⟨paren, _, rfl, hparen, -, rfl⟩ := hspells
      have hkind : paren.kind = .rightParen := hparen
      refine (parses_accept_none hs₁ (by rw [headKind, hkind]; decide)).bind fun s₂ hs₂ => ?_
      exact (parses_expect hs₂ hkind).bind fun s₃ hs₃ => .pure _ hs₃
    | cons next others =>
      obtain ⟨comma, after, rfl, hcomma, -, hspells⟩ := hspells
      simp only [moreParameterMarks, List.length_cons] at hfuel
      refine (parses_accept hs₁ (List.mem_singleton.mpr hcomma)).bind fun s₂ hs₂ => ?_
      exact (ih (fun token htoken => h token (.tail _ htoken)) (by omega) (hs₂ ▸ hspells)).bind
        fun s₃ hs₃ => .pure _ hs₃

/-- A list of parameters is read from its text; it begins with the parenthesis if it is empty and
with a name otherwise. -/
theorem parameters_complete {params : List Token} (h : ∀ token ∈ params, token.kind = .identifier)
    (hfuel : (parameterMarks params).length ≤ fuel)
    (hspells : Spells (parameterMarks params) s.rest rest) :
    Parses (parameters fuel) params s rest := by
  rw [parameters]
  cases params with
  | nil =>
    obtain ⟨paren, _, hrest, hparen, -, rfl⟩ := hspells
    exact (parses_accept hrest (List.mem_singleton.mpr hparen)).bind fun s₁ hs₁ => .pure _ hs₁
  | cons first others =>
    have hfirst : headKind s.rest ∉ [TokenKind.rightParen] := by
      rw [Spells.headKind_eq hspells, Mark.kind, h first (.head _)]
      decide
    simp only [parameterMarks, List.length_cons] at hfuel
    refine (parses_accept_none rfl hfirst).bind fun s₁ hs₁ => ?_
    exact parameterRow_complete h (by omega) (hs₁ ▸ hspells)

/-! ## The statements about all functions

What each function reads, and with how much fuel. Only what may end in an open `if` says something
about the token after it. -/

/-- The statement parser is complete with this much fuel. -/
structure StatementComplete (fuel : Nat) : Prop where
  declaration : ∀ {stmt : Stmt} {s : State} {rest : List Token}, Declaration stmt →
    16 * stmt.marks.length + 1 ≤ fuel → Spells stmt.marks s.rest rest →
    headKind rest ≠ .kwElse → Parses (declaration fuel) stmt s rest
  methods : ∀ {decls : List FunctionDecl} {s : State} {rest : List Token},
    (∀ decl ∈ decls, Function decl) → 16 * (FunctionDecl.marksOfAll decls).length + 1 ≤ fuel →
    Spells (FunctionDecl.marksOfAll decls) s.rest rest → headKind rest = .rightBrace →
    Parses (methods fuel) decls s rest
  function : ∀ {role : FunctionRole} {decl : FunctionDecl} {s : State} {rest : List Token},
    Function decl → 16 * decl.marks.length ≤ fuel → Spells decl.marks s.rest rest →
    Parses (function fuel role) decl s rest
  statement : ∀ {stmt : Stmt} {s : State} {rest : List Token}, Statement stmt →
    16 * stmt.marks.length ≤ fuel → Spells stmt.marks s.rest rest →
    (stmt.awaitsElse = true → headKind rest ≠ .kwElse) → Parses (statement fuel) stmt s rest
  block : ∀ {body : List Stmt} {s : State} {rest : List Token},
    (∀ stmt ∈ body, Declaration stmt) →
    16 * (Stmt.marksOfAll body ++ [Mark.fixed .rightBrace]).length ≤ fuel →
    Spells (Stmt.marksOfAll body ++ [.fixed .rightBrace]) s.rest rest →
    Parses (block fuel) body s rest

/-! ## Loops and branches

Each run goes through the marks of the tree in order: the tokens of one part are split off, the part
is read, and the tokens left are those of the next part. -/

/-- An `if` is read from what follows its keyword. -/
theorem ifElse_complete (ih : StatementComplete fuel) {condition : Expr} {thenBranch : Stmt}
    {elseBranch : Option Stmt} (hcondition : Assignment condition) (hthen : Statement thenBranch)
    (helse : ∀ stmt ∈ elseBranch, thenBranch.awaitsElse = false ∧ Statement stmt)
    (hfuel : 16 * (Stmt.ifElse condition thenBranch elseBranch).marks.length ≤ fuel + 2)
    (hspells : Spells (Mark.fixed .leftParen :: (condition.marks ++ Mark.fixed .rightParen ::
      (thenBranch.marks ++ elseMarks elseBranch))) s.rest rest)
    (hnext : (Stmt.ifElse condition thenBranch elseBranch).awaitsElse = true →
      headKind rest ≠ .kwElse) :
    Parses (ifElse (fuel + 1)) (.ifElse condition thenBranch elseBranch) s rest := by
  rw [ifElse]
  obtain ⟨leftParen, after, hrest, hleftParen, -, hspells⟩ := hspells
  obtain ⟨_, hspellsCondition, rightParen, body, rfl, hrightParen, -, hspells⟩ :=
    spells_append.mp hspells
  have hkind : rightParen.kind = .rightParen := hrightParen
  obtain ⟨middle, hspellsThen, hspellsElse⟩ := spells_append.mp hspells
  simp only [marks_ifElse, List.length_append, List.length_cons] at hfuel
  refine (parses_expect hrest hleftParen).bind fun s₁ hs₁ => ?_
  refine ((expressionComplete fuel).expression hcondition (by omega) (hs₁ ▸ hspellsCondition)
    (by rw [headKind, hkind]; decide)).bind fun s₂ hs₂ => ?_
  refine (parses_expect hs₂ hkind).bind fun s₃ hs₃ => ?_
  cases elseBranch with
  | none =>
    -- without an `else` the branch may end in an open `if`, so what follows must be no `else`
    cases hspellsElse
    have hnext : headKind rest ≠ .kwElse := hnext rfl
    refine (ih.statement hthen (by omega) (hs₃ ▸ hspellsThen) fun _ => hnext).bind
      fun s₄ hs₄ => ?_
    refine (parses_accept_none hs₄ (by simpa using hnext)).bind fun s₅ hs₅ => ?_
    exact .pure _ hs₅
  | some elseBranch =>
    obtain ⟨hclosed, hstatement⟩ := helse elseBranch rfl
    obtain ⟨keyword, others, rfl, hkeyword, -, hspellsElse⟩ := hspellsElse
    simp only [elseMarks, List.length_cons] at hfuel
    -- the branch is closed, so that the `else` after it is not its own
    refine (ih.statement hthen (by omega) (hs₃ ▸ hspellsThen) fun hawaits => ?_).bind
      fun s₄ hs₄ => ?_
    · rw [hclosed] at hawaits
      cases hawaits
    · refine (parses_accept hs₄ (List.mem_singleton.mpr hkeyword)).bind fun s₅ hs₅ => ?_
      exact (ih.statement hstatement (by omega) (hs₅ ▸ hspellsElse) hnext).bind
        fun s₆ hs₆ => .pure _ hs₆

/-- A `while` is read from what follows its keyword. -/
theorem whileLoop_complete (ih : StatementComplete fuel) {condition : Expr} {body : Stmt}
    (hcondition : Assignment condition) (hbody : Statement body)
    (hfuel : 16 * (Stmt.whileLoop condition body).marks.length ≤ fuel + 2)
    (hspells :
      Spells (Mark.fixed .leftParen :: (condition.marks ++ .fixed .rightParen :: body.marks))
        s.rest rest)
    (hnext : body.awaitsElse = true → headKind rest ≠ .kwElse) :
    Parses (whileLoop (fuel + 1)) (.whileLoop condition body) s rest := by
  rw [whileLoop]
  obtain ⟨leftParen, after, hrest, hleftParen, -, hspells⟩ := hspells
  obtain ⟨_, hspellsCondition, rightParen, others, rfl, hrightParen, -, hspellsBody⟩ :=
    spells_append.mp hspells
  have hkind : rightParen.kind = .rightParen := hrightParen
  simp only [Stmt.marks, List.length_append, List.length_cons] at hfuel
  refine (parses_expect hrest hleftParen).bind fun s₁ hs₁ => ?_
  refine ((expressionComplete fuel).expression hcondition (by omega) (hs₁ ▸ hspellsCondition)
    (by rw [headKind, hkind]; decide)).bind fun s₂ hs₂ => ?_
  refine (parses_expect hs₂ hkind).bind fun s₃ hs₃ => ?_
  exact (ih.statement hbody (by omega) (hs₃ ▸ hspellsBody) hnext).bind fun s₄ hs₄ => .pure _ hs₄

/-- What stands before the condition of a `for`. -/
theorem initializer_complete {init : Option Stmt} (h : Initializer init)
    (hfuel : 16 * (initializerMarks init).length ≤ fuel + 6)
    (hspells : Spells (initializerMarks init) s.rest rest) :
    Parses (do
      match ← peek with
      | .semicolon => do
        let _ ← accept [.semicolon]
        pure none
      | .kwVar => some <$> variableDecl fuel
      | _ => some <$> expressionStatement fuel) init s rest := by
  refine (parses_peek rfl rfl).bind fun s₁ hs₁ => ?_
  cases h with
  | absent =>
    obtain ⟨semicolon, _, hrest, hend, -, rfl⟩ := hspells
    have hkind : semicolon.kind = .semicolon := hend
    simp only [hrest, headKind, hkind]
    refine (parses_accept (hs₁.trans hrest) (by rw [hkind]; decide)).bind fun s₂ hs₂ => ?_
    exact .pure _ hs₂
  -- A declaration begins with its keyword, which nothing else here does.
  | declaration h =>
    have hfirst : headKind s.rest = .kwVar := by
      cases h with
      | mk => exact Spells.headKind_eq hspells
    simp only [hfirst]
    exact (variableDecl_complete h (by simp only [initializerMarks] at hfuel; omega)
      (hs₁ ▸ hspells)).map
  | @expression e h =>
    -- an expression starts with none of the tokens that lead to the other cases
    have hkinds := ((starts_of_assignment h).append [.fixed .semicolon]).headKind_mem hspells
    have hother : ∀ kind ∈ expressionKinds, kind ≠ .semicolon ∧ kind ≠ .kwVar := by decide
    obtain ⟨hsemicolon, hvar⟩ := hother _ hkinds
    split
    · next heq => exact absurd heq hsemicolon
    · next heq => exact absurd heq hvar
    · exact (expressionStatement_complete h hfuel (hs₁ ▸ hspells)).map

/-- A `for` is read from what follows its keyword: the two clauses end before a semicolon and before
the parenthesis. -/
theorem forLoop_complete (ih : StatementComplete fuel) {init : Option Stmt}
    {condition post : Option Expr} {body : Stmt} (hinit : Initializer init)
    (hcondition : Clause condition) (hpost : Clause post) (hbody : Statement body)
    (hfuel : 16 * (Stmt.forLoop init condition post body).marks.length ≤ fuel + 2)
    (hspells : Spells (Mark.fixed .leftParen :: (initializerMarks init ++ (clauseMarks condition ++
      .fixed .semicolon :: (clauseMarks post ++ .fixed .rightParen :: body.marks)))) s.rest rest)
    (hnext : body.awaitsElse = true → headKind rest ≠ .kwElse) :
    Parses (forLoop (fuel + 1)) (.forLoop init condition post body) s rest := by
  rw [forLoop]
  obtain ⟨leftParen, after, hrest, hleftParen, -, hspells⟩ := hspells
  obtain ⟨afterInit, hspellsInit, hspells⟩ := spells_append.mp hspells
  obtain ⟨_, hspellsCondition, semicolon, others, rfl, hsemicolon, -, hspells⟩ :=
    spells_append.mp hspells
  obtain ⟨_, hspellsPost, rightParen, last, rfl, hrightParen, -, hspellsBody⟩ :=
    spells_append.mp hspells
  -- A clause is told to be absent by the token behind it, so each has to be known before the clause
  -- in front of it is read.
  have hafter : headKind (semicolon :: others) = .semicolon := hsemicolon
  have hafterPost : headKind (rightParen :: last) = .rightParen := hrightParen
  simp only [marks_forLoop, List.length_append, List.length_cons] at hfuel
  refine (parses_expect hrest hleftParen).bind fun s₁ hs₁ => ?_
  refine (initializer_complete hinit (by omega) (hs₁ ▸ hspellsInit)).bind fun s₂ hs₂ => ?_
  refine (clause_complete hcondition (by decide) (by omega) (hs₂ ▸ hspellsCondition)
    hafter).bind fun s₃ hs₃ => ?_
  refine (parses_expect hs₃ hsemicolon).bind fun s₄ hs₄ => ?_
  refine (clause_complete hpost (by decide) (by omega) (hs₄ ▸ hspellsPost) hafterPost).bind
    fun s₅ hs₅ => ?_
  refine (parses_expect hs₅ hrightParen).bind fun s₆ hs₆ => ?_
  exact (ih.statement hbody (by omega) (hs₆ ▸ hspellsBody) hnext).bind fun s₇ hs₇ => .pure _ hs₇

/-! ## Statements -/

/-- A statement is read from its text. The keyword was taken before the function for it is called,
and so there is fuel for one call more. -/
theorem statement_complete (ih : ∀ m ≤ fuel, StatementComplete m) {stmt : Stmt}
    (h : Statement stmt) (hfuel : 16 * stmt.marks.length ≤ fuel + 1)
    (hspells : Spells stmt.marks s.rest rest)
    (hnext : stmt.awaitsElse = true → headKind rest ≠ .kwElse) :
    Parses (statement (fuel + 1)) stmt s rest := by
  rw [statement]
  have hlength := (starts_of_statement h).length_pos
  -- the functions of loops and branches take a second unit of fuel
  obtain ⟨less, hless⟩ : ∃ m, fuel = m + 1 := ⟨fuel - 1, by omega⟩
  cases h with
  | @expression e h =>
    -- no expression starts with the keyword of a statement
    have hkinds := ((starts_of_assignment h).append [.fixed .semicolon]).headKind_mem hspells
    have hother : ∀ kind ∈ expressionKinds, kind ∉ leadingKinds := by decide
    refine (parses_accept_none rfl (hother _ hkinds)).bind fun s₁ hs₁ => ?_
    exact expressionStatement_complete h (by omega) (hs₁ ▸ hspells)
  | @print e h =>
    obtain ⟨keyword, _, hrest, hkeyword, -, hspells⟩ := hspells
    have hkind : keyword.kind = .kwPrint := hkeyword
    obtain ⟨_, hvalue, semicolon, rest, rfl, hend, -, rfl⟩ := spells_append.mp hspells
    have hafter : headKind (semicolon :: rest) ∈ closingKinds := by
      rw [show headKind (semicolon :: rest) = .semicolon from hend]
      decide
    simp only [Stmt.marks, List.length_append, List.length_cons] at hfuel
    refine (parses_accept hrest (by rw [hkind]; decide)).bind fun s₁ hs₁ => ?_
    simp only [hkind]
    refine ((expressionComplete fuel).expression h (by omega) (hs₁ ▸ hvalue) hafter).bind
      fun s₂ hs₂ => ?_
    exact (parses_expect hs₂ hend).bind fun s₃ hs₃ => .pure _ hs₃
  | @block body h =>
    obtain ⟨brace, _, hrest, hbrace, -, hspells⟩ := hspells
    have hkind : brace.kind = .leftBrace := hbrace
    simp only [Stmt.marks, List.length_cons] at hfuel
    refine (parses_accept hrest (by rw [hkind]; decide)).bind fun s₁ hs₁ => ?_
    simp only [hkind]
    exact ((ih fuel (Nat.le_refl _)).block h (by omega) (hs₁ ▸ hspells)).map
  | ifThen hcondition hthen =>
    rw [marks_ifElse] at hspells
    obtain ⟨keyword, _, hrest, hkeyword, -, hspells⟩ := hspells
    have hkind : keyword.kind = .kwIf := hkeyword
    refine (parses_accept hrest (by rw [hkind]; decide)).bind fun s₁ hs₁ => ?_
    simp only [hkind, hless]
    refine ifElse_complete (ih less (by omega)) hcondition hthen ?_ (by omega)
      (hs₁ ▸ hspells) hnext
    rintro _ ⟨⟩
  | ifElse hcondition hthen hclosed helse =>
    rw [marks_ifElse] at hspells
    obtain ⟨keyword, _, hrest, hkeyword, -, hspells⟩ := hspells
    have hkind : keyword.kind = .kwIf := hkeyword
    refine (parses_accept hrest (by rw [hkind]; decide)).bind fun s₁ hs₁ => ?_
    simp only [hkind, hless]
    refine ifElse_complete (ih less (by omega)) hcondition hthen ?_ (by omega)
      (hs₁ ▸ hspells) hnext
    rintro _ ⟨⟩
    exact ⟨hclosed, helse⟩
  | whileLoop hcondition hbody =>
    obtain ⟨keyword, _, hrest, hkeyword, -, hspells⟩ := hspells
    have hkind : keyword.kind = .kwWhile := hkeyword
    refine (parses_accept hrest (by rw [hkind]; decide)).bind fun s₁ hs₁ => ?_
    simp only [hkind, hless]
    exact whileLoop_complete (ih less (by omega)) hcondition hbody (by omega) (hs₁ ▸ hspells) hnext
  | forLoop hinit hcondition hpost hbody =>
    rw [marks_forLoop] at hspells
    obtain ⟨keyword, _, hrest, hkeyword, -, hspells⟩ := hspells
    have hkind : keyword.kind = .kwFor := hkeyword
    refine (parses_accept hrest (by rw [hkind]; decide)).bind fun s₁ hs₁ => ?_
    simp only [hkind, hless]
    exact forLoop_complete (ih less (by omega)) hinit hcondition hpost hbody (by omega)
      (hs₁ ▸ hspells) hnext
  | @returnValue keyword value hkeyword hvalue =>
    obtain ⟨_, _, hrest, rfl, -, hspells⟩ := hspells
    obtain ⟨_, hspellsValue, semicolon, rest, rfl, hend, -, rfl⟩ := spells_append.mp hspells
    have hafter : headKind (semicolon :: rest) = .semicolon := hend
    simp only [Stmt.marks, List.length_append, List.length_cons] at hfuel
    refine (parses_accept hrest (by rw [hkeyword]; decide)).bind fun s₁ hs₁ => ?_
    simp only [hkeyword]
    refine (clause_complete hvalue (by decide) (by omega) (hs₁ ▸ hspellsValue) hafter).bind
      fun s₂ hs₂ => ?_
    exact (parses_expect hs₂ hend).bind fun s₃ hs₃ => .pure _ hs₃

/-! ## Declarations -/

/-- A function is read from its text, whatever follows its closing brace. The brace ends the block,
so the body cannot go on into what follows. -/
theorem function_complete (ih : StatementComplete fuel) {role : FunctionRole}
    {decl : FunctionDecl} (h : Function decl) (hfuel : 16 * decl.marks.length ≤ fuel + 1)
    (hspells : Spells decl.marks s.rest rest) :
    Parses (function (fuel + 1) role) decl s rest := by
  rw [function]
  cases h with
  | @mk name params body hname hparams hbody =>
    obtain ⟨keyword, _, hrest, hkeyword, -, _, _, rfl, rfl, -, hspells⟩ := hspells
    obtain ⟨leftParen, _, rfl, hleftParen, -, hspells⟩ := hspells
    obtain ⟨_, hspellsParams, leftBrace, _, rfl, hleftBrace, -, hspellsBody⟩ :=
      spells_append.mp hspells
    simp only [FunctionDecl.marks, List.length_append, List.length_cons] at hfuel
    refine (parses_expect hrest hkeyword).bind fun s₁ hs₁ => ?_
    refine (parses_expect hs₁ hname).bind fun s₂ hs₂ => ?_
    refine (parses_expect hs₂ hleftParen).bind fun s₃ hs₃ => ?_
    refine (parameters_complete hparams (by omega) (hs₃ ▸ hspellsParams)).bind fun s₄ hs₄ => ?_
    refine (parses_expect hs₄ hleftBrace).bind fun s₅ hs₅ => ?_
    refine (ih.block hbody ?_ (hs₅ ▸ hspellsBody)).bind fun s₆ hs₆ => .pure _ hs₆
    simp only [List.length_append, List.length_cons]
    omega

/-- The methods of a class are read from their text where the closing brace follows. -/
theorem methods_complete (ih : StatementComplete fuel) {decls : List FunctionDecl}
    (h : ∀ decl ∈ decls, Function decl)
    (hfuel : 16 * (FunctionDecl.marksOfAll decls).length ≤ fuel)
    (hspells : Spells (FunctionDecl.marksOfAll decls) s.rest rest)
    (hnext : headKind rest = .rightBrace) : Parses (methods (fuel + 1)) decls s rest := by
  rw [methods]
  refine (parses_peek rfl rfl).bind fun s₁ hs₁ => ?_
  cases decls with
  | nil =>
    cases hspells
    simp only [hnext]
    exact .pure _ hs₁
  | cons first others =>
    have hstarts := starts_of_function first
    have hlength := hstarts.length_pos
    -- The method's keyword is neither a brace nor the end, so that the row goes on.
    have hfirst : headKind s.rest = .kwFun := by
      simpa using (hstarts.append (FunctionDecl.marksOfAll others)).headKind_mem hspells
    obtain ⟨middle, hspellsFirst, hspellsOthers⟩ := spells_append.mp hspells
    simp only [FunctionDecl.marksOfAll, List.length_append] at hfuel
    simp only [hfirst]
    refine (ih.function (h first (.head _)) (by omega) (hs₁ ▸ hspellsFirst)).bind
      fun s₂ hs₂ => ?_
    exact (ih.methods (fun decl hdecl => h decl (.tail _ hdecl)) (by omega)
      (hs₂ ▸ hspellsOthers) hnext).bind fun s₃ hs₃ => .pure _ hs₃

/-- The superclass of a class, if one is named. Where none is, the brace comes next and the parser
finds no `<`. -/
theorem superclass_complete {superclass : Option Token}
    (h : ∀ token ∈ superclass, token.kind = .identifier)
    (hspells : Spells (superclassMarks superclass) s.rest rest)
    (hnext : headKind rest = .leftBrace) :
    Parses (do
      match ← accept [.less] with
      | some _ => some <$> expect .identifier .superclassName
      | none => pure none) superclass s rest := by
  cases superclass with
  | none =>
    cases hspells
    refine (parses_accept_none rfl (by rw [hnext]; decide)).bind fun s₁ hs₁ => ?_
    exact .pure _ hs₁
  | some parent =>
    obtain ⟨less, _, hrest, hless, -, _, _, rfl, rfl, -, rfl⟩ := hspells
    refine (parses_accept hrest (List.mem_singleton.mpr hless)).bind fun s₁ hs₁ => ?_
    exact (parses_expect hs₁ (h parent rfl)).map

/-- A class declaration is read from its text, whatever follows its closing brace. The brace that
opens the body shows whether a superclass was named, and the one that closes it ends the methods. -/
theorem classDecl_complete (ih : StatementComplete fuel) {name : Token}
    {superclass : Option Token} {decls : List FunctionDecl} (hname : name.kind = .identifier)
    (hsuperclass : ∀ token ∈ superclass, token.kind = .identifier)
    (hdecls : ∀ decl ∈ decls, Function decl)
    (hfuel : 16 * (Stmt.classDecl name superclass decls).marks.length ≤ fuel + 1)
    (hspells : Spells (Stmt.classDecl name superclass decls).marks s.rest rest) :
    Parses (classDecl (fuel + 1)) (.classDecl name superclass decls) s rest := by
  rw [classDecl]
  obtain ⟨keyword, _, hrest, hkeyword, -, _, _, rfl, rfl, -, hspells⟩ := hspells
  obtain ⟨_, hspellsSuperclass, leftBrace, others, rfl, hleftBrace, -, hspells⟩ :=
    spells_append.mp hspells
  obtain ⟨_, hspellsMethods, rightBrace, rest, rfl, hrightBrace, -, rfl⟩ := spells_append.mp hspells
  have hstart : headKind (leftBrace :: others) = .leftBrace := hleftBrace
  have hend : headKind (rightBrace :: rest) = .rightBrace := hrightBrace
  simp only [Stmt.marks, List.length_append, List.length_cons] at hfuel
  refine (parses_accept hrest (List.mem_singleton.mpr hkeyword)).bind fun s₁ hs₁ => ?_
  refine (parses_expect hs₁ hname).bind fun s₂ hs₂ => ?_
  refine (superclass_complete hsuperclass (hs₂ ▸ hspellsSuperclass) hstart).bind fun s₃ hs₃ => ?_
  refine (parses_expect hs₃ hleftBrace).bind fun s₄ hs₄ => ?_
  refine (ih.methods hdecls (by omega) (hs₄ ▸ hspellsMethods) hend).bind fun s₅ hs₅ => ?_
  exact (parses_expect hs₅ hrightBrace).bind fun s₆ hs₆ => .pure _ hs₆

/-- A declaration is read from its text where no `else` follows. -/
theorem declaration_complete (ih : ∀ m ≤ fuel, StatementComplete m) {stmt : Stmt}
    (h : Declaration stmt) (hfuel : 16 * stmt.marks.length ≤ fuel)
    (hspells : Spells stmt.marks s.rest rest) (hnext : headKind rest ≠ .kwElse) :
    Parses (declaration (fuel + 1)) stmt s rest := by
  rw [declaration]
  refine (parses_peek rfl rfl).bind fun s₁ hs₁ => ?_
  have ihFuel := ih fuel (Nat.le_refl _)
  cases h with
  | statement h =>
    -- a statement starts with none of the keywords of declarations
    have hkinds := (starts_of_statement h).headKind_mem hspells
    have hother : ∀ kind ∈ statementKinds, kind ≠ .kwClass ∧ kind ≠ .kwFun ∧ kind ≠ .kwVar := by
      decide
    obtain ⟨hclass, hfun, hvar⟩ := hother _ hkinds
    split
    · next heq => exact absurd heq hclass
    · next heq => exact absurd heq hfun
    · next heq => exact absurd heq hvar
    · exact ihFuel.statement h hfuel (hs₁ ▸ hspells) fun _ => hnext
  | «variable» h =>
    have hfirst : headKind s.rest = .kwVar := by
      cases h with
      | mk => exact Spells.headKind_eq hspells
    simp only [hfirst]
    exact variableDecl_complete h (by omega) (hs₁ ▸ hspells)
  | @function decl h =>
    have hfirst : headKind s.rest = .kwFun := by
      simpa using (starts_of_function decl).headKind_mem hspells
    simp only [hfirst]
    exact (ihFuel.function h hfuel (hs₁ ▸ hspells)).map
  | classDecl hname hsuperclass hmethods =>
    have hfirst : headKind s.rest = .kwClass := Spells.headKind_eq hspells
    have hlength : 0 < (Stmt.classDecl _ _ _).marks.length :=
      (starts_of_declaration (.classDecl hname hsuperclass hmethods)).length_pos
    obtain ⟨less, rfl⟩ : ∃ m, fuel = m + 1 := ⟨fuel - 1, by omega⟩
    simp only [hfirst]
    exact classDecl_complete (ih less (by omega)) hname hsuperclass hmethods hfuel
      (hs₁ ▸ hspells)

/-! ## Blocks and programs -/

/-- A row of declarations that is followed by no `else` and by no declaration: none of them is
followed by an `else`. -/
theorem no_else_after {others : List Stmt} {tokens : List Token}
    (h : ∀ stmt ∈ others, Declaration stmt) (hspells : Spells (Stmt.marksOfAll others) tokens rest)
    (hnext : headKind rest ≠ .kwElse) : headKind tokens ≠ .kwElse := by
  cases others with
  | nil =>
    cases hspells
    exact hnext
  | cons next others =>
    have hkinds := ((starts_of_declaration (h next (.head _))).append
      (Stmt.marksOfAll others)).headKind_mem hspells
    intro helse
    rw [helse] at hkinds
    exact absurd hkinds (by decide)

/-- A block is read from its text, the closing brace included. -/
theorem block_complete (ih : StatementComplete fuel) {body : List Stmt}
    (h : ∀ stmt ∈ body, Declaration stmt)
    (hfuel : 16 * (Stmt.marksOfAll body ++ [Mark.fixed .rightBrace]).length ≤ fuel + 1)
    (hspells : Spells (Stmt.marksOfAll body ++ [Mark.fixed .rightBrace]) s.rest rest) :
    Parses (block (fuel + 1)) body s rest := by
  rw [block]
  refine (parses_peek rfl rfl).bind fun s₁ hs₁ => ?_
  cases body with
  | nil =>
    obtain ⟨brace, _, hrest, hbrace, -, rfl⟩ := hspells
    have hkind : brace.kind = .rightBrace := hbrace
    simp only [hrest, headKind, hkind]
    refine (parses_accept (hs₁.trans hrest) (List.mem_singleton.mpr hkind)).bind fun s₂ hs₂ => ?_
    exact .pure _ hs₂
  | cons first others =>
    have hstarts := starts_of_declaration (h first (.head _))
    have hlength := hstarts.length_pos
    rw [Stmt.marksOfAll, List.append_assoc] at hspells
    have hkinds := (hstarts.append _).headKind_mem hspells
    have hother : ∀ kind ∈ declarationKinds, kind ≠ .rightBrace ∧ kind ≠ .endOfFile := by decide
    -- The first token of a declaration does not end the block.
    obtain ⟨hbrace, hend⟩ := hother _ hkinds
    obtain ⟨middle, hspellsFirst, hspellsOthers⟩ := spells_append.mp hspells
    simp only [Stmt.marksOfAll, List.length_append, List.length_singleton] at hfuel
    have hothers := fun stmt hstmt => h stmt (.tail first hstmt)
    -- after the last declaration stands the brace
    have hmiddle : headKind middle ≠ .kwElse := by
      obtain ⟨_, hspellsRow, brace, rest, rfl, hbrace, -, rfl⟩ := spells_append.mp hspellsOthers
      refine no_else_after hothers hspellsRow ?_
      rw [show headKind (brace :: rest) = .rightBrace from hbrace]
      decide
    split
    · next heq => exact absurd heq hbrace
    · next heq => exact absurd heq hend
    · refine (ih.declaration (h first (.head _)) (by omega) (hs₁ ▸ hspellsFirst)
        hmiddle).recovering.bind fun s₂ hs₂ => ?_
      refine (ih.block hothers ?_ (hs₂ ▸ hspellsOthers)).bind fun s₃ hs₃ => .pure _ hs₃
      simp only [List.length_append, List.length_singleton]
      omega

/-! ## Any fuel

The induction is a strong one: a statement under its keyword is read with fuel that is less by
two. -/

/-- Without fuel nothing is promised, since every part has at least one token. -/
theorem statementComplete_zero : StatementComplete 0 where
  declaration := fun _ hfuel => absurd hfuel (by omega)
  methods := fun _ hfuel => absurd hfuel (by omega)
  function := fun {_ decl _ _} _ hfuel => by
    have := (starts_of_function decl).length_pos
    omega
  statement := fun h hfuel => by
    have := (starts_of_statement h).length_pos
    omega
  block := fun {_ _ _} _ hfuel => by
    simp only [List.length_append, List.length_singleton] at hfuel
    omega

/-- The statement parser is complete with any fuel. -/
theorem statementComplete (fuel : Nat) : StatementComplete fuel := by
  induction fuel using Nat.strongRecOn with
  | ind fuel ih =>
    cases fuel with
    | zero => exact statementComplete_zero
    | succ fuel =>
      have ih : ∀ m ≤ fuel, StatementComplete m := fun m hm => ih m (Nat.lt_succ_of_le hm)
      have ihFuel := ih fuel (Nat.le_refl _)
      exact
        { declaration := fun h hfuel => declaration_complete ih h (by omega)
          methods := fun h hfuel => methods_complete ihFuel h (by omega)
          function := fun h hfuel => function_complete ihFuel h hfuel
          statement := fun h hfuel => statement_complete ih h hfuel
          block := fun h hfuel => block_complete ihFuel h hfuel }

/-- A program that the grammar derives is read from its text, up to the end of the input. -/
theorem program_complete {fuel : Nat} {s : State} {statements : List Stmt} (h : Program statements)
    (hfuel : 16 * (Stmt.marksOfAll statements).length + 1 < fuel)
    (hspells : Spells (Stmt.marksOfAll statements) s.rest rest)
    (hend : headKind rest = .endOfFile) : Parses (program fuel) statements s rest := by
  induction fuel generalizing s statements with
  | zero => omega
  | succ fuel ih =>
    rw [program]
    refine (parses_peek rfl rfl).bind fun s₁ hs₁ => ?_
    cases statements with
    | nil =>
      cases hspells
      simp only [hend]
      exact .pure _ hs₁
    | cons first others =>
      have hstarts := starts_of_declaration (h first (.head _))
      have hlength := hstarts.length_pos
      have hkinds := (hstarts.append (Stmt.marksOfAll others)).headKind_mem hspells
      have hother : ∀ kind ∈ declarationKinds, kind ≠ .endOfFile := by decide
      obtain ⟨middle, hspellsFirst, hspellsOthers⟩ := spells_append.mp hspells
      simp only [Stmt.marksOfAll, List.length_append] at hfuel
      have hothers : Program others := fun stmt hstmt => h stmt (.tail first hstmt)
      -- The next declaration does not begin with an `else`, and neither does the end of the input.
      have hmiddle : headKind middle ≠ .kwElse :=
        no_else_after hothers hspellsOthers (by rw [hend]; decide)
      split
      · next heq => exact absurd heq (hother _ hkinds)
      · refine ((statementComplete fuel).declaration (h first (.head _)) (by omega)
          (hs₁ ▸ hspellsFirst) hmiddle).recovering.bind fun s₂ hs₂ => ?_
        exact (ih hothers (by omega) (hs₂ ▸ hspellsOthers)).bind fun s₃ hs₃ => .pure _ hs₃

end Parser

end Script
