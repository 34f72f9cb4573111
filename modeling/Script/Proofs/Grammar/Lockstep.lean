import Script.Proofs.Grammar.ExpressionSoundness
import Script.Proofs.Grammar.Recasting
import Script.Syntax.Parser.Statement

/-!
# Two parsers in lockstep

Two runs of the parser on different inputs go the same way as long as they see the same kinds of
tokens: where one of them accepts a token, fails, or skips to the next statement, so does the other
one. `Lockstep` says what is needed of the two inputs, token by token. From it follows that all
parsing functions keep step (`Follows`), and so do programs (`program_follows`): the trees are the
same up to the places of their tokens and the texts of their names, and the errors correspond one to
one. Names are where the parser takes nothing but an identifier, so both runs find them at the same
places in their trees.

The second run may have a larger bound on nested calls. Nothing is said where the first run exhausts
its own.
-/

namespace Script

namespace Parser

/-- How two runs of the parser correspond: what the second one has for the tokens of the first, and
which states and errors of the two belong together. -/
structure Lockstep where
  recast : Recast
  states : State → State → Prop
  errors : SyntaxError → SyntaxError → Prop
  /-- The next tokens are of the same kind. -/
  nextKind : ∀ {s t}, states s t → t.nextKind = s.nextKind
  /-- A token that is consumed by the first run is consumed by the second one. -/
  consume : ∀ {s t token rest}, states s t → s.rest = token :: rest → token.kind ≠ .endOfFile →
    ∃ rest', t.rest = token.recast recast :: rest' ∧
      states { s with rest := rest, last := token.span }
        { t with rest := rest', last := recast.move token.span }
  /-- Where the first run finds an unexpected token, so does the second one. -/
  unexpected : ∀ {s t}, states s t → ∀ expected,
    errors ⟨.unexpected expected s.nextKind, s.nextSpan⟩
      ⟨.unexpected expected t.nextKind, t.nextSpan⟩
  invalidTarget : ∀ span,
    errors ⟨.invalidAssignmentTarget, span⟩ ⟨.invalidAssignmentTarget, recast.move span⟩
  /-- Errors that belong together may be noted. -/
  note : ∀ {s t e e'}, states s t → errors e e' →
    states { s with errors := s.errors ++ [e] } { t with errors := t.errors ++ [e'] }

variable {α β γ δ : Type} {step : Lockstep} {s t : State} {fuel more : Nat}

/-- Wherever `x` ends, `y` ends alike, with the result that `f` gives. -/
def Follows (step : Lockstep) (f : α → β) (x : Parser α) (y : Parser β) : Prop :=
  ∀ s t, step.states s t →
    match x s with
    | .ok a s' => ∃ t', y t = .ok (f a) t' ∧ step.states s' t'
    | .error (.syntaxError e) s' =>
      ∃ e' t', y t = .error (.syntaxError e') t' ∧ step.errors e e' ∧ step.states s' t'
    | .error .outOfFuel _ => True

/-! ## Sequences

A function of the parser is built from its steps by `>>=` and `<$>`. What is shown of each function
below follows its text line by line, with one of these lemmas for each line. -/

/-- Nothing is asked of the second run where the first one has exhausted its bound. -/
theorem follows_exhausted (f : α → β) (y : Parser β) : Follows step f exhausted y :=
  fun _ _ _ => trivial

theorem follows_pure {f : α → β} {a : α} {b : β} (h : b = f a) :
    Follows step f (pure a) (pure b) := by
  subst h
  exact fun s t hstates => ⟨t, rfl, hstates⟩

/-- A failure is passed on by what would come after it. -/
theorem bind_of_error {x : Parser α} {k : α → Parser γ} {stop : Stop} {s' : State}
    (h : x s = .error stop s') : (x >>= k) s = .error stop s' := by
  show EStateM.bind x k s = _
  rw [EStateM.bind, h]

/-- A failure has no result that could be changed. -/
theorem map_of_error {x : Parser α} {u : α → γ} {stop : Stop} {s' : State}
    (h : x s = .error stop s') : (u <$> x) s = .error stop s' := by
  show EStateM.map u x s = _
  rw [EStateM.map, h]

/-- Steps that keep step may follow each other, where the second ones keep step for all results that
correspond. -/
theorem Follows.bind {f : α → β} {g : γ → δ} {x : Parser α} {y : Parser β} {k : α → Parser γ}
    {l : β → Parser δ} (hx : Follows step f x y) (hk : ∀ a, Follows step g (k a) (l (f a))) :
    Follows step g (x >>= k) (y >>= l) := by
  intro s t hstates
  have hstep := hx s t hstates
  cases hrun : x s with
  | ok a s₁ =>
    rw [hrun] at hstep
    obtain ⟨t₁, hrun', hstates₁⟩ := hstep
    rw [bind_of_ok hrun, bind_of_ok hrun']
    exact hk a s₁ t₁ hstates₁
  -- The first run fails here, and what would come after is not run in either of them.
  | error stop s₁ =>
    rw [hrun] at hstep
    rw [bind_of_error hrun]
    cases stop with
    | outOfFuel => trivial
    | syntaxError e =>
      obtain ⟨e', t₁, hrun', hafter⟩ := hstep
      exact ⟨e', t₁, bind_of_error hrun', hafter⟩

/-- Results that correspond may be changed in ways that correspond. -/
theorem Follows.map {f : α → β} {g : γ → δ} {x : Parser α} {y : Parser β} {u : α → γ} {v : β → δ}
    (hx : Follows step f x y) (huv : ∀ a, v (f a) = g (u a)) :
    Follows step g (u <$> x) (v <$> y) := by
  intro s t hstates
  have hstep := hx s t hstates
  cases hrun : x s with
  | ok a s₁ =>
    rw [hrun] at hstep
    obtain ⟨t₁, hrun', hstates₁⟩ := hstep
    rw [map_of_ok hrun, map_of_ok hrun', huv]
    exact ⟨t₁, rfl, hstates₁⟩
  | error stop s₁ =>
    rw [hrun] at hstep
    rw [map_of_error hrun]
    cases stop with
    | outOfFuel => trivial
    | syntaxError e =>
      obtain ⟨e', t₁, hrun', hafter⟩ := hstep
      exact ⟨e', t₁, map_of_error hrun', hafter⟩

theorem follows_ite {p : Prop} [Decidable p] {f : α → β} {x x' : Parser α} {y y' : Parser β}
    (hthen : Follows step f x y) (helse : Follows step f x' y') :
    Follows step f (if p then x else x') (if p then y else y') := by
  split
  · exact hthen
  · exact helse

/-! ## Single tokens

What is taken may be a name or not. Names are recast, other tokens are only moved, and so there are
two lemmas for what is accepted. -/

/-- Both runs see the same kind of token. -/
theorem follows_peek : Follows step id peek peek := by
  intro s t hstates
  refine ⟨t, ?_, hstates⟩
  rw [peek, step.nextKind hstates]
  rfl

/-- `f` tells what the second run has for the tokens of the kinds that are accepted. -/
theorem follows_acceptAs {kinds : List TokenKind} {f : Token → Token} (hend : .endOfFile ∉ kinds)
    (hf : ∀ token : Token, token.kind ∈ kinds → token.recast step.recast = f token) :
    Follows step (Option.map f) (accept kinds) (accept kinds) := by
  intro s t hstates
  -- Either both runs take a token or neither does.
  by_cases hkind : s.nextKind ∈ kinds
  · obtain ⟨token, rest, hrest, hnext⟩ := exists_token_of_next fun heq => hend (heq ▸ hkind)
    have htoken : token.kind ∈ kinds := hnext ▸ hkind
    have hne : token.kind ≠ .endOfFile := fun heq => hend (heq ▸ htoken)
    obtain ⟨rest', hrest', hstates'⟩ := step.consume hstates hrest hne
    have hkind' : (token.recast step.recast).kind ∈ kinds := by rwa [Token.recast_kind]
    have haccept := accept_of_mem hrest' hkind'
    rw [Token.recast_span, hf token htoken] at haccept
    rw [accept_of_mem hrest htoken]
    exact ⟨_, haccept, hstates'⟩
  · rw [accept_of_not_mem hkind]
    exact ⟨t, accept_of_not_mem (step.nextKind hstates ▸ hkind), hstates⟩

/-- The kinds are those of tokens that are no names and not at the end of the input. -/
def Plain (kinds : List TokenKind) : Prop := .endOfFile ∉ kinds ∧ .identifier ∉ kinds

instance (kinds : List TokenKind) : Decidable (Plain kinds) := inferInstanceAs (Decidable (_ ∧ _))

/-- A token that is no name is the same in both runs up to its place. -/
theorem follows_accept {kinds : List TokenKind} (hkinds : Plain kinds) :
    Follows step (Option.map (Token.relocate step.recast.move)) (accept kinds) (accept kinds) :=
  follows_acceptAs hkinds.1 fun token hkind =>
    token.recast_of_ne step.recast fun heq => hkinds.2 (heq ▸ hkind)

/-- Both runs fail at the same token, and the errors are those that the step lets correspond. -/
theorem follows_reject (f : α → β) (expected : Expectation) :
    Follows step f (reject expected) (reject expected) :=
  fun _ t hstates => ⟨_, t, rfl, step.unexpected hstates expected, hstates⟩

/-- A token that has to come next comes next in both runs or in neither. -/
theorem follows_expect {kind : TokenKind} (hkind : Plain [kind]) (expected : Expectation) :
    Follows step (Token.relocate step.recast.move) (expect kind expected)
      (expect kind expected) := by
  refine (follows_accept hkind).bind fun found => ?_
  cases found with
  | none => exact follows_reject _ expected
  | some token => exact follows_pure rfl

/-- Where a name is expected the second run finds the other name. -/
theorem follows_expectName (expected : Expectation) :
    Follows step (Token.rename step.recast) (expect .identifier expected)
      (expect .identifier expected) := by
  have haccept : Follows step (Option.map (Token.rename step.recast)) (accept [.identifier])
      (accept [.identifier]) :=
    follows_acceptAs (by decide) fun token hkind =>
      token.recast_of_identifier step.recast (List.mem_singleton.mp hkind)
  refine haccept.bind fun found => ?_
  cases found with
  | none => exact follows_reject _ expected
  | some token => exact follows_pure rfl

/-- Errors that correspond are noted by both runs. -/
theorem follows_report {error error' : SyntaxError} (h : step.errors error error') :
    Follows step id (report error) (report error') :=
  fun _ _ hstates => ⟨_, rfl, step.note hstates h⟩

/-! ## Expressions

The bound of the second run is at least that of the first one, and each call takes one from both. -/

/-- No operator is a name, so a recast changes none. -/
theorem plain_operatorLevels : ∀ operators ∈ operatorLevels, Plain operators := by decide

/-- The functions for expressions go in lockstep with these bounds. -/
structure ExpressionFollows (step : Lockstep) (fuel more : Nat) : Prop where
  expression : Follows step (Expr.recast step.recast) (expression fuel) (expression more)
  binary : ∀ {levels}, (∀ operators ∈ levels, Plain operators) →
    Follows step (Expr.recast step.recast) (binary fuel levels) (binary more levels)
  binaryRest : ∀ {operators tighter}, (∀ level ∈ operators :: tighter, Plain level) → ∀ left,
    Follows step (Expr.recast step.recast) (binaryRest fuel operators tighter left)
      (binaryRest more operators tighter (left.recast step.recast))
  unary : Follows step (Expr.recast step.recast) (unary fuel) (unary more)
  chain : ∀ callee, Follows step (Expr.recast step.recast) (chain fuel callee)
    (chain more (callee.recast step.recast))
  arguments : Follows step (Expr.recastAll step.recast) (arguments fuel) (arguments more)
  argumentRow : Follows step (Expr.recastAll step.recast) (argumentRow fuel) (argumentRow more)
  primary : Follows step (Expr.recast step.recast) (primary fuel) (primary more)
  superMember : ∀ keyword, Follows step (Expr.recast step.recast) (superMember fuel keyword)
    (superMember more (keyword.relocate step.recast.move))

/-- Expressions and assignments keep step. Whether the left side is a target is seen from its tree,
which is of the same shape in both runs. -/
theorem expression_follows (ih : ExpressionFollows step fuel more) :
    Follows step (Expr.recast step.recast) (expression (fuel + 1)) (expression (more + 1)) := by
  rw [expression, expression]
  refine (ih.binary plain_operatorLevels).bind fun target => ?_
  refine (follows_accept (by decide)).bind fun found => ?_
  cases found with
  | none => exact follows_pure rfl
  | some equals =>
    refine ih.expression.bind fun value => ?_
    -- The kind of target is the same on both sides.
    cases target with
    | «variable» name => exact follows_pure rfl
    | get object name => exact follows_pure rfl
    | _ => exact (follows_report (step.invalidTarget equals.span)).bind fun _ => follows_pure rfl

/-- Operands with operators between them keep step, level by level. -/
theorem binary_follows (ih : ExpressionFollows step fuel more) {levels : List (List TokenKind)}
    (hlevels : ∀ operators ∈ levels, Plain operators) :
    Follows step (Expr.recast step.recast) (binary (fuel + 1) levels)
      (binary (more + 1) levels) := by
  cases levels with
  | nil =>
    rw [binary, binary]
    exact ih.unary
  | cons operators tighter =>
    rw [binary, binary]
    refine (ih.binary fun ops hops => hlevels ops (.tail _ hops)).bind fun first => ?_
    exact ih.binaryRest hlevels first

/-- What follows the first operand keeps step, with the operand of each run before it. -/
theorem binaryRest_follows (ih : ExpressionFollows step fuel more) {operators : List TokenKind}
    {tighter : List (List TokenKind)} (hlevels : ∀ level ∈ operators :: tighter, Plain level)
    (left : Expr) :
    Follows step (Expr.recast step.recast) (binaryRest (fuel + 1) operators tighter left)
      (binaryRest (more + 1) operators tighter (left.recast step.recast)) := by
  rw [binaryRest, binaryRest]
  refine (follows_accept (hlevels operators (.head _))).bind fun found => ?_
  cases found with
  | none => exact follows_pure rfl
  | some operator =>
    refine (ih.binary fun ops hops => hlevels ops (.tail _ hops)).bind fun right => ?_
    exact ih.binaryRest hlevels (.binary left operator right)

theorem unary_follows (ih : ExpressionFollows step fuel more) :
    Follows step (Expr.recast step.recast) (unary (fuel + 1)) (unary (more + 1)) := by
  rw [unary, unary]
  refine (follows_accept (by decide)).bind fun found => ?_
  cases found with
  | none =>
    refine ih.primary.bind fun first => ?_
    exact ih.chain first
  | some operator => exact ih.unary.bind fun operand => follows_pure rfl

/-- Calls and properties keep step, with the callee of each run before them. -/
theorem chain_follows (ih : ExpressionFollows step fuel more) (callee : Expr) :
    Follows step (Expr.recast step.recast) (chain (fuel + 1) callee)
      (chain (more + 1) (callee.recast step.recast)) := by
  rw [chain, chain]
  refine (follows_accept (by decide)).bind fun found => ?_
  cases found with
  | none => exact follows_pure rfl
  | some token =>
    refine follows_ite ?_ ?_
    · refine ih.arguments.bind fun es => ?_
      exact ih.chain (.call callee token es)
    · refine (follows_expectName _).bind fun name => ?_
      exact ih.chain (.get callee name)

theorem arguments_follows (ih : ExpressionFollows step fuel more) :
    Follows step (Expr.recastAll step.recast) (arguments (fuel + 1)) (arguments (more + 1)) := by
  rw [arguments, arguments]
  refine (follows_accept (by decide)).bind fun found => ?_
  cases found with
  | none => exact ih.argumentRow
  | some paren => exact follows_pure rfl

theorem argumentRow_follows (ih : ExpressionFollows step fuel more) :
    Follows step (Expr.recastAll step.recast) (argumentRow (fuel + 1))
      (argumentRow (more + 1)) := by
  rw [argumentRow, argumentRow]
  refine ih.expression.bind fun first => ?_
  refine (follows_accept (by decide)).bind fun found => ?_
  cases found with
  | none => exact (follows_expect (by decide) _).bind fun paren => follows_pure rfl
  | some comma => exact ih.argumentRow.bind fun others => follows_pure rfl

theorem primary_follows (ih : ExpressionFollows step fuel more) :
    Follows step (Expr.recast step.recast) (primary (fuel + 1)) (primary (more + 1)) := by
  rw [primary, primary]
  -- Among the tokens that start an expression there are names and others.
  refine (follows_acceptAs (by decide) fun _ _ => rfl).bind fun found => ?_
  cases found with
  | none => exact follows_reject _ _
  | some token =>
    simp only [Option.map_some, Token.recast_kind]
    by_cases hname : token.kind = .identifier
    · rw [hname, token.recast_of_identifier step.recast hname]
      exact follows_pure rfl
    · rw [token.recast_of_ne step.recast hname]
      split
      · next heq => exact absurd heq hname
      · exact follows_pure rfl
      · exact ih.superMember token
      · refine ih.expression.bind fun inner => ?_
        exact (follows_expect (by decide) _).bind fun paren => follows_pure rfl
      · exact follows_pure rfl

theorem superMember_follows (ih : ExpressionFollows step fuel more) (keyword : Token) :
    Follows step (Expr.recast step.recast) (superMember (fuel + 1) keyword)
      (superMember (more + 1) (keyword.relocate step.recast.move)) := by
  rw [superMember, superMember]
  refine (follows_accept (by decide)).bind fun found => ?_
  cases found with
  | none => exact follows_reject _ _
  | some token =>
    refine follows_ite ?_ ?_
    · exact (follows_expectName _).bind fun method => follows_pure rfl
    · exact ih.arguments.bind fun es => follows_pure rfl

/-- All functions for expressions keep step, if the bound of the second run is no smaller. -/
theorem expressionFollows (step : Lockstep) {fuel more : Nat} (h : fuel ≤ more) :
    ExpressionFollows step fuel more := by
  induction fuel generalizing more with
  | zero => constructor <;> intros <;> exact follows_exhausted _ _
  | succ fuel ih =>
    -- The bound of the second run is not used up before that of the first one.
    obtain ⟨more, rfl⟩ : ∃ m, more = m + 1 := ⟨more - 1, by omega⟩
    have ih := ih (Nat.le_of_succ_le_succ h)
    exact
      { expression := expression_follows ih
        binary := binary_follows ih
        binaryRest := binaryRest_follows ih
        unary := unary_follows ih
        chain := chain_follows ih
        arguments := arguments_follows ih
        argumentRow := argumentRow_follows ih
        primary := primary_follows ih
        superMember := superMember_follows ih }

/-! ## Statements

The functions that call no other function for statements come first. They keep step for any two
bounds in order, while the others are proved together. -/

/-- Variable declarations keep step, and both runs find the name. -/
theorem variableDecl_follows (h : fuel ≤ more) :
    Follows step (Stmt.recast step.recast) (variableDecl fuel) (variableDecl more) := by
  rw [variableDecl, variableDecl]
  refine (follows_accept (by decide)).bind fun keyword => ?_
  refine (follows_expectName _).bind fun name => ?_
  refine Follows.bind (f := recastClause step.recast) ?_ fun init => ?_
  · refine (follows_accept (by decide)).bind fun found => ?_
    cases found with
    | none => exact follows_pure rfl
    | some equal => exact (expressionFollows step h).expression.map fun _ => rfl
  · exact (follows_expect (by decide) _).bind fun semicolon => follows_pure rfl

theorem expressionStatement_follows (h : fuel ≤ more) :
    Follows step (Stmt.recast step.recast) (expressionStatement fuel)
      (expressionStatement more) := by
  rw [expressionStatement, expressionStatement]
  refine (expressionFollows step h).expression.bind fun expr => ?_
  exact (follows_expect (by decide) _).bind fun semicolon => follows_pure rfl

/-- Both runs find the clause absent, or neither does. -/
theorem clause_follows (h : fuel ≤ more) (stop : TokenKind) :
    Follows step (recastClause step.recast) (clause fuel stop) (clause more stop) := by
  rw [clause, clause]
  refine follows_peek.bind fun kind => follows_ite (follows_pure rfl) ?_
  exact (expressionFollows step h).expression.map fun _ => rfl

/-- A row of parameters keeps step; each of them is a name. -/
theorem parameterRow_follows (h : fuel ≤ more) :
    Follows step (List.map (Token.rename step.recast)) (parameterRow fuel)
      (parameterRow more) := by
  induction fuel generalizing more with
  | zero => exact follows_exhausted _ _
  | succ fuel ih =>
    obtain ⟨more, rfl⟩ : ∃ m, more = m + 1 := ⟨more - 1, by omega⟩
    rw [parameterRow, parameterRow]
    refine (follows_expectName _).bind fun first => ?_
    refine (follows_accept (by decide)).bind fun found => ?_
    cases found with
    | none => exact (follows_expect (by decide) _).bind fun paren => follows_pure rfl
    | some comma =>
      exact (ih (Nat.le_of_succ_le_succ h)).bind fun others => follows_pure rfl

theorem parameters_follows (h : fuel ≤ more) :
    Follows step (List.map (Token.rename step.recast)) (parameters fuel) (parameters more) := by
  rw [parameters, parameters]
  refine (follows_accept (by decide)).bind fun found => ?_
  cases found with
  | none => exact parameterRow_follows h
  | some paren => exact follows_pure rfl

/-- The functions for statements go in lockstep with these bounds. -/
structure StatementFollows (step : Lockstep) (fuel more : Nat) : Prop where
  declaration : Follows step (Stmt.recast step.recast) (declaration fuel) (declaration more)
  classDecl : Follows step (Stmt.recast step.recast) (classDecl fuel) (classDecl more)
  methods : Follows step (FunctionDecl.recastAll step.recast) (methods fuel) (methods more)
  function : ∀ role, Follows step (FunctionDecl.recast step.recast) (function fuel role)
    (function more role)
  statement : Follows step (Stmt.recast step.recast) (statement fuel) (statement more)
  ifElse : Follows step (Stmt.recast step.recast) (ifElse fuel) (ifElse more)
  whileLoop : Follows step (Stmt.recast step.recast) (whileLoop fuel) (whileLoop more)
  forLoop : Follows step (Stmt.recast step.recast) (forLoop fuel) (forLoop more)
  block : Follows step (Stmt.recastAll step.recast) (block fuel) (block more)

/-- Class declarations keep step; the class and its superclass are named. -/
theorem classDecl_follows (ih : StatementFollows step fuel more) :
    Follows step (Stmt.recast step.recast) (classDecl (fuel + 1)) (classDecl (more + 1)) := by
  rw [classDecl, classDecl]
  refine (follows_accept (by decide)).bind fun keyword => ?_
  refine (follows_expectName _).bind fun name => ?_
  refine Follows.bind (f := Option.map (Token.rename step.recast)) ?_ fun superclass => ?_
  · refine (follows_accept (by decide)).bind fun found => ?_
    cases found with
    | none => exact follows_pure rfl
    | some less => exact (follows_expectName _).map fun _ => rfl
  · refine (follows_expect (by decide) _).bind fun leftBrace => ?_
    refine ih.methods.bind fun methods => ?_
    exact (follows_expect (by decide) _).bind fun rightBrace => follows_pure rfl

/-- The methods of a class keep step. Both rows end at the brace, or at the end of the input. -/
theorem methods_follows (ih : StatementFollows step fuel more) :
    Follows step (FunctionDecl.recastAll step.recast) (methods (fuel + 1))
      (methods (more + 1)) := by
  rw [methods, methods]
  refine follows_peek.bind fun kind => ?_
  dsimp only [id]
  split
  · exact follows_pure rfl
  · exact follows_pure rfl
  · refine (ih.function .method).bind fun first => ?_
    exact ih.methods.bind fun others => follows_pure rfl

theorem function_follows (ih : StatementFollows step fuel more) (h : fuel ≤ more)
    (role : FunctionRole) :
    Follows step (FunctionDecl.recast step.recast) (function (fuel + 1) role)
      (function (more + 1) role) := by
  rw [function, function]
  refine (follows_expect (by decide) _).bind fun keyword => ?_
  refine (follows_expectName _).bind fun name => ?_
  refine (follows_expect (by decide) _).bind fun leftParen => ?_
  refine (parameters_follows h).bind fun params => ?_
  refine (follows_expect (by decide) _).bind fun leftBrace => ?_
  exact ih.block.bind fun body => follows_pure rfl

/-- Statements keep step. The keyword that tells them apart is no name, so it is the same in both
runs. -/
theorem statement_follows (ih : StatementFollows step fuel more) (h : fuel ≤ more) :
    Follows step (Stmt.recast step.recast) (statement (fuel + 1)) (statement (more + 1)) := by
  rw [statement, statement]
  refine (follows_accept (by decide)).bind fun found => ?_
  cases found with
  | none => exact expressionStatement_follows h
  | some token =>
    simp only [Option.map_some, Token.relocate_kind]
    split
    · refine (expressionFollows step h).expression.bind fun expr => ?_
      exact (follows_expect (by decide) _).bind fun semicolon => follows_pure rfl
    · exact ih.block.map fun _ => rfl
    · exact ih.ifElse
    · exact ih.whileLoop
    · exact ih.forLoop
    · refine (clause_follows h _).bind fun value => ?_
      exact (follows_expect (by decide) _).bind fun semicolon => follows_pure rfl

/-- Both runs find an `else`, or neither does. -/
theorem ifElse_follows (ih : StatementFollows step fuel more) (h : fuel ≤ more) :
    Follows step (Stmt.recast step.recast) (ifElse (fuel + 1)) (ifElse (more + 1)) := by
  rw [ifElse, ifElse]
  refine (follows_expect (by decide) _).bind fun leftParen => ?_
  refine (expressionFollows step h).expression.bind fun condition => ?_
  refine (follows_expect (by decide) _).bind fun rightParen => ?_
  refine ih.statement.bind fun thenBranch => ?_
  refine (follows_accept (by decide)).bind fun found => ?_
  cases found with
  | none => exact follows_pure rfl
  | some keyword => exact ih.statement.bind fun elseBranch => follows_pure rfl

theorem whileLoop_follows (ih : StatementFollows step fuel more) (h : fuel ≤ more) :
    Follows step (Stmt.recast step.recast) (whileLoop (fuel + 1)) (whileLoop (more + 1)) := by
  rw [whileLoop, whileLoop]
  refine (follows_expect (by decide) _).bind fun leftParen => ?_
  refine (expressionFollows step h).expression.bind fun condition => ?_
  refine (follows_expect (by decide) _).bind fun rightParen => ?_
  exact ih.statement.bind fun body => follows_pure rfl

/-- What stands before the condition of a `for` keeps step. The kind that comes next is the same in
both runs, so both take the same of the three ways. -/
theorem initializer_follows (h : fuel ≤ more) :
    Follows step (Option.map (Stmt.recast step.recast))
      (do
        match ← peek with
        | .semicolon => do
          let _ ← accept [.semicolon]
          pure none
        | .kwVar => some <$> variableDecl fuel
        | _ => some <$> expressionStatement fuel)
      (do
        match ← peek with
        | .semicolon => do
          let _ ← accept [.semicolon]
          pure none
        | .kwVar => some <$> variableDecl more
        | _ => some <$> expressionStatement more) := by
  refine follows_peek.bind fun kind => ?_
  dsimp only [id]
  split
  · exact (follows_accept (by decide)).bind fun semicolon => follows_pure rfl
  · exact (variableDecl_follows h).map fun _ => rfl
  · exact (expressionStatement_follows h).map fun _ => rfl

theorem forLoop_follows (ih : StatementFollows step fuel more) (h : fuel ≤ more) :
    Follows step (Stmt.recast step.recast) (forLoop (fuel + 1)) (forLoop (more + 1)) := by
  rw [forLoop, forLoop]
  refine (follows_expect (by decide) _).bind fun leftParen => ?_
  refine (initializer_follows h).bind fun init => ?_
  refine (clause_follows h _).bind fun condition => ?_
  refine (follows_expect (by decide) _).bind fun semicolon => ?_
  refine (clause_follows h _).bind fun post => ?_
  refine (follows_expect (by decide) _).bind fun rightParen => ?_
  refine ih.statement.bind fun body => follows_pure ?_
  cases init <;> rfl

theorem declaration_follows (ih : StatementFollows step fuel more) (h : fuel ≤ more) :
    Follows step (Stmt.recast step.recast) (declaration (fuel + 1))
      (declaration (more + 1)) := by
  rw [declaration, declaration]
  refine follows_peek.bind fun kind => ?_
  dsimp only [id]
  split
  · exact ih.classDecl
  · exact (ih.function .function).map fun _ => rfl
  · exact variableDecl_follows h
  · exact ih.statement

/-! ## Recovery

After an error both runs skip tokens. Where they stop depends on the kinds of the tokens alone. -/

/-- The state after skipping to a place where a statement may begin. -/
def State.skipped (s : State) : State :=
  { s with rest := (skipStatement s.last s.rest).2, last := (skipStatement s.last s.rest).1 }

/-- Nothing is skipped before the end or before a keyword that starts a statement. -/
theorem skipped_of_stop (h : s.nextKind = .endOfFile ∨ startsStatement s.nextKind = true) :
    s.skipped = s := by
  obtain ⟨rest, last, errors⟩ := s
  cases rest with
  | nil => rfl
  | cons token rest =>
    have hstop : (token.kind = .endOfFile || startsStatement token.kind) = true := by
      simpa [State.nextKind] using h
    simp [State.skipped, skipStatement, hstop]

/-- A semicolon is the last token skipped: the next statement may begin behind it with any token. -/
theorem skipped_of_semicolon {token : Token} {rest : List Token} (hrest : s.rest = token :: rest)
    (hkind : token.kind = .semicolon) :
    s.skipped = { s with rest := rest, last := token.span } := by
  simp [State.skipped, skipStatement, hrest, hkind, startsStatement]

/-- Any other token is skipped and more may be. -/
theorem skipped_of_other {token : Token} {rest : List Token} (hrest : s.rest = token :: rest)
    (hstop : ¬ (s.nextKind = .endOfFile ∨ startsStatement s.nextKind = true))
    (hkind : token.kind ≠ .semicolon) :
    s.skipped = State.skipped { s with rest := rest, last := token.span } := by
  have hgoOn : (token.kind = .endOfFile || startsStatement token.kind) = false := by
    rw [State.nextKind, hrest] at hstop
    simpa using hstop
  simp [State.skipped, skipStatement, hrest, hgoOn, hkind]

/-- Skipping stops in both runs at once. It looks at kinds only, and these agree; the induction is
on what is left of the first run. -/
theorem skipped_follows (hstates : step.states s t) : step.states s.skipped t.skipped := by
  induction hrest : s.rest generalizing s t with
  | nil =>
    have hstop : s.nextKind = .endOfFile := by rw [State.nextKind, hrest]
    rw [skipped_of_stop (.inl hstop), skipped_of_stop (.inl (step.nextKind hstates ▸ hstop))]
    exact hstates
  | cons token rest ih =>
    by_cases hstop : s.nextKind = .endOfFile ∨ startsStatement s.nextKind = true
    · rw [skipped_of_stop hstop, skipped_of_stop (step.nextKind hstates ▸ hstop)]
      exact hstates
    have hkind : s.nextKind = token.kind := by rw [State.nextKind, hrest]
    have hne : token.kind ≠ .endOfFile := fun heq => hstop (.inl (hkind.trans heq))
    -- The token is skipped in both runs, and both go on or stop according to its kind.
    obtain ⟨rest', hrest', hstates'⟩ := step.consume hstates hrest hne
    have hkind' := token.recast_kind step.recast
    rw [← Token.recast_span] at hstates'
    by_cases hsemicolon : token.kind = .semicolon
    · rw [skipped_of_semicolon hrest hsemicolon,
        skipped_of_semicolon hrest' (hkind'.trans hsemicolon)]
      exact hstates'
    · rw [skipped_of_other hrest hstop hsemicolon,
        skipped_of_other hrest' (step.nextKind hstates ▸ hstop) (hkind' ▸ hsemicolon)]
      exact ih hstates' rfl

/-- Both runs skip to places that correspond. -/
theorem follows_synchronize : Follows step id synchronize synchronize :=
  fun _ _ hstates => ⟨_, rfl, skipped_follows hstates⟩

/-- Where one run notes an error and skips, so does the other one. -/
theorem Follows.recovering {f : α → β} {x : Parser α} {y : Parser β} (hx : Follows step f x y) :
    Follows step (Option.map f) (recovering x) (recovering y) := by
  intro s t hstates
  have hstep := hx s t hstates
  unfold Parser.recovering
  cases hrun : x s with
  | ok a s₁ =>
    rw [hrun] at hstep
    obtain ⟨t₁, hrun', hstates₁⟩ := hstep
    exact ⟨t₁, by rw [hrun']; rfl, hstates₁⟩
  | error stop s₁ =>
    rw [hrun] at hstep
    cases stop with
    | outOfFuel => trivial
    | syntaxError e =>
      obtain ⟨e', t₁, hrun', herrors, hstates₁⟩ := hstep
      -- What happens after an error is itself a sequence of steps that keep step.
      have hskip : Follows step (Option.map f) (do report e; synchronize; pure none)
          (do report e'; synchronize; pure none) :=
        (follows_report herrors).bind fun _ => follows_synchronize.bind fun _ => follows_pure rfl
      rw [hrun']
      exact hskip s₁ t₁ hstates₁

/-- The trees of a row of declarations, the first of which may have been skipped. -/
theorem recastAll_append (r : Recast) (first : Option Stmt) (others : List Stmt) :
    (first.map (Stmt.recast r)).toList ++ Stmt.recastAll r others =
      Stmt.recastAll r (first.toList ++ others) := by
  cases first <;> rfl

theorem block_follows (ih : StatementFollows step fuel more) :
    Follows step (Stmt.recastAll step.recast) (block (fuel + 1)) (block (more + 1)) := by
  rw [block, block]
  refine follows_peek.bind fun kind => ?_
  dsimp only [id]
  split
  · exact (follows_accept (by decide)).bind fun brace => follows_pure rfl
  · exact follows_reject _ _
  · refine ih.declaration.recovering.bind fun first => ?_
    exact ih.block.bind fun others => follows_pure (recastAll_append ..)

/-- All functions for statements keep step, if the bound of the second run is no smaller. -/
theorem statementFollows (step : Lockstep) {fuel more : Nat} (h : fuel ≤ more) :
    StatementFollows step fuel more := by
  induction fuel generalizing more with
  | zero => constructor <;> intros <;> exact follows_exhausted _ _
  | succ fuel ih =>
    obtain ⟨more, rfl⟩ : ∃ m, more = m + 1 := ⟨more - 1, by omega⟩
    have h := Nat.le_of_succ_le_succ h
    have ih := ih h
    exact
      { declaration := declaration_follows ih h
        classDecl := classDecl_follows ih
        methods := methods_follows ih
        function := function_follows ih h
        statement := statement_follows ih h
        ifElse := ifElse_follows ih h
        whileLoop := whileLoop_follows ih h
        forLoop := forLoop_follows ih h
        block := block_follows ih }

/-- Programs are parsed in lockstep too: whether the end has come, whether a declaration has failed,
and where the next one begins is the same in both runs. -/
theorem program_follows (h : fuel ≤ more) :
    Follows step (Stmt.recastAll step.recast) (program fuel) (program more) := by
  induction fuel generalizing more with
  | zero => exact follows_exhausted _ _
  | succ fuel ih =>
    obtain ⟨more, rfl⟩ : ∃ m, more = m + 1 := ⟨more - 1, by omega⟩
    have h := Nat.le_of_succ_le_succ h
    rw [program, program]
    refine follows_peek.bind fun kind => ?_
    dsimp only [id]
    split
    · exact follows_pure rfl
    · refine (statementFollows step h).declaration.recovering.bind fun first => ?_
      exact (ih h).bind fun others => follows_pure (recastAll_append ..)

end Parser

end Script
