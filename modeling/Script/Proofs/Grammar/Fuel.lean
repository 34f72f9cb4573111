import Script.Proofs.Grammar.Reading
import Script.Syntax.Parser.Statement

/-!
# The bound on nested calls suffices

Whatever the tokens are, the parser ends with a program or with syntax errors before its bound is
used up (`program_ends`). So the outcome `outOfFuel` is never seen, and every rejection is a verdict
about the tokens.

Sixteen calls for each token that is left are enough, and a few more for the levels that a function
passes through before it reaches a token. `Ends x s n m` says that `x` ends, having gone on by `n`
tokens if it succeeds and by `m` if it fails. The second count matters for recovery only: a
declaration that fails at its first token leaves a token that skipping does not stop at.
-/

namespace Script

namespace Parser

variable {α β : Type} {fuel n m k l : Nat} {s s₁ s' : State}

/-! ## Going on

The two counts of `Ends` are lower bounds on the tokens consumed. What is left of them after a step
is what the rest of the function still has to consume. -/

/-- From `s` to `s'` at least `n` tokens have been consumed. -/
structure Later (n : Nat) (s s' : State) : Prop where
  rest : s'.rest <:+ s.rest
  length : s'.rest.length + n ≤ s.rest.length

/-- A state is reached from itself without a token. -/
theorem Later.refl (s : State) : Later 0 s s := ⟨List.suffix_rfl, Nat.le_refl _⟩

/-- What is left to consume after `k` tokens, and those tokens. -/
theorem Later.trans (h₁ : Later k s s₁) (h₂ : Later (n - k) s₁ s') : Later n s s' where
  rest := h₂.rest.trans h₁.rest
  length := by
    have := h₁.length
    have := h₂.length
    omega

/-- Where at least so many tokens have been consumed, at least fewer have been as well. -/
theorem Later.mono (h : Later n s s') (hle : m ≤ n) : Later m s s' where
  rest := h.rest
  length := by
    have := h.length
    omega

/-- One token has been consumed where the rest begins behind it. -/
theorem later_token {token : Token} (hrest : s.rest = token :: s'.rest) : Later 1 s s' where
  rest := by
    rw [hrest]
    exact List.suffix_cons _ _
  length := by
    rw [hrest]
    exact Nat.le_refl _

/-- The run ends by itself, and has gone on by `n` tokens if it succeeds and by `m` if it fails. -/
def Ends (x : Parser α) (s : State) (n m : Nat) : Prop :=
  match x s with
  | .ok _ s' => Later n s s'
  | .error (.syntaxError _) s' => Later m s s'
  | .error .outOfFuel _ => False

theorem Ends.mono {x : Parser α} (h : Ends x s n m) (hn : k ≤ n) (hm : l ≤ m) : Ends x s k l := by
  unfold Ends at h ⊢
  split at h
  · exact h.mono hn
  · exact h.mono hm
  · exact h

/-- A result that is at hand ends the run. -/
theorem ends_pure (a : α) (s : State) (m : Nat) : Ends (pure a) s 0 m := Later.refl s

/-- After a step that went on by `k` tokens the others are left to what follows it. -/
theorem Ends.after {x : Parser α} {f : α → Parser β} {a : α} (hrun : x s = .ok a s₁)
    (hlater : Later k s s₁) (h : Ends (f a) s₁ (n - k) (m - k)) : Ends (x >>= f) s n m := by
  unfold Ends at h ⊢
  rw [bind_of_ok hrun]
  split at h
  · exact hlater.trans h
  · exact hlater.trans h
  · exact h

/-- After a step that ends, what follows it ends too, given that it has the bound for the tokens
that are left. Once a step may have failed nothing is known of where a failure is. -/
theorem Ends.bind {x : Parser α} {f : α → Parser β} (hx : Ends x s k m)
    (hf : ∀ a s₁, s₁.rest.length + k ≤ s.rest.length → Ends (f a) s₁ (n - k) 0) :
    Ends (x >>= f) s n 0 := by
  unfold Ends at hx
  cases hrun : x s with
  | ok a s₁ =>
    rw [hrun] at hx
    exact .after hrun hx ((hf a s₁ hx.length).mono (Nat.le_refl _) (Nat.le_of_eq (Nat.zero_sub k)))
  | error stop s₁ =>
    rw [hrun] at hx
    unfold Ends
    show match EStateM.bind x f s with
      | .ok _ s' => Later n s s'
      | .error (.syntaxError _) s' => Later 0 s s'
      | .error .outOfFuel _ => False
    rw [EStateM.bind, hrun]
    -- The step has failed, at its own place.
    cases stop with
    | syntaxError e => exact Later.mono hx (Nat.zero_le _)
    | outOfFuel => exact hx

/-- What becomes of the result is of no account. -/
theorem Ends.map {x : Parser α} (f : α → β) (h : Ends x s n m) : Ends (f <$> x) s n m := by
  unfold Ends at h ⊢
  show match EStateM.map f x s with
    | .ok _ s' => Later n s s'
    | .error (.syntaxError _) s' => Later m s s'
    | .error .outOfFuel _ => False
  rw [EStateM.map]
  cases hrun : x s with
  | ok a s₁ => rwa [hrun] at h
  | error stop s₁ =>
    rw [hrun] at h
    cases stop <;> exact h

/-! ## Single tokens

Tokens are consumed here only, and it is here that the number of those left goes down. The end of
the input is not consumed, whence the exception for it. -/

theorem ends_reject (expected : Expectation) (s : State) (n : Nat) :
    Ends (reject expected : Parser α) s n 0 := Later.refl s

theorem ends_report (error : SyntaxError) (s : State) (m : Nat) : Ends (report error) s 0 m :=
  ⟨List.suffix_rfl, Nat.le_refl _⟩

/-- Looking at the next token consumes none, and what follows knows its kind. -/
theorem ends_peek {f : TokenKind → Parser β} (h : Ends (f s.nextKind) s n m) :
    Ends (peek >>= f) s n m :=
  Ends.after (k := 0) rfl (Later.refl s) h

/-- A token is consumed, or the next one is of another kind. -/
theorem ends_accept {kinds : List TokenKind} {f : Option Token → Parser β}
    (hsome : ∀ token s₁, token.kind ∈ kinds → token.kind = s.nextKind →
      s₁.rest.length + 1 ≤ s.rest.length → Ends (f (some token)) s₁ (n - 1) (m - 1))
    (hnone : (∀ kind ∈ kinds, kind = s.nextKind → kind = .endOfFile) → Ends (f none) s n m) :
    Ends (accept kinds >>= f) s n m := by
  cases hrest : s.rest with
  | nil =>
    refine .after (k := 0) (show accept kinds s = .ok none s by simp [accept, hrest])
      (Later.refl s) (hnone fun kind _ heq => ?_)
    rw [heq, State.nextKind, hrest]
  | cons token rest =>
    have hnext : s.nextKind = token.kind := by rw [State.nextKind, hrest]
    -- There is a next token. It is taken if it is of one of the kinds, and left otherwise.
    by_cases hkind : token.kind ∈ kinds
    · have hrun := accept_of_mem hrest hkind
      have hlater := @later_token s { s with last := token.span, rest := rest } token hrest
      exact .after hrun hlater (hsome token _ hkind hnext.symm hlater.length)
    · refine .after (k := 0) (accept_of_not_mem (hnext ▸ hkind)) (Later.refl s)
        (hnone fun kind hmem heq => ?_)
      rw [hnext] at heq
      exact absurd (heq ▸ hmem) hkind

/-- A token that is expected is consumed, or the run fails here. -/
theorem ends_expect (kind : TokenKind) (expected : Expectation) (s : State) :
    Ends (expect kind expected) s 1 0 :=
  ends_accept (fun token s₁ _ _ _ => ends_pure token s₁ _) fun _ => ends_reject expected s 1

/-- A token that is known to come next is consumed. -/
theorem ends_expect_next {kind : TokenKind} {expected : Expectation} {f : Token → Parser β}
    (hnext : s.nextKind = kind) (hend : kind ≠ .endOfFile)
    (hf : ∀ token s₁, s₁.rest.length + 1 ≤ s.rest.length → Ends (f token) s₁ (n - 1) (m - 1)) :
    Ends (expect kind expected >>= f) s n m := by
  obtain ⟨token, rest, hrest, htoken⟩ := exists_token_of_next (hnext ▸ hend)
  have hkind : token.kind = kind := htoken.trans hnext
  have hlater := @later_token s { s with last := token.span, rest := rest } token hrest
  exact .after (expect_of_kind hrest hkind) hlater (hf token _ hlater.length)

/-! ## Expressions

A function that begins with a token has at least one behind it when it ends, so that what it calls
next has sixteen calls less to make. A loop needs one call for each of its turns. -/

/-- With this bound the functions for expressions end. -/
structure ExpressionEnds (fuel : Nat) : Prop where
  expression : ∀ {s}, 16 * s.rest.length + 10 ≤ fuel → Ends (expression fuel) s 1 0
  binary : ∀ {s levels}, levels.length ≤ 6 → 16 * s.rest.length + levels.length + 3 ≤ fuel →
    Ends (binary fuel levels) s 1 0
  binaryRest : ∀ {s operators tighter left}, tighter.length ≤ 6 →
    16 * s.rest.length + 1 ≤ fuel → Ends (binaryRest fuel operators tighter left) s 0 0
  unary : ∀ {s}, 16 * s.rest.length + 2 ≤ fuel → Ends (unary fuel) s 1 0
  chain : ∀ {s callee}, 16 * s.rest.length + 1 ≤ fuel → Ends (chain fuel callee) s 0 0
  arguments : ∀ {s}, 16 * s.rest.length + 12 ≤ fuel → Ends (arguments fuel) s 0 0
  argumentRow : ∀ {s}, 16 * s.rest.length + 11 ≤ fuel → Ends (argumentRow fuel) s 0 0
  primary : ∀ {s}, 16 * s.rest.length + 1 ≤ fuel → Ends (primary fuel) s 1 0
  superMember : ∀ {s keyword}, 16 * s.rest.length + 1 ≤ fuel →
    Ends (superMember fuel keyword) s 0 0

/-- An expression ends: after its first operand a token is gone, which pays for the value. -/
theorem expression_ends (ih : ExpressionEnds fuel) (hfuel : 16 * s.rest.length + 10 ≤ fuel + 1) :
    Ends (expression (fuel + 1)) s 1 0 := by
  rw [expression]
  have hlevels : operatorLevels.length = 6 := rfl
  refine (ih.binary (by omega) (by omega)).bind fun target s₁ h₁ => ?_
  refine ends_accept (fun equals s₂ _ _ h₂ => ?_) fun _ => ends_pure ..
  refine (ih.expression (by omega)).bind fun value s₃ _ => ?_
  split
  · exact ends_pure ..
  · exact ends_pure ..
  · exact (ends_report _ s₃ 0).bind fun _ s₄ _ => ends_pure ..

/-- A level ends: it calls the next one with one level less. -/
theorem binary_ends (ih : ExpressionEnds fuel) {levels : List (List TokenKind)}
    (hlevels : levels.length ≤ 6) (hfuel : 16 * s.rest.length + levels.length + 3 ≤ fuel + 1) :
    Ends (binary (fuel + 1) levels) s 1 0 := by
  cases levels with
  | nil =>
    rw [binary]
    exact ih.unary (by simpa using hfuel)
  | cons operators tighter =>
    rw [List.length_cons] at hlevels hfuel
    rw [binary]
    refine (ih.binary (by omega) (by omega)).bind fun first s₁ h₁ => ?_
    exact ih.binaryRest (by omega) (by omega)

/-- The loop over the operators ends: each turn consumes an operator. -/
theorem binaryRest_ends (ih : ExpressionEnds fuel) {operators : List TokenKind}
    {tighter : List (List TokenKind)} {left : Expr} (hlevels : tighter.length ≤ 6)
    (hfuel : 16 * s.rest.length + 1 ≤ fuel + 1) :
    Ends (binaryRest (fuel + 1) operators tighter left) s 0 0 := by
  rw [binaryRest]
  refine ends_accept (fun operator s₁ _ _ h₁ => ?_) fun _ => ends_pure ..
  refine (ih.binary hlevels (by omega)).bind fun right s₂ h₂ => ?_
  -- The operator is gone, and the bound has room for another turn.
  exact ih.binaryRest hlevels (by omega)

/-- An operator is consumed before its operand, and a primary expression before what follows it. -/
theorem unary_ends (ih : ExpressionEnds fuel) (hfuel : 16 * s.rest.length + 2 ≤ fuel + 1) :
    Ends (unary (fuel + 1)) s 1 0 := by
  rw [unary]
  refine ends_accept (fun operator s₁ _ _ h₁ => ?_) fun _ => ?_
  · exact (ih.unary (by omega)).bind fun operand s₂ _ => ends_pure ..
  · refine (ih.primary (by omega)).bind fun first s₁ h₁ => ?_
    exact ih.chain (by omega)

/-- The loop over calls and properties ends: each turn consumes a parenthesis or a dot. -/
theorem chain_ends (ih : ExpressionEnds fuel) {callee : Expr}
    (hfuel : 16 * s.rest.length + 1 ≤ fuel + 1) : Ends (chain (fuel + 1) callee) s 0 0 := by
  rw [chain]
  refine ends_accept (fun token s₁ _ _ h₁ => ?_) fun _ => ends_pure ..
  dsimp only
  split
  · refine (ih.arguments (by omega)).bind fun es s₂ h₂ => ?_
    exact ih.chain (by omega)
  · refine (ends_expect _ _ s₁).bind fun name s₂ h₂ => ?_
    exact ih.chain (by omega)

theorem arguments_ends (ih : ExpressionEnds fuel) (hfuel : 16 * s.rest.length + 12 ≤ fuel + 1) :
    Ends (arguments (fuel + 1)) s 0 0 := by
  rw [arguments]
  refine ends_accept (fun paren s₁ _ _ h₁ => ends_pure ..) fun _ => ?_
  exact ih.argumentRow (by omega)

/-- A row of arguments ends: each argument consumes a token. -/
theorem argumentRow_ends (ih : ExpressionEnds fuel) (hfuel : 16 * s.rest.length + 11 ≤ fuel + 1) :
    Ends (argumentRow (fuel + 1)) s 0 0 := by
  rw [argumentRow]
  refine (ih.expression (by omega)).bind fun first s₁ h₁ => ?_
  refine ends_accept (fun comma s₂ _ _ h₂ => ?_) fun _ => ?_
  · exact (ih.argumentRow (by omega)).bind fun others s₃ _ => ends_pure ..
  · exact (ends_expect _ _ s₁).bind fun paren s₂ _ => ends_pure ..

/-- A primary expression ends with its token consumed. -/
theorem primary_ends (ih : ExpressionEnds fuel) (hfuel : 16 * s.rest.length + 1 ≤ fuel + 1) :
    Ends (primary (fuel + 1)) s 1 0 := by
  rw [primary]
  refine ends_accept (fun token s₁ _ _ h₁ => ?_) fun _ => ends_reject ..
  dsimp only
  split
  · exact ends_pure ..
  · exact ends_pure ..
  · exact ih.superMember (by omega)
  · refine (ih.expression (by omega)).bind fun inner s₂ h₂ => ?_
    exact (ends_expect _ _ s₂).bind fun paren s₃ _ => ends_pure ..
  · exact ends_pure ..

theorem superMember_ends (ih : ExpressionEnds fuel) {keyword : Token}
    (hfuel : 16 * s.rest.length + 1 ≤ fuel + 1) : Ends (superMember (fuel + 1) keyword) s 0 0 := by
  rw [superMember]
  refine ends_accept (fun token s₁ _ _ h₁ => ?_) fun _ => ends_reject ..
  dsimp only
  split
  · exact (ends_expect _ _ s₁).bind fun method s₂ _ => ends_pure ..
  · exact (ih.arguments (by omega)).bind fun es s₂ _ => ends_pure ..

/-- The functions for expressions end with any bound that is large enough for the tokens left. -/
theorem expressionEnds (fuel : Nat) : ExpressionEnds fuel := by
  induction fuel with
  | zero => constructor <;> intros <;> omega
  | succ fuel ih =>
    exact
      { expression := expression_ends ih
        binary := binary_ends ih
        binaryRest := binaryRest_ends ih
        unary := unary_ends ih
        chain := chain_ends ih
        arguments := arguments_ends ih
        argumentRow := argumentRow_ends ih
        primary := primary_ends ih
        superMember := superMember_ends ih }

/-! ## The parts that hold no statements

A variable declaration consumes its keyword even where it fails after it. The others may fail at
their first token. -/

/-- A variable declaration ends, and it has consumed its keyword in any case. -/
theorem variableDecl_ends (hnext : s.nextKind = .kwVar)
    (hfuel : 16 * s.rest.length + 10 ≤ fuel) : Ends (variableDecl fuel) s 1 1 := by
  rw [variableDecl]
  refine ends_accept (fun keyword s₁ _ _ h₁ => ?_) fun hnone => ?_
  · refine (ends_expect _ _ s₁).bind fun name s₂ h₂ => ?_
    refine Ends.bind (k := 0) (m := 0) (ends_accept (fun _ s₃ _ _ h₃ => ?_) fun _ => ends_pure ..)
      fun init s₃ _ => ?_
    · have hinit := ((expressionEnds fuel).expression (s := s₃) (by omega)).map some
      exact hinit.mono (Nat.zero_le _) (Nat.le_refl _)
    · exact (ends_expect _ _ s₃).bind fun semicolon s₄ _ => ends_pure ..
  · exact absurd (hnone .kwVar (.head _) hnext.symm) (by decide)

theorem expressionStatement_ends (hfuel : 16 * s.rest.length + 10 ≤ fuel) :
    Ends (expressionStatement fuel) s 1 0 := by
  rw [expressionStatement]
  refine ((expressionEnds fuel).expression hfuel).bind fun expr s₁ _ => ?_
  exact (ends_expect _ _ s₁).bind fun semicolon s₂ _ => ends_pure ..

/-- A clause ends, with or without an expression. -/
theorem clause_ends (stop : TokenKind) (hfuel : 16 * s.rest.length + 10 ≤ fuel) :
    Ends (clause fuel stop) s 0 0 := by
  rw [clause]
  refine ends_peek ?_
  split
  · exact ends_pure ..
  · exact (((expressionEnds fuel).expression hfuel).map _).mono (Nat.zero_le _) (Nat.le_refl _)

/-- A row of parameters ends: each parameter is a token. -/
theorem parameterRow_ends (hfuel : 16 * s.rest.length + 1 ≤ fuel) :
    Ends (parameterRow fuel) s 0 0 := by
  induction fuel generalizing s with
  | zero => omega
  | succ fuel ih =>
    rw [parameterRow]
    refine (ends_expect _ _ s).bind fun first s₁ h₁ => ?_
    refine ends_accept (fun comma s₂ _ _ h₂ => ?_) fun _ => ?_
    · exact (ih (by omega)).bind fun others s₃ _ => ends_pure ..
    · exact (ends_expect _ _ s₁).bind fun paren s₂ _ => ends_pure ..

theorem parameters_ends (hfuel : 16 * s.rest.length + 1 ≤ fuel) :
    Ends (parameters fuel) s 0 0 := by
  rw [parameters]
  exact ends_accept (fun paren s₁ _ _ _ => ends_pure ..) fun _ => parameterRow_ends hfuel

/-! ## Statements -/

/-- The kinds of the tokens that tell which statement it is. -/
def statementStarts : List TokenKind := [.kwPrint, .leftBrace, .kwIf, .kwWhile, .kwFor, .kwReturn]

/-- With this bound the functions for statements end. What a declaration consumes before it fails
is known from its first token. -/
structure StatementEnds (fuel : Nat) : Prop where
  declaration : ∀ {s}, 16 * s.rest.length + 12 ≤ fuel →
    Ends (declaration fuel) s 1 (if startsStatement s.nextKind then 1 else 0)
  classDecl : ∀ {s}, s.nextKind = .kwClass → 16 * s.rest.length + 1 ≤ fuel →
    Ends (classDecl fuel) s 1 1
  methods : ∀ {s}, 16 * s.rest.length + 2 ≤ fuel → Ends (methods fuel) s 0 0
  function : ∀ {s role}, 16 * s.rest.length + 1 ≤ fuel →
    Ends (function fuel role) s 1 (if s.nextKind = .kwFun then 1 else 0)
  statement : ∀ {s}, 16 * s.rest.length + 11 ≤ fuel →
    Ends (statement fuel) s 1 (if s.nextKind ∈ statementStarts then 1 else 0)
  ifElse : ∀ {s}, 16 * s.rest.length + 1 ≤ fuel → Ends (ifElse fuel) s 0 0
  whileLoop : ∀ {s}, 16 * s.rest.length + 1 ≤ fuel → Ends (whileLoop fuel) s 0 0
  forLoop : ∀ {s}, 16 * s.rest.length + 1 ≤ fuel → Ends (forLoop fuel) s 0 0
  block : ∀ {s}, 16 * s.rest.length + 13 ≤ fuel → Ends (block fuel) s 0 0

/-- A class declaration ends, and it has consumed its keyword in any case. -/
theorem classDecl_ends (ih : StatementEnds fuel) (hnext : s.nextKind = .kwClass)
    (hfuel : 16 * s.rest.length + 1 ≤ fuel + 1) : Ends (classDecl (fuel + 1)) s 1 1 := by
  rw [classDecl]
  refine ends_accept (fun keyword s₁ _ _ h₁ => ?_) fun hnone => ?_
  · refine (ends_expect _ _ s₁).bind fun name s₂ h₂ => ?_
    refine Ends.bind (k := 0) (m := 0) (ends_accept (fun _ s₃ _ _ _ =>
      ((ends_expect _ _ s₃).map _).mono (Nat.zero_le _) (Nat.le_refl _)) fun _ => ends_pure ..)
      fun superclass s₃ h₃ => ?_
    refine (ends_expect _ _ s₃).bind fun leftBrace s₄ h₄ => ?_
    refine (ih.methods (by omega)).bind fun methods s₅ _ => ?_
    exact (ends_expect _ _ s₅).bind fun rightBrace s₆ _ => ends_pure ..
  · exact absurd (hnone .kwClass (.head _) hnext.symm) (by decide)

/-- The methods of a class end: each of them consumes a token. -/
theorem methods_ends (ih : StatementEnds fuel) (hfuel : 16 * s.rest.length + 2 ≤ fuel + 1) :
    Ends (methods (fuel + 1)) s 0 0 := by
  rw [methods]
  refine ends_peek ?_
  split
  · exact ends_pure ..
  · exact ends_pure ..
  · refine (ih.function (by omega)).bind fun first s₁ h₁ => ?_
    exact (ih.methods (by omega)).bind fun others s₂ _ => ends_pure ..

/-- A function ends, and it has consumed its keyword if that comes next. -/
theorem function_ends (ih : StatementEnds fuel) {role : FunctionRole}
    (hfuel : 16 * s.rest.length + 1 ≤ fuel + 1) :
    Ends (function (fuel + 1) role) s 1 (if s.nextKind = .kwFun then 1 else 0) := by
  rw [function]
  -- What comes after the keyword is the same whether or not it was known to come next.
  have hafter : ∀ (s₁ : State), s₁.rest.length + 1 ≤ s.rest.length → Ends (do
      let name ← expect .identifier (.functionName role)
      let _ ← expect .leftParen (.parametersStart role)
      let params ← parameters fuel
      let _ ← expect .leftBrace (.functionBodyStart role)
      let body ← block fuel
      pure (⟨name, params, body⟩ : FunctionDecl)) s₁ 0 0 := by
    intro s₁ h₁
    refine (ends_expect _ _ s₁).bind fun name s₂ h₂ => ?_
    refine (ends_expect _ _ s₂).bind fun leftParen s₃ h₃ => ?_
    refine (parameters_ends (by omega)).bind fun params s₄ h₄ => ?_
    refine (ends_expect _ _ s₄).bind fun leftBrace s₅ h₅ => ?_
    exact (ih.block (by omega)).bind fun body s₆ _ => ends_pure ..
  split
  · next hnext => exact ends_expect_next hnext (by decide) fun keyword s₁ h₁ => hafter s₁ h₁
  · exact (ends_expect _ _ s).bind fun keyword s₁ h₁ => hafter s₁ h₁

/-- A statement ends, and it has consumed its keyword if it begins with one. -/
theorem statement_ends (ih : StatementEnds fuel) (hfuel : 16 * s.rest.length + 11 ≤ fuel + 1) :
    Ends (statement (fuel + 1)) s 1 (if s.nextKind ∈ statementStarts then 1 else 0) := by
  rw [statement]
  refine ends_accept (fun token s₁ hkinds hnext h₁ => ?_) fun hnone => ?_
  · have hstarts : s.nextKind ∈ statementStarts := hnext ▸ hkinds
    rw [if_pos hstarts]
    dsimp only
    split
    · refine ((expressionEnds fuel).expression (by omega)).bind fun expr s₂ _ => ?_
      exact (ends_expect _ _ s₂).bind fun semicolon s₃ _ => ends_pure ..
    · exact (ih.block (by omega)).map _
    · exact ih.ifElse (by omega)
    · exact ih.whileLoop (by omega)
    · exact ih.forLoop (by omega)
    · refine (clause_ends _ (by omega)).bind fun value s₂ _ => ?_
      exact (ends_expect _ _ s₂).bind fun semicolon s₃ _ => ends_pure ..
  · -- No keyword was taken, so there was none.
    have hstarts : s.nextKind ∉ statementStarts := fun hmem => by
      rw [hnone _ hmem rfl] at hmem
      exact absurd hmem (by decide)
    rw [if_neg hstarts]
    exact expressionStatement_ends (by omega)

/-- An `if` ends: its condition and its branches consume tokens. -/
theorem ifElse_ends (ih : StatementEnds fuel) (hfuel : 16 * s.rest.length + 1 ≤ fuel + 1) :
    Ends (ifElse (fuel + 1)) s 0 0 := by
  rw [ifElse]
  refine (ends_expect _ _ s).bind fun leftParen s₁ h₁ => ?_
  refine ((expressionEnds fuel).expression (by omega)).bind fun condition s₂ h₂ => ?_
  refine (ends_expect _ _ s₂).bind fun rightParen s₃ h₃ => ?_
  refine (ih.statement (by omega)).bind fun thenBranch s₄ h₄ => ?_
  refine ends_accept (fun keyword s₅ _ _ h₅ => ?_) fun _ => ends_pure ..
  exact (ih.statement (by omega)).bind fun elseBranch s₆ _ => ends_pure ..

theorem whileLoop_ends (ih : StatementEnds fuel) (hfuel : 16 * s.rest.length + 1 ≤ fuel + 1) :
    Ends (whileLoop (fuel + 1)) s 0 0 := by
  rw [whileLoop]
  refine (ends_expect _ _ s).bind fun leftParen s₁ h₁ => ?_
  refine ((expressionEnds fuel).expression (by omega)).bind fun condition s₂ h₂ => ?_
  refine (ends_expect _ _ s₂).bind fun rightParen s₃ h₃ => ?_
  exact (ih.statement (by omega)).bind fun body s₄ _ => ends_pure ..

/-- What stands before the condition of a `for` ends. -/
theorem initializer_ends (hfuel : 16 * s.rest.length + 10 ≤ fuel) :
    Ends (do
      match ← peek with
      | .semicolon => do
        let _ ← accept [.semicolon]
        pure none
      | .kwVar => some <$> variableDecl fuel
      | _ => some <$> expressionStatement fuel) s 0 0 := by
  refine ends_peek ?_
  split
  · exact ends_accept (fun token s₁ _ _ _ => ends_pure ..) fun _ => ends_pure ..
  · next hnext =>
    exact ((variableDecl_ends hnext hfuel).map _).mono (Nat.zero_le _) (Nat.zero_le _)
  · exact ((expressionStatement_ends hfuel).map _).mono (Nat.zero_le _) (Nat.le_refl _)

theorem forLoop_ends (ih : StatementEnds fuel) (hfuel : 16 * s.rest.length + 1 ≤ fuel + 1) :
    Ends (forLoop (fuel + 1)) s 0 0 := by
  rw [forLoop]
  refine (ends_expect _ _ s).bind fun leftParen s₁ h₁ => ?_
  refine (initializer_ends (by omega)).bind fun init s₂ h₂ => ?_
  refine (clause_ends _ (by omega)).bind fun condition s₃ h₃ => ?_
  refine (ends_expect _ _ s₃).bind fun semicolon s₄ h₄ => ?_
  refine (clause_ends _ (by omega)).bind fun post s₅ h₅ => ?_
  refine (ends_expect _ _ s₅).bind fun rightParen s₆ h₆ => ?_
  exact (ih.statement (by omega)).bind fun body s₇ _ => ends_pure ..

/-- A declaration ends. If it fails without having consumed a token, that token is none that
skipping stops at. -/
theorem declaration_ends (ih : StatementEnds fuel) (hfuel : 16 * s.rest.length + 12 ≤ fuel + 1) :
    Ends (declaration (fuel + 1)) s 1 (if startsStatement s.nextKind then 1 else 0) := by
  rw [declaration]
  refine ends_peek ?_
  split
  · -- Each of these begins with a keyword that is known to come next, and is consumed.
    next hnext =>
    rw [hnext]
    exact ih.classDecl hnext (by omega)
  · next hnext =>
    have hfunction : Ends (function fuel .function) s 1 (if s.nextKind = .kwFun then 1 else 0) :=
      ih.function (by omega)
    rw [hnext] at hfunction ⊢
    exact hfunction.map _
  · next hnext =>
    rw [hnext]
    exact variableDecl_ends hnext (by omega)
  · -- The keywords of statements are consumed before anything can fail.
    next hclass hfun hvar =>
    refine (ih.statement (by omega)).mono (Nat.le_refl _) ?_
    split
    · next hstarts =>
      have hmem : s.nextKind ∈ statementStarts := by
        cases hkind : s.nextKind <;> simp_all [startsStatement, statementStarts]
      exact Nat.le_of_eq (if_pos hmem).symm
    · exact Nat.zero_le _

/-! ## Recovery

A block and a program read one declaration after the other. They end because each of them goes on by
at least a token: the declaration consumes one, or it fails and one is skipped. -/

/-- What is left after skipping is the end of what was there. -/
theorem skipStatement_suffix (last : Span) (tokens : List Token) :
    (skipStatement last tokens).2 <:+ tokens := by
  induction tokens generalizing last with
  | nil => exact List.suffix_rfl
  | cons token rest ih =>
    rw [skipStatement]
    split
    · exact List.suffix_rfl
    split
    · exact List.suffix_cons _ _
    · exact (ih _).trans (List.suffix_cons _ _)

/-- Skipping goes on unless it stands before a place where it has to stop. -/
theorem skipStatement_length (last : Span) {tokens : List Token}
    (hend : headKind tokens ≠ .endOfFile) (hstart : startsStatement (headKind tokens) = false) :
    (skipStatement last tokens).2.length + 1 ≤ tokens.length := by
  cases tokens with
  | nil => exact absurd rfl hend
  | cons token rest =>
    rw [headKind] at hend hstart
    rw [skipStatement, hstart, decide_eq_false hend]
    have hrest := (skipStatement_suffix token.span rest).length_le
    -- A semicolon is the last token that is skipped.
    by_cases hsemicolon : token.kind = .semicolon
    · simp [hsemicolon]
    · simp only [hsemicolon, if_false, List.length_cons]
      simpa using hrest

/-- With recovery a declaration always succeeds, and something of the input has been consumed. -/
theorem recovering_declaration_ends (ih : StatementEnds fuel)
    (hfuel : 16 * s.rest.length + 12 ≤ fuel) (hend : s.nextKind ≠ .endOfFile) :
    ∃ found s₁, recovering (declaration fuel) s = .ok found s₁ ∧ Later 1 s s₁ := by
  have hdeclaration := ih.declaration hfuel
  unfold Ends at hdeclaration
  unfold recovering
  cases hrun : declaration fuel s with
  | ok stmt s₁ =>
    rw [hrun] at hdeclaration
    exact ⟨some stmt, s₁, rfl, hdeclaration⟩
  | error stop s₁ =>
    rw [hrun] at hdeclaration
    cases stop with
    | outOfFuel => exact hdeclaration.elim
    | syntaxError error =>
      -- The declaration has failed, maybe after some tokens, and then the rest of the statement is
      -- skipped.
      have hlater : Later (if startsStatement s.nextKind then 1 else 0) s s₁ := hdeclaration
      have hskip := skipStatement_suffix s₁.last s₁.rest
      refine ⟨none, _, rfl, hskip.trans hlater.rest, ?_⟩
      show (skipStatement s₁.last s₁.rest).2.length + 1 ≤ s.rest.length
      have hlength := hskip.length_le
      have hbefore := hlater.length
      by_cases hequal : s₁.rest.length = s.rest.length
      · -- It failed at its first token, which is none to stop at.
        have hrest : s₁.rest = s.rest := hlater.rest.eq_of_length hequal
        have hstart : startsStatement s.nextKind = false := by
          cases hstarts : startsStatement s.nextKind with
          | false => rfl
          | true =>
            rw [hstarts, if_pos rfl] at hbefore
            omega
        rw [State.nextKind_eq] at hend hstart
        have := skipStatement_length s₁.last (hrest ▸ hend) (hrest ▸ hstart)
        rwa [hrest] at this ⊢
      · omega

/-- A block ends: each of its declarations consumes or skips a token. -/
theorem block_ends (ih : StatementEnds fuel) (hfuel : 16 * s.rest.length + 13 ≤ fuel + 1) :
    Ends (block (fuel + 1)) s 0 0 := by
  rw [block]
  refine ends_peek ?_
  split
  · exact ends_accept (fun brace s₁ _ _ _ => ends_pure ..) fun _ => ends_pure ..
  · exact ends_reject ..
  · next hend =>
    obtain ⟨found, s₁, hrun, hlater⟩ := recovering_declaration_ends ih (by omega) hend
    have h₁ := hlater.length
    refine .after hrun hlater ?_
    exact (ih.block (by omega)).bind fun others s₂ _ => ends_pure ..

/-- The functions for statements end with any bound that is large enough for the tokens left. -/
theorem statementEnds (fuel : Nat) : StatementEnds fuel := by
  induction fuel with
  | zero => constructor <;> intros <;> omega
  | succ fuel ih =>
    exact
      { declaration := declaration_ends ih
        classDecl := classDecl_ends ih
        methods := methods_ends ih
        function := function_ends ih
        statement := statement_ends ih
        ifElse := ifElse_ends ih
        whileLoop := whileLoop_ends ih
        forLoop := forLoop_ends ih
        block := block_ends ih }

/-! ## Programs

A program reads declarations up to the end of the input, and it never fails: an error in one of them
is noted and the next one is read. -/

/-- At the end of the input there are no more declarations. -/
theorem program_at_end (hend : s.nextKind = .endOfFile) : program (fuel + 1) s = .ok [] s := by
  rw [program, bind_of_ok (show peek s = .ok s.nextKind s from rfl), hend]
  rfl

/-- Before the end a program goes on with a declaration. -/
theorem program_before_end (hend : s.nextKind ≠ .endOfFile) :
    program (fuel + 1) s = (do
      let first ← recovering (declaration fuel)
      let others ← program fuel
      pure (first.toList ++ others)) s := by
  rw [program, bind_of_ok (show peek s = .ok s.nextKind s from rfl)]
  refine congrFun ?_ s
  split
  · next h => exact absurd h hend
  · rfl

/-- Parsing a program ends with a row of statements, whatever the tokens are. -/
theorem program_ends (hfuel : 16 * s.rest.length + 13 ≤ fuel) :
    ∃ statements s', program fuel s = .ok statements s' := by
  induction fuel generalizing s with
  | zero => omega
  | succ fuel ih =>
    by_cases hend : s.nextKind = .endOfFile
    · exact ⟨[], s, program_at_end hend⟩
    · obtain ⟨found, s₁, hrun, hlater⟩ :=
        recovering_declaration_ends (statementEnds fuel) (by omega) hend
      have h₁ := hlater.length
      obtain ⟨others, s', hothers⟩ := ih (s := s₁) (by omega)
      rw [program_before_end hend, bind_of_ok hrun, bind_of_ok hothers]
      exact ⟨_, s', rfl⟩

end Parser

/-- A row of tokens that is no program is rejected with its syntax errors. -/
theorem parse_eq (tokens : List Token) :
    ∃ statements s', Parser.program (Parser.fuelFor tokens) ⟨tokens, .origin, []⟩ =
        .ok statements s' ∧
      parse tokens = if s'.errors = [] then .ok statements else .error s'.errors := by
  have hfuel : 16 * tokens.length + 13 ≤ Parser.fuelFor tokens := by
    unfold Parser.fuelFor
    omega
  obtain ⟨statements, s', hrun⟩ := Parser.program_ends (s := ⟨tokens, .origin, []⟩) hfuel
  exact ⟨statements, s', hrun, by rw [parse, hrun]⟩

end Script
