import Script.Proofs.Grammar.Numbering

/-!
# Recovery makes progress

For any row of tokens the parser ends, and its errors go forward in the row (`parse_recovers`): no
two unexpected tokens are reported at one place, except at the end of the input, and no `=` is
reported twice.

The proof follows the run on the numbered row, where the span of a token is its index. `Orderly`
is the invariant. It allows an error at the very token that comes next only if this token is of
some given kinds. Every parsing function leaves a state where no such kinds are needed, since it
has consumed a token after each error that it noted, or has come to the end (`Keeps`). Skipping may
stop before the token that was reported, but then that is a keyword, and the next declaration
begins by consuming it; so a declaration may start where these kinds are allowed (`KeepsFrom`).
-/

namespace Script

/-! ## The end of the input

A row may hold several end-of-file tokens, or none. The parser stops at the first, so the end of the
input is the place of that one. -/

section

variable {tokens : List Token} {place : Nat}

/-- Behind the first token the places are one more. -/
theorem kindAt_cons_succ (token : Token) (tokens : List Token) (place : Nat) :
    kindAt (token :: tokens) (place + 1) = kindAt tokens place := rfl

/-- The input ends at the first end-of-file token. -/
theorem kindAt_endPlace (tokens : List Token) : kindAt tokens (endPlace tokens) = .endOfFile := by
  induction tokens with
  | nil => rfl
  | cons token tokens ih =>
    unfold endPlace at ih ⊢
    by_cases hkind : token.kind = .endOfFile
    · have hempty : textOf (token :: tokens) = [] := textOf_eq_nil.mpr hkind
      rw [hempty]
      exact hkind
    · rwa [textOf_cons hkind, List.length_cons, kindAt_cons_succ]

/-- Before the end there is no end-of-file token. -/
theorem kindAt_of_lt_endPlace (h : place < endPlace tokens) : kindAt tokens place ≠ .endOfFile := by
  induction tokens generalizing place with
  | nil => exact absurd h (Nat.not_lt_zero place)
  | cons token tokens ih =>
    unfold endPlace at ih h
    by_cases hkind : token.kind = .endOfFile
    · have hempty : textOf (token :: tokens) = [] := textOf_eq_nil.mpr hkind
      rw [hempty] at h
      exact absurd h (Nat.not_lt_zero place)
    · rw [textOf_cons hkind, List.length_cons] at h
      cases place with
      | zero => exact hkind
      | succ place =>
        rw [kindAt_cons_succ]
        exact ih (by omega)

/-- What has no end-of-file token before it stands before the end. -/
theorem le_endPlace (h : ∀ before < place, kindAt tokens before ≠ .endOfFile) :
    place ≤ endPlace tokens :=
  Nat.le_of_not_lt fun hlt => h _ hlt (kindAt_endPlace tokens)

/-- Numbering the tokens does not move the end. -/
theorem endPlace_numbered (tokens : List Token) : endPlace (numbered tokens) = endPlace tokens := by
  refine Nat.le_antisymm (le_endPlace fun before hlt => ?_) (le_endPlace fun before hlt => ?_)
  · rw [← kindAt_numbered]
    exact kindAt_of_lt_endPlace hlt
  · rw [kindAt_numbered]
    exact kindAt_of_lt_endPlace hlt

/-- The end is no further than the row is long. -/
theorem endPlace_le_length (tokens : List Token) : endPlace tokens ≤ tokens.length :=
  (List.takeWhile_prefix _).length_le

end

/-- The tokens carry their indices for their places, and one of them marks the end. -/
structure Indexed (row : List Token) : Prop where
  start : ∀ {place : Nat} {token : Token}, row[place]? = some token → token.span.start = place
  closed : endPlace row < row.length

/-- The numbered row carries its indices, and has a token at its end. -/
theorem indexed_numbered (tokens : List Token) : Indexed (numbered tokens) where
  start := by
    intro place token hget
    -- A token of the row, the one that closes it, or none at all.
    rcases Nat.lt_trichotomy place tokens.length with hlt | rfl | hlt
    · rw [getElem?_numbered (List.getElem?_eq_getElem hlt)] at hget
      obtain rfl := Option.some.inj hget
      rfl
    · rw [getElem?_numbered_length] at hget
      obtain rfl := Option.some.inj hget
      rfl
    · rw [List.getElem?_eq_none (by rw [numbered_length]; omega)] at hget
      cases hget
  closed := by
    rw [endPlace_numbered, numbered_length]
    exact Nat.lt_succ_of_le (endPlace_le_length tokens)

namespace Parser

variable {α β : Type} {row : List Token} {pending : List Nat} {kinds : List TokenKind}
  {s : State} {fuel : Nat}

/-! ## The invariant

What is known of a state is which tokens have been consumed, and of each error where it was noted.
An error at the token that comes next is the only one that another could be noted behind at the same
place, so that case is kept apart by the kinds that are allowed. -/

/-- The keywords that skipping stops before. -/
def statementKeywords : List TokenKind :=
  [.kwClass, .kwFun, .kwVar, .kwFor, .kwIf, .kwWhile, .kwPrint, .kwReturn]

/-- Skipping stops before these keywords and before no other token. -/
theorem startsStatement_eq_true {kind : TokenKind} :
    startsStatement kind = true ↔ kind ∈ statementKeywords := decide_eq_true_iff

/-- The index of the next token of an indexed row. -/
def State.place (s : State) : Nat := s.nextSpan.start

/-- What a noted error says about the row: an unexpected token has been passed, unless it is the
end of the input or of a kind that may still come; an `=` that assigns to no target has been
consumed, and is none of those whose targets are not known yet. -/
def Noted (row : List Token) (pending : List Nat) (kinds : List TokenKind) (s : State)
    (error : SyntaxError) : Prop :=
  match error.fault with
  | .unexpected _ found =>
    found = kindAt row error.span.start ∧
      (error.span.start < s.place ∨
        error.span.start = s.place ∧ s.nextKind ∈ .endOfFile :: kinds)
  | .invalidAssignmentTarget =>
    kindAt row error.span.start = .equal ∧ error.span.start < s.place ∧
      error.span.start ∉ pending

/-- Unexpected tokens are noted from left to right, each once, except at the end; other errors are
noted once. -/
structure InOrder (row : List Token) (earlier later : SyntaxError) : Prop where
  unexpected : earlier.fault ≠ .invalidAssignmentTarget →
    later.fault ≠ .invalidAssignmentTarget →
      earlier.span.start < later.span.start ∨
        earlier.span.start = later.span.start ∧ kindAt row later.span.start = .endOfFile
  target : earlier.fault = .invalidAssignmentTarget → later.fault = .invalidAssignmentTarget →
    earlier.span.start ≠ later.span.start

/-- The errors so far are in order. `pending` are the places of the `=` tokens consumed whose
targets are not known yet; `kinds` are those of a next token that may have been reported already. -/
structure Orderly (row : List Token) (pending : List Nat) (kinds : List TokenKind) (s : State) :
    Prop where
  rest : s.rest = row.drop s.place
  consumed : ∀ before < s.place, kindAt row before ≠ .endOfFile
  passed : ∀ place ∈ pending, place < s.place
  distinct : pending.Nodup
  noted : ∀ error ∈ s.errors, Noted row pending kinds s error
  ordered : s.errors.Pairwise (InOrder row)

/-- The next token of the state is the one that its index tells. -/
theorem Orderly.nextKind (h : Orderly row pending kinds s) : s.nextKind = kindAt row s.place := by
  rw [State.nextKind_eq, h.rest, kindAt]

/-- Less may be pending: a token that is not awaited any longer imposes nothing on the errors
noted. -/
theorem Orderly.less {pending' : List Nat} (h : Orderly row pending kinds s)
    (hless : pending'.Sublist pending) : Orderly row pending' kinds s where
  rest := h.rest
  consumed := h.consumed
  passed := fun place hmem => h.passed place (hless.subset hmem)
  distinct := h.distinct.sublist hless
  noted := by
    intro error hmem
    have hnoted := h.noted error hmem
    unfold Noted at hnoted ⊢
    split at hnoted
    · exact hnoted
    · exact ⟨hnoted.1, hnoted.2.1, fun hpending => hnoted.2.2 (hless.subset hpending)⟩
  ordered := h.ordered

/-- Other kinds may be allowed as far as the next token goes. -/
theorem Orderly.allow {kinds' : List TokenKind} (h : Orderly row pending kinds s)
    (hkinds : s.nextKind ∈ kinds → s.nextKind ∈ .endOfFile :: kinds') :
    Orderly row pending kinds' s where
  rest := h.rest
  consumed := h.consumed
  passed := h.passed
  distinct := h.distinct
  noted := by
    intro error hmem
    have hnoted := h.noted error hmem
    unfold Noted at hnoted ⊢
    split at hnoted
    · refine ⟨hnoted.1, hnoted.2.imp_right fun hnext => ⟨hnext.1, ?_⟩⟩
      rcases List.mem_cons.mp hnext.2 with hend | hmem
      · exact hend ▸ .head _
      · exact hkinds hmem
    · exact hnoted
  ordered := h.ordered

/-- Where no reported token may come next, tokens of any kinds may. -/
theorem Orderly.allow_any (h : Orderly row pending [] s) (kinds : List TokenKind) :
    Orderly row pending kinds s :=
  h.allow fun hmem => absurd hmem List.not_mem_nil

/-- The next token of an indexed row has its place, and there are tokens after it unless it is the
end. -/
theorem Orderly.consume (hrow : Indexed row) {token : Token} {rest : List Token}
    (h : Orderly row pending kinds s) (hrest : s.rest = token :: rest)
    (hkind : token.kind ≠ .endOfFile) :
    kindAt row token.span.start = token.kind ∧
      Orderly row (token.span.start :: pending) [] { s with rest := rest, last := token.span } := by
  have hplace : token.span.start = s.place := by rw [State.place, State.nextSpan, hrest]
  have hnext : s.nextKind = token.kind := by rw [State.nextKind, hrest]
  have hat : kindAt row s.place = token.kind := by rw [← h.nextKind, hnext]
  have hdrop : rest = row.drop (s.place + 1) := by
    rw [← List.tail_drop, ← h.rest, hrest, List.tail_cons]
  have hconsumed : ∀ before < s.place + 1, kindAt row before ≠ .endOfFile := by
    intro before hlt
    rcases Nat.lt_succ_iff_lt_or_eq.mp hlt with hlt | rfl
    · exact h.consumed before hlt
    · rwa [hat]
  -- The end has not been consumed, so there is a next token, and it carries its index.
  have hlength : s.place + 1 < row.length := Nat.lt_of_le_of_lt (le_endPlace hconsumed) hrow.closed
  have hafter : ({ s with rest := rest, last := token.span } : State).place = s.place + 1 := by
    rw [State.place, State.nextSpan, hdrop, List.drop_eq_getElem_cons hlength]
    exact hrow.start (List.getElem?_eq_getElem hlength)
  refine ⟨hplace ▸ hat, ?_⟩
  rw [hplace]
  exact
    { rest := by rw [hafter, ← hdrop]
      consumed := by rwa [hafter]
      passed := by
        rw [hafter]
        intro place hmem
        rcases List.mem_cons.mp hmem with rfl | hmem
        · exact Nat.lt_succ_self _
        · exact Nat.lt_succ_of_lt (h.passed place hmem)
      distinct := List.nodup_cons.mpr ⟨fun hmem => Nat.lt_irrefl _ (h.passed _ hmem), h.distinct⟩
      -- Whatever was noted at the token that has been consumed is behind it now.
      noted := by
        intro error hmem
        have hnoted := h.noted error hmem
        unfold Noted at hnoted ⊢
        rw [hafter]
        split at hnoted
        · refine ⟨hnoted.1, .inl ?_⟩
          rcases hnoted.2 with hlt | ⟨heq, -⟩ <;> omega
        · refine ⟨hnoted.1, by omega, fun hmem => ?_⟩
          rcases List.mem_cons.mp hmem with heq | hmem
          · omega
          · exact hnoted.2.2 hmem
      ordered := h.ordered }

/-- An error that goes with those before it may be noted. -/
theorem Orderly.note {error : SyntaxError} (h : Orderly row pending kinds s)
    (hnoted : Noted row pending kinds s error)
    (hordered : ∀ earlier ∈ s.errors, InOrder row earlier error) :
    Orderly row pending kinds { s with errors := s.errors ++ [error] } where
  rest := h.rest
  consumed := h.consumed
  passed := h.passed
  distinct := h.distinct
  noted := by
    intro earlier hmem
    rcases List.mem_append.mp hmem with hmem | hmem
    · exact h.noted earlier hmem
    · obtain rfl := List.mem_singleton.mp hmem
      exact hnoted
  ordered := by
    refine List.pairwise_append.mpr ⟨h.ordered, List.pairwise_singleton _ _, ?_⟩
    intro earlier hmem later hlater
    obtain rfl := List.mem_singleton.mp hlater
    exact hordered earlier hmem

/-- The `=` consumed last may be reported. It stands before the next token and has not been reported
yet, so the places stay in order. -/
theorem Orderly.note_target {equals : Span}
    (h : Orderly row (equals.start :: pending) [] s) (hequal : kindAt row equals.start = .equal) :
    Orderly row pending []
      { s with errors := s.errors ++ [⟨.invalidAssignmentTarget, equals⟩] } := by
  have hplace : equals.start < s.place := h.passed _ (.head _)
  -- The token is no longer pending once it has been reported.
  have hfresh : equals.start ∉ pending := (List.nodup_cons.mp h.distinct).1
  refine (h.less (List.sublist_cons_self _ _)).note ⟨hequal, hplace, hfresh⟩ fun earlier hmem => ?_
  refine ⟨fun _ hlater => absurd rfl hlater, fun hearlier _ heq => ?_⟩
  have hnoted := h.noted earlier hmem
  unfold Noted at hnoted
  rw [hearlier] at hnoted
  exact hnoted.2.2 (heq ▸ .head _)

/-- The next token may be reported once. From then on it is the token of its kind that was reported
and has not been consumed. -/
theorem Orderly.note_unexpected (h : Orderly row pending [] s) (expected : Expectation) :
    Orderly row pending [s.nextKind]
      { s with errors := s.errors ++ [⟨.unexpected expected s.nextKind, s.nextSpan⟩] } := by
  refine (h.allow_any _).note ⟨h.nextKind, .inr ⟨rfl, .tail _ (.head _)⟩⟩ fun earlier hmem => ?_
  refine ⟨fun hearlier _ => ?_, fun _ hlater => nomatch hlater⟩
  have hnoted := h.noted earlier hmem
  unfold Noted at hnoted
  split at hnoted
  · -- An error at the same place was noted for the end of the input, as no other kind is allowed.
    refine hnoted.2.imp_right fun ⟨heq, hend⟩ => ⟨heq, ?_⟩
    show kindAt row s.place = .endOfFile
    rw [← h.nextKind]
    exact List.mem_singleton.mp hend
  · next hfault => exact absurd hfault hearlier

/-! ## Parsing functions

Where a function gives up, its error is not in the state yet: it is noted by whoever recovers, or
passed on by the functions that called this one. -/

/-- A parsing function ends with its errors in order, or gives up at an unexpected token that has
not been noted yet. -/
def Outcome (row : List Token) (pending : List Nat) : EStateM.Result Stop State α → Prop
  | .ok _ s => Orderly row pending [] s
  | .error (.syntaxError error) s =>
    Orderly row pending [] s ∧
      ∃ expected, error = ⟨.unexpected expected s.nextKind, s.nextSpan⟩
  | .error .outOfFuel _ => True

/-- The function keeps the errors in order, also where the token that it starts with has been
reported and is of one of these kinds. -/
def KeepsFrom (row : List Token) (kinds : List TokenKind) (x : Parser α) : Prop :=
  ∀ s pending, Orderly row pending kinds s → Outcome row pending (x s)

/-- The function keeps the errors in order. -/
abbrev Keeps (row : List Token) (x : Parser α) : Prop := KeepsFrom row [] x

/-- A function that may start at a token that was reported may also start at one that was not. -/
theorem KeepsFrom.keeps {x : Parser α} (hx : KeepsFrom row kinds x) : Keeps row x :=
  fun s pending h =>
    hx s pending (h.allow_any kinds)

/-- What is pending before the second function may be more than what is pending at the end. -/
theorem Outcome.bind {pending' : List Nat} {x : Parser α} {f : α → Parser β}
    (hless : pending'.Sublist pending) (hx : Outcome row pending (x s))
    (hf : ∀ a s₁, Orderly row pending [] s₁ → Outcome row pending' (f a s₁)) :
    Outcome row pending' ((x >>= f) s) := by
  cases hrun : x s with
  | ok a s₁ =>
    rw [hrun] at hx
    rw [bind_of_ok hrun]
    exact hf a s₁ hx
  -- The first function gives up, and what is pending afterwards is forgotten with it.
  | error stop s₁ =>
    rw [hrun] at hx
    rw [bind_of_error hrun]
    cases stop with
    | outOfFuel => trivial
    | syntaxError error => exact ⟨hx.1.less hless, hx.2⟩

/-- After the first function no reported token comes next, so the second one has to start at
none. -/
theorem KeepsFrom.bind {x : Parser α} {f : α → Parser β} (hx : KeepsFrom row kinds x)
    (hf : ∀ a, Keeps row (f a)) : KeepsFrom row kinds (x >>= f) :=
  fun s pending h => (hx s pending h).bind (List.Sublist.refl _) fun a s₁ h₁ => hf a s₁ pending h₁

/-- What becomes of the result is of no account. -/
theorem KeepsFrom.map {x : Parser α} (hx : KeepsFrom row kinds x) (f : α → β) :
    KeepsFrom row kinds (f <$> x) := by
  intro s pending h
  have houtcome := hx s pending h
  cases hrun : x s with
  | ok a s₁ =>
    rw [hrun] at houtcome
    rwa [map_of_ok hrun]
  | error stop s₁ =>
    rw [hrun] at houtcome
    rw [map_of_error hrun]
    cases stop <;> exact houtcome

/-- The function keeps the errors in order where the next token is of this kind. -/
def KeepsAt (row : List Token) (kinds : List TokenKind) (kind : TokenKind) (x : Parser α) : Prop :=
  ∀ s pending, s.nextKind = kind → Orderly row pending kinds s → Outcome row pending (x s)

/-- Where the next token is known it is enough to allow its kind. -/
theorem KeepsFrom.at {kinds' : List TokenKind} {kind : TokenKind} {x : Parser α}
    (hx : KeepsFrom row kinds' x) (hkinds : kind ∈ kinds → kind ∈ .endOfFile :: kinds') :
    KeepsAt row kinds kind x := by
  rintro s pending rfl h
  exact hx s pending (h.allow hkinds)

/-- A function that looks at the next token may choose by its kind. -/
theorem keepsFrom_peek {f : TokenKind → Parser β} (hf : ∀ kind, KeepsAt row kinds kind (f kind)) :
    KeepsFrom row kinds (peek >>= f) :=
  fun s pending h => hf s.nextKind s pending rfl h

theorem keeps_pure (a : α) : Keeps row (pure a : Parser α) := fun _ _ h => h

/-- Nothing is asked where the bound is exhausted. -/
theorem keeps_exhausted : KeepsFrom row kinds (exhausted : Parser α) := fun _ _ _ => trivial

/-- Giving up at the next token is always in order. -/
theorem keeps_reject (expected : Expectation) : Keeps row (reject expected : Parser α) :=
  fun _ _ h => ⟨h, expected, rfl⟩

/-- Looking at the next token notes nothing. -/
theorem keeps_peek : Keeps row peek := fun _ _ h => h

section

variable (hrow : Indexed row)

include hrow

/-- A token of a kind that may come next though it has been reported is consumed. -/
theorem keepsFrom_accept (hend : .endOfFile ∉ kinds) : KeepsFrom row kinds (accept kinds) := by
  intro s pending h
  by_cases hkind : s.nextKind ∈ kinds
  · obtain ⟨token, rest, hrest, hnext⟩ := exists_token_of_next fun heq => hend (heq ▸ hkind)
    have htoken : token.kind ∈ kinds := hnext ▸ hkind
    rw [accept_of_mem hrest htoken]
    have hconsumed := h.consume hrow hrest fun heq => hend (heq ▸ htoken)
    exact hconsumed.2.less (List.sublist_cons_self _ _)
  · -- The token that was reported is none of these, so it is not the next one.
    rw [accept_of_not_mem hkind]
    exact h.allow fun hmem => absurd hmem hkind

/-- A token that is expected is consumed even if it has been reported. -/
theorem keepsFrom_expect {kind : TokenKind} (hend : kind ≠ .endOfFile) (expected : Expectation) :
    KeepsFrom row [kind] (expect kind expected) := by
  refine (keepsFrom_accept hrow (by simpa using hend.symm)).bind fun found => ?_
  cases found with
  | none => exact keeps_reject expected
  | some token => exact keeps_pure token

/-- A token that has not been reported may be consumed. -/
theorem keeps_accept (hend : .endOfFile ∉ kinds) : Keeps row (accept kinds) :=
  (keepsFrom_accept hrow hend).keeps

/-- A token that is expected is consumed or reported. -/
theorem keeps_expect {kind : TokenKind} (hend : kind ≠ .endOfFile) (expected : Expectation) :
    Keeps row (expect kind expected) :=
  (keepsFrom_expect hrow hend expected).keeps

/-- An `=` that is accepted is pending until its target has been looked at. -/
theorem outcome_accept_equal {f : Option Token → Parser β} (h : Orderly row pending [] s)
    (hsome : ∀ equals s₁, kindAt row equals.span.start = .equal →
      Orderly row (equals.span.start :: pending) [] s₁ → Outcome row pending (f (some equals) s₁))
    (hnone : Outcome row pending (f none s)) :
    Outcome row pending ((accept [.equal] >>= f) s) := by
  by_cases hkind : s.nextKind = .equal
  · obtain ⟨equals, rest, hrest, hnext⟩ := exists_token_of_next (by rw [hkind]; decide)
    have hequals : equals.kind = .equal := hnext.trans hkind
    have hconsumed := h.consume hrow hrest (by rw [hequals]; decide)
    rw [bind_of_ok (accept_of_mem hrest (by simp [hequals]))]
    exact hsome equals _ (hequals ▸ hconsumed.1) hconsumed.2
  · rwa [bind_of_ok (accept_of_not_mem (by simpa using hkind))]

/-! ## Expressions

An expression is never begun at a token that was reported, and so none of these functions allows
one. The one thing to watch is the equals sign: it is consumed before its target is judged, and in
between the value may hold others. -/

omit hrow in
/-- With this bound the functions for expressions keep the errors in order. -/
structure ExpressionKeeps (row : List Token) (fuel : Nat) : Prop where
  expression : Keeps row (expression fuel)
  binary : ∀ {levels}, Bounded levels → Keeps row (binary fuel levels)
  binaryRest : ∀ {operators tighter}, Bounded (operators :: tighter) → ∀ left,
    Keeps row (binaryRest fuel operators tighter left)
  unary : Keeps row (unary fuel)
  chain : ∀ callee, Keeps row (chain fuel callee)
  arguments : Keeps row (arguments fuel)
  argumentRow : Keeps row (argumentRow fuel)
  primary : Keeps row (primary fuel)
  superMember : ∀ keyword, Keeps row (superMember fuel keyword)

/-- Expressions and assignments keep the errors in order. -/
theorem expression_keeps (ih : ExpressionKeeps row fuel) : Keeps row (expression (fuel + 1)) := by
  intro s pending h
  rw [expression]
  have htarget := ih.binary bounded_operatorLevels s pending h
  refine htarget.bind (List.Sublist.refl _) fun target s₁ h₁ => ?_
  refine outcome_accept_equal hrow h₁ (fun equals s₂ hequal h₂ => ?_) h₁
  have hless : pending.Sublist (equals.span.start :: pending) := List.sublist_cons_self _ _
  refine (ih.expression s₂ _ h₂).bind hless fun value s₃ h₃ => ?_
  -- A target that is none is reported at its equals sign, which has been pending so far.
  cases target with
  | «variable» name => exact h₃.less hless
  | get object name => exact h₃.less hless
  | _ => exact h₃.note_target hequal

omit hrow in
theorem binary_keeps (ih : ExpressionKeeps row fuel) {levels : List (List TokenKind)}
    (hlevels : Bounded levels) : Keeps row (binary (fuel + 1) levels) := by
  cases levels with
  | nil =>
    rw [binary]
    exact ih.unary
  | cons operators tighter =>
    rw [binary]
    refine (ih.binary fun ops hops => hlevels ops (.tail _ hops)).bind fun first => ?_
    exact ih.binaryRest hlevels first

theorem binaryRest_keeps (ih : ExpressionKeeps row fuel) {operators : List TokenKind}
    {tighter : List (List TokenKind)} (hlevels : Bounded (operators :: tighter)) (left : Expr) :
    Keeps row (binaryRest (fuel + 1) operators tighter left) := by
  rw [binaryRest]
  refine (keeps_accept hrow (hlevels operators (.head _))).bind fun found => ?_
  cases found with
  | none => exact keeps_pure left
  | some operator =>
    refine (ih.binary fun ops hops => hlevels ops (.tail _ hops)).bind fun right => ?_
    exact ih.binaryRest hlevels (.binary left operator right)

theorem unary_keeps (ih : ExpressionKeeps row fuel) : Keeps row (unary (fuel + 1)) := by
  rw [unary]
  refine (keeps_accept hrow (by decide)).bind fun found => ?_
  cases found with
  | none => exact ih.primary.bind ih.chain
  | some operator => exact ih.unary.bind fun operand => keeps_pure _

theorem chain_keeps (ih : ExpressionKeeps row fuel) (callee : Expr) :
    Keeps row (chain (fuel + 1) callee) := by
  rw [chain]
  refine (keeps_accept hrow (by decide)).bind fun found => ?_
  cases found with
  | none => exact keeps_pure callee
  | some token =>
    dsimp only
    split
    · exact ih.arguments.bind fun es => ih.chain (.call callee token es)
    · exact (keeps_expect hrow (by decide) _).bind fun name => ih.chain (.get callee name)

theorem arguments_keeps (ih : ExpressionKeeps row fuel) : Keeps row (arguments (fuel + 1)) := by
  rw [arguments]
  refine (keeps_accept hrow (by decide)).bind fun found => ?_
  cases found with
  | none => exact ih.argumentRow
  | some paren => exact keeps_pure []

theorem argumentRow_keeps (ih : ExpressionKeeps row fuel) :
    Keeps row (argumentRow (fuel + 1)) := by
  rw [argumentRow]
  refine ih.expression.bind fun first => ?_
  refine (keeps_accept hrow (by decide)).bind fun found => ?_
  cases found with
  | none => exact (keeps_expect hrow (by decide) _).bind fun paren => keeps_pure _
  | some comma => exact ih.argumentRow.bind fun others => keeps_pure _

theorem primary_keeps (ih : ExpressionKeeps row fuel) : Keeps row (primary (fuel + 1)) := by
  rw [primary]
  refine (keeps_accept hrow (by decide)).bind fun found => ?_
  cases found with
  | none => exact keeps_reject _
  | some token =>
    dsimp only
    split
    · exact keeps_pure _
    · exact keeps_pure _
    · exact ih.superMember token
    · refine ih.expression.bind fun inner => ?_
      exact (keeps_expect hrow (by decide) _).bind fun paren => keeps_pure _
    · exact keeps_pure _

theorem superMember_keeps (ih : ExpressionKeeps row fuel) (keyword : Token) :
    Keeps row (superMember (fuel + 1) keyword) := by
  rw [superMember]
  refine (keeps_accept hrow (by decide)).bind fun found => ?_
  cases found with
  | none => exact keeps_reject _
  | some token =>
    dsimp only
    split
    · exact (keeps_expect hrow (by decide) _).bind fun method => keeps_pure _
    · exact ih.arguments.bind fun es => keeps_pure _

/-- With any bound the functions for expressions keep the errors in order. -/
theorem expressionKeeps (fuel : Nat) : ExpressionKeeps row fuel := by
  induction fuel with
  | zero => constructor <;> intros <;> exact keeps_exhausted
  | succ fuel ih =>
    exact
      { expression := expression_keeps hrow ih
        binary := binary_keeps ih
        binaryRest := binaryRest_keeps hrow ih
        unary := unary_keeps hrow ih
        chain := chain_keeps hrow ih
        arguments := arguments_keeps hrow ih
        argumentRow := argumentRow_keeps hrow ih
        primary := primary_keeps hrow ih
        superMember := superMember_keeps hrow ih }

/-! ## The parts that hold no statements

Of these only a variable declaration begins with a keyword that skipping stops before. -/

/-- A variable declaration may begin at its keyword, reported or not. -/
theorem variableDecl_keeps : KeepsFrom row [.kwVar] (variableDecl fuel) := by
  rw [variableDecl]
  refine (keepsFrom_accept hrow (by decide)).bind fun keyword => ?_
  refine (keeps_expect hrow (by decide) _).bind fun name => ?_
  refine KeepsFrom.bind ((keeps_accept hrow (by decide)).bind fun found => ?_) fun init => ?_
  · cases found with
    | none => exact keeps_pure none
    | some equals => exact (expressionKeeps hrow fuel).expression.map some
  · exact (keeps_expect hrow (by decide) _).bind fun semicolon => keeps_pure _

/-- Expression statements keep the errors in order: the semicolon is asked for where the expression
has ended. -/
theorem expressionStatement_keeps : Keeps row (expressionStatement fuel) := by
  rw [expressionStatement]
  refine (expressionKeeps hrow fuel).expression.bind fun expr => ?_
  exact (keeps_expect hrow (by decide) _).bind fun semicolon => keeps_pure _

theorem clause_keeps (stop : TokenKind) : Keeps row (clause fuel stop) := by
  rw [clause]
  refine keeps_peek.bind fun kind => ?_
  split
  · exact keeps_pure none
  · exact (expressionKeeps hrow fuel).expression.map some

theorem parameterRow_keeps : Keeps row (parameterRow fuel) := by
  induction fuel with
  | zero => exact keeps_exhausted
  | succ fuel ih =>
    rw [parameterRow]
    refine (keeps_expect hrow (by decide) _).bind fun first => ?_
    refine (keeps_accept hrow (by decide)).bind fun found => ?_
    cases found with
    | none => exact (keeps_expect hrow (by decide) _).bind fun paren => keeps_pure _
    | some comma => exact ih.bind fun others => keeps_pure _

theorem parameters_keeps : Keeps row (parameters fuel) := by
  rw [parameters]
  refine (keeps_accept hrow (by decide)).bind fun found => ?_
  cases found with
  | none => exact parameterRow_keeps hrow
  | some paren => exact keeps_pure []

/-! ## Statements

The keyword that a declaration is known by is the first thing it consumes. From there on nothing
that was reported lies ahead. -/

omit hrow in
/-- With this bound the functions for statements keep the errors in order. Those that begin with a
keyword do so where it has been reported. -/
structure StatementKeeps (row : List Token) (fuel : Nat) : Prop where
  declaration : KeepsFrom row statementKeywords (declaration fuel)
  classDecl : KeepsFrom row [.kwClass] (classDecl fuel)
  methods : Keeps row (methods fuel)
  function : ∀ role, KeepsFrom row [.kwFun] (function fuel role)
  statement : KeepsFrom row statementStarts (statement fuel)
  ifElse : Keeps row (ifElse fuel)
  whileLoop : Keeps row (whileLoop fuel)
  forLoop : Keeps row (forLoop fuel)
  block : KeepsFrom row statementKeywords (block fuel)

/-- A class declaration may begin at its keyword, reported or not. -/
theorem classDecl_keeps (ih : StatementKeeps row fuel) :
    KeepsFrom row [.kwClass] (classDecl (fuel + 1)) := by
  rw [classDecl]
  refine (keepsFrom_accept hrow (by decide)).bind fun keyword => ?_
  refine (keeps_expect hrow (by decide) _).bind fun name => ?_
  refine KeepsFrom.bind ((keeps_accept hrow (by decide)).bind fun found => ?_) fun superclass => ?_
  · cases found with
    | none => exact keeps_pure none
    | some less => exact (keeps_expect hrow (by decide) _).map some
  · refine (keeps_expect hrow (by decide) _).bind fun leftBrace => ?_
    refine ih.methods.bind fun methods => ?_
    exact (keeps_expect hrow (by decide) _).bind fun rightBrace => keeps_pure _

omit hrow in
theorem methods_keeps (ih : StatementKeeps row fuel) : Keeps row (methods (fuel + 1)) := by
  rw [methods]
  refine keeps_peek.bind fun kind => ?_
  split
  · exact keeps_pure []
  · exact keeps_pure []
  · refine (ih.function .method).keeps.bind fun first => ?_
    exact ih.methods.bind fun others => keeps_pure _

/-- A function may begin at its keyword, reported or not. -/
theorem function_keeps (ih : StatementKeeps row fuel) (role : FunctionRole) :
    KeepsFrom row [.kwFun] (function (fuel + 1) role) := by
  rw [function]
  refine (keepsFrom_expect hrow (by decide) _).bind fun keyword => ?_
  refine (keeps_expect hrow (by decide) _).bind fun name => ?_
  refine (keeps_expect hrow (by decide) _).bind fun leftParen => ?_
  refine (parameters_keeps hrow).bind fun params => ?_
  refine (keeps_expect hrow (by decide) _).bind fun leftBrace => ?_
  exact ih.block.keeps.bind fun body => keeps_pure _

/-- A statement may begin at one of its keywords, reported or not. -/
theorem statement_keeps (ih : StatementKeeps row fuel) :
    KeepsFrom row statementStarts (statement (fuel + 1)) := by
  rw [statement]
  refine KeepsFrom.bind (keepsFrom_accept hrow (by decide)) fun found => ?_
  cases found with
  | none => exact expressionStatement_keeps hrow
  | some token =>
    dsimp only
    split
    · refine (expressionKeeps hrow fuel).expression.bind fun expr => ?_
      exact (keeps_expect hrow (by decide) _).bind fun semicolon => keeps_pure _
    · exact ih.block.keeps.map _
    · exact ih.ifElse
    · exact ih.whileLoop
    · exact ih.forLoop
    · refine (clause_keeps hrow _).bind fun value => ?_
      exact (keeps_expect hrow (by decide) _).bind fun semicolon => keeps_pure _

/-- What follows `if` keeps the errors in order. -/
theorem ifElse_keeps (ih : StatementKeeps row fuel) : Keeps row (ifElse (fuel + 1)) := by
  rw [ifElse]
  refine (keeps_expect hrow (by decide) _).bind fun leftParen => ?_
  refine (expressionKeeps hrow fuel).expression.bind fun condition => ?_
  refine (keeps_expect hrow (by decide) _).bind fun rightParen => ?_
  refine ih.statement.keeps.bind fun thenBranch => ?_
  refine (keeps_accept hrow (by decide)).bind fun found => ?_
  cases found with
  | none => exact keeps_pure _
  | some keyword => exact ih.statement.keeps.bind fun elseBranch => keeps_pure _

theorem whileLoop_keeps (ih : StatementKeeps row fuel) : Keeps row (whileLoop (fuel + 1)) := by
  rw [whileLoop]
  refine (keeps_expect hrow (by decide) _).bind fun leftParen => ?_
  refine (expressionKeeps hrow fuel).expression.bind fun condition => ?_
  refine (keeps_expect hrow (by decide) _).bind fun rightParen => ?_
  exact ih.statement.keeps.bind fun body => keeps_pure _

/-- What stands before the condition of a `for` does. -/
theorem initializer_keeps :
    Keeps row (do
      match ← peek with
      | .semicolon => do
        let _ ← accept [.semicolon]
        pure none
      | .kwVar => some <$> variableDecl fuel
      | _ => some <$> expressionStatement fuel) := by
  refine keeps_peek.bind fun kind => ?_
  split
  · exact (keeps_accept hrow (by decide)).bind fun semicolon => keeps_pure none
  · exact (variableDecl_keeps hrow).keeps.map some
  · exact (expressionStatement_keeps hrow).map some

theorem forLoop_keeps (ih : StatementKeeps row fuel) : Keeps row (forLoop (fuel + 1)) := by
  rw [forLoop]
  refine (keeps_expect hrow (by decide) _).bind fun leftParen => ?_
  refine (initializer_keeps hrow).bind fun init => ?_
  refine (clause_keeps hrow _).bind fun condition => ?_
  refine (keeps_expect hrow (by decide) _).bind fun semicolon => ?_
  refine (clause_keeps hrow _).bind fun post => ?_
  refine (keeps_expect hrow (by decide) _).bind fun rightParen => ?_
  exact ih.statement.keeps.bind fun body => keeps_pure _

/-- Each form of declaration consumes the keyword that it is known by. -/
theorem declaration_keeps (ih : StatementKeeps row fuel) :
    KeepsFrom row statementKeywords (declaration (fuel + 1)) := by
  rw [declaration]
  refine keepsFrom_peek fun kind => ?_
  split
  · exact ih.classDecl.at fun _ => by decide
  · exact ((ih.function .function).map Stmt.function).at fun _ => by decide
  · exact (variableDecl_keeps hrow).at fun _ => by decide
  · -- What is left of the keywords are those of statements.
    next hclass hfun hvar =>
    refine ih.statement.at fun hmem => ?_
    revert hmem
    cases kind <;> simp_all [statementKeywords, statementStarts]

/-! ## Recovery

This is where an error is noted at a token that comes next. Either the token is skipped, or it is a
keyword that skipping stops before, or the end. -/

/-- Skipping passes the token that was reported, unless it stops before it. -/
theorem Orderly.skipped (h : Orderly row pending kinds s) :
    Orderly row pending statementKeywords s.skipped := by
  induction hrest : s.rest generalizing s kinds with
  | nil =>
    have hend : s.nextKind = .endOfFile := by rw [State.nextKind, hrest]
    rw [skipped_of_stop (.inl hend)]
    exact h.allow fun _ => hend ▸ .head _
  | cons token rest ih =>
    by_cases hstop : s.nextKind = .endOfFile ∨ startsStatement s.nextKind = true
    · rw [skipped_of_stop hstop]
      refine h.allow fun _ => List.mem_cons.mpr ?_
      exact hstop.imp_right startsStatement_eq_true.mp
    have hnext : s.nextKind = token.kind := by rw [State.nextKind, hrest]
    have hne : token.kind ≠ .endOfFile := fun heq => hstop (.inl (hnext.trans heq))
    have hconsumed := (h.consume hrow hrest hne).2.less (List.sublist_cons_self _ _)
    -- The token is consumed, and with it goes whatever was noted there.
    by_cases hsemicolon : token.kind = .semicolon
    · rw [skipped_of_semicolon hrest hsemicolon]
      exact hconsumed.allow_any _
    · rw [skipped_of_other hrest hstop hsemicolon]
      exact ih hconsumed rfl

/-- After a declaration that may have failed, the token that was reported comes next only if it is
a keyword that begins another one. -/
theorem outcome_recovering {x : Parser α} {f : Option α → Parser β} (hx : KeepsFrom row kinds x)
    (h : Orderly row pending kinds s)
    (hf : ∀ found s₁, Orderly row pending statementKeywords s₁ →
      Outcome row pending (f found s₁)) :
    Outcome row pending ((recovering x >>= f) s) := by
  have houtcome := hx s pending h
  cases hrun : x s with
  | ok a s₁ =>
    rw [hrun] at houtcome
    rw [bind_of_ok (recovering_of_ok hrun)]
    exact hf _ s₁ (Orderly.allow_any houtcome _)
  | error stop s₁ =>
    rw [hrun] at houtcome
    cases stop with
    | outOfFuel =>
      rw [bind_of_error (show recovering x s = .error .outOfFuel s₁ by rw [recovering, hrun])]
      trivial
    | syntaxError error =>
      obtain ⟨hs₁, expected, rfl⟩ := houtcome
      -- The error is noted where it was found. Skipping then goes past that token or stops before
      -- it, and it stops only before a keyword.
      have hskipped := (hs₁.note_unexpected expected).skipped hrow
      refine (bind_of_ok ?_).symm ▸ hf none _ hskipped
      rw [recovering, hrun]
      rfl

/-- A block may begin at a keyword that was reported, as its declarations may. -/
theorem block_keeps (ih : StatementKeeps row fuel) :
    KeepsFrom row statementKeywords (block (fuel + 1)) := by
  rw [block]
  refine keepsFrom_peek fun kind => ?_
  split
  · have hclose : Keeps row (do let _ ← accept [.rightBrace]; pure ([] : List Stmt)) :=
      (keeps_accept hrow (by decide)).bind fun brace => keeps_pure _
    exact hclose.at (by decide)
  · exact (keeps_reject _).at fun _ => by decide
  · intro s pending _ h
    refine outcome_recovering hrow ih.declaration h fun found s₁ h₁ => ?_
    exact ih.block.bind (fun others => keeps_pure _) s₁ pending h₁

/-- With any bound the functions for statements keep the errors in order. -/
theorem statementKeeps (fuel : Nat) : StatementKeeps row fuel := by
  induction fuel with
  | zero => constructor <;> intros <;> exact keeps_exhausted
  | succ fuel ih =>
    exact
      { declaration := declaration_keeps hrow ih
        classDecl := classDecl_keeps hrow ih
        methods := methods_keeps ih
        function := function_keeps hrow ih
        statement := statement_keeps hrow ih
        ifElse := ifElse_keeps hrow ih
        whileLoop := whileLoop_keeps hrow ih
        forLoop := forLoop_keeps hrow ih
        block := block_keeps hrow ih }

/-- A program keeps the errors in order. The induction is on the fuel; between two declarations the
next token may have been reported, if it is a keyword that skipping has stopped before. -/
theorem program_keeps (fuel : Nat) : KeepsFrom row statementKeywords (program fuel) := by
  induction fuel with
  | zero => exact keeps_exhausted
  | succ fuel ih =>
    intro s pending h
    -- At the end nothing more is noted.
    by_cases hend : s.nextKind = .endOfFile
    · rw [program_at_end hend]
      exact h.allow fun _ => hend ▸ .head _
    · rw [program_before_end hend]
      refine outcome_recovering hrow (statementKeeps hrow fuel).declaration h fun found s₁ h₁ => ?_
      exact ih.bind (fun others => keeps_pure _) s₁ pending h₁

end

/-- The parser starts at the first token of a numbered row. -/
theorem orderly_initial (tokens : List Token) :
    Orderly (numbered tokens) [] [] ⟨numbered tokens, .origin, []⟩ := by
  have hplace : (⟨numbered tokens, .origin, []⟩ : State).place = 0 := by
    have hrow := indexed_numbered tokens
    cases hrow' : numbered tokens with
    | nil => rfl
    | cons token rest => exact hrow.start (by rw [hrow']; rfl)
  exact
    { rest := by rw [hplace]; rfl
      consumed := by
        rw [hplace]
        exact fun before hlt => absurd hlt (Nat.not_lt_zero before)
      passed := fun _ hmem => absurd hmem List.not_mem_nil
      distinct := List.nodup_nil
      noted := fun _ hmem => absurd hmem List.not_mem_nil
      ordered := List.Pairwise.nil }

end Parser

/-- The errors of a row go forward in it. -/
structure Forward (tokens : List Token) (faults : List Fault) : Prop where
  /-- An unexpected token is of the kind that is reported and stands no further than the end;
  `end of file` is found at the end, and only there. -/
  unexpected : ∀ fault ∈ faults, ∀ expected found, fault.fault = .unexpected expected found →
    found = kindAt tokens fault.place ∧ fault.place ≤ endPlace tokens ∧
      (found = .endOfFile ↔ fault.place = endPlace tokens)
  /-- Between two unexpected tokens one has been consumed, except at the end. -/
  progress : faults.Pairwise fun earlier later =>
    earlier.fault ≠ .invalidAssignmentTarget → later.fault ≠ .invalidAssignmentTarget →
      earlier.place < later.place ∨
        earlier.place = endPlace tokens ∧ later.place = endPlace tokens
  /-- What assigns to no target is reported at its `=`. -/
  target : ∀ fault ∈ faults, fault.fault = .invalidAssignmentTarget →
    fault.place < endPlace tokens ∧ kindAt tokens fault.place = .equal
  /-- No `=` is reported twice. -/
  once : faults.Pairwise fun earlier later =>
    earlier.fault = .invalidAssignmentTarget → later.fault = .invalidAssignmentTarget →
      earlier.place ≠ later.place

/-- Up to the end a token is an end-of-file token only at the end. -/
theorem kindAt_eq_endOfFile {tokens : List Token} {place : Nat} (h : place ≤ endPlace tokens) :
    kindAt tokens place = .endOfFile ↔ place = endPlace tokens := by
  constructor
  · intro hkind
    rcases Nat.lt_or_eq_of_le h with hlt | heq
    · exact absurd hkind (kindAt_of_lt_endPlace hlt)
    · exact heq
  · rintro rfl
    exact kindAt_endPlace tokens

namespace Parser

/-- No error is noted past the end, since the parser never gets there. -/
theorem Orderly.noted_le {tokens : List Token} {s : State} {error : SyntaxError}
    (h : Orderly (numbered tokens) [] [] s) (herror : error ∈ s.errors) :
    error.span.start ≤ endPlace tokens := by
  have hpassed : s.place ≤ endPlace tokens := endPlace_numbered tokens ▸ le_endPlace h.consumed
  have hnoted := h.noted error herror
  unfold Noted at hnoted
  split at hnoted
  · rcases hnoted.2 with hlt | ⟨heq, -⟩ <;> omega
  · have hlt := hnoted.2.1
    omega

/-- The order of the errors on the numbered row, said of the row itself. -/
theorem Orderly.forward {tokens : List Token} {s : State}
    (h : Orderly (numbered tokens) [] [] s) :
    Forward tokens (s.errors.map fun error => ⟨error.fault, error.span.start⟩) where
  unexpected := by
    intro fault hmem expected found hfault
    obtain ⟨error, herror, rfl⟩ := List.mem_map.mp hmem
    have hnoted := h.noted error herror
    unfold Noted at hnoted
    rw [show error.fault = .unexpected expected found from hfault] at hnoted
    have hfound : found = kindAt tokens error.span.start := by
      rw [hnoted.1, kindAt_numbered]
    refine ⟨hfound, h.noted_le herror, ?_⟩
    rw [hfound]
    exact kindAt_eq_endOfFile (h.noted_le herror)
  progress := by
    refine List.pairwise_map.mpr (h.ordered.imp_of_mem ?_)
    intro earlier later _ hmem hordered hearlier hlater
    -- Two unexpected tokens at the same place are both the end of the input.
    refine (hordered.unexpected hearlier hlater).imp_right fun ⟨heq, hkind⟩ => ?_
    rw [kindAt_numbered, kindAt_eq_endOfFile (h.noted_le hmem)] at hkind
    exact ⟨heq.trans hkind, hkind⟩
  target := by
    intro fault hmem hfault
    obtain ⟨error, herror, rfl⟩ := List.mem_map.mp hmem
    have hnoted := h.noted error herror
    unfold Noted at hnoted
    rw [show error.fault = .invalidAssignmentTarget from hfault] at hnoted
    obtain ⟨hequal, hplace, -⟩ := hnoted
    rw [kindAt_numbered] at hequal
    exact ⟨Nat.lt_of_lt_of_le hplace (endPlace_numbered tokens ▸ le_endPlace h.consumed), hequal⟩
  once := List.pairwise_map.mpr (h.ordered.imp fun hordered => hordered.target)

end Parser

/-- Recovery ends and makes progress. Whatever the tokens are and whatever the bound is, if only it
is large enough, the parser ends; what it reports are the errors of the row with the spans of their
tokens, and these errors go forward in the row. That they do is shown of the row with its indices
for places, in which places only grow. -/
theorem parse_recovers (tokens : List Token) :
    (∀ more, ∃ statements s',
      Parser.program (Parser.fuelFor tokens + more) ⟨tokens, .origin, []⟩ = .ok statements s' ∧
        s'.errors = parseErrors tokens) ∧
      parseErrors tokens = (faults tokens).map (Fault.report tokens) ∧
      Forward tokens (faults tokens) := by
  refine ⟨Parser.program_errors tokens, parseErrors_eq tokens, ?_⟩
  obtain ⟨statements, s', hrun, herrors⟩ := Parser.program_errors (numbered tokens) 0
  have hkeeps := Parser.program_keeps (indexed_numbered tokens)
    (Parser.fuelFor (numbered tokens) + 0) _ _ ((Parser.orderly_initial tokens).allow_any _)
  rw [hrun] at hkeeps
  have hforward := Parser.Orderly.forward hkeeps
  rwa [herrors] at hforward

/-- An assignment without a value, and a statement that the end cuts off. -/
example : (faults (tokens "1 = ; print")).map Fault.place = [2, 4] := by decide +kernel

end Script
