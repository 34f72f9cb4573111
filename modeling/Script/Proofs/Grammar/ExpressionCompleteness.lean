import Script.Proofs.Grammar.Reading
import Script.Proofs.Grammar.Rules

/-!
# What the expression parser finds

The converse of `ExpressionSoundness`: where the input begins with the text of a tree of some
nonterminal, the parsing function of that nonterminal yields this tree and stops after the text.
Two side conditions come with it. The token after the text must not continue the expression, and
the fuel must suffice: sixteen for each token of the text, and a few more for the levels that the
function passes through before it reaches a token.

Left-associative trees grow along their left side, while the parser reads them from the left by a
loop. The two meet in the *spine* lemmas: the loop that starts at the leftmost operand arrives at
the whole tree, having used less fuel than the tree has tokens.
-/

namespace Script

namespace Parser

open Grammar

variable {α β : Type} {s : State} {rest : List Token}

/-! ## Runs that yield a given result

A run is put together from the runs of its steps. Each step leaves the tokens that the next one has
to read. -/

/-- The function yields `a`, leaves the tokens `rest`, and notes no error. -/
def Parses (x : Parser α) (a : α) (s : State) (rest : List Token) : Prop :=
  ∃ s', x s = .ok a s' ∧ s'.rest = rest ∧ s'.errors = s.errors

/-- A parser that yields a result and consumes nothing leaves the tokens that are there. -/
theorem Parses.pure (a : α) (h : s.rest = rest) : Parses (pure a) a s rest := ⟨s, rfl, h, rfl⟩

/-- The second step begins with the tokens that the first one leaves. -/
theorem Parses.bind {x : Parser α} {f : α → Parser β} {a : α} {b : β} {middle : List Token}
    (hx : Parses x a s middle) (hf : ∀ s₁, s₁.rest = middle → Parses (f a) b s₁ rest) :
    Parses (x >>= f) b s rest := by
  obtain ⟨s₁, hrun, hmiddle, herrors₁⟩ := hx
  obtain ⟨s', hrun', hrest, herrors⟩ := hf s₁ hmiddle
  exact ⟨s', by rw [bind_of_ok hrun, hrun'], hrest, herrors.trans herrors₁⟩

/-- What becomes of the result is of no account for the tokens. -/
theorem Parses.map {x : Parser α} {f : α → β} {a : α} (h : Parses x a s rest) :
    Parses (f <$> x) (f a) s rest := by
  obtain ⟨s', hrun, hrest, herrors⟩ := h
  exact ⟨s', map_of_ok hrun, hrest, herrors⟩

/-- A token of the kinds that are asked for is taken. -/
theorem parses_accept {kinds : List TokenKind} {token : Token} (h : s.rest = token :: rest)
    (hkind : token.kind ∈ kinds) : Parses (accept kinds) (some token) s rest :=
  ⟨_, accept_of_mem h hkind, rfl, rfl⟩

/-- A token of another kind is left, and the parser goes on without it. -/
theorem parses_accept_none {kinds : List TokenKind} (h : s.rest = rest)
    (hkind : headKind rest ∉ kinds) : Parses (accept kinds) none s rest :=
  ⟨s, accept_of_not_mem (by rwa [State.nextKind_eq, h]), h, rfl⟩

/-- The token that is expected is taken, and what is behind it is left. -/
theorem parses_expect {kind : TokenKind} {expected : Expectation} {token : Token}
    (h : s.rest = token :: rest) (hkind : token.kind = kind) :
    Parses (expect kind expected) token s rest :=
  ⟨_, expect_of_kind h hkind, rfl, rfl⟩

/-- Looking at the next token consumes nothing. -/
theorem parses_peek {kind : TokenKind} (h : s.rest = rest) (hkind : headKind rest = kind) :
    Parses peek kind s rest :=
  ⟨s, by rw [peek, State.nextKind_eq, h, hkind], h, rfl⟩

/-! ## First tokens

Where an alternative of the grammar is chosen by looking at the next token, the text of a tree has
to tell its kind. The kind of the first token is that of the first mark. -/

/-- The first token of a text is of the kind of its first mark. -/
theorem Spells.headKind_eq {mark : Mark} {marks : List Mark} {tokens rest : List Token}
    (h : Spells (mark :: marks) tokens rest) : headKind tokens = mark.kind := by
  obtain ⟨token, others, rfl, hfits, -, -⟩ := h
  exact hfits.kind_eq

/-- The kinds of the tokens that an expression may begin with. -/
def expressionKinds : List TokenKind := primaryKinds ++ unaryKinds

/-- The text of the tree begins with a token of one of these kinds. -/
def Starts (kinds : List TokenKind) (marks : List Mark) : Prop :=
  ∃ mark others, marks = mark :: others ∧ mark.kind ∈ kinds

/-- What is added behind a text does not change its first token. -/
theorem Starts.append {kinds : List TokenKind} {a : List Mark} (h : Starts kinds a)
    (b : List Mark) : Starts kinds (a ++ b) := by
  obtain ⟨mark, others, rfl, hkind⟩ := h
  exact ⟨mark, others ++ b, rfl, hkind⟩

/-- The first token is also of one of more kinds. -/
theorem Starts.mono {kinds more : List TokenKind} {marks : List Mark} (h : Starts kinds marks)
    (hmore : kinds ⊆ more) : Starts more marks := by
  obtain ⟨mark, others, hmarks, hkind⟩ := h
  exact ⟨mark, others, hmarks, hmore hkind⟩

/-- A text with a first token is not empty. -/
theorem Starts.length_pos {kinds : List TokenKind} {marks : List Mark} (h : Starts kinds marks) :
    0 < marks.length := by
  obtain ⟨mark, others, rfl, -⟩ := h
  simp

/-- The next token is of one of the kinds that the text may begin with. -/
theorem Starts.headKind_mem {kinds : List TokenKind} {marks : List Mark}
    (h : Starts kinds marks) {tokens rest : List Token} (hspells : Spells marks tokens rest) :
    headKind tokens ∈ kinds := by
  obtain ⟨mark, others, rfl, hkind⟩ := h
  rwa [Spells.headKind_eq hspells]

/-- A primary expression begins with one of the tokens that its function takes. -/
theorem starts_of_primary {e : Expr} (h : Primary e) : Starts primaryKinds e.marks := by
  cases h with
  | literal h =>
    refine ⟨_, _, rfl, ?_⟩
    have hkinds : literalKinds ⊆ primaryKinds := by decide
    exact hkinds h
  | «variable» h => exact ⟨_, _, rfl, by rw [Mark.kind, h]; decide⟩
  | this h => exact ⟨_, _, rfl, by rw [Mark.kind, h]; decide⟩
  | grouping => exact ⟨_, _, rfl, by rw [Mark.kind]; decide⟩
  | superGet h => exact ⟨_, _, rfl, by rw [Mark.kind, h]; decide⟩
  | superCall h => exact ⟨_, _, rfl, by rw [Mark.kind, h]; decide⟩

/-- A call chain begins as its innermost callee does. -/
theorem starts_of_call {e : Expr} (h : Call e) : Starts primaryKinds e.marks := by
  cases h with
  | primary h => exact starts_of_primary h
  | applied hcallee => exact (starts_of_call hcallee).append _
  | property hobject => exact (starts_of_call hobject).append _
termination_by sizeOf e

/-- An expression may begin with whatever a primary expression begins with. -/
theorem primaryKinds_subset : primaryKinds ⊆ expressionKinds := List.subset_append_left _ _

/-- A unary expression begins with its operator or as a call chain does. -/
theorem starts_of_unary {e : Expr} (h : Unary e) : Starts expressionKinds e.marks := by
  cases h with
  | applied hoperator =>
    refine ⟨_, _, rfl, ?_⟩
    have hkinds : unaryKinds ⊆ expressionKinds := by decide
    exact hkinds hoperator
  | call h => exact (starts_of_call h).mono primaryKinds_subset

/-- A tree of some level begins as its leftmost operand does. -/
theorem starts_of_binary : ∀ {levels : List (List TokenKind)} {e : Expr}, Binary levels e →
    Starts expressionKinds e.marks
  | _, _, .operand h => starts_of_unary h
  | _, _, .tighter h => starts_of_binary h
  | _, _, .joined hleft _ _ => (starts_of_binary hleft).append _

/-- An assignment begins as its target does, and so with one of the tokens that begin an
expression. -/
theorem starts_of_assignment {e : Expr} (h : Assignment e) : Starts expressionKinds e.marks := by
  cases h with
  | toVariable hname => exact ⟨_, _, rfl, by rw [Mark.kind, hname]; decide⟩
  | toProperty hobject => exact ((starts_of_call hobject).mono primaryKinds_subset).append _
  | noTarget h => exact starts_of_binary h

/-! ## Tokens that end an expression

The loops for calls and for operators go on as long as they can. They stop at the end of the text
only if the next token is none of those that would go on, at no level that they have passed. -/

/-- The kinds of the tokens that come after a whole expression. -/
def closingKinds : List TokenKind := [.semicolon, .rightParen, .comma]

/-- No operator of a level is one of a tighter level, and none continues a call chain. -/
def Separated : List (List TokenKind) → Prop
  | [] => True
  | operators :: tighter =>
    (∀ kind ∈ operators, kind ∉ .leftParen :: .dot :: tighter.flatten) ∧ Separated tighter

/-- The levels of the parser share no operators, so an operator that ends one level belongs to one
further out. -/
theorem separated_operatorLevels : Separated operatorLevels := by
  simp [Separated, operatorLevels]

/-- An operand is a tree of every level. -/
theorem binary_of_unary {e : Expr} (h : Unary e) (levels : List (List TokenKind)) :
    Binary levels e := by
  induction levels with
  | nil => exact .operand h
  | cons operators tighter ih => exact .tighter ih

/-! ## The statements about all functions

An expression as a whole passes through the six levels and a few functions more before it takes a
token, ten calls altogether; the functions below it need less. -/

/-- The expression parser is complete with this much fuel. -/
structure ExpressionComplete (fuel : Nat) : Prop where
  expression : ∀ {e : Expr} {s : State} {rest : List Token}, Assignment e →
    16 * e.marks.length + 10 ≤ fuel → Spells e.marks s.rest rest →
    headKind rest ∈ closingKinds → Parses (expression fuel) e s rest
  binary : ∀ {levels : List (List TokenKind)} {e : Expr} {s : State} {rest : List Token},
    Separated levels → Binary levels e → 16 * e.marks.length + 2 + levels.length ≤ fuel →
    Spells e.marks s.rest rest → headKind rest ∉ .leftParen :: .dot :: levels.flatten →
    Parses (binary fuel levels) e s rest
  unary : ∀ {e : Expr} {s : State} {rest : List Token}, Unary e →
    16 * e.marks.length + 1 ≤ fuel → Spells e.marks s.rest rest →
    headKind rest ∉ [.leftParen, .dot] → Parses (unary fuel) e s rest
  arguments : ∀ {es : List Expr} {s : State} {rest : List Token}, (∀ e ∈ es, Assignment e) →
    16 * (Expr.argumentMarks es).length ≤ fuel → Spells (Expr.argumentMarks es) s.rest rest →
    Parses (arguments fuel) es s rest
  argumentRow : ∀ {first : Expr} {others : List Expr} {s : State} {rest : List Token},
    (∀ e ∈ first :: others, Assignment e) →
    16 * (first.marks ++ Expr.moreArgumentMarks others).length ≤ fuel + 1 →
    Spells (first.marks ++ Expr.moreArgumentMarks others) s.rest rest →
    Parses (argumentRow fuel) (first :: others) s rest
  primary : ∀ {e : Expr} {s : State} {rest : List Token}, Primary e →
    16 * e.marks.length ≤ fuel → Spells e.marks s.rest rest → Parses (primary fuel) e s rest

variable {fuel : Nat}

/-! ## One step of each function

The two functions that are loops have no statement of their own here; their runs are the spines
below. -/

/-- A method of the superclass is read from its text. -/
theorem superGet_complete {keyword method : Token} (hmethod : method.kind = .identifier)
    (hspells : Spells [.fixed .dot, .held method] s.rest rest) :
    Parses (superMember (fuel + 1) keyword) (.superGet keyword method) s rest := by
  rw [superMember]
  obtain ⟨dot, _, hrest, hdot, -, token, _, rfl, rfl, -, rfl⟩ := hspells
  have hkind : dot.kind = .dot := hdot
  refine (parses_accept hrest (by rw [hkind]; decide)).bind fun s₁ hs₁ => ?_
  simp only [if_pos hkind]
  exact (parses_expect hs₁ hmethod).bind fun s₂ hs₂ => .pure _ hs₂

/-- A call of the superclass's constructor is read from its text. -/
theorem superCall_complete (ih : ExpressionComplete fuel) {keyword : Token} {es : List Expr}
    (hes : ∀ e ∈ es, Assignment e) (hfuel : 16 * (Expr.argumentMarks es).length ≤ fuel)
    (hspells : Spells (.fixed .leftParen :: Expr.argumentMarks es) s.rest rest) :
    Parses (superMember (fuel + 1) keyword) (.superCall keyword es) s rest := by
  rw [superMember]
  obtain ⟨paren, others, hrest, hparen, -, hspells⟩ := hspells
  have hkind : paren.kind = .leftParen := hparen
  refine (parses_accept hrest (by rw [hkind]; decide)).bind fun s₁ hs₁ => ?_
  simp only [hkind, reduceCtorEq, if_false]
  exact (ih.arguments hes hfuel (hs₁ ▸ hspells)).bind fun s₂ hs₂ => .pure _ hs₂

/-- A primary expression is read from its text, whatever follows it. -/
theorem primary_complete (ih : ∀ m ≤ fuel, ExpressionComplete m) {e : Expr} (h : Primary e)
    (hfuel : 16 * e.marks.length ≤ fuel + 1) (hspells : Spells e.marks s.rest rest) :
    Parses (primary (fuel + 1)) e s rest := by
  rw [primary]
  cases h with
  | literal h =>
    obtain ⟨token, others, hrest, rfl, -, rfl⟩ := hspells
    have hkinds : literalKinds ⊆ primaryKinds := by decide
    refine (parses_accept hrest (hkinds h)).bind fun s₁ hs₁ => ?_
    have hliteral := h
    simp only [literalKinds, List.mem_cons, List.not_mem_nil, or_false] at hliteral
    -- All literals are built in the same way from their token.
    rcases hliteral with hkind | hkind | hkind | hkind | hkind <;>
      simpa only [hkind] using Parses.pure _ hs₁
  | «variable» h =>
    obtain ⟨token, others, hrest, rfl, -, rfl⟩ := hspells
    refine (parses_accept hrest (by rw [h]; decide)).bind fun s₁ hs₁ => ?_
    simpa only [h] using Parses.pure _ hs₁
  | this h =>
    obtain ⟨token, others, hrest, rfl, -, rfl⟩ := hspells
    refine (parses_accept hrest (by rw [h]; decide)).bind fun s₁ hs₁ => ?_
    simpa only [h] using Parses.pure _ hs₁
  | @grouping inner h =>
    obtain ⟨paren, others, hrest, hparen, -, hspells⟩ := hspells
    obtain ⟨middle, hinner, close, _, rfl, hclose, -, rfl⟩ := spells_append.mp hspells
    refine (parses_accept hrest (by rw [hparen]; decide)).bind fun s₁ hs₁ => ?_
    simp only [show paren.kind = .leftParen from hparen]
    simp only [Expr.marks, List.length_cons, List.length_append, List.length_nil] at hfuel
    have hbody := (ih fuel (Nat.le_refl _)).expression (s := s₁) h (by omega) (hs₁ ▸ hinner)
      (by rw [headKind, show close.kind = .rightParen from hclose]; decide)
    refine hbody.bind fun s₂ hs₂ => ?_
    exact (parses_expect hs₂ hclose).bind fun s₃ hs₃ => .pure _ hs₃
  | superGet hkeyword hmethod =>
    obtain ⟨keyword, others, hrest, rfl, -, hspells⟩ := hspells
    -- The function for what follows the keyword takes a second unit of fuel.
    obtain ⟨less, rfl⟩ : ∃ m, fuel = m + 1 := ⟨fuel - 1, by simp [Expr.marks] at hfuel; omega⟩
    refine (parses_accept hrest (by rw [hkeyword]; decide)).bind fun s₁ hs₁ => ?_
    simp only [hkeyword]
    exact superGet_complete hmethod (hs₁ ▸ hspells)
  | superCall hkeyword harguments =>
    obtain ⟨keyword, others, hrest, rfl, -, hspells⟩ := hspells
    simp only [Expr.marks, List.length_cons] at hfuel
    obtain ⟨less, rfl⟩ : ∃ m, fuel = m + 1 := ⟨fuel - 1, by omega⟩
    refine (parses_accept hrest (by rw [hkeyword]; decide)).bind fun s₁ hs₁ => ?_
    simp only [hkeyword]
    exact superCall_complete (ih less (by omega)) harguments (by omega) (hs₁ ▸ hspells)

/-- The arguments of a call are read from their text, the closing parenthesis included. -/
theorem arguments_complete (ih : ExpressionComplete fuel) {es : List Expr}
    (h : ∀ e ∈ es, Assignment e) (hfuel : 16 * (Expr.argumentMarks es).length ≤ fuel + 1)
    (hspells : Spells (Expr.argumentMarks es) s.rest rest) :
    Parses (arguments (fuel + 1)) es s rest := by
  rw [arguments]
  cases es with
  | nil =>
    obtain ⟨paren, _, hrest, hparen, -, rfl⟩ := hspells
    have hkind : paren.kind = .rightParen := hparen
    exact (parses_accept hrest (by simp [hkind])).bind fun s₁ hs₁ => .pure _ hs₁
  | cons first others =>
    have hkinds := ((starts_of_assignment (h first (.head _))).append
      (Expr.moreArgumentMarks others)).headKind_mem hspells
    -- there is an argument, and no expression starts with the closing parenthesis
    have hnext : headKind s.rest ∉ [TokenKind.rightParen] := by
      intro hparen
      rw [List.mem_singleton.mp hparen] at hkinds
      exact absurd hkinds (by decide)
    refine (parses_accept_none rfl hnext).bind fun s₁ hs₁ => ?_
    exact ih.argumentRow h hfuel (hs₁ ▸ hspells)

/-- A row of arguments is read from its text. Each argument ends before a comma or before the
parenthesis. -/
theorem argumentRow_complete (ih : ExpressionComplete fuel) {first : Expr} {others : List Expr}
    (h : ∀ e ∈ first :: others, Assignment e)
    (hfuel : 16 * (first.marks ++ Expr.moreArgumentMarks others).length ≤ fuel + 2)
    (hspells : Spells (first.marks ++ Expr.moreArgumentMarks others) s.rest rest) :
    Parses (argumentRow (fuel + 1)) (first :: others) s rest := by
  rw [argumentRow]
  obtain ⟨middle, hfirst, hspells⟩ := spells_append.mp hspells
  have hassignment := h first (.head _)
  cases others with
  | nil =>
    obtain ⟨paren, _, rfl, hparen, -, rfl⟩ := hspells
    have hkind : paren.kind = .rightParen := hparen
    simp only [Expr.moreArgumentMarks, List.length_append, List.length_singleton] at hfuel
    refine (ih.expression hassignment (by omega) hfirst
      (by rw [headKind, hkind]; decide)).bind fun s₁ hs₁ => ?_
    refine (parses_accept_none hs₁ (by rw [headKind, hkind]; decide)).bind fun s₂ hs₂ => ?_
    exact (parses_expect hs₂ hkind).bind fun s₃ hs₃ => .pure _ hs₃
  | cons next others =>
    obtain ⟨comma, after, rfl, hcomma, -, hspells⟩ := hspells
    have hkind : comma.kind = .comma := hcomma
    simp only [Expr.moreArgumentMarks, List.length_append, List.length_cons] at hfuel
    refine (ih.expression hassignment (by omega) hfirst
      (by rw [headKind, hkind]; decide)).bind fun s₁ hs₁ => ?_
    refine (parses_accept hs₁ (by simp [hkind])).bind fun s₂ hs₂ => ?_
    -- The comma pays for the call that reads the others, so the bound on the fuel is kept.
    refine (ih.argumentRow (fun e he => h e (.tail _ he)) ?_ (hs₂ ▸ hspells)).bind
      fun s₃ hs₃ => .pure _ hs₃
    simp only [List.length_append]
    omega

/-! ## Spines

The tree has its last call or its last operator at the root, while the loop meets it last. So the
induction over the tree does not follow the calls of the loop: it says where the loop stands when it
has read the left part, and what fuel it has then. -/

/-- The loop over calls and properties arrives at the whole of a call chain. -/
theorem chain_spine (ih : ∀ m ≤ fuel, ExpressionComplete m) :
    ∀ {e : Expr}, Call e → ∀ {s : State} {rest : List Token}, 16 * e.marks.length ≤ fuel →
      Spells e.marks s.rest rest → ∃ spent s₁, spent < e.marks.length ∧ s₁.rest = rest ∧
        s₁.errors = s.errors ∧
        (primary fuel >>= chain fuel) s = chain (fuel - spent) e s₁
  | _, .primary h, s, rest, hfuel, hspells => by
    obtain ⟨s₁, hrun, hrest, herrors⟩ := (ih fuel (Nat.le_refl _)).primary h hfuel hspells
    exact ⟨0, s₁, (starts_of_primary h).length_pos, hrest, herrors, bind_of_ok hrun⟩
  | _, @Call.applied _ paren es hcallee hparen hes, s, rest, hfuel, hspells => by
    obtain ⟨middle, hspellsCallee, hspells⟩ := spells_append.mp hspells
    obtain ⟨_, others, rfl, rfl, -, hspellsArguments⟩ := hspells
    simp only [Expr.marks, List.length_append, List.length_cons] at hfuel ⊢
    -- the loop has arrived at the callee, and one more turn reads the arguments
    obtain ⟨spent, s₁, hspent, hs₁, herrors₁, hrun⟩ :=
      chain_spine ih hcallee (by omega) hspellsCallee
    obtain ⟨left, hleft⟩ : ∃ left, fuel - spent = left + 1 := ⟨fuel - spent - 1, by omega⟩
    have hkinds : paren.kind ∈ [TokenKind.leftParen, .dot] := by rw [hparen]; decide
    obtain ⟨s₂, haccept, hs₂, herrors₂⟩ := parses_accept hs₁ hkinds
    obtain ⟨s₃, harguments, hs₃, herrors₃⟩ := (ih left (by omega)).arguments (s := s₂) hes
      (by omega) (hs₂ ▸ hspellsArguments)
    refine ⟨spent + 1, s₃, by omega, hs₃, by rw [herrors₃, herrors₂, herrors₁], ?_⟩
    rw [hrun, hleft, chain, bind_of_ok haccept]
    simp only [if_pos hparen]
    rw [bind_of_ok harguments, show fuel - (spent + 1) = left by omega]
  | _, @Call.property _ name hobject hname, s, rest, hfuel, hspells => by
    obtain ⟨middle, hspellsObject, hspells⟩ := spells_append.mp hspells
    obtain ⟨dot, _, rfl, hdot, -, _, _, rfl, rfl, -, rfl⟩ := hspells
    have hkind : dot.kind = .dot := hdot
    simp only [Expr.marks, List.length_append, List.length_cons, List.length_nil] at hfuel ⊢
    -- the loop has arrived at the object, and one more turn reads the name
    obtain ⟨spent, s₁, hspent, hs₁, herrors₁, hrun⟩ :=
      chain_spine ih hobject (by omega) hspellsObject
    obtain ⟨left, hleft⟩ : ∃ left, fuel - spent = left + 1 := ⟨fuel - spent - 1, by omega⟩
    have hkinds : dot.kind ∈ [TokenKind.leftParen, .dot] := by rw [hkind]; decide
    obtain ⟨s₂, haccept, hs₂, herrors₂⟩ := parses_accept hs₁ hkinds
    obtain ⟨s₃, hexpect, hs₃, herrors₃⟩ : Parses (expect .identifier .propertyName) name s₂ _ :=
      parses_expect hs₂ hname
    refine ⟨spent + 1, s₃, by omega, hs₃, by rw [herrors₃, herrors₂, herrors₁], ?_⟩
    rw [hrun, hleft, chain, bind_of_ok haccept]
    simp only [hkind, reduceCtorEq, if_false]
    rw [bind_of_ok hexpect, show fuel - (spent + 1) = left by omega]

/-- The loop over the operators of a level arrives at the whole of a tree of that level. -/
theorem binary_spine (ih : ∀ m ≤ fuel, ExpressionComplete m) {operators : List TokenKind}
    {tighter : List (List TokenKind)} (hseparated : Separated (operators :: tighter)) :
    ∀ {e : Expr}, Binary (operators :: tighter) e → ∀ {s : State} {rest : List Token},
      16 * e.marks.length + 2 + tighter.length ≤ fuel → Spells e.marks s.rest rest →
      headKind rest ∉ .leftParen :: .dot :: tighter.flatten →
      ∃ spent s₁, spent < e.marks.length ∧ s₁.rest = rest ∧ s₁.errors = s.errors ∧
        (binary fuel tighter >>= binaryRest fuel operators tighter) s =
          binaryRest (fuel - spent) operators tighter e s₁
  | _, .tighter h, s, rest, hfuel, hspells, hnext => by
    obtain ⟨s₁, hrun, hrest, herrors⟩ :=
      (ih fuel (Nat.le_refl _)).binary hseparated.2 h hfuel hspells hnext
    exact ⟨0, s₁, (starts_of_binary h).length_pos, hrest, herrors, bind_of_ok hrun⟩
  | _, @Binary.joined _ _ _ right _ hleft hoperator hright, s, rest, hfuel, hspells, hnext => by
    obtain ⟨middle, hspellsLeft, hspells⟩ := spells_append.mp hspells
    obtain ⟨operator, others, rfl, rfl, -, hspellsRight⟩ := hspells
    simp only [Expr.marks, List.length_append, List.length_cons] at hfuel ⊢
    -- the left operand ends before the operator, which belongs to no tighter level
    obtain ⟨spent, s₁, hspent, hs₁, herrors₁, hrun⟩ :=
      binary_spine ih hseparated hleft (by omega) hspellsLeft (hseparated.1 _ hoperator)
    obtain ⟨left, hleft⟩ : ∃ left, fuel - spent = left + 1 := ⟨fuel - spent - 1, by omega⟩
    obtain ⟨s₂, haccept, hs₂, herrors₂⟩ := parses_accept hs₁ hoperator
    obtain ⟨s₃, hrunRight, hs₃, herrors₃⟩ := (ih left (by omega)).binary (s := s₂) hseparated.2
      hright (by omega) (hs₂ ▸ hspellsRight) hnext
    refine ⟨spent + 1, s₃, by omega, hs₃, by rw [herrors₃, herrors₂, herrors₁], ?_⟩
    rw [hrun, hleft, binaryRest, bind_of_ok haccept]
    dsimp only
    rw [bind_of_ok hrunRight, show fuel - (spent + 1) = left by omega]

/-! ## Unary and binary operators, assignments

Where the spine ends the loop sees the token after the text and stops. -/

/-- A unary expression is read from its text where neither a call nor a property goes on. -/
theorem unary_complete (ih : ∀ m ≤ fuel, ExpressionComplete m) {e : Expr} (h : Unary e)
    (hfuel : 16 * e.marks.length ≤ fuel) (hspells : Spells e.marks s.rest rest)
    (hnext : headKind rest ∉ [.leftParen, .dot]) : Parses (unary (fuel + 1)) e s rest := by
  rw [unary]
  cases h with
  | applied hoperator hoperand =>
    obtain ⟨operator, others, hrest, rfl, -, hspells⟩ := hspells
    simp only [Expr.marks, List.length_cons] at hfuel
    refine (parses_accept hrest hoperator).bind fun s₁ hs₁ => ?_
    exact ((ih fuel (Nat.le_refl _)).unary hoperand (by omega) (hs₁ ▸ hspells) hnext).bind
      fun s₂ hs₂ => .pure _ hs₂
  | call h =>
    -- A call chain begins with no operator, so the parser does not look for an operand.
    have hkinds : ∀ kind ∈ primaryKinds, kind ∉ unaryKinds := by decide
    have hfirst : headKind s.rest ∉ unaryKinds := hkinds _ ((starts_of_call h).headKind_mem hspells)
    refine (parses_accept_none rfl hfirst).bind fun s₁ hs₁ => ?_
    -- the loop stops where neither a call nor a property goes on
    obtain ⟨spent, s₂, hspent, hs₂, herrors₂, hrun⟩ :=
      chain_spine ih h (s := s₁) hfuel (hs₁ ▸ hspells)
    obtain ⟨left, hleft⟩ : ∃ left, fuel - spent = left + 1 := ⟨fuel - spent - 1, by omega⟩
    obtain ⟨s₃, haccept, hs₃, herrors₃⟩ := parses_accept_none hs₂ hnext
    refine ⟨s₃, ?_, hs₃, herrors₃.trans herrors₂⟩
    show (primary fuel >>= chain fuel) s₁ = _
    rw [hrun, hleft, chain, bind_of_ok haccept]
    rfl

/-- A tree of some level is read from its text where no operator of this or a tighter level goes
on. -/
theorem binary_complete (ih : ∀ m ≤ fuel, ExpressionComplete m) {levels : List (List TokenKind)}
    {e : Expr} (hseparated : Separated levels) (h : Binary levels e)
    (hfuel : 16 * e.marks.length + 2 + levels.length ≤ fuel + 1)
    (hspells : Spells e.marks s.rest rest)
    (hnext : headKind rest ∉ .leftParen :: .dot :: levels.flatten) :
    Parses (binary (fuel + 1) levels) e s rest := by
  rw [binary.eq_def]
  cases levels with
  | nil =>
    cases h with
    | operand h =>
      exact (ih fuel (Nat.le_refl _)).unary h (by simpa using hfuel) hspells (by simpa using hnext)
  | cons operators tighter =>
    simp only [List.flatten_cons, List.mem_cons, List.mem_append, not_or] at hnext
    obtain ⟨hparen, hdot, hoperators, htighter⟩ := hnext
    simp only [List.length_cons] at hfuel
    -- the loop stops where no operator of the level goes on
    obtain ⟨spent, s₁, hspent, hs₁, herrors₁, hrun⟩ :=
      binary_spine ih hseparated h (by omega) hspells (by simp [hparen, hdot, htighter])
    obtain ⟨left, hleft⟩ : ∃ left, fuel - spent = left + 1 := ⟨fuel - spent - 1, by omega⟩
    obtain ⟨s₂, haccept, hs₂, herrors₂⟩ := parses_accept_none hs₁ hoperators
    refine ⟨s₂, ?_, hs₂, herrors₂.trans herrors₁⟩
    show (binary fuel tighter >>= binaryRest fuel operators tighter) s = _
    rw [hrun, hleft, binaryRest, bind_of_ok haccept]
    rfl

/-- An expression is read from its text where a token follows that closes it. The target of an
assignment is read as an operand of the loosest level. -/
theorem expression_complete (ih : ∀ m ≤ fuel, ExpressionComplete m) {e : Expr}
    (h : Assignment e) (hfuel : 16 * e.marks.length + 9 ≤ fuel)
    (hspells : Spells e.marks s.rest rest) (hnext : headKind rest ∈ closingKinds) :
    Parses (expression (fuel + 1)) e s rest := by
  rw [expression]
  have ihFuel := ih fuel (Nat.le_refl _)
  -- an equals sign belongs to no level, so the target ends before it
  have hequal : TokenKind.equal ∉ .leftParen :: .dot :: operatorLevels.flatten := by decide
  cases h with
  | @toVariable name equals value hname hequals hvalue =>
    obtain ⟨_, others, hrest, rfl, hend, _, after, rfl, rfl, -, hspells⟩ := hspells
    simp only [Expr.marks, List.length_append, List.length_cons, List.length_nil] at hfuel
    have htarget : Parses (binary fuel operatorLevels) (.variable name) s (equals :: after) := by
      refine ihFuel.binary separated_operatorLevels
        (binary_of_unary (.call (.primary (.variable hname))) _) ?_ ?_ ?_
      · simp only [Expr.marks, operatorLevels, List.length_cons, List.length_nil]
        omega
      · rw [hrest]
        exact Spells.single rfl hend
      · rwa [headKind, hequals]
    refine htarget.bind fun s₁ hs₁ => ?_
    refine (parses_accept hs₁ (by simp [hequals])).bind fun s₂ hs₂ => ?_
    exact (ihFuel.expression hvalue (by omega) (hs₂ ▸ hspells) hnext).bind
      fun s₃ hs₃ => .pure _ hs₃
  | @toProperty object name value hobject hname hvalue =>
    obtain ⟨middle, hspellsObject, hspells⟩ := spells_append.mp hspells
    obtain ⟨dot, _, rfl, hdot, hdotEnd, _, _, rfl, rfl, hnameEnd, hspells⟩ := hspells
    obtain ⟨equals, after, rfl, hequals, -, hspells⟩ := hspells
    have hkind : equals.kind = .equal := hequals
    simp only [Expr.marks, List.length_append, List.length_cons] at hfuel
    have htarget : Parses (binary fuel operatorLevels) (.get object name) s (equals :: after) := by
      refine ihFuel.binary separated_operatorLevels
        (binary_of_unary (.call (.property hobject hname)) _) ?_ ?_ ?_
      · simp only [Expr.marks, operatorLevels, List.length_append, List.length_cons,
          List.length_nil]
        omega
      · exact hspellsObject.append ⟨dot, _, rfl, hdot, hdotEnd, Spells.single rfl hnameEnd⟩
      · rwa [headKind, hkind]
    refine htarget.bind fun s₁ hs₁ => ?_
    refine (parses_accept hs₁ (by simp [hkind])).bind fun s₂ hs₂ => ?_
    exact (ihFuel.expression hvalue (by omega) (hs₂ ▸ hspells) hnext).bind
      fun s₃ hs₃ => .pure _ hs₃
  | noTarget h =>
    -- what comes after the expression is no operator and no equals sign
    have hclosing : ∀ kind ∈ closingKinds, kind ∉ .leftParen :: .dot :: operatorLevels.flatten ∧
        kind ∉ [TokenKind.equal] := by decide
    obtain ⟨hoperator, hequals⟩ := hclosing _ hnext
    have htree := binary_operatorLevels.mpr h
    refine (ihFuel.binary separated_operatorLevels htree ?_ hspells hoperator).bind fun s₁ hs₁ => ?_
    · simp only [operatorLevels, List.length_cons, List.length_nil]
      omega
    · exact (parses_accept_none hs₁ hequals).bind fun s₂ hs₂ => .pure _ hs₂

/-! ## Any fuel -/

/-- At least the closing parenthesis follows an argument. -/
theorem moreArgumentMarks_length_pos (es : List Expr) :
    0 < (Expr.moreArgumentMarks es).length := by
  cases es <;> simp [Expr.moreArgumentMarks]

/-- At least the closing parenthesis follows the opening one. -/
theorem argumentMarks_length_pos (es : List Expr) : 0 < (Expr.argumentMarks es).length := by
  cases es with
  | nil => simp [Expr.argumentMarks]
  | cons first others =>
    have := moreArgumentMarks_length_pos others
    simp only [Expr.argumentMarks, List.length_append]
    omega

/-- No text is empty, so there is none that the functions could read without fuel. -/
theorem expressionComplete_zero : ExpressionComplete 0 where
  expression := fun _ hfuel => absurd hfuel (by omega)
  binary := fun _ _ hfuel => absurd hfuel (by omega)
  unary := fun _ hfuel => absurd hfuel (by omega)
  arguments := fun {es _ _} _ hfuel => by
    have := argumentMarks_length_pos es
    omega
  argumentRow := fun {_ others _ _} _ hfuel => by
    have := moreArgumentMarks_length_pos others
    simp only [List.length_append] at hfuel
    omega
  primary := fun h hfuel => by
    have := (starts_of_primary h).length_pos
    omega

/-- The expression parser is complete with any fuel. -/
theorem expressionComplete (fuel : Nat) : ExpressionComplete fuel := by
  induction fuel using Nat.strongRecOn with
  | ind fuel ih =>
    cases fuel with
    | zero => exact expressionComplete_zero
    | succ fuel =>
      have ih : ∀ m ≤ fuel, ExpressionComplete m := fun m hm => ih m (Nat.lt_succ_of_le hm)
      have ihFuel := ih fuel (Nat.le_refl _)
      exact
        { expression := fun h hfuel => expression_complete ih h (by omega)
          binary := fun hseparated h hfuel => binary_complete ih hseparated h hfuel
          unary := fun h hfuel => unary_complete ih h (by omega)
          arguments := fun h hfuel => arguments_complete ihFuel h hfuel
          argumentRow := fun h hfuel => argumentRow_complete ihFuel h hfuel
          primary := fun h hfuel => primary_complete ih h hfuel }

end Parser

end Script
