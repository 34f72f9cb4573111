import Script.Proofs.Grammar.Reading
import Script.Proofs.Grammar.Rules

/-!
# What the expression parser accepts

A run of a parsing function that ends without any error noted yields a tree of its nonterminal, and
the tokens that it consumed are the text of that tree. The functions call each other with less and
less fuel, so the statements about all of them are proved together by induction on the fuel
(`expressionSound`).

That no error was noted is known at the end of a run only. It passes to the steps of the run from
the last to the first, since `Reads` yields it for the state before each step.
-/

namespace Script

namespace Parser

open Grammar

/-- None of the operators of these levels is the end of the input. -/
def Bounded (levels : List (List TokenKind)) : Prop :=
  ∀ operators ∈ levels, TokenKind.endOfFile ∉ operators

/-- The end of the input is no operator, so whatever is accepted as one is consumed. -/
theorem bounded_operatorLevels : Bounded operatorLevels := by
  unfold Bounded operatorLevels
  decide

/-- The expression parser is sound with this much fuel. -/
structure ExpressionSound (fuel : Nat) : Prop where
  expression : ∀ {s s' : State} {e : Expr}, expression fuel s = .ok e s' → s'.errors = [] →
    Assignment e ∧ Reads e.marks s s'
  binary : ∀ {levels : List (List TokenKind)} {s s' : State} {e : Expr}, Bounded levels →
    binary fuel levels s = .ok e s' → s'.errors = [] → Binary levels e ∧ Reads e.marks s s'
  binaryRest : ∀ {operators : List TokenKind} {tighter : List (List TokenKind)} {left : Expr}
    {s s' : State} {e : Expr}, Bounded (operators :: tighter) →
    binaryRest fuel operators tighter left s = .ok e s' → s'.errors = [] →
    (Binary (operators :: tighter) left → Binary (operators :: tighter) e) ∧
      ∃ marks, e.marks = left.marks ++ marks ∧ Reads marks s s'
  unary : ∀ {s s' : State} {e : Expr}, unary fuel s = .ok e s' → s'.errors = [] →
    Unary e ∧ Reads e.marks s s'
  chain : ∀ {callee : Expr} {s s' : State} {e : Expr}, chain fuel callee s = .ok e s' →
    s'.errors = [] →
    (Call callee → Call e) ∧ ∃ marks, e.marks = callee.marks ++ marks ∧ Reads marks s s'
  arguments : ∀ {s s' : State} {es : List Expr}, arguments fuel s = .ok es s' → s'.errors = [] →
    (∀ e ∈ es, Assignment e) ∧ Reads (Expr.argumentMarks es) s s'
  argumentRow : ∀ {s s' : State} {es : List Expr}, argumentRow fuel s = .ok es s' →
    s'.errors = [] → (∀ e ∈ es, Assignment e) ∧
      ∃ first others, es = first :: others ∧
        Reads (first.marks ++ Expr.moreArgumentMarks others) s s'
  primary : ∀ {s s' : State} {e : Expr}, primary fuel s = .ok e s' → s'.errors = [] →
    Primary e ∧ Reads e.marks s s'
  superMember : ∀ {keyword : Token} {s s' : State} {e : Expr},
    superMember fuel keyword s = .ok e s' → s'.errors = [] → keyword.kind = .kwSuper →
    Primary e ∧ ∃ marks, e.marks = .held keyword :: marks ∧ Reads marks s s'

/-! ## The targets of assignments

What stands left of an equals sign was read as a tree of the loosest level. If it is a name or a
property then it is one at the tightest level as well. -/

/-- A tree of some level that no operator joins is a tree of the tightest one. -/
theorem unary_of_binary {e : Expr}
    (hjoined : ∀ left operator right, e ≠ .binary left operator right)
    {levels : List (List TokenKind)} (h : Binary levels e) : Unary e := by
  induction levels with
  | nil => cases h with
    | operand h => exact h
  | cons operators tighter ih => cases h with
    | tighter h => exact ih h
    | joined => exact absurd rfl (hjoined _ _ _)

/-- A name that was read as an operand of any level is an identifier. -/
theorem kind_of_binary_variable {levels : List (List TokenKind)} {name : Token}
    (h : Binary levels (.variable name)) : name.kind = .identifier := by
  cases unary_of_binary (by simp) h with
  | call h => cases h with
    | primary h => cases h with
      | «variable» h => exact h

/-- A property that was read as an operand of any level is a link of a call chain. -/
theorem call_of_binary_get {levels : List (List TokenKind)} {object : Expr} {name : Token}
    (h : Binary levels (.get object name)) : Call object ∧ name.kind = .identifier := by
  cases unary_of_binary (by simp) h with
  | call h => cases h with
    | primary h => cases h
    | property hobject hname => exact ⟨hobject, hname⟩

variable {fuel : Nat} {s s' : State}

/-! ## One step of each function

Two functions go on with a tree that came before them: what follows the first operand, and what
follows a primary expression. They promise that the tree stays within its nonterminal and that the
tokens they read are the marks added to it. -/

/-- An assignment or an expression without one. A target that is neither a name nor a property notes
an error, so that it does not come up here. -/
theorem expression_sound (ih : ExpressionSound fuel) {e : Expr}
    (h : expression (fuel + 1) s = .ok e s') (hclean : s'.errors = []) :
    Assignment e ∧ Reads e.marks s s' := by
  rw [expression] at h
  obtain ⟨target, s₁, htarget, h⟩ := bind_eq_ok.mp h
  obtain ⟨found, s₂, hfound, h⟩ := bind_eq_ok.mp h
  cases found with
  -- Without an equals sign there is no target.
  | none =>
    obtain ⟨rfl, rfl⟩ := pure_eq_ok.mp h
    obtain ⟨rfl, -⟩ := accept_none (by decide) hfound
    obtain ⟨hbinary, hreads⟩ := ih.binary bounded_operatorLevels htarget hclean
    exact ⟨.noTarget (binary_operatorLevels.mp hbinary), hreads⟩
  | some equals =>
    obtain ⟨value, s₃, hvalue, h⟩ := bind_eq_ok.mp h
    cases target with
    | «variable» name =>
      obtain ⟨rfl, rfl⟩ := pure_eq_ok.mp h
      obtain ⟨hassigned, hreadsValue⟩ := ih.expression hvalue hclean
      obtain ⟨hequals, hreadsEquals⟩ := accept_reads (by decide) hfound hreadsValue.clean
      -- the target was read as an operand of the loosest level
      obtain ⟨hbinary, hreadsName⟩ :=
        ih.binary bounded_operatorLevels htarget hreadsEquals.clean
      refine ⟨.toVariable (kind_of_binary_variable hbinary) (by simpa using hequals) hassigned, ?_⟩
      exact hreadsName.trans (hreadsEquals.cons hreadsValue)
    | get object name =>
      obtain ⟨rfl, rfl⟩ := pure_eq_ok.mp h
      obtain ⟨hassigned, hreadsValue⟩ := ih.expression hvalue hclean
      obtain ⟨hequals, hreadsEquals⟩ := accept_reads (by decide) hfound hreadsValue.clean
      obtain ⟨hbinary, hreadsTarget⟩ :=
        ih.binary bounded_operatorLevels htarget hreadsEquals.clean
      obtain ⟨hobject, hname⟩ := call_of_binary_get hbinary
      refine ⟨.toProperty hobject hname hassigned, ?_⟩
      have hkind : equals.kind = .equal := by simpa using hequals
      have hreads := hreadsTarget.trans ((hreadsEquals.fixed hkind).cons hreadsValue)
      simpa [Expr.marks] using hreads
    | _ =>
      -- the error is noted, so the run does not end without one
      obtain ⟨_, s₄, hreport, h⟩ := bind_eq_ok.mp h
      obtain ⟨-, rfl⟩ := pure_eq_ok.mp h
      simp only [report, EStateM.Result.ok.injEq, true_and] at hreport
      subst hreport
      simp at hclean

/-- The first operand is one of a tighter level, and the rest joins to it what follows. -/
theorem binary_sound (ih : ExpressionSound fuel) {levels : List (List TokenKind)} {e : Expr}
    (hlevels : Bounded levels) (h : binary (fuel + 1) levels s = .ok e s')
    (hclean : s'.errors = []) : Binary levels e ∧ Reads e.marks s s' := by
  cases levels with
  | nil =>
    rw [binary] at h
    obtain ⟨hunary, hreads⟩ := ih.unary h hclean
    exact ⟨.operand hunary, hreads⟩
  | cons operators tighter =>
    rw [binary] at h
    obtain ⟨first, s₁, hfirst, h⟩ := bind_eq_ok.mp h
    have htighter : Bounded tighter := fun ops hops => hlevels ops (.tail _ hops)
    obtain ⟨hjoin, marks, hmarks, hreadsRest⟩ := ih.binaryRest hlevels h hclean
    obtain ⟨hbinary, hreads⟩ := ih.binary htighter hfirst hreadsRest.clean
    exact ⟨hjoin (.tighter hbinary), hmarks ▸ hreads.trans hreadsRest⟩

/-- A tree of a level stays one when an operator of that level joins an operand to it. -/
theorem binaryRest_sound (ih : ExpressionSound fuel) {operators : List TokenKind}
    {tighter : List (List TokenKind)} {left e : Expr} (hlevels : Bounded (operators :: tighter))
    (h : binaryRest (fuel + 1) operators tighter left s = .ok e s') (hclean : s'.errors = []) :
    (Binary (operators :: tighter) left → Binary (operators :: tighter) e) ∧
      ∃ marks, e.marks = left.marks ++ marks ∧ Reads marks s s' := by
  have htighter : Bounded tighter := fun ops hops => hlevels ops (.tail _ hops)
  rw [binaryRest] at h
  obtain ⟨found, s₁, hfound, h⟩ := bind_eq_ok.mp h
  cases found with
  -- No operator of the level follows, so that nothing is added.
  | none =>
    obtain ⟨rfl, rfl⟩ := pure_eq_ok.mp h
    obtain ⟨rfl, -⟩ := accept_none (hlevels _ (.head _)) hfound
    exact ⟨id, [], by simp, .refl hclean⟩
  | some operator =>
    obtain ⟨right, s₂, hright, h⟩ := bind_eq_ok.mp h
    -- the operator joins what was read so far to the right operand
    obtain ⟨hjoin, marks, hmarks, hreadsRest⟩ := ih.binaryRest hlevels h hclean
    obtain ⟨hbinary, hreadsRight⟩ := ih.binary htighter hright hreadsRest.clean
    obtain ⟨hoperator, hreads⟩ := accept_reads (hlevels _ (.head _)) hfound hreadsRight.clean
    refine ⟨fun hleft => hjoin (.joined hleft hoperator hbinary), ?_⟩
    refine ⟨.held operator :: (right.marks ++ marks), ?_, ?_⟩
    · simp [hmarks, Expr.marks]
    · exact hreads.cons (hreadsRight.trans hreadsRest)

/-- An operator with its operand, or a call chain. -/
theorem unary_sound (ih : ExpressionSound fuel) {e : Expr}
    (h : unary (fuel + 1) s = .ok e s') (hclean : s'.errors = []) :
    Unary e ∧ Reads e.marks s s' := by
  rw [unary] at h
  obtain ⟨found, s₁, hfound, h⟩ := bind_eq_ok.mp h
  cases found with
  | some operator =>
    obtain ⟨operand, s₂, hoperand, h⟩ := bind_eq_ok.mp h
    obtain ⟨rfl, rfl⟩ := pure_eq_ok.mp h
    obtain ⟨hunary, hreadsOperand⟩ := ih.unary hoperand hclean
    obtain ⟨hoperator, hreads⟩ := accept_reads (by decide) hfound hreadsOperand.clean
    exact ⟨.applied hoperator hunary, hreads.cons hreadsOperand⟩
  | none =>
    obtain ⟨first, s₂, hfirst, h⟩ := bind_eq_ok.mp h
    obtain ⟨hcall, marks, hmarks, hreadsChain⟩ := ih.chain h hclean
    obtain ⟨hprimary, hreads⟩ := ih.primary hfirst hreadsChain.clean
    obtain ⟨rfl, -⟩ := accept_none (by decide) hfound
    exact ⟨.call (hcall (.primary hprimary)), hmarks ▸ hreads.trans hreadsChain⟩

/-- A call chain stays one when a call or a property is added to it. -/
theorem chain_sound (ih : ExpressionSound fuel) {callee e : Expr}
    (h : chain (fuel + 1) callee s = .ok e s') (hclean : s'.errors = []) :
    (Call callee → Call e) ∧ ∃ marks, e.marks = callee.marks ++ marks ∧ Reads marks s s' := by
  rw [chain] at h
  obtain ⟨found, s₁, hfound, h⟩ := bind_eq_ok.mp h
  cases found with
  | none =>
    obtain ⟨rfl, rfl⟩ := pure_eq_ok.mp h
    obtain ⟨rfl, -⟩ := accept_none (by decide) hfound
    exact ⟨id, [], by simp, .refl hclean⟩
  | some token =>
    by_cases hparen : token.kind = .leftParen
    · simp only [if_pos hparen] at h
      obtain ⟨es, s₂, hes, h⟩ := bind_eq_ok.mp h
      -- The chain goes on from the call with its arguments.
      obtain ⟨hcall, marks, hmarks, hreadsChain⟩ := ih.chain h hclean
      obtain ⟨harguments, hreadsArguments⟩ := ih.arguments hes hreadsChain.clean
      obtain ⟨-, hreads⟩ := accept_reads (by decide) hfound hreadsArguments.clean
      refine ⟨fun hcallee => hcall (.applied hcallee hparen harguments), ?_⟩
      refine ⟨.held token :: (Expr.argumentMarks es ++ marks), ?_, ?_⟩
      · simp [hmarks, Expr.marks]
      · exact hreads.cons (hreadsArguments.trans hreadsChain)
    · simp only [if_neg hparen] at h
      obtain ⟨name, s₂, hname, h⟩ := bind_eq_ok.mp h
      obtain ⟨hcall, marks, hmarks, hreadsChain⟩ := ih.chain h hclean
      obtain ⟨hidentifier, hreadsName⟩ := expect_reads (by decide) hname hreadsChain.clean
      obtain ⟨hkind, hreads⟩ := accept_reads (by decide) hfound hreadsName.clean
      -- of the two tokens that go on it is the other one
      have hdot : token.kind = .dot := by simpa [hparen] using hkind
      refine ⟨fun hobject => hcall (.property hobject hidentifier), ?_⟩
      refine ⟨.fixed .dot :: .held name :: marks, ?_, ?_⟩
      · simp [hmarks, Expr.marks]
      · exact (hreads.fixed hdot).cons (hreadsName.cons hreadsChain)

/-- The arguments of a call and the parenthesis after them. -/
theorem arguments_sound (ih : ExpressionSound fuel) {es : List Expr}
    (h : arguments (fuel + 1) s = .ok es s') (hclean : s'.errors = []) :
    (∀ e ∈ es, Assignment e) ∧ Reads (Expr.argumentMarks es) s s' := by
  rw [arguments] at h
  obtain ⟨found, s₁, hfound, h⟩ := bind_eq_ok.mp h
  cases found with
  | some token =>
    obtain ⟨rfl, rfl⟩ := pure_eq_ok.mp h
    obtain ⟨hkind, hreads⟩ := accept_reads (by decide) hfound hclean
    exact ⟨by simp, hreads.fixed (by simpa using hkind)⟩
  | none =>
    obtain ⟨hes, first, others, rfl, hreads⟩ := ih.argumentRow h hclean
    obtain ⟨rfl, -⟩ := accept_none (by decide) hfound
    exact ⟨hes, hreads⟩

/-- At least one argument, with commas between them and the closing parenthesis at the end. What
each step has read is told from the last one back: that nothing is reported in the end says that
nothing was reported before. -/
theorem argumentRow_sound (ih : ExpressionSound fuel) {es : List Expr}
    (h : argumentRow (fuel + 1) s = .ok es s') (hclean : s'.errors = []) :
    (∀ e ∈ es, Assignment e) ∧ ∃ first others, es = first :: others ∧
      Reads (first.marks ++ Expr.moreArgumentMarks others) s s' := by
  rw [argumentRow] at h
  obtain ⟨first, s₁, hfirst, h⟩ := bind_eq_ok.mp h
  obtain ⟨found, s₂, hfound, h⟩ := bind_eq_ok.mp h
  cases found with
  | some comma =>
    obtain ⟨others, s₃, hothers, h⟩ := bind_eq_ok.mp h
    obtain ⟨rfl, rfl⟩ := pure_eq_ok.mp h
    obtain ⟨hes, next, others, rfl, hreadsOthers⟩ := ih.argumentRow hothers hclean
    obtain ⟨hcomma, hreadsComma⟩ := accept_reads (by decide) hfound hreadsOthers.clean
    obtain ⟨hassignment, hreads⟩ := ih.expression hfirst hreadsComma.clean
    refine ⟨by simpa [hassignment] using hes, first, next :: others, rfl, ?_⟩
    exact hreads.trans ((hreadsComma.fixed (by simpa using hcomma)).cons hreadsOthers)
  | none =>
    obtain ⟨paren, s₃, hparen, h⟩ := bind_eq_ok.mp h
    obtain ⟨rfl, rfl⟩ := pure_eq_ok.mp h
    have hreadsParen := expect_fixed (by decide) hparen hclean
    obtain ⟨rfl, -⟩ := accept_none (by decide) hfound
    obtain ⟨hassignment, hreads⟩ := ih.expression hfirst hreadsParen.clean
    exact ⟨by simpa using hassignment, first, [], rfl, hreads.trans hreadsParen⟩

/-- A primary expression: the token that was taken tells which one it is. -/
theorem primary_sound (ih : ExpressionSound fuel) {e : Expr}
    (h : primary (fuel + 1) s = .ok e s') (hclean : s'.errors = []) :
    Primary e ∧ Reads e.marks s s' := by
  rw [primary] at h
  obtain ⟨found, s₁, hfound, h⟩ := bind_eq_ok.mp h
  cases found with
  -- A token that starts no primary expression is an error.
  | none => simp [reject] at h
  | some token =>
    have hkind : token.kind ∈ primaryKinds := (accept_some hfound).1
    cases htoken : token.kind <;> simp only [htoken] at h
    case identifier =>
      obtain ⟨rfl, rfl⟩ := pure_eq_ok.mp h
      exact ⟨.variable htoken, (accept_reads (by decide) hfound hclean).2⟩
    case kwThis =>
      obtain ⟨rfl, rfl⟩ := pure_eq_ok.mp h
      exact ⟨.this htoken, (accept_reads (by decide) hfound hclean).2⟩
    case kwSuper =>
      obtain ⟨hprimary, marks, hmarks, hreadsMember⟩ := ih.superMember h hclean htoken
      obtain ⟨-, hreads⟩ := accept_reads (by decide) hfound hreadsMember.clean
      exact ⟨hprimary, hmarks ▸ hreads.cons hreadsMember⟩
    case leftParen =>
      obtain ⟨inner, s₂, hinner, h⟩ := bind_eq_ok.mp h
      obtain ⟨paren, s₃, hparen, h⟩ := bind_eq_ok.mp h
      obtain ⟨rfl, rfl⟩ := pure_eq_ok.mp h
      have hreadsParen := expect_fixed (by decide) hparen hclean
      obtain ⟨hassignment, hreadsInner⟩ := ih.expression hinner hreadsParen.clean
      obtain ⟨-, hreads⟩ := accept_reads (by decide) hfound hreadsInner.clean
      exact ⟨.grouping hassignment, (hreads.fixed htoken).cons (hreadsInner.trans hreadsParen)⟩
    -- what is left are the literals, and the kinds that start no primary expression
    all_goals first
      | (rw [htoken] at hkind; exact absurd hkind (by decide))
      | (obtain ⟨rfl, rfl⟩ := pure_eq_ok.mp h
         refine ⟨.literal (by rw [htoken]; decide), ?_⟩
         exact (accept_reads (by decide) hfound hclean).2)

/-- What follows `super` is the name of a method or the arguments of the constructor. -/
theorem superMember_sound (ih : ExpressionSound fuel) {keyword : Token} {e : Expr}
    (h : superMember (fuel + 1) keyword s = .ok e s') (hclean : s'.errors = [])
    (hkeyword : keyword.kind = .kwSuper) :
    Primary e ∧ ∃ marks, e.marks = .held keyword :: marks ∧ Reads marks s s' := by
  rw [superMember] at h
  obtain ⟨found, s₁, hfound, h⟩ := bind_eq_ok.mp h
  cases found with
  | none => simp [reject] at h
  | some token =>
    by_cases hdot : token.kind = .dot
    · simp only [if_pos hdot] at h
      obtain ⟨method, s₂, hmethod, h⟩ := bind_eq_ok.mp h
      obtain ⟨rfl, rfl⟩ := pure_eq_ok.mp h
      obtain ⟨hidentifier, hreadsMethod⟩ := expect_reads (by decide) hmethod hclean
      obtain ⟨-, hreads⟩ := accept_reads (by decide) hfound hreadsMethod.clean
      refine ⟨.superGet hkeyword hidentifier, [.fixed .dot, .held method], rfl, ?_⟩
      exact (hreads.fixed hdot).cons hreadsMethod
    · simp only [if_neg hdot] at h
      obtain ⟨es, s₂, hes, h⟩ := bind_eq_ok.mp h
      obtain ⟨rfl, rfl⟩ := pure_eq_ok.mp h
      obtain ⟨harguments, hreadsArguments⟩ := ih.arguments hes hclean
      obtain ⟨hkind, hreads⟩ := accept_reads (by decide) hfound hreadsArguments.clean
      -- Of the two tokens that may follow the keyword it is the other one.
      have hparen : token.kind = .leftParen := by simpa [hdot] using hkind
      refine ⟨.superCall hkeyword harguments, .fixed .leftParen :: Expr.argumentMarks es, rfl, ?_⟩
      exact (hreads.fixed hparen).cons hreadsArguments

/-! ## Any fuel -/

/-- The expression parser is sound with any fuel. -/
theorem expressionSound (fuel : Nat) : ExpressionSound fuel := by
  induction fuel with
  | zero =>
    -- without fuel no function succeeds
    constructor <;> intros <;> simp_all [expression, binary, binaryRest, unary, chain, arguments,
      argumentRow, primary, superMember, exhausted]
  | succ fuel ih =>
    exact
      { expression := expression_sound ih
        binary := binary_sound ih
        binaryRest := binaryRest_sound ih
        unary := unary_sound ih
        chain := chain_sound ih
        arguments := arguments_sound ih
        argumentRow := argumentRow_sound ih
        primary := primary_sound ih
        superMember := superMember_sound ih }

end Parser

end Script
