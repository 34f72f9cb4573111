import Script.Proofs.Grammar.Marks
import Script.Syntax.Parser.State

/-!
# What parsing functions read

The laws of the few functions that look at the remaining tokens, and of sequences of them. They
come in two forms. For soundness, a successful run is opened into its steps (`bind_eq_ok`), and
`Reads marks s s'` says that the step from `s` to `s'` consumed a text with these marks and that no
error had been noted before it. For completeness, a run is computed from its first step
(`bind_of_ok`).
-/

namespace Script

namespace Parser

variable {α β : Type} {s s₁ s' : State}

/-! ## Sequences

A function of the parser is a sequence of steps. Taken apart, each step has its own run; put
together, each run begins where the one before it has ended. -/

/-- A successful sequence is a successful first step with a successful second one after it. -/
theorem bind_eq_ok {x : Parser α} {f : α → Parser β} {b : β} :
    (x >>= f) s = .ok b s' ↔ ∃ a s₁, x s = .ok a s₁ ∧ f a s₁ = .ok b s' := by
  show EStateM.bind x f s = .ok b s' ↔ _
  rw [EStateM.bind]
  cases x s with
  | ok a s₁ =>
    constructor
    · intro h
      exact ⟨a, s₁, rfl, h⟩
    · rintro ⟨_, _, ⟨⟩, h⟩
      exact h
  | error e s₁ => simp

/-- After a successful first step the second one runs. -/
theorem bind_of_ok {x : Parser α} {f : α → Parser β} {a : α} (h : x s = .ok a s₁) :
    (x >>= f) s = f a s₁ := by
  show EStateM.bind x f s = f a s₁
  rw [EStateM.bind, h]

/-- A step that only gives a value consumes nothing. -/
theorem pure_eq_ok {a b : α} : (pure a : Parser α) s = .ok b s' ↔ a = b ∧ s = s' := by
  show EStateM.Result.ok a s = .ok b s' ↔ _
  simp

/-- A value that is computed from that of a step. -/
theorem map_eq_ok {x : Parser α} {f : α → β} {b : β} :
    (f <$> x) s = .ok b s' ↔ ∃ a, x s = .ok a s' ∧ f a = b := by
  show EStateM.map f x s = .ok b s' ↔ _
  rw [EStateM.map]
  cases x s with
  | ok a s₁ =>
    constructor
    · rintro ⟨⟩
      exact ⟨a, rfl, rfl⟩
    · rintro ⟨_, ⟨⟩, rfl⟩
      rfl
  | error e s₁ => simp

/-- The same, when the run of the step is known. -/
theorem map_of_ok {x : Parser α} {f : α → β} {a : α} (h : x s = .ok a s₁) :
    (f <$> x) s = .ok (f a) s₁ := by
  show EStateM.map f x s = _
  rw [EStateM.map, h]

/-! ## The kind of the next token

Past the last token the parser sees the end of the file, so that it never has to ask whether there
is a token. -/

/-- The kind of the first token of a row; end of file when there is none. -/
def headKind : List Token → TokenKind
  | [] => .endOfFile
  | token :: _ => token.kind

/-- The kind of the next token is that of the first one that remains. -/
theorem State.nextKind_eq (s : State) : s.nextKind = headKind s.rest := by
  unfold State.nextKind headKind
  cases s.rest <;> rfl

/-- Before the end of the input there is a token. -/
theorem exists_token_of_next {s : State} (hnext : s.nextKind ≠ .endOfFile) :
    ∃ token others, s.rest = token :: others ∧ token.kind = s.nextKind := by
  rw [State.nextKind_eq] at hnext ⊢
  cases hrest : s.rest with
  | nil =>
    rw [hrest] at hnext
    exact absurd rfl hnext
  | cons token others => exact ⟨token, others, rfl, rfl⟩

/-- To look at the next token changes nothing. -/
theorem peek_eq_ok {kind : TokenKind} : peek s = .ok kind s' ↔ s.nextKind = kind ∧ s = s' := by
  simp [peek]

/-! ## Reading

Errors that were noted are never forgotten. So it is enough to ask that there was none at the
beginning of each step, which follows from there being none at the end of the last one. -/

/-- The step from `s` to `s'` consumed a text with these marks, and no error was noted before. -/
structure Reads (marks : List Mark) (s s' : State) : Prop where
  clean : s.errors = []
  spells : Spells marks s.rest s'.rest

/-- Where nothing was consumed, the text is empty. -/
theorem Reads.refl (h : s.errors = []) : Reads [] s s := ⟨h, rfl⟩

/-- Two steps in a row consumed the two texts in a row. -/
theorem Reads.trans {a b : List Mark} (h₁ : Reads a s s₁) (h₂ : Reads b s₁ s') :
    Reads (a ++ b) s s' :=
  ⟨h₁.clean, h₁.spells.append h₂.spells⟩

/-- A text that begins with one token and goes on with the text of the next step. -/
theorem Reads.cons {mark : Mark} {marks : List Mark} (h₁ : Reads [mark] s s₁)
    (h₂ : Reads marks s₁ s') : Reads (mark :: marks) s s' :=
  h₁.trans h₂

/-- Where a token of some kind was read, the grammar may prescribe that kind. -/
theorem Reads.fixed {token : Token} {kind : TokenKind} (h : Reads [.held token] s s')
    (hkind : token.kind = kind) : Reads [.fixed kind] s s' := by
  obtain ⟨_, others, hrest, rfl, hend, hothers⟩ := h.spells
  exact ⟨h.clean, token, others, hrest, hkind, hend, hothers⟩

/-! ## Single tokens

A token that was consumed is what the tree keeps, or what the grammar prescribes. -/

/-- A token that is accepted is the next one, and of one of the kinds asked for. -/
theorem accept_some {kinds : List TokenKind} {token : Token}
    (h : accept kinds s = .ok (some token) s') :
    token.kind ∈ kinds ∧ s.rest = token :: s'.rest ∧ s'.errors = s.errors := by
  obtain ⟨rest, last, errors⟩ := s
  cases rest with
  | nil => simp [accept] at h
  | cons first others =>
    by_cases hkind : first.kind ∈ kinds
    · simp only [accept, hkind, if_true, EStateM.Result.ok.injEq, Option.some.injEq] at h
      obtain ⟨rfl, rfl⟩ := h
      exact ⟨hkind, rfl, rfl⟩
    · simp [accept, hkind] at h

/-- Where no token is accepted nothing happens, and the next one is of another kind. -/
theorem accept_none {kinds : List TokenKind} (hend : .endOfFile ∉ kinds)
    (h : accept kinds s = .ok none s') : s' = s ∧ s.nextKind ∉ kinds := by
  obtain ⟨rest, last, errors⟩ := s
  cases rest with
  | nil =>
    simp only [accept, EStateM.Result.ok.injEq, true_and] at h
    exact ⟨h.symm, hend⟩
  | cons first others =>
    by_cases hkind : first.kind ∈ kinds
    · simp [accept, hkind] at h
    · simp only [accept, hkind, if_false, EStateM.Result.ok.injEq, true_and] at h
      exact ⟨h.symm, hkind⟩

/-- A token that is accepted was read, as one that the tree holds. The end of the input is never
accepted. -/
theorem accept_reads {kinds : List TokenKind} {token : Token} (hend : .endOfFile ∉ kinds)
    (h : accept kinds s = .ok (some token) s') (hclean : s'.errors = []) :
    token.kind ∈ kinds ∧ Reads [.held token] s s' := by
  obtain ⟨hkind, hrest, herrors⟩ := accept_some h
  refine ⟨hkind, herrors ▸ hclean, token, s'.rest, hrest, rfl, ?_, rfl⟩
  -- The end of the file is never consumed.
  exact fun heq => hend (heq ▸ hkind)

/-- A token of the kind that is known to come next is accepted. -/
theorem accept_next {kind : TokenKind} {found : Option Token} (hnext : s.nextKind = kind)
    (hend : kind ≠ .endOfFile) (h : accept [kind] s = .ok found s') (hclean : s'.errors = []) :
    Reads [.fixed kind] s s' := by
  have hkinds : TokenKind.endOfFile ∉ [kind] := by simpa using hend.symm
  cases found with
  | none => exact absurd hnext (by simpa using (accept_none hkinds h).2)
  | some token =>
    obtain ⟨hkind, hreads⟩ := accept_reads hkinds h hclean
    exact hreads.fixed (by simpa using hkind)

/-- A token that was expected is the next one and of the kind that was expected. -/
theorem expect_reads {kind : TokenKind} {expected : Expectation} {token : Token}
    (hend : kind ≠ .endOfFile) (h : expect kind expected s = .ok token s')
    (hclean : s'.errors = []) : token.kind = kind ∧ Reads [.held token] s s' := by
  obtain ⟨found, s₁, hfound, h⟩ := bind_eq_ok.mp h
  cases found with
  | none => simp [reject] at h
  | some found =>
    obtain ⟨rfl, rfl⟩ := pure_eq_ok.mp h
    obtain ⟨hkind, hreads⟩ := accept_reads (by simpa using hend.symm) hfound hclean
    exact ⟨by simpa using hkind, hreads⟩

/-- An expected token that the tree does not keep. -/
theorem expect_fixed {kind : TokenKind} {expected : Expectation} {token : Token}
    (hend : kind ≠ .endOfFile) (h : expect kind expected s = .ok token s')
    (hclean : s'.errors = []) : Reads [.fixed kind] s s' := by
  obtain ⟨hkind, hreads⟩ := expect_reads hend h hclean
  exact hreads.fixed hkind

/-! ## Computing with single tokens

The other way round: the tokens are known, and so is what the parser does. -/

/-- A token of one of the kinds asked for is consumed. -/
theorem accept_of_mem {kinds : List TokenKind} {token : Token} {others : List Token}
    (hrest : s.rest = token :: others) (hkind : token.kind ∈ kinds) :
    accept kinds s = .ok (some token) { s with rest := others, last := token.span } := by
  simp [accept, hrest, hkind]

/-- Any other token is left where it is. -/
theorem accept_of_not_mem {kinds : List TokenKind} (hkind : s.nextKind ∉ kinds) :
    accept kinds s = .ok none s := by
  obtain ⟨rest, last, errors⟩ := s
  cases rest with
  | nil => rfl
  | cons first others =>
    have hfirst : first.kind ∉ kinds := hkind
    simp [accept, hfirst]

/-- An expected token that comes next is consumed. -/
theorem expect_of_kind {kind : TokenKind} {expected : Expectation} {token : Token}
    {others : List Token} (hrest : s.rest = token :: others) (hkind : token.kind = kind) :
    expect kind expected s = .ok token { s with rest := others, last := token.span } := by
  rw [expect, bind_of_ok (accept_of_mem hrest (by simp [hkind]))]
  rfl

/-! ## Recovery

Recovery shows only in runs that note an error, and these are not the runs of programs. -/

/-- A function that recovers from errors ends without having noted one only where the function
itself succeeds. -/
theorem recovering_eq_ok {parser : Parser α} {found : Option α}
    (h : recovering parser s = .ok found s') (hclean : s'.errors = []) :
    ∃ a, found = some a ∧ parser s = .ok a s' := by
  unfold recovering at h
  cases hrun : parser s with
  | ok a s₁ =>
    rw [hrun] at h
    simp only [EStateM.Result.ok.injEq] at h
    obtain ⟨rfl, rfl⟩ := h
    exact ⟨a, rfl, rfl⟩
  | error stop s₁ =>
    rw [hrun] at h
    cases stop with
    | outOfFuel => simp at h
    | syntaxError error =>
      -- the error that was noted is still among those at the end
      obtain ⟨_, s₂, hreport, h⟩ := bind_eq_ok.mp h
      obtain ⟨_, s₃, hskip, h⟩ := bind_eq_ok.mp h
      obtain ⟨-, rfl⟩ := pure_eq_ok.mp h
      simp only [report, EStateM.Result.ok.injEq, true_and] at hreport
      simp only [synchronize, EStateM.Result.ok.injEq, true_and] at hskip
      subst hreport
      subst hskip
      simp at hclean

/-- What succeeds has nothing to recover from, and its result is handed on. -/
theorem recovering_of_ok {parser : Parser α} {a : α} (h : parser s = .ok a s') :
    recovering parser s = .ok (some a) s' := by
  simp [recovering, h]

end Parser

end Script
