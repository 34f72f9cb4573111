import Script.Proofs.Token.Spelled

/-!
# Lexemes before a break

A lexeme ends where a character comes that none goes on over, such as a blank or a semicolon. So a
text that begins with a lexeme and such a character has this lexeme as its first piece, whatever
comes later (`pieces_lexeme`). The longest lexeme may also end before that. Then it stays the
longest one whatever comes from the break on (`LongestLexeme.before_break`).
-/

namespace Script

/-- Whether a lexeme before the character is over. Letters, digits and underscores go on words and
numerals, a point goes on numerals, an equals sign operators, and a slash may begin a comment with
the slash before it. -/
def isBreak (c : Char) : Bool :=
  !(isWordCharacter c || decide (c = '.') || decide (c = '=') || decide (c = '/'))

/-- The text is over, or a break comes next. -/
def StartsBreak (rest : List Char) : Prop := ∀ c ∈ rest.head?, isBreak c = true

/-- Every lexeme is over where a blank comes. -/
theorem isBreak_of_blank {c : Char} (h : isBlank c = true) : isBreak c = true := by
  simp only [isBlank, Bool.or_eq_true, decide_eq_true_eq] at h
  rcases h with ((rfl | rfl) | rfl) | rfl <;> decide

variable {kind : TokenKind} {text rest : List Char}

/-- No lexeme begins with another one and has a break after it. -/
theorem not_lexeme_over_break {other : TokenKind} {c : Char} {more : List Char}
    (h : Lexeme kind text) (hbreak : isBreak c = true) (hmore : c ∈ more) :
    ¬ Lexeme other (text ++ more) := by
  intro hlonger
  obtain ⟨first, others, rfl, hfirst⟩ := h.cases_first
  rw [List.cons_append] at hlonger
  obtain ⟨_, _, htext, hcase⟩ := hlonger.cases_first
  obtain ⟨rfl, rfl⟩ := List.cons.inj htext
  have hmem : c ∈ others ++ more := List.mem_append_right _ hmore
  simp only [isBreak, isWordCharacter, Bool.not_eq_true', Bool.or_eq_false_iff,
    decide_eq_false_iff_not] at hbreak
  obtain ⟨⟨⟨⟨hletter, hdigit⟩, hpoint⟩, hequals⟩, -⟩ := hbreak
  cases hcase with
  | word _ hothers =>
    have hword := hothers c hmem
    rw [isWordCharacter, hletter, hdigit] at hword
    cases hword
  | whole _ hothers =>
    have hc := hothers c hmem
    rw [hdigit] at hc
    cases hc
  | fraction whole digits _ hwhole hdigits hothers =>
    rw [hothers] at hmem
    rcases List.mem_append.mp hmem with hc | hc
    · have hc := hwhole c hc
      rw [hdigit] at hc
      cases hc
    rcases List.mem_cons.mp hc with hc | hc
    · exact hpoint hc
    · have hc := hdigits.2 c hc
      rw [hdigit] at hc
      cases hc
  | string inside hquote hinside hothers =>
    -- The shorter lexeme is a string too, and its closing quote would stand inside the longer one.
    subst hquote
    obtain ⟨-, shorter, -, rfl⟩ := firstCase_quote hfirst
    have hlast := congrArg List.dropLast hothers
    rw [List.dropLast_concat, List.dropLast_append_of_ne_nil (List.ne_nil_of_mem hmore)] at hlast
    exact hinside (by rw [← hlast]; simp)
  | punctuation _ hothers | alone _ _ hothers =>
    rw [hothers] at hmem
    cases hmem
  | extended _ _ hothers =>
    rw [hothers] at hmem
    exact hequals (List.mem_singleton.mp hmem)

/-- A lexeme is the longest one in itself. -/
theorem longestLexeme_self (h : Lexeme kind text) : LongestLexeme kind text text := by
  refine ⟨h, List.prefix_rfl, fun other text' hother hprefix => ?_⟩
  rcases lt_or_eq_of_prefix hprefix with hlt | rfl
  · exact .inl hlt
  · exact .inr ⟨(lexemeKind_of_lexeme hother).symm.trans (lexemeKind_of_lexeme h), rfl⟩

/-- The longest lexeme depends on nothing that comes after a break. -/
theorem LongestLexeme.before_break {before after after' : List Char}
    (h : LongestLexeme kind text (text ++ (before ++ after))) (hbreak : StartsBreak after') :
    LongestLexeme kind text (text ++ (before ++ after')) := by
  refine ⟨h.lexeme, List.prefix_append .., fun other text' hother hprefix => ?_⟩
  rw [← List.append_assoc] at hprefix
  by_cases hshort : text' <+: text ++ before
  · have hold : text' <+: text ++ (before ++ after) := by
      rw [← List.append_assoc]
      exact hshort.trans (List.prefix_append ..)
    exact h.longest other text' hother hold
  -- Otherwise the other lexeme would have the first one in it, and the break after it.
  have hlength : (text ++ before).length ≤ text'.length := by
    by_contra hlt
    exact hshort (List.prefix_of_prefix_length_le hprefix (List.prefix_append ..) (by omega))
  obtain ⟨more, rfl⟩ :=
    List.prefix_of_prefix_length_le (List.prefix_append ..) hprefix hlength
  cases more with
  | nil =>
    rw [List.append_nil] at hshort
    exact absurd List.prefix_rfl hshort
  | cons c more =>
    obtain ⟨later, rfl⟩ := (List.prefix_append_right_inj (text ++ before)).mp hprefix
    have hmem : c ∈ before ++ c :: more := by simp
    rw [List.append_assoc] at hother
    exact absurd hother (not_lexeme_over_break h.lexeme (hbreak c rfl) hmem)

/-- A lexeme before a break is the longest one there. -/
theorem longestLexeme_before_break (h : Lexeme kind text) (hrest : StartsBreak rest) :
    LongestLexeme kind text (text ++ rest) := by
  have hself : LongestLexeme kind text (text ++ ([] ++ [])) := by simpa using longestLexeme_self h
  exact hself.before_break hrest

/-- No comment begins with a lexeme before a break. -/
theorem not_startsSeparator_before_break {c : Char} {others : List Char}
    (h : Lexeme kind (c :: others)) (hrest : StartsBreak rest) :
    ¬ StartsSeparator c (others ++ rest) := by
  obtain ⟨_, _, htext, hfirst⟩ := h.cases_first
  obtain ⟨rfl, rfl⟩ := List.cons.inj htext
  rintro (hblank | ⟨rfl, hsecond⟩)
  · exact Lexeme.not_startsSeparator hfirst (.inl hblank)
  · cases others with
    | cons next others => exact Lexeme.not_comment hfirst hsecond
    | nil => exact absurd (hrest '/' hsecond) (by decide)

theorem pieces_cons (c : Char) (rest : List Char) :
    pieces (c :: rest) =
      ⟨(firstPiece c rest).1, c :: rest.take (firstPiece c rest).2⟩ ::
        pieces (rest.drop (firstPiece c rest).2) := by
  rw [pieces]

/-- The longest lexeme is the first piece of a text, if no comment begins there. -/
theorem pieces_longest {c : Char} {others : List Char}
    (h : LongestLexeme kind (c :: others) (c :: (others ++ rest)))
    (hstart : ¬ StartsSeparator c (others ++ rest)) :
    pieces (c :: (others ++ rest)) = ⟨.token kind, c :: others⟩ :: pieces rest := by
  have hcase := pieceCase_firstPiece c (others ++ rest)
  rw [pieces_cons]
  generalize firstPiece c (others ++ rest) = piece at hcase ⊢
  cases hcase with
  | blank hblank => exact absurd (.inl hblank) hstart
  | comment hslash hsecond => exact absurd (.inr ⟨hslash, hsecond⟩) hstart
  | openString _ _ hnone | unexpected _ _ hnone =>
    exact absurd h.isPrefix (hnone kind _ h.lexeme)
  | @token found extent _ hfound =>
    -- Both are the longest.
    have hsame : kind = found ∧ c :: others = c :: (others ++ rest).take extent := by
      rcases hfound.longest kind _ h.lexeme h.isPrefix with hlt | hsame
      · rcases h.longest found _ hfound.lexeme hfound.isPrefix with hlt' | ⟨hkind, htext⟩
        · omega
        · exact ⟨hkind.symm, htext.symm⟩
      · exact hsame
    obtain ⟨rfl, htext⟩ := hsame
    have htake : (others ++ rest).take extent = others := (List.cons.inj htext).2.symm
    have hdrop : (others ++ rest).drop extent = rest := by
      have hsplit := List.take_append_drop extent (others ++ rest)
      rw [htake] at hsplit
      exact List.append_cancel_left hsplit
    dsimp only
    rw [htake, hdrop]

/-- A lexeme before a break is the first piece of a text. -/
theorem pieces_lexeme (h : Lexeme kind text) (hrest : StartsBreak rest) :
    pieces (text ++ rest) = ⟨.token kind, text⟩ :: pieces rest := by
  have hlongest := longestLexeme_before_break h hrest
  obtain ⟨c, others, rfl, -⟩ := h.cases_first
  rw [List.cons_append] at hlongest ⊢
  exact pieces_longest hlongest (not_startsSeparator_before_break h hrest)

end Script
