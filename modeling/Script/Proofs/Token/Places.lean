import Script.Token.Scan

/-!
# Tokens of a source

Two things about the tokens that scanning finds: each begins after the one before it, so that no
two of them are equal, and none that is called an identifier is spelled like a keyword.
-/

namespace Script

/-! ## Identifiers

The scanner calls a word an identifier only after it has looked it up among the keywords, and no
other rule yields an identifier. -/

/-- No punctuation character is an identifier. -/
theorem punctuation?_ne_identifier (c : Char) : punctuation? c ≠ some .identifier := by
  unfold punctuation?
  split <;> decide

/-- No sign is an identifier. -/
theorem extendable?_ne_identifier {c : Char} {alone extended : TokenKind}
    (h : extendable? c = some (alone, extended)) :
    alone ≠ .identifier ∧ extended ≠ .identifier := by
  unfold extendable? at h
  split at h <;> cases h <;> decide

/-- A piece that is an identifier is no keyword. -/
theorem firstPiece_identifier {c : Char} {rest : List Char} {extent : Nat}
    (h : firstPiece c rest = (.token .identifier, extent)) :
    keyword? (String.ofList (c :: rest.take extent)) = none := by
  unfold firstPiece at h
  split at h
  · cases h
  split at h
  · cases h
  split at h
  · dsimp only at h
    split at h <;> cases h
  split at h
  · cases h
  split at h
  · obtain ⟨hkind, rfl⟩ := Prod.mk.inj h
    injection hkind with hkind
    unfold wordKind at hkind
    generalize c :: rest.take (rest.takeWhile isWordCharacter).length = word at hkind ⊢
    cases hkeyword : keyword? (String.ofList word) with
    | none => rfl
    | some kind =>
      rw [hkeyword] at hkind
      obtain rfl : kind = .identifier := hkind
      -- No keyword has this kind.
      unfold keyword? at hkeyword
      split at hkeyword <;> cases hkeyword
  split at h
  · next kind _ hkind =>
    obtain ⟨hkind', -⟩ := Prod.mk.inj h
    injection hkind' with hkind'
    exact absurd (hkind' ▸ hkind) (punctuation?_ne_identifier c)
  · next alone extended _ hextendable =>
    obtain ⟨halone, hextended⟩ := extendable?_ne_identifier hextendable
    split at h
    · obtain ⟨hkind, -⟩ := Prod.mk.inj h
      injection hkind with hkind
      exact absurd hkind hextended
    · obtain ⟨hkind, -⟩ := Prod.mk.inj h
      injection hkind with hkind
      exact absurd hkind halone
  · cases h

/-! ## Pieces and their places

A piece has at least one character, and so at least one byte. The next piece therefore begins
further on. -/

/-- The piece is not empty, and no keyword if it is an identifier. -/
structure Piece.Sound (piece : Piece) : Prop where
  text : piece.text ≠ []
  identifier : piece.shape = .token .identifier → keyword? (String.ofList piece.text) = none

/-- All pieces of a text are sound. -/
theorem pieces_sound (text : List Char) : ∀ piece ∈ pieces text, piece.Sound := by
  fun_induction pieces text with
  | case1 =>
    intro piece hpiece
    cases hpiece
  | case2 c rest shape extent hfirst ih =>
    intro piece hpiece
    rcases List.mem_cons.mp hpiece with rfl | hpiece
    · refine ⟨List.cons_ne_nil _ _, ?_⟩
      rintro rfl
      exact firstPiece_identifier hfirst
    · exact ih piece hpiece

/-- A text that is not empty has a byte. -/
theorem utf8Length_pos {text : List Char} (h : text ≠ []) : 0 < utf8Length text := by
  cases text with
  | nil => exact absurd rfl h
  | cons c text =>
    have hchar := c.utf8Size_pos
    rw [utf8Length_cons]
    omega

/-- The token of a piece stands where the piece does. -/
theorem Piece.token_of_item? {piece : Piece} {span : Span} {token : Token}
    (h : token ∈ (piece.item? span).toList.filterMap ScanItem.token?) :
    token.span = span ∧ piece.shape = .token token.kind ∧
      token.lexeme = String.ofList piece.text := by
  unfold Piece.item? at h
  split at h
  · cases h
  · next hshape =>
    obtain rfl := List.mem_singleton.mp h
    exact ⟨rfl, hshape, rfl⟩
  · cases h
  · cases h

/-- No token begins before the place where the pieces do. -/
theorem itemsFrom_start {start : Nat} {ps : List Piece} {token : Token}
    (h : token ∈ (itemsFrom start ps).filterMap ScanItem.token?) : start ≤ token.span.start := by
  induction ps generalizing start with
  | nil =>
    obtain rfl := List.mem_singleton.mp h
    exact Nat.le_refl _
  | cons piece rest ih =>
    rw [itemsFrom, List.filterMap_append] at h
    rcases List.mem_append.mp h with hfirst | hrest
    · exact Nat.le_of_eq (by rw [(Piece.token_of_item? hfirst).1])
    · have := ih hrest
      omega

/-- Tokens of later pieces begin further on. -/
theorem itemsFrom_pairwise (start : Nat) {ps : List Piece} (hps : ∀ piece ∈ ps, piece.Sound) :
    ((itemsFrom start ps).filterMap ScanItem.token?).Pairwise
      fun a b => a.span.start < b.span.start := by
  induction ps generalizing start with
  | nil => exact List.pairwise_singleton _ _
  | cons piece rest ih =>
    rw [itemsFrom, List.filterMap_append, List.pairwise_append]
    refine ⟨?_, ih _ fun p hp => hps p (.tail _ hp), ?_⟩
    · -- A piece has one token at most.
      unfold Piece.item?
      split <;> first | exact .nil | exact List.pairwise_singleton _ _
    · intro a ha b hb
      have hlength := utf8Length_pos (hps piece (.head _)).text
      have hstart := itemsFrom_start hb
      rw [(Piece.token_of_item? ha).1]
      show start < b.span.start
      omega

/-- An identifier among the tokens is no keyword. -/
theorem itemsFrom_identifier {start : Nat} {ps : List Piece} (hps : ∀ piece ∈ ps, piece.Sound)
    {token : Token} (h : token ∈ (itemsFrom start ps).filterMap ScanItem.token?)
    (hkind : token.kind = .identifier) : keyword? token.lexeme = none := by
  induction ps generalizing start with
  | nil =>
    obtain rfl := List.mem_singleton.mp h
    cases hkind
  | cons piece rest ih =>
    rw [itemsFrom, List.filterMap_append] at h
    rcases List.mem_append.mp h with hfirst | hrest
    · obtain ⟨-, hshape, hlexeme⟩ := Piece.token_of_item? hfirst
      rw [hkind] at hshape
      rw [hlexeme]
      exact (hps piece (.head _)).identifier hshape
    · exact ih (fun p hp => hps p (.tail _ hp)) hrest

/-! ## Tokens -/

/-- Each token begins after the one before it. -/
theorem tokens_pairwise (source : String) :
    (tokens source).Pairwise fun a b => a.span.start < b.span.start :=
  itemsFrom_pairwise 0 (pieces_sound _)

/-- No two tokens of a source are equal: they differ in their places. -/
theorem tokens_nodup (source : String) : (tokens source).Nodup := by
  refine (tokens_pairwise source).imp ?_
  intro a b hlt heq
  rw [heq] at hlt
  exact Nat.lt_irrefl _ hlt

/-- No identifier is spelled like a keyword. -/
theorem keyword?_of_identifier {source : String} {token : Token} (h : token ∈ tokens source)
    (hkind : token.kind = .identifier) : keyword? token.lexeme = none :=
  itemsFrom_identifier (pieces_sound _) h hkind

end Script
