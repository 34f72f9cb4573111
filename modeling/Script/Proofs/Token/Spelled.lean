import Script.Proofs.Token.Places
import Script.Proofs.Token.Tiling

/-!
# Tokens by their texts

A token of a source is known by its text: the text settles its kind (`lexemeKind_of_lexeme`), and
the two settle what it stands for. So apart from its place it is the token that `Token.ofText` makes
of its text (`Token.Scanned.eq_ofText`).
-/

namespace Script

/-! ## The kind of a lexeme

Scanning the text alone tells the kind. The text is one piece then, since the longest lexeme that it
begins with is the whole. -/

/-- The kind of the token that the text is; end of file if it is none. -/
def lexemeKind : List Char → TokenKind
  | [] => .endOfFile
  | c :: rest =>
    match (firstPiece c rest).1 with
    | .token kind => kind
    | _ => .endOfFile

/-- No lexeme begins with a blank. -/
theorem Lexeme.not_blank {kind : TokenKind} {c : Char} {others : List Char}
    (h : Lexeme.FirstCase kind c others) : isBlank c = false := by
  by_contra hblank
  rw [Bool.not_eq_false, isBlank_iff] at hblank
  simp only [List.mem_cons, List.not_mem_nil, or_false] at hblank
  rcases hblank with rfl | rfl | rfl | rfl <;> cases h with
  | word h => exact absurd h (by decide)
  | whole h | fraction _ _ h => exact absurd h (by decide)
  | string _ h => exact absurd h (by decide)
  | punctuation h | alone _ h | extended _ h => cases h

/-- No lexeme begins with two slashes. -/
theorem Lexeme.not_comment {kind : TokenKind} {others : List Char}
    (h : Lexeme.FirstCase kind '/' others) : others.head? ≠ some '/' := by
  cases h with
  | word h => exact absurd h (by decide)
  | whole h | fraction _ _ h => exact absurd h (by decide)
  | string _ h => exact absurd h (by decide)
  | punctuation _ hothers =>
    rw [hothers]
    exact nofun
  | alone _ h | extended _ h => cases h

/-- No separator begins where a lexeme does. -/
theorem Lexeme.not_startsSeparator {kind : TokenKind} {c : Char} {others : List Char}
    (h : Lexeme.FirstCase kind c others) : ¬ StartsSeparator c others := by
  rintro (hblank | ⟨rfl, hsecond⟩)
  · rw [Lexeme.not_blank h] at hblank
    cases hblank
  · exact Lexeme.not_comment h hsecond

/-- A text that is a lexeme is one piece. -/
theorem firstPiece_of_lexeme {kind : TokenKind} {c : Char} {rest : List Char}
    (h : Lexeme kind (c :: rest)) :
    ∃ extent, firstPiece c rest = (.token kind, extent) ∧ rest.take extent = rest := by
  obtain ⟨_, _, heq, hfirst⟩ := h.cases_first
  obtain ⟨rfl, rfl⟩ := List.cons.inj heq
  have hstart := Lexeme.not_startsSeparator hfirst
  have hcase := pieceCase_firstPiece c rest
  generalize firstPiece c rest = piece at hcase ⊢
  cases hcase with
  | blank hblank => exact absurd (.inl hblank) hstart
  | comment hslash hsecond => exact absurd (.inr ⟨hslash, hsecond⟩) hstart
  | @token found extent _ hlongest =>
    -- The lexeme is among those that the scanner's is compared with, and it is as long as the text.
    rcases hlongest.longest kind _ h (List.prefix_refl _) with hlt | ⟨rfl, htext⟩
    · have hle := (List.take_sublist extent rest).length_le
      simp only [List.length_cons] at hlt
      omega
    · exact ⟨extent, rfl, (List.cons.inj htext).2.symm⟩
  | openString _ _ hnone | unexpected _ _ hnone =>
    exact absurd (List.prefix_refl _) (hnone kind _ h)

/-- A text is a lexeme of one kind only. -/
theorem lexemeKind_of_lexeme {kind : TokenKind} {text : List Char} (h : Lexeme kind text) :
    lexemeKind text = kind := by
  obtain ⟨c, rest, rfl, -⟩ := h.cases_first
  obtain ⟨extent, hfirst, -⟩ := firstPiece_of_lexeme h
  rw [lexemeKind, hfirst]

/-- A text that is a lexeme is cut into this one piece. -/
theorem pieces_of_lexeme {kind : TokenKind} {text : List Char} (h : Lexeme kind text) :
    pieces text = [⟨.token kind, text⟩] := by
  obtain ⟨c, rest, rfl, -⟩ := h.cases_first
  obtain ⟨extent, hfirst, htake⟩ := firstPiece_of_lexeme h
  have hdrop : rest.drop extent = [] := by
    have hall := List.take_append_drop extent rest
    rwa [htake, List.append_right_eq_self] at hall
  rw [pieces, hfirst]
  dsimp only
  rw [htake, hdrop, pieces]

/-! ## Tokens

The value of a literal is read off its text, and the kind comes from the text as well. -/

/-- The token with this text, at no place in particular. -/
def Token.ofText (text : String) : Token :=
  ⟨lexemeKind text.toList, text, literal? (lexemeKind text.toList) text.toList, .origin⟩

namespace Token

/-- The token has the text and the value that scanning gives to one of its kind. -/
structure Scanned (token : Token) : Prop where
  lexeme : Lexeme token.kind token.lexeme.toList
  literal : token.literal = literal? token.kind token.lexeme.toList

variable {token : Token}

/-- Apart from its place a token is known by its text. -/
theorem Scanned.eq_ofText (h : token.Scanned) :
    { token with span := .origin } = ofText token.lexeme := by
  rw [ofText, lexemeKind_of_lexeme h.lexeme, ← h.literal]

/-- Where the kind has one spelling, that is the text. -/
theorem Scanned.lexeme_eq {spelling : String} (h : token.Scanned)
    (hspelling : token.kind.spelling? = some spelling) : token.lexeme = spelling := by
  obtain ⟨kind, lexeme, literal, span⟩ := token
  have hlexeme : Lexeme kind lexeme.toList := h.lexeme
  have hkind : kind.spelling? = some spelling := hspelling
  generalize htext : lexeme.toList = text at hlexeme
  cases hlexeme with
  | spelled h =>
    rw [hkind, ← htext, String.ofList_toList] at h
    exact (Option.some.inj h).symm
  | identifier | whole | fraction | string => cases hkind

end Token

/-! ## The tokens of a source

What is true of pieces is carried to the items that they become. -/

/-- A piece that is a token has the text of one. -/
theorem lexeme_of_piece {text : List Char} {piece : Piece} {kind : TokenKind}
    (hpiece : piece ∈ pieces text) (hshape : piece.shape = .token kind) :
    Lexeme kind piece.text := by
  fun_induction pieces text with
  | case1 => cases hpiece
  | case2 c rest shape extent hfirst ih =>
    rcases List.mem_cons.mp hpiece with rfl | hpiece
    · obtain rfl : shape = .token kind := hshape
      have hcase := pieceCase_firstPiece c rest
      rw [hfirst] at hcase
      cases hcase with
      | token _ hlongest => exact hlongest.lexeme
    · exact ih hpiece

/-- The tokens of the pieces of a text are scanned, but for the one at the end. Each is made from
one piece, with the lexeme of that piece and the literal that goes with it. -/
theorem itemsFrom_scanned {start : Nat} {text : List Char} {ps : List Piece}
    (hps : ∀ piece ∈ ps, piece ∈ pieces text) {token : Token}
    (h : token ∈ (itemsFrom start ps).filterMap ScanItem.token?)
    (hkind : token.kind ≠ .endOfFile) : token.Scanned := by
  induction ps generalizing start with
  | nil =>
    obtain rfl := List.mem_singleton.mp h
    exact absurd rfl hkind
  | cons piece rest ih =>
    rw [itemsFrom, List.filterMap_append] at h
    rcases List.mem_append.mp h with hfirst | hrest
    · have hpiece := hps piece (.head _)
      unfold Piece.item? at hfirst
      split at hfirst
      · cases hfirst
      · next kind hshape =>
        obtain rfl := List.mem_singleton.mp hfirst
        have hlexeme := lexeme_of_piece hpiece hshape
        exact ⟨by rwa [String.toList_ofList], by rw [String.toList_ofList]⟩
      · cases hfirst
      · cases hfirst
    · exact ih (fun p hp => hps p (.tail _ hp)) hrest

/-- The tokens of a source before its end are scanned. -/
theorem tokens_scanned {source : String} {token : Token} (h : token ∈ tokens source)
    (hkind : token.kind ≠ .endOfFile) : token.Scanned :=
  itemsFrom_scanned (fun _ hpiece => hpiece) h hkind

end Script
