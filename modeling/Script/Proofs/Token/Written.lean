import Script.Proofs.Grammar.Places
import Script.Proofs.Token.Breaks

/-!
# Writing tokens out

A row of tokens is written out with gaps between them: blanks, and comments that a line feed ends.
A gap begins with a blank, so that the token before it is over, and so that no slash in front of it
joins a comment. Scanning what has been written finds the tokens again, each where it stands, and
nothing else (`scan_written`). So it does not matter which gaps were chosen
(`written_readsBack`).

The gaps are pieces of their own, whatever comes after them (`Spacing.pieces`), and so is a token
before a gap (`pieces_lexeme`).
-/

namespace Script

/-! ## Gaps

A gap is any text that may stand between two tokens, so that both are still scanned. -/

/-- Blanks, and comments that a line feed ends. -/
inductive Spacing : List Char → Prop where
  | nil : Spacing []
  | blank {c : Char} {text : List Char} (hblank : c ∈ [' ', '\t', '\r', '\n'])
      (h : Spacing text) : Spacing (c :: text)
  | comment {body text : List Char} (hbody : '\n' ∉ body) (h : Spacing text) :
      Spacing ('/' :: '/' :: (body ++ '\n' :: text))

/-- The text begins with a blank, as one of the four characters that the scanner skips. -/
def StartsBlank (text : List Char) : Prop :=
  ∃ c rest, text = c :: rest ∧ c ∈ [' ', '\t', '\r', '\n']

/-- A token, and what is written after it. -/
structure Word where
  token : Token
  gap : List Char

namespace Word

/-- The words, one after the other, each with the gap behind it. -/
def textOf (words : List Word) : List Char :=
  words.flatMap fun word => word.token.lexeme.toList ++ word.gap

/-- Between two words there is a gap that begins with a blank. After the last word there may be
one. -/
def Apart : List Word → Prop
  | [] => True
  | word :: rest =>
    Spacing word.gap ∧ (StartsBlank word.gap ∨ (word.gap = [] ∧ rest = [])) ∧ Apart rest

/-- The tokens of the words where they come to stand, the first of them at the byte `start`, and an
end-of-file token after them. -/
def tokensFrom (start : Nat) : List Word → List Token
  | [] => [.endOfFile ⟨start, start⟩]
  | word :: rest =>
    let stop := start + utf8Length word.token.lexeme.toList
    { word.token with span := ⟨start, stop⟩ } :: tokensFrom (stop + utf8Length word.gap) rest

end Word

/-- The words, and a gap before the first of them. -/
def writeOut (lead : List Char) (words : List Word) : String :=
  String.ofList (lead ++ Word.textOf words)

/-! ## Pieces -/

/-- A blank is a piece by itself. -/
theorem firstPiece_blank {c : Char} (h : isBlank c = true) (rest : List Char) :
    firstPiece c rest = (.trivia, 0) := by
  simp [firstPiece, h]

/-- A comment is a piece up to the line feed that ends it, or up to the end. -/
theorem pieces_comment {body rest : List Char} (hbody : '\n' ∉ body)
    (hstop : rest.head? = none ∨ rest.head? = some '\n') :
    pieces ('/' :: '/' :: (body ++ rest)) = ⟨.trivia, '/' :: '/' :: body⟩ :: pieces rest := by
  have hslash : '\n' ∉ '/' :: body := by simpa using hbody
  have hline : ('/' :: (body ++ rest)).takeWhile (· ≠ '\n') = '/' :: body := by
    cases rest with
    | nil =>
      rw [List.append_nil]
      refine List.takeWhile_eq_self_iff.mpr fun c hc => decide_eq_true ?_
      rintro rfl
      exact hslash hc
    | cons c after =>
      obtain rfl : c = '\n' := by simpa using hstop
      exact takeWhile_ne_append hslash
  have hfirst : firstPiece '/' ('/' :: (body ++ rest)) = (.trivia, ('/' :: body).length) := by
    rw [← hline]
    simp [firstPiece, isBlank]
  rw [pieces_cons, hfirst]
  simp

/-- A gap is cut into pieces that are skipped, whatever comes after it. -/
theorem Spacing.pieces {text : List Char} (h : Spacing text) : ∃ ps : List Piece,
    (∀ piece ∈ ps, piece.shape = .trivia) ∧ ps.flatMap Piece.text = text ∧
      ∀ rest, Script.pieces (text ++ rest) = ps ++ Script.pieces rest := by
  induction h with
  | nil => exact ⟨[], by simp, rfl, fun rest => rfl⟩
  | @blank c text hblank _ ih =>
    obtain ⟨ps, hshape, htext, hpieces⟩ := ih
    refine ⟨⟨.trivia, [c]⟩ :: ps, by simpa using hshape, by simp [htext], fun rest => ?_⟩
    rw [List.cons_append, pieces_cons, firstPiece_blank (isBlank_iff.mpr hblank)]
    simp [hpieces]
  | @comment body text hbody _ ih =>
    obtain ⟨ps, hshape, htext, hpieces⟩ := ih
    -- The line feed is a piece of its own.
    refine ⟨⟨.trivia, '/' :: '/' :: body⟩ :: ⟨.trivia, ['\n']⟩ :: ps, by simpa using hshape,
      by simp [htext], fun rest => ?_⟩
    have hsplit : '/' :: '/' :: (body ++ '\n' :: text) ++ rest =
        '/' :: '/' :: (body ++ '\n' :: (text ++ rest)) := by simp
    rw [hsplit, pieces_comment hbody (.inr rfl), pieces_cons, firstPiece_blank (by decide)]
    simp [hpieces]

/-- A word is over where its gap begins. -/
theorem startsBreak_gap {gap rest : List Char} (h : StartsBlank gap ∨ (gap = [] ∧ rest = [])) :
    StartsBreak (gap ++ rest) := by
  rcases h with ⟨c, others, rfl, hblank⟩ | ⟨rfl, rfl⟩
  · intro d hd
    obtain rfl : c = d := by simpa using hd
    exact isBreak_of_blank (isBlank_iff.mpr hblank)
  · simp [StartsBreak]

/-! ## Items

A gap moves the items behind it by its bytes and adds none. -/

/-- Pieces that are skipped only move what comes after them. -/
theorem itemsFrom_trivia {ps : List Piece} (h : ∀ piece ∈ ps, piece.shape = .trivia)
    (start : Nat) (rest : List Piece) :
    itemsFrom start (ps ++ rest) = itemsFrom (start + utf8Length (ps.flatMap Piece.text)) rest := by
  induction ps generalizing start with
  | nil => simp
  | cons piece ps ih =>
    have hnone : ∀ span, piece.item? span = none := by
      intro span
      unfold Piece.item?
      rw [h piece (.head _)]
    rw [List.cons_append, itemsFrom, hnone, ih fun p hp => h p (.tail _ hp)]
    simp [Nat.add_assoc]

/-- The items of a gap and a text are those of the text. -/
theorem Spacing.itemsFrom {gap : List Char} (h : Spacing gap) (start : Nat) (text : List Char) :
    Script.itemsFrom start (Script.pieces (gap ++ text)) =
      Script.itemsFrom (start + utf8Length gap) (Script.pieces text) := by
  obtain ⟨ps, hshape, htext, hpieces⟩ := h.pieces
  rw [hpieces, itemsFrom_trivia hshape, htext]

/-- The item of a lexeme before a break is its token. -/
theorem itemsFrom_lexeme {token : Token} (h : token.Scanned) {rest : List Char}
    (hrest : StartsBreak rest) (start : Nat) :
    itemsFrom start (pieces (token.lexeme.toList ++ rest)) =
      .token { token with span := ⟨start, start + utf8Length token.lexeme.toList⟩ } ::
        itemsFrom (start + utf8Length token.lexeme.toList) (pieces rest) := by
  rw [pieces_lexeme h.lexeme hrest, itemsFrom, Piece.item?]
  dsimp only
  rw [← h.literal, String.ofList_toList]
  rfl

section

variable {lead : List Char} {words : List Word}

/-- The items of words that have been written are their tokens. -/
theorem itemsFrom_words (happart : Word.Apart words)
    (hwords : ∀ word ∈ words, word.token.Scanned) (start : Nat) :
    itemsFrom start (pieces (Word.textOf words)) =
      (Word.tokensFrom start words).map ScanItem.token := by
  induction words generalizing start with
  | nil =>
    rw [Word.textOf, List.flatMap_nil, pieces]
    rfl
  | cons word rest ih =>
    obtain ⟨hspacing, hbreak, happart⟩ := happart
    -- Where there is no gap, there is no other word either.
    have hstarts : StartsBreak (word.gap ++ Word.textOf rest) := by
      refine startsBreak_gap (hbreak.imp_right fun hlast => ⟨hlast.1, ?_⟩)
      rw [hlast.2]
      rfl
    have htext : Word.textOf (word :: rest) =
        word.token.lexeme.toList ++ (word.gap ++ Word.textOf rest) := by
      simp [Word.textOf]
    rw [htext, itemsFrom_lexeme (hwords word (.head _)) hstarts, hspacing.itemsFrom,
      ih happart fun other hother => hwords other (.tail _ hother)]
    rfl

/-- Scanning finds the tokens that have been written, and the end. -/
theorem scan_written (hlead : Spacing lead) (happart : Word.Apart words)
    (hwords : ∀ word ∈ words, word.token.Scanned) :
    scan (writeOut lead words) =
      (Word.tokensFrom (utf8Length lead) words).map ScanItem.token := by
  rw [scan, writeOut, String.toList_ofList, hlead.itemsFrom, itemsFrom_words happart hwords,
    Nat.zero_add]

/-! ## Tokens -/

/-- The tokens of words depend on their gaps for nothing but their places. -/
theorem Word.tokensFrom_forget (start : Nat) (words : List Word) :
    (Word.tokensFrom start words).map (Token.relocate .forget) =
      (words.map Word.token).map (Token.relocate .forget) ++ [.endOfFile .origin] := by
  induction words generalizing start with
  | nil => rfl
  | cons word rest ih =>
    rw [Word.tokensFrom, List.map_cons, ih]
    rfl

/-- But for their places the items depend on the tokens that were written only. -/
theorem scan_written_forget (hlead : Spacing lead) (happart : Word.Apart words)
    (hwords : ∀ word ∈ words, word.token.Scanned) :
    (scan (writeOut lead words)).map (ScanItem.relocate .forget) =
      ((words.map Word.token).map (Token.relocate .forget) ++ [Token.endOfFile .origin]).map
        ScanItem.token := by
  rw [scan_written hlead happart hwords, ← Word.tokensFrom_forget (utf8Length lead),
    List.map_map, List.map_map]
  rfl

/-- What has been written out from these words is read back. -/
structure ReadsBack (words : List Word) (source : String) : Prop where
  clean : scanErrors source = []
  /-- The tokens are those of the words, but for their places, and the end comes after them. -/
  tokens : ∃ row, Script.tokens source =
      row ++ [.endOfFile ⟨source.utf8ByteSize, source.utf8ByteSize⟩] ∧
    row.map (Token.relocate .forget) = (words.map Word.token).map (Token.relocate .forget)
  /-- Other gaps make no difference. -/
  alike : ∀ lead' words', Spacing lead' → Word.Apart words' →
    words'.map Word.token = words.map Word.token → ReadsAlike source (writeOut lead' words')

/-- Scanning undoes the writing of tokens, whatever is written between them: blanks and comments, in
any number, as long as each token is followed by a blank. -/
theorem written_readsBack (hlead : Spacing lead) (happart : Word.Apart words)
    (hwords : ∀ word ∈ words, word.token.Scanned) : ReadsBack words (writeOut lead words) := by
  have hscan := scan_written hlead happart hwords
  refine ⟨?clean, ?tokens, ?alike⟩
  case clean =>
    rw [scanErrors, hscan, List.filterMap_map]
    exact List.filterMap_eq_nil_iff.mpr fun _ _ => rfl
  case tokens =>
    obtain ⟨row, htokens, -, -⟩ := tokens_eq (writeOut lead words)
    have hrow : tokens (writeOut lead words) = Word.tokensFrom (utf8Length lead) words := by
      rw [tokens, hscan, List.filterMap_map]
      exact List.filterMap_some
    -- Both rows end with the end-of-file token.
    have hforget := Word.tokensFrom_forget (utf8Length lead) words
    rw [← hrow, htokens, List.map_append] at hforget
    exact ⟨row, htokens, List.append_cancel_right hforget⟩
  case alike =>
    intro lead' words' hlead' happart' hsame
    -- The other words have the same tokens, so these can be scanned as well.
    have hwords' : ∀ word ∈ words', word.token.Scanned := by
      intro word hword
      have hmem : word.token ∈ words.map Word.token := by
        rw [← hsame]
        exact List.mem_map_of_mem hword
      obtain ⟨other, hother, heq⟩ := List.mem_map.mp hmem
      rw [← heq]
      exact hwords other hother
    apply readsAlike_of_scan
    rw [scan_written_forget hlead happart hwords, scan_written_forget hlead' happart' hwords',
      hsame]

end

/-- A slash before a comment with a quote in it, a string with two slashes in it, a numeral before a
carriage return, and a point at the end. -/
def closeCalls : List Word :=
  [⟨.ofText "/", [' ', '/', '/', '"', '\n']⟩, ⟨.ofText "\"// é\"", ['\t', '\n', '\n']⟩,
    ⟨.ofText "1.5", ['\r']⟩, ⟨.ofText "andy", ['\r', '\n', '/', '/', '\r', '\n']⟩,
    ⟨.ofText ".", []⟩]

theorem written_readsBack_closeCalls :
    Spacing ['/', '/', '/', '\n'] ∧ Word.Apart closeCalls ∧
      (∀ word ∈ closeCalls, word.token.Scanned) ∧
      ReadsBack closeCalls (writeOut ['/', '/', '/', '\n'] closeCalls) := by
  have hlead : Spacing ['/', '/', '/', '\n'] := @Spacing.comment ['/'] [] (by decide) .nil
  have happart : Word.Apart closeCalls := by
    have hquote : Spacing ['/', '/', '"', '\n'] := @Spacing.comment ['"'] [] (by decide) .nil
    have hreturn : Spacing ['/', '/', '\r', '\n'] := @Spacing.comment ['\r'] [] (by decide) .nil
    have hblank : ∀ c rest, c ∈ [' ', '\t', '\r', '\n'] → StartsBlank (c :: rest) :=
      fun c rest hc => ⟨c, rest, rfl, hc⟩
    refine ⟨.blank (by decide) hquote, .inl (hblank _ _ (by decide)),
      .blank (by decide) (.blank (by decide) (.blank (by decide) .nil)),
      .inl (hblank _ _ (by decide)), .blank (by decide) .nil, .inl (hblank _ _ (by decide)),
      .blank (by decide) (.blank (by decide) hreturn), .inl (hblank _ _ (by decide)),
      .nil, .inr ⟨rfl, rfl⟩, trivial⟩
  have hwords : ∀ word ∈ closeCalls, word.token.Scanned := by
    have hpieces : ∀ word ∈ closeCalls,
        ⟨.token word.token.kind, word.token.lexeme.toList⟩ ∈ pieces word.token.lexeme.toList ∧
          word.token.literal = literal? word.token.kind word.token.lexeme.toList := by
      decide +kernel
    intro word hword
    exact ⟨lexeme_of_piece (hpieces word hword).1 rfl, (hpieces word hword).2⟩
  exact ⟨hlead, happart, hwords, written_readsBack hlead happart hwords⟩

end Script
