import Script.Program
import Script.Proofs.Token.Tiling
import Script.Proofs.Token.Written

/-!
# Blanking unexpected characters out

A character that starts no token is reported and skipped, and it has no other effect than blanks
would have. With as many blanks in its place as it has bytes, the same is found in a source, where
it was, but for the report (`scan_blankOut`). So the errors of parsing are those of the source
without such characters (`blankedOut`).

The pieces of the source that has been blanked out are those of the source itself, with blanks for
the unexpected characters (`pieces_blanked`). A blank is a break, so the longest lexeme in front of
it stays the longest one. A comment ends at a line feed and a string at a quote, and neither is an
unexpected character.
-/

namespace Script

/-! ## Sources -/

/-- The text from the byte `start` on, with blanks for each character that is reported at its
place. -/
def blankOutFrom (errors : List (ScanError × Span)) (start : Nat) : List Char → List Char
  | [] => []
  | c :: rest =>
    let stop := start + c.utf8Size
    let written :=
      if (.unexpectedCharacter c, ⟨start, stop⟩) ∈ errors then List.replicate c.utf8Size ' '
      else [c]
    written ++ blankOutFrom errors stop rest

/-- The source with as many blanks for each unexpected character as the character has bytes. -/
def blankOut (source : String) : String :=
  String.ofList (blankOutFrom (scanErrors source) 0 source.toList)

/-! ## Pieces

What comes after a piece is blanked out before the piece is looked at. It must not make the piece
longer or shorter, nor may two slashes come to stand together. -/

/-- A blank for each byte of an unexpected character. Other pieces stay. -/
def Piece.blankedOut (piece : Piece) : List Piece :=
  match piece.shape with
  | .unexpected c => List.replicate c.utf8Size ⟨.trivia, [' ']⟩
  | _ => [piece]

/-- The text with blanks for its unexpected characters. -/
def blanked (text : List Char) : List Char :=
  ((pieces text).flatMap Piece.blankedOut).flatMap Piece.text

/-- There is nothing to blank out in an empty text. -/
theorem blanked_nil : blanked [] = [] := by
  rw [blanked, pieces]
  rfl

/-- A text is blanked out piece by piece. -/
theorem blanked_cons (c : Char) (rest : List Char) :
    blanked (c :: rest) =
      (Piece.blankedOut ⟨(firstPiece c rest).1, c :: rest.take (firstPiece c rest).2⟩).flatMap
        Piece.text ++ blanked (rest.drop (firstPiece c rest).2) := by
  rw [blanked, pieces_cons, List.flatMap_cons, List.flatMap_append]
  rfl

/-- Blanks, each of them a piece, are that many blanks. -/
theorem text_replicate_blank (n : Nat) :
    (List.replicate n (⟨.trivia, [' ']⟩ : Piece)).flatMap Piece.text = List.replicate n ' ' := by
  induction n with
  | zero => rfl
  | succ n ih => rw [List.replicate_succ, List.flatMap_cons, ih, List.replicate_succ]; rfl

/-- A blank is one byte. -/
theorem utf8Length_replicate_blank (n : Nat) : utf8Length (List.replicate n ' ') = n := by
  induction n with
  | zero => rfl
  | succ n ih =>
    rw [List.replicate_succ, utf8Length_cons, ih, Nat.add_comm]
    rfl

/-- Each blank is a piece of its own. -/
theorem pieces_replicate_blank (n : Nat) (rest : List Char) :
    pieces (List.replicate n ' ' ++ rest) =
      List.replicate n ⟨.trivia, [' ']⟩ ++ pieces rest := by
  induction n with
  | zero => rfl
  | succ n ih =>
    rw [List.replicate_succ, List.cons_append, pieces_cons, firstPiece_blank (by decide)]
    simpa [List.replicate_succ] using ih

/-- Blanking out keeps a text up to some place, where a blank comes. -/
theorem blanked_cases (text : List Char) : blanked text = text ∨
    ∃ before after after', text = before ++ after ∧ blanked text = before ++ ' ' :: after' := by
  fun_induction pieces text with
  | case1 => exact .inl blanked_nil
  | case2 c rest shape extent hfirst ih =>
    rw [blanked_cons, hfirst]
    cases shape with
    | unexpected u =>
      -- A character has at least one byte, so there is a blank.
      obtain ⟨n, hsize⟩ := Nat.exists_eq_succ_of_ne_zero (Nat.ne_of_gt u.utf8Size_pos)
      refine .inr ⟨[], c :: rest, List.replicate n ' ' ++ blanked (rest.drop extent), rfl, ?_⟩
      rw [Piece.blankedOut, text_replicate_blank, hsize]
      rfl
    | trivia | token _ | openString =>
      have htext : c :: rest = (c :: rest.take extent) ++ rest.drop extent :=
        (piece_append c rest extent).symm
      rcases ih with hsame | ⟨before, after, after', hrest, hblanked⟩
      · exact .inl (by simp [Piece.blankedOut, hsame])
      · refine .inr ⟨(c :: rest.take extent) ++ before, after, after', ?_, ?_⟩
        · rw [htext, hrest, List.append_assoc]
        · simp [Piece.blankedOut, hblanked]

/-- The token that a text begins with is there when what comes after it has been blanked out. -/
theorem pieces_longest_blanked {kind : TokenKind} {c : Char} {others rest : List Char}
    (h : LongestLexeme kind (c :: others) (c :: (others ++ rest)))
    (hstart : ¬ StartsSeparator c (others ++ rest)) :
    pieces (c :: (others ++ blanked rest)) =
      ⟨.token kind, c :: others⟩ :: pieces (blanked rest) := by
  rcases blanked_cases rest with hsame | ⟨before, after, after', rfl, hblanked⟩
  · rw [hsame]
    exact pieces_longest h hstart
  have hbreak : StartsBreak (' ' :: after') := by
    intro d hd
    obtain rfl : ' ' = d := by simpa using hd
    exact isBreak_of_blank (by decide)
  rw [hblanked]
  refine pieces_longest (h.before_break hbreak) ?_
  rintro (hblank | ⟨hslash, hsecond⟩)
  · exact hstart (.inl hblank)
  · refine hstart (.inr ⟨hslash, ?_⟩)
    -- The second slash was there before, since it is no blank.
    rw [← List.append_assoc] at hsecond ⊢
    cases hfront : others ++ before with
    | nil => simp [hfront] at hsecond
    | cons first front => simpa [hfront] using hsecond

/-- What comes after a comment is a line feed or the end, and stays that. -/
theorem head?_blanked_line {rest : List Char} (h : rest.head? = none ∨ rest.head? = some '\n') :
    (blanked rest).head? = none ∨ (blanked rest).head? = some '\n' := by
  cases rest with
  | nil => exact .inl (by rw [blanked_nil]; rfl)
  | cons c after =>
    obtain rfl : c = '\n' := by simpa using h
    rw [blanked_cons, firstPiece_blank (by decide)]
    exact .inr rfl

/-- The comment that a text begins with is there when what comes after it has been blanked out. -/
theorem pieces_comment_blanked {rest : List Char} (h : rest.head? = some '/') :
    pieces ('/' :: (rest.takeWhile (· ≠ '\n') ++ blanked (rest.dropWhile (· ≠ '\n')))) =
      ⟨.trivia, '/' :: rest.takeWhile (· ≠ '\n')⟩ ::
        pieces (blanked (rest.dropWhile (· ≠ '\n'))) := by
  obtain ⟨line, rfl⟩ := List.head?_eq_some_iff.mp h
  have hline : '\n' ∉ line.takeWhile (· ≠ '\n') := fun hmem => by
    simpa using List.mem_takeWhile_imp hmem
  have htake : ('/' :: line).takeWhile (· ≠ '\n') = '/' :: line.takeWhile (· ≠ '\n') := by simp
  rw [htake]
  exact pieces_comment hline (head?_blanked_line (head?_dropWhile_ne '\n' ('/' :: line)))

/-- The pieces of a text that has been blanked out are its pieces, with blanks for the unexpected
characters. -/
theorem pieces_blanked (text : List Char) :
    pieces (blanked text) = (pieces text).flatMap Piece.blankedOut := by
  fun_induction pieces text with
  | case1 =>
    rw [blanked_nil, pieces]
    rfl
  | case2 c rest shape extent hfirst ih =>
    have hcase := pieceCase_firstPiece c rest
    rw [hfirst] at hcase
    rw [blanked_cons, hfirst, List.flatMap_cons, ← ih]
    cases hcase with
    | blank hblank =>
      show pieces (c :: blanked rest) = ⟨.trivia, [c]⟩ :: pieces (blanked rest)
      rw [pieces_cons, firstPiece_blank hblank]
      rfl
    | comment hslash hsecond =>
      -- The characters of the comment itself are not blanked out, since they are no pieces.
      subst hslash
      have hpiece := pieces_comment_blanked hsecond
      simpa [Piece.blankedOut, take_length_takeWhile, drop_length_takeWhile] using hpiece
    | token hstart hlongest =>
      have htext : rest.take extent ++ rest.drop extent = rest := List.take_append_drop ..
      have hpiece := pieces_longest_blanked (by rwa [htext]) (by rwa [htext])
      simpa [Piece.blankedOut] using hpiece
    | openString =>
      -- Nothing is left behind it.
      have hopen : pieces (c :: rest) = [⟨.openString, c :: rest⟩] := by
        rw [pieces_cons, hfirst]
        simp [pieces]
      simpa [Piece.blankedOut, blanked_nil, pieces] using hopen
    | unexpected =>
      show pieces
          ((List.replicate c.utf8Size ⟨.trivia, [' ']⟩).flatMap Piece.text ++ blanked rest) =
        List.replicate c.utf8Size ⟨.trivia, [' ']⟩ ++ pieces (blanked rest)
      rw [text_replicate_blank, pieces_replicate_blank]

/-! ## Items

A piece and the blanks in its place have the same bytes, so whatever comes after them stands where
it stood. -/

/-- Whether the item reports an unexpected character. -/
def ScanItem.isUnexpected : ScanItem → Bool
  | .error (.unexpectedCharacter _) _ => true
  | _ => false

/-- Blanks for unexpected characters leave everything else where it is. As many blanks stand for a
character as it has bytes, so what follows starts at the same offset. -/
theorem itemsFrom_blankedOut (start : Nat) {ps : List Piece}
    (h : ∀ piece ∈ ps, ∀ c, piece.shape = .unexpected c → piece.text = [c]) :
    itemsFrom start (ps.flatMap Piece.blankedOut) =
      (itemsFrom start ps).filter fun item => !item.isUnexpected := by
  induction ps generalizing start with
  | nil => rfl
  | cons piece ps ih =>
    have ih := fun start => ih start fun p hp => h p (.tail _ hp)
    rw [List.flatMap_cons, itemsFrom, List.filter_append, ← ih]
    cases hshape : piece.shape with
    | unexpected c =>
      have htext := h piece (.head _) c hshape
      have hblanks : ∀ p ∈ List.replicate c.utf8Size (⟨.trivia, [' ']⟩ : Piece),
          p.shape = .trivia := by
        intro p hp
        rw [List.eq_of_mem_replicate hp]
      rw [Piece.blankedOut, hshape]
      dsimp only
      rw [itemsFrom_trivia hblanks, text_replicate_blank, utf8Length_replicate_blank, htext]
      simp [Piece.item?, hshape, ScanItem.isUnexpected]
    | trivia | token _ | openString =>
      simp [Piece.blankedOut, Piece.item?, hshape, itemsFrom, ScanItem.isUnexpected]

/-- An unexpected character is a piece of its own. -/
theorem text_of_unexpected {text : List Char} {piece : Piece} {c : Char} (h : piece ∈ pieces text)
    (hshape : piece.shape = .unexpected c) : piece.text = [c] := by
  fun_induction pieces text with
  | case1 => cases h
  | case2 first rest shape extent hfirst ih =>
    rcases List.mem_cons.mp h with rfl | h
    · have hcase := pieceCase_firstPiece first rest
      dsimp only at hshape
      rw [hfirst, hshape] at hcase
      cases hcase
      rfl
    · exact ih h

/-! ## Reports and places

The source is blanked out by the reports, which name characters by their places, and the text by its
pieces. These agree because the reports of what comes later lie further on. -/

/-- What is reported of the pieces of a text that starts at the byte `start`. -/
def errorsFrom (start : Nat) (text : List Char) : List (ScanError × Span) :=
  (itemsFrom start (pieces text)).filterMap ScanItem.error?

/-- Text in which no unexpected character is reported stays as it is. -/
theorem blankOutFrom_append {errors : List (ScanError × Span)} {start : Nat} (text rest : List Char)
    (h : ∀ c span, (.unexpectedCharacter c, span) ∈ errors →
      span.start < start ∨ start + utf8Length text ≤ span.start) :
    blankOutFrom errors start (text ++ rest) =
      text ++ blankOutFrom errors (start + utf8Length text) rest := by
  induction text generalizing start with
  | nil => rfl
  | cons c text ih =>
    have hlater : ∀ c' span, (.unexpectedCharacter c', span) ∈ errors →
        span.start < start + c.utf8Size ∨
          start + c.utf8Size + utf8Length text ≤ span.start := by
      intro c' span hmem
      have hplace := h c' span hmem
      rw [utf8Length_cons] at hplace
      omega
    -- The character itself is not reported, since its span would start inside the text.
    have hhere : (.unexpectedCharacter c, ⟨start, start + c.utf8Size⟩) ∉ errors := by
      intro hmem
      have hplace := h c _ hmem
      have hsize := c.utf8Size_pos
      rw [utf8Length_cons] at hplace
      dsimp only at hplace
      omega
    rw [List.cons_append, blankOutFrom, if_neg hhere, ih hlater, utf8Length_cons, Nat.add_assoc]
    rfl

/-- An error stands where its item does. -/
theorem ScanItem.span_of_error? {item : ScanItem} {error : ScanError × Span}
    (h : item.error? = some error) : item.span = error.2 := by
  cases item with
  | token t => cases h
  | error e span =>
    obtain rfl := Option.some.inj h
    rfl

/-- Nothing is reported before the place where the text begins. -/
theorem errorsFrom_start_le {start : Nat} {text : List Char} {error : ScanError × Span}
    (h : error ∈ errorsFrom start text) : start ≤ error.2.start := by
  obtain ⟨item, hitem, herror⟩ := List.mem_filterMap.mp h
  rw [← ScanItem.span_of_error? herror]
  exact itemsFrom_start_le hitem

/-- What is reported of a text is what is reported of its first piece and of the rest. -/
theorem errorsFrom_cons (start : Nat) (c : Char) (rest : List Char) :
    errorsFrom start (c :: rest) =
      ((Piece.item? ⟨(firstPiece c rest).1, c :: rest.take (firstPiece c rest).2⟩
        ⟨start, start + utf8Length (c :: rest.take (firstPiece c rest).2)⟩).toList.filterMap
          ScanItem.error?) ++
        errorsFrom (start + utf8Length (c :: rest.take (firstPiece c rest).2))
          (rest.drop (firstPiece c rest).2) := by
  rw [errorsFrom, pieces_cons, itemsFrom, List.filterMap_append]
  rfl

/-- The characters that are reported where they stand are the unexpected ones. -/
theorem blankOutFrom_eq {errors : List (ScanError × Span)} {start : Nat} {text : List Char}
    (h : ∀ error : ScanError × Span, start ≤ error.2.start →
      (error ∈ errors ↔ error ∈ errorsFrom start text)) :
    blankOutFrom errors start text = blanked text := by
  fun_induction pieces text generalizing start with
  | case1 => rw [blanked_nil, blankOutFrom]
  | case2 c rest shape extent hfirst ih =>
    have hcase := pieceCase_firstPiece c rest
    rw [hfirst] at hcase
    have hcons := errorsFrom_cons start c rest
    rw [hfirst] at hcons
    dsimp only at hcons
    have hlength := utf8Length_pos (List.cons_ne_nil c (rest.take extent))
    -- What is reported from the next piece on is reported of what comes after this one.
    have hlater : ∀ error : ScanError × Span,
        start + utf8Length (c :: rest.take extent) ≤ error.2.start →
        (error ∈ errors ↔
          error ∈ errorsFrom (start + utf8Length (c :: rest.take extent)) (rest.drop extent)) := by
      intro error hplace
      rw [h error (by omega), hcons, List.mem_append]
      refine or_iff_right fun hmem => ?_
      obtain ⟨item, hitem, herror⟩ := List.mem_filterMap.mp hmem
      rw [← ScanItem.span_of_error? herror, Piece.span_of_item? hitem] at hplace
      dsimp only at hplace
      omega
    rw [blanked_cons, hfirst, ← ih hlater]
    cases shape with
    | unexpected u =>
      cases hcase
      have hmem : (.unexpectedCharacter c, ⟨start, start + c.utf8Size⟩) ∈ errors := by
        refine (h _ (Nat.le_refl _)).mpr ?_
        rw [hcons]
        exact List.mem_append_left _ (.head _)
      simp [blankOutFrom, hmem, Piece.blankedOut, text_replicate_blank]
    | trivia | token _ | openString =>
      have hquiet : ∀ u span, (.unexpectedCharacter u, span) ∈ errors →
          span.start < start ∨ start + utf8Length (c :: rest.take extent) ≤ span.start := by
        intro u span hmem
        by_cases hbefore : span.start < start
        · exact .inl hbefore
        have hfound := (h _ (Nat.le_of_not_lt hbefore)).mp hmem
        rw [hcons] at hfound
        have hrest := (List.mem_append.mp hfound).resolve_left
          (by simp [Piece.item?, ScanItem.error?])
        exact .inr (errorsFrom_start_le hrest)
      have hpiece := blankOutFrom_append _ (rest.drop extent) hquiet
      rw [piece_append] at hpiece
      simpa [Piece.blankedOut] using hpiece

/-! ## What is found -/

/-- The same is found where unexpected characters have been blanked out, but for the reports of
them. -/
theorem scan_blankOut (source : String) :
    scan (blankOut source) = (scan source).filter fun item => !item.isUnexpected := by
  have htext : blankOutFrom (scanErrors source) 0 source.toList = blanked source.toList :=
    blankOutFrom_eq fun _ _ => .rfl
  rw [scan, blankOut, htext, String.toList_ofList, pieces_blanked,
    itemsFrom_blankedOut 0 fun _ hpiece _ => text_of_unexpected hpiece]
  rfl

/-- Two bytes make two blanks. The string that is not closed keeps its text. -/
example : blankOut "1é.2 #= \"@" = "1  .2  = \"@" := by decide +kernel

/-- The tokens are the same, with the same places. -/
theorem tokens_blankOut (source : String) : tokens (blankOut source) = tokens source := by
  rw [tokens, scan_blankOut, List.filterMap_filter, tokens]
  congr 1
  funext item
  unfold ScanItem.isUnexpected
  split <;> rfl

/-- Of the reports only the one of an open string is left. -/
theorem scanErrors_blankOut (source : String) : scanErrors (blankOut source) =
    (scanErrors source).filter fun error => error.1 = .unterminatedString := by
  rw [scanErrors, scan_blankOut, List.filterMap_filter, scanErrors, List.filter_filterMap]
  congr 1
  funext item
  cases item with
  | token t => rfl
  | error e span => cases e <;> rfl

/-- A source without unexpected characters stays as it is. -/
theorem blankOut_eq_self {source : String} (h : scanErrors source = []) :
    blankOut source = source := by
  have htext : ∀ start text, blankOutFrom [] start text = text := by
    intro start text
    simpa [blankOutFrom] using @blankOutFrom_append [] start text [] (by simp)
  rw [blankOut, h, htext, String.ofList_toList]

/-! ## What is read

A source with unexpected characters is rejected. It is parsed all the same, and the errors of
parsing are reported behind those of scanning. -/

/-- Whether the error is one of parsing, and neither of scanning nor of the limits. -/
def SourceError.isSyntax (error : SourceError) : Bool :=
  match error.fault with
  | .parse _ => true
  | _ => false

/-- The errors of parsing that a source is rejected with. -/
def parseFaults (source : String) : List SourceError :=
  match readProgram source with
  | .ok _ => []
  | .error errors => errors.filter SourceError.isSyntax

/-- No error of scanning is one of parsing. -/
theorem filter_isSyntax_ofScan (errors : List (ScanError × Span)) :
    (errors.map SourceError.ofScan).filter SourceError.isSyntax = [] := by
  simp [List.filter_map, SourceError.isSyntax, SourceError.ofScan]

/-- Errors that come from the parser are errors of parsing, so that filtering keeps them all. -/
theorem filter_isSyntax_ofSyntax (errors : List SyntaxError) :
    (errors.map SourceError.ofSyntax).filter SourceError.isSyntax =
      errors.map SourceError.ofSyntax := by
  simp [SourceError.ofSyntax, SourceError.isSyntax]

/-- No excess of a limit is one of parsing. -/
theorem filter_isSyntax_ofLimit (errors : List (LimitError × Span)) :
    (errors.map SourceError.ofLimit).filter SourceError.isSyntax = [] := by
  simp [List.filter_map, SourceError.isSyntax, SourceError.ofLimit]

/-- The errors of parsing depend on the tokens only, and not on what else scanning has found. -/
theorem parseFaults_eq (source : String) : parseFaults source =
    match parse (tokens source) with
    | .ok _ => []
    | .error errors => errors.map SourceError.ofSyntax := by
  unfold parseFaults readProgram
  cases parse (tokens source) with
  | error errors =>
    show (_ ++ errors.map SourceError.ofSyntax).filter SourceError.isSyntax = _
    rw [List.filter_append, filter_isSyntax_ofScan, filter_isSyntax_ofSyntax, List.nil_append]
  | ok statements =>
    by_cases hclean : scanErrors source = []
    · simp only [hclean, List.map_nil, ne_eq, not_true_eq_false, if_false]
      cases Stmt.limitErrorsOfAll statements with
      | nil => rfl
      | cons first others => exact filter_isSyntax_ofLimit _
    · simp [hclean, filter_isSyntax_ofScan]

/-- Where scanning has found errors they come first, and those of parsing after them. -/
theorem readProgram_of_scanErrors {source : String} (h : scanErrors source ≠ []) :
    readProgram source =
      .error ((scanErrors source).map SourceError.ofScan ++ parseFaults source) := by
  rw [parseFaults_eq, readProgram]
  cases parse (tokens source) with
  | error errors => rfl
  | ok statements => simp [h]

/-- The cleaned source stands for the source with blanks in place of its unexpected characters. -/
structure BlanksOut (source cleaned : String) : Prop where
  size : cleaned.utf8ByteSize = source.utf8ByteSize
  expected : ∀ c span, (.unexpectedCharacter c, span) ∉ scanErrors cleaned
  tokens : tokens cleaned = Script.tokens source
  unterminated : scanErrors cleaned =
    (scanErrors source).filter fun error => error.1 = .unterminatedString
  /-- The errors of scanning come first, and those of parsing are the same. -/
  rejected : cleaned ≠ source → readProgram source =
    .error ((scanErrors source).map SourceError.ofScan ++ parseFaults cleaned)

/-- Unexpected characters act as blanks: with blanks in their places, as many as they have bytes,
the source has the same tokens at the same places, and is read to the same but for their errors. -/
theorem blankOut_blanksOut (source : String) : BlanksOut source (blankOut source) := by
  refine ⟨?size, ?expected, tokens_blankOut source, scanErrors_blankOut source, ?rejected⟩
  case size =>
    -- The end-of-file token is the same, and it tells the size.
    obtain ⟨init, hinit, -, -⟩ := tokens_eq source
    obtain ⟨init', hinit', -, -⟩ := tokens_eq (blankOut source)
    rw [tokens_blankOut, hinit] at hinit'
    have hend := congrArg List.getLast? hinit'
    simpa [Token.endOfFile] using hend.symm
  case expected =>
    intro c span hmem
    rw [scanErrors_blankOut] at hmem
    simpa using (List.mem_filter.mp hmem).2
  case rejected =>
    intro hne
    have herrors : scanErrors source ≠ [] := fun hnone => hne (blankOut_eq_self hnone)
    have hfaults : parseFaults (blankOut source) = parseFaults source := by
      rw [parseFaults_eq, parseFaults_eq, tokens_blankOut]
    rw [hfaults]
    exact readProgram_of_scanErrors herrors

end Script
