import Script.Proofs.Grammar.Relocation
import Script.Proofs.Token.Tiling

/-!
# Scanning a text after another one

No piece of a source reaches over the end of its line into what comes after it, but for a string
that no quote closes. So the items of a source whose strings are closed stay what they are when a
line feed and more text come after it, and the items of the text after it are found as if it stood
alone, only further up by the bytes before it (`scan_join`).
-/

namespace Script

/-! ## Pieces

Each rule of the scanner takes characters as long as they are of some kind, and the line feed is of
none of these kinds, strings apart. So what comes after the line feed is never looked at. -/

section

variable {rest : List Char} (after : List Char)

/-- What is taken while a line feed would not be taken ends before the line feed. -/
theorem takeWhile_append_newline {p : Char → Bool} (h : p '\n' = false) :
    (rest ++ '\n' :: after).takeWhile p = rest.takeWhile p := by
  rw [List.takeWhile_append]
  split
  · next hall =>
    have htake : rest.takeWhile p = rest := (List.takeWhile_prefix p).eq_of_length hall
    rw [List.takeWhile_cons_of_neg (by simp [h]), List.append_nil, htake]
  · rfl

/-- The same for what is taken where it is known to end earlier. -/
theorem takeWhile_append_of_lt {p : Char → Bool} (h : (rest.takeWhile p).length < rest.length) :
    (rest ++ after).takeWhile p = rest.takeWhile p := by
  rw [List.takeWhile_append, if_neg (Nat.ne_of_lt h)]

/-- What comes next is another character than a line feed only if it is one of the first text. -/
theorem head?_append_newline {c : Char} (hc : c ≠ '\n') :
    (rest ++ '\n' :: after).head? = some c ↔ rest.head? = some c := by
  cases rest with
  | nil => simp [hc.symm]
  | cons first others => simp

/-- A fraction ends with its line, so what comes behind the line makes it no longer. -/
theorem fractionExtent_append_newline (tail : List Char) :
    fractionExtent (tail ++ '\n' :: after) = fractionExtent tail := by
  cases tail with
  | nil => rfl
  | cons c tail =>
    have hdigits : (tail ++ '\n' :: after).takeWhile Decimal.isDigit =
        tail.takeWhile Decimal.isDigit := takeWhile_append_newline after rfl
    unfold fractionExtent
    by_cases hc : c = '.'
    · subst hc
      simp only [List.cons_append, hdigits]
    · simp [hc]

/-- A numeral ends with its line, so what comes behind the line makes it no longer. -/
theorem numeralExtent_append_newline :
    numeralExtent (rest ++ '\n' :: after) = numeralExtent rest := by
  have htake : (rest ++ '\n' :: after).takeWhile Decimal.isDigit =
      rest.takeWhile Decimal.isDigit := takeWhile_append_newline after rfl
  have hdrop : (rest ++ '\n' :: after).dropWhile Decimal.isDigit =
      rest.dropWhile Decimal.isDigit ++ '\n' :: after := by
    refine @List.append_cancel_left _ (rest.takeWhile Decimal.isDigit) _ _ ?_
    rw [← List.append_assoc, List.takeWhile_append_dropWhile, ← htake,
      List.takeWhile_append_dropWhile]
  rw [numeralExtent_eq, numeralExtent_eq, htake, hdrop, fractionExtent_append_newline]

/-- A piece that is no open string ends with its line. -/
theorem firstPiece_append_newline {c : Char} (h : (firstPiece c rest).1 ≠ .openString) :
    firstPiece c (rest ++ '\n' :: after) = firstPiece c rest := by
  have hword : (rest ++ '\n' :: after).takeWhile isWordCharacter =
      rest.takeWhile isWordCharacter := takeWhile_append_newline after rfl
  have hline : (rest ++ '\n' :: after).takeWhile (· ≠ '\n') = rest.takeWhile (· ≠ '\n') :=
    takeWhile_append_newline after rfl
  -- The first piece is told from the next characters, and none of these tests looks past a line
  -- feed.
  unfold firstPiece at h ⊢
  rw [hword, hline, numeralExtent_append_newline]
  simp only [head?_append_newline after (show '/' ≠ '\n' by decide),
    head?_append_newline after (show '=' ≠ '\n' by decide)]
  split
  · rfl
  next hblank =>
  split
  · rfl
  next hcomment =>
  split
  · next hquote =>
    rw [if_neg hblank, if_neg hcomment, if_pos hquote] at h
    dsimp only at h ⊢
    split at h
    · -- The string is closed in the first text already.
      next hclosed =>
      have htake := takeWhile_append_of_lt ('\n' :: after) hclosed
      have hlength : (rest.takeWhile (· ≠ '"')).length < (rest ++ '\n' :: after).length := by
        rw [List.length_append]
        omega
      rw [htake, if_pos hlength, if_pos hclosed]
    · exact absurd rfl h
  split
  · rfl
  split
  · -- The whole word is taken from the first text.
    rw [List.take_append_of_le_length (List.takeWhile_prefix _).length_le]
  · rfl

end

/-- A fraction has no more characters than there are. -/
theorem fractionExtent_le (tail : List Char) : fractionExtent tail ≤ tail.length := by
  unfold fractionExtent
  split
  · next after =>
    have hdigits := (List.takeWhile_prefix (l := after) Decimal.isDigit).length_le
    rw [List.length_cons]
    split <;> omega
  · exact Nat.zero_le _

/-- A numeral has no more characters than there are. -/
theorem numeralExtent_le (rest : List Char) : numeralExtent rest ≤ rest.length := by
  have hlength := congrArg List.length
    (List.takeWhile_append_dropWhile (p := Decimal.isDigit) (l := rest))
  have hfraction := fractionExtent_le (rest.dropWhile Decimal.isDigit)
  rw [List.length_append] at hlength
  rw [numeralExtent_eq]
  omega

/-- A piece takes no more characters than there are. -/
theorem firstPiece_extent_le (c : Char) (rest : List Char) :
    (firstPiece c rest).2 ≤ rest.length := by
  have htake := fun p => (List.takeWhile_prefix (l := rest) p).length_le
  unfold firstPiece
  split
  · exact Nat.zero_le _
  split
  · -- A comment, up to the end of its line.
    exact htake _
  split
  · -- A string, with the quote that closes it, or up to the end of the text.
    dsimp only
    split
    · assumption
    · exact htake _
  split
  · exact numeralExtent_le rest
  split
  · exact htake _
  split
  · exact Nat.zero_le _
  · split
    · -- The extended sign takes the equals sign that was seen.
      next h =>
      obtain ⟨others, rfl⟩ := List.head?_eq_some_iff.mp h
      exact Nat.succ_le_succ (Nat.zero_le _)
    · exact Nat.zero_le _
  · exact Nat.zero_le _

/-- The pieces of two texts with a line feed between them are those of the first text, the line
feed, and those of the second text. -/
theorem pieces_append_newline {text : List Char} (after : List Char)
    (h : ∀ piece ∈ pieces text, piece.shape ≠ .openString) :
    pieces (text ++ '\n' :: after) = pieces text ++ ⟨.trivia, ['\n']⟩ :: pieces after := by
  fun_induction pieces text with
  | case1 =>
    rw [List.nil_append, pieces]
    rfl
  | case2 c rest shape extent hfirst ih =>
    have hshape : (firstPiece c rest).1 ≠ .openString := by
      rw [hfirst]
      exact h _ (.head _)
    have hle := firstPiece_extent_le c rest
    have hsame := firstPiece_append_newline after hshape
    rw [hfirst] at hle hsame
    have ih := ih fun piece hpiece => h piece (.tail _ hpiece)
    rw [List.cons_append, pieces, hsame]
    dsimp only at hle ⊢
    rw [List.take_append_of_le_length hle, List.drop_append_of_le_length hle, ih, List.cons_append]

/-! ## Items

The items of the second text depend on the place where it begins only by being moved. -/

/-- The item at another place, be it a token or an error. -/
def ScanItem.relocate (move : Span → Span) : ScanItem → ScanItem
  | .token t => .token (t.relocate move)
  | .error e span => .error e (move span)

/-- The token of an item that is moved is moved. -/
theorem token?_relocate (move : Span → Span) (item : ScanItem) :
    (item.relocate move).token? = item.token?.map (Token.relocate move) := by
  cases item <;> rfl

theorem error?_relocate (move : Span → Span) (item : ScanItem) :
    (item.relocate move).error? = item.error?.map (relocateScanError move) := by
  cases item <;> rfl

/-- The item of a piece stands where the piece does. -/
theorem item?_relocate (move : Span → Span) (piece : Piece) (span : Span) :
    piece.item? (move span) = (piece.item? span).map (ScanItem.relocate move) := by
  unfold Piece.item?
  split <;> rfl

/-- Items further up are the same items, moved. -/
theorem itemsFrom_add (start n : Nat) (ps : List Piece) :
    itemsFrom (start + n) ps = (itemsFrom start ps).map (ScanItem.relocate (.shift n)) := by
  induction ps generalizing start with
  | nil => rfl
  | cons piece rest ih =>
    have hstop : start + n + utf8Length piece.text = start + utf8Length piece.text + n := by omega
    have hspan : (⟨start + n, start + utf8Length piece.text + n⟩ : Span) =
        Span.shift n ⟨start, start + utf8Length piece.text⟩ := rfl
    rw [itemsFrom, itemsFrom, hstop, ih, hspan, item?_relocate, List.map_append]
    congr 1
    cases piece.item? _ <;> rfl

/-- There is an end-of-file token at least. -/
theorem itemsFrom_ne_nil (start : Nat) (ps : List Piece) : itemsFrom start ps ≠ [] := by
  induction ps generalizing start with
  | nil => exact List.cons_ne_nil _ _
  | cons piece rest ih =>
    intro hnil
    exact ih _ (List.append_eq_nil_iff.mp hnil).2

/-- The items of some pieces and more of them: those of the first ones without the end-of-file
token, and those of the others after them. -/
theorem itemsFrom_append (start : Nat) (ps qs : List Piece) :
    itemsFrom start (ps ++ qs) = (itemsFrom start ps).dropLast ++
      itemsFrom (start + utf8Length (ps.flatMap Piece.text)) qs := by
  induction ps generalizing start with
  | nil => rfl
  | cons piece rest ih =>
    have hrest := itemsFrom_ne_nil (start + utf8Length piece.text) rest
    rw [List.cons_append, itemsFrom, itemsFrom, ih, List.dropLast_append_of_ne_nil hrest,
      List.append_assoc, List.flatMap_cons, utf8Length_append, Nat.add_assoc]

/-- Where nothing is wrong with a source, all its strings are closed: an open one would have been
reported. The induction needs the start of the pieces left open. -/
theorem closed_of_scanErrors {source : String} (h : scanErrors source = []) :
    ∀ piece ∈ pieces source.toList, piece.shape ≠ .openString := by
  have hitems : ∀ item ∈ itemsFrom 0 (pieces source.toList), item.error? = none :=
    List.filterMap_eq_nil_iff.mp h
  generalize 0 = start at hitems
  generalize pieces source.toList = ps at hitems
  induction ps generalizing start with
  | nil =>
    intro piece hpiece
    cases hpiece
  | cons first rest ih =>
    intro piece hpiece
    rw [itemsFrom] at hitems
    rcases List.mem_cons.mp hpiece with rfl | hpiece
    · intro hopen
      unfold Piece.item? at hitems
      rw [hopen] at hitems
      have herror := hitems _ (.head _)
      cases herror
    · exact ih _ (fun item hitem => hitems item (List.mem_append_right _ hitem)) piece hpiece

/-! ## Sources

The end-of-file token of the first source goes, and everything that is found in the second one comes
behind what is left. -/

section

variable {first : String} (second : String)

/-- Scanning two sources with a line feed between them finds what scanning each of them finds. -/
theorem scan_join (h : scanErrors first = []) :
    scan (first ++ "\n" ++ second) = (scan first).dropLast ++
      (scan second).map (ScanItem.relocate (.shift (first.utf8ByteSize + 1))) := by
  have htext : (first ++ "\n" ++ second).toList = first.toList ++ '\n' :: second.toList := by
    simp
  have hsize : utf8Length first.toList = first.utf8ByteSize := by
    rw [← utf8ByteSize_ofList, String.ofList_toList]
  unfold scan
  rw [htext, pieces_append_newline _ (closed_of_scanErrors h), itemsFrom_append, text_pieces, hsize]
  congr 1
  -- The line feed is a separator.
  show itemsFrom (0 + first.utf8ByteSize + utf8Length ['\n']) _ = _
  have hstart : 0 + first.utf8ByteSize + utf8Length ['\n'] = 0 + (first.utf8ByteSize + 1) := by
    rw [show utf8Length ['\n'] = 1 from rfl]
    omega
  rw [hstart, itemsFrom_add]

/-- The tokens of a source: a text without end-of-file tokens, and one after it. -/
theorem tokens_eq (source : String) : ∃ init, tokens source =
    init ++ [.endOfFile ⟨source.utf8ByteSize, source.utf8ByteSize⟩] ∧
      (scan source).dropLast.filterMap ScanItem.token? = init ∧
      ∀ token ∈ init, token.kind ≠ .endOfFile := by
  -- The scan ends with the token at the end, and each item before it is a lexeme of the text, of
  -- which none is the end of the input.
  obtain ⟨items, hitems, -, hfinds⟩ :=
    @itemsFrom_found source [] source.toList rfl
  have hscan : scan source =
      items ++ [.token (.endOfFile ⟨source.utf8ByteSize, source.utf8ByteSize⟩)] := hitems
  refine ⟨items.filterMap ScanItem.token?, ?_, ?_, ?_⟩
  · rw [tokens, hscan, List.filterMap_append]
    rfl
  · rw [hscan, List.dropLast_concat]
  · intro token hmem
    obtain ⟨item, hitem, htoken⟩ := List.mem_filterMap.mp hmem
    cases item with
    | error e span => cases htoken
    | token t =>
      obtain rfl := Option.some.inj htoken
      obtain ⟨text, rest, -, -, -, -, hlongest⟩ := hfinds _ hitem
      exact hlongest.lexeme.ne_endOfFile

/-- The tokens of two sources with a line feed between them. -/
theorem tokens_join (h : scanErrors first = []) :
    tokens (first ++ "\n" ++ second) = (tokens first).dropLast ++
      (tokens second).map (Token.relocate (.shift (first.utf8ByteSize + 1))) := by
  obtain ⟨init, htokens, hinit, -⟩ := tokens_eq first
  rw [htokens, List.dropLast_concat, ← hinit, tokens, tokens, scan_join second h,
    List.filterMap_append, List.filterMap_map, List.map_filterMap]
  congr 2
  funext item
  exact token?_relocate _ item

/-- The scan errors of two sources with a line feed between them. -/
theorem scanErrors_join (h : scanErrors first = []) :
    scanErrors (first ++ "\n" ++ second) =
      (scanErrors second).map (relocateScanError (.shift (first.utf8ByteSize + 1))) := by
  have hfirst : (scan first).dropLast.filterMap ScanItem.error? = [] := by
    have hstart : ((scan first).dropLast.filterMap ScanItem.error?).Sublist (scanErrors first) :=
      (List.dropLast_sublist _).filterMap _
    rwa [h, List.sublist_nil] at hstart
  rw [scanErrors, scan_join second h, List.filterMap_append, hfirst, List.nil_append,
    List.filterMap_map, scanErrors, List.map_filterMap]
  congr 1
  funext item
  exact error?_relocate _ item

end

end Script
