import Script.Proofs.Token.Lexemes
import Script.Proofs.Token.Places

/-!
# Scanning tiles the source

The items that scanning finds lie in the source one after the other. What is between them are
blanks and comments only, and each of them is the longest lexeme that stands at its place, or the
error that stands where no lexeme does. An end-of-file token at the end of the source closes the
list.

The proof follows the pieces. Places are kept as the text before them, so that a span is on
character boundaries by construction (`Span.Covers`), and a gap is built up piece by piece until the
next item ends it.
-/

namespace Script

/-! ## Separators

Separators are described by what they consist of, without the scanner. Only comments care for what
comes after them, because they go on to the end of the line. -/

/-- The text consists of blanks and comments where `rest` comes after it. A comment runs to the end
of its line or of the source. -/
inductive Separates : List Char → List Char → Prop where
  | nil {rest : List Char} : Separates [] rest
  | blank {c : Char} {text rest : List Char} (hblank : c ∈ [' ', '\t', '\r', '\n'])
      (h : Separates text rest) : Separates (c :: text) rest
  | comment {body text rest : List Char} (hbody : '\n' ∉ body)
      (hstop : (text ++ rest).head? = none ∨ (text ++ rest).head? = some '\n')
      (h : Separates text rest) : Separates ('/' :: '/' :: (body ++ text)) rest

theorem Separates.append {a b rest : List Char} (ha : Separates a (b ++ rest))
    (hb : Separates b rest) : Separates (a ++ b) rest := by
  generalize hrest : b ++ rest = after at ha
  induction ha with
  | nil => exact hb
  | blank hblank _ ih => exact .blank hblank (ih hrest)
  | @comment body text after hbody hstop _ ih =>
    subst hrest
    rw [List.cons_append, List.cons_append, List.append_assoc]
    exact .comment hbody (by rwa [List.append_assoc]) (ih rfl)

/-- No separator begins where the text does. -/
def Unseparated (text : List Char) : Prop :=
  ∀ gap rest, text = gap ++ rest → Separates gap rest → gap = []

/-- The blanks of the scanner are these four characters. -/
theorem isBlank_iff {c : Char} : isBlank c = true ↔ c ∈ [' ', '\t', '\r', '\n'] := by
  simp [isBlank, or_assoc]

/-- Where neither a blank nor a comment begins there is no separator. -/
theorem unseparated_of_not_starts {c : Char} {rest : List Char} (h : ¬ StartsSeparator c rest) :
    Unseparated (c :: rest) := by
  intro gap after htext hgap
  cases hgap with
  | nil => rfl
  | blank hblank _ =>
    obtain ⟨rfl, -⟩ := List.cons.inj htext
    exact absurd (.inl (isBlank_iff.mpr hblank)) h
  | comment _ _ _ =>
    obtain ⟨rfl, hrest⟩ := List.cons.inj htext
    refine absurd (.inr ⟨rfl, ?_⟩) h
    rw [hrest]
    rfl

/-- What is dropped up to a character begins with it, or nothing is left. -/
theorem head?_dropWhile_ne (stop : Char) (text : List Char) :
    (text.dropWhile (· ≠ stop)).head? = none ∨ (text.dropWhile (· ≠ stop)).head? = some stop := by
  have h := List.head?_dropWhile_not (· ≠ stop) text
  cases hhead : (text.dropWhile (· ≠ stop)).head? with
  | none => exact .inl rfl
  | some c =>
    rw [hhead] at h
    have hc : c = stop := by simpa using h
    exact .inr (congrArg some hc)

/-- A comment takes the rest of its line. -/
theorem separates_comment {rest : List Char} (h : rest.head? = some '/') :
    Separates ('/' :: rest.takeWhile (· ≠ '\n')) (rest.dropWhile (· ≠ '\n')) := by
  obtain ⟨body, rfl⟩ := List.head?_eq_some_iff.mp h
  have hbody : '\n' ∉ body.takeWhile (· ≠ '\n') := fun hmem => by
    simpa using List.mem_takeWhile_imp hmem
  have hcomment : Separates ('/' :: '/' :: (body.takeWhile (· ≠ '\n') ++ []))
      (body.dropWhile (· ≠ '\n')) := .comment hbody (head?_dropWhile_ne '\n' body) .nil
  simpa using hcomment

/-! ## Places -/

/-- The span covers this part of the source, and `rest` comes after it. Its ends are between
characters, since they are counted in whole characters. -/
def Span.Covers (span : Span) (source : String) (text rest : List Char) : Prop :=
  ∃ before, source.toList = before ++ (text ++ rest) ∧
    span = ⟨utf8Length before, utf8Length (before ++ text)⟩

/-- The place of an item, be it a token or an error. -/
def ScanItem.span : ScanItem → Span
  | .token t => t.span
  | .error _ span => span

/-- What an item says about the text that it covers, where `rest` comes after it: the longest
lexeme, or why there is none. -/
def ScanItem.Finds (text rest : List Char) : ScanItem → Prop
  | .token t => t.lexeme = String.ofList text ∧ LongestLexeme t.kind text (text ++ rest)
  | .error .unterminatedString _ =>
    text.head? = some '"' ∧ rest = [] ∧ NoLexeme (text ++ rest)
  | .error (.unexpectedCharacter c) _ =>
    text = [c] ∧ c ≠ '"' ∧ NoLexeme (text ++ rest)

/-- What is between items: from `stop` to the first of them, and from each to the next. -/
def gapsFrom (stop : Nat) : List ScanItem → List Span
  | [] => []
  | item :: rest => ⟨stop, item.span.start⟩ :: gapsFrom item.span.stop rest

/-- The items lie in the source as the pieces of it that are no separators. -/
structure Tiles (source : String) (items : List ScanItem) : Prop where
  /-- There are not more items than characters, the end counted as one. -/
  count : items.length ≤ source.toList.length + 1
  /-- Each item ends before the next one begins. -/
  ordered : items.Pairwise fun a b =>
    a.span.start < b.span.start ∧ a.span.stop ≤ b.span.start
  /-- Before each item there are separators only. -/
  gaps : ∀ gap ∈ gapsFrom 0 items, ∃ text rest, gap.Covers source text rest ∧ Separates text rest
  /-- Each item but the last covers a text that it describes, and where no separator begins. The
  last one marks the end. -/
  found : ∃ init, items = init ++ [.token (.endOfFile ⟨source.utf8ByteSize, source.utf8ByteSize⟩)] ∧
    (∀ item ∈ init, ∃ text rest, text ≠ [] ∧ item.span.Covers source text rest ∧
      Unseparated (text ++ rest) ∧ item.Finds text rest) ∧
    ∀ token, .token token ∈ init → token.kind ≠ .endOfFile

/-- The size of a text is the sum of the sizes of its characters. -/
theorem utf8ByteSize_ofList (text : List Char) :
    (String.ofList text).utf8ByteSize = utf8Length text := by
  induction text with
  | nil => rfl
  | cons c text ih =>
    have hcons : String.ofList (c :: text) = String.singleton c ++ String.ofList text := by
      rw [String.singleton_eq_ofList, ← String.ofList_append, List.singleton_append]
    rw [hcons, String.utf8ByteSize_append, ih, String.utf8ByteSize_singleton, utf8Length_cons]

/-- An end-of-file token has no text. -/
theorem Lexeme.ne_endOfFile {kind : TokenKind} {text : List Char} (h : Lexeme kind text) :
    kind ≠ .endOfFile := by
  rintro rfl
  cases h with
  | spelled h => cases h

/-! ## Pieces and items

A place in the source is the text before it. What is found from some place on is found by induction
on the pieces, with that text growing by each of them. -/

/-- A piece of a text and what comes after it are the text. -/
theorem piece_append (c : Char) (rest : List Char) (extent : Nat) :
    (c :: rest.take extent) ++ rest.drop extent = c :: rest := by
  rw [List.cons_append, List.take_append_drop]

/-- A piece is a separator and skipped, or it is an item that describes its text. -/
theorem item?_cases (c : Char) (rest : List Char) (span : Span) :
    (Piece.item? ⟨(firstPiece c rest).1, c :: rest.take (firstPiece c rest).2⟩ span = none ∧
      Separates (c :: rest.take (firstPiece c rest).2) (rest.drop (firstPiece c rest).2)) ∨
    ∃ item, Piece.item? ⟨(firstPiece c rest).1, c :: rest.take (firstPiece c rest).2⟩ span =
        some item ∧ item.span = span ∧ Unseparated (c :: rest) ∧
      item.Finds (c :: rest.take (firstPiece c rest).2) (rest.drop (firstPiece c rest).2) := by
  have hcase := pieceCase_firstPiece c rest
  generalize firstPiece c rest = piece at hcase ⊢
  cases hcase with
  | blank h => exact .inl ⟨rfl, .blank (isBlank_iff.mp h) .nil⟩
  -- A comment goes up to the end of the line, without the line feed.
  | comment hfirst hsecond =>
    subst hfirst
    refine .inl ⟨rfl, ?_⟩
    dsimp only
    rw [take_length_takeWhile, drop_length_takeWhile]
    exact separates_comment hsecond
  | token hstart h =>
    exact .inr ⟨_, rfl, rfl, unseparated_of_not_starts hstart, rfl, by rwa [piece_append]⟩
  -- A string that is not closed takes all that is left.
  | openString hquote hstart h =>
    refine .inr ⟨_, rfl, rfl, unseparated_of_not_starts hstart, by rw [hquote]; rfl, ?_, ?_⟩
    · exact List.drop_length
    · rwa [piece_append]
  | unexpected hquote hstart h =>
    exact .inr ⟨_, rfl, rfl, unseparated_of_not_starts hstart, rfl, hquote, by rwa [piece_append]⟩

section

variable {source : String}

/-- The items after a part of the source describe what is left of it. -/
theorem itemsFrom_found {before text : List Char} (hsource : source.toList = before ++ text) :
    ∃ init, itemsFrom (utf8Length before) (pieces text) =
        init ++ [.token (.endOfFile ⟨source.utf8ByteSize, source.utf8ByteSize⟩)] ∧
      init.length ≤ text.length ∧
      ∀ item ∈ init, ∃ text rest, text ≠ [] ∧ item.span.Covers source text rest ∧
        Unseparated (text ++ rest) ∧ item.Finds text rest := by
  fun_induction pieces text generalizing before with
  | case1 =>
    have hsize : source.utf8ByteSize = utf8Length before := by
      rw [← utf8ByteSize_ofList, ← List.append_nil before, ← hsource, String.ofList_toList]
    exact ⟨[], by rw [hsize]; rfl, Nat.zero_le _, fun _ hitem => absurd hitem List.not_mem_nil⟩
  | case2 c rest shape extent hfirst ih =>
    have hnext : source.toList = (before ++ (c :: rest.take extent)) ++ rest.drop extent := by
      rw [List.append_assoc, piece_append, hsource]
    obtain ⟨init, hinit, hcount, hitems⟩ := ih hnext
    have hlength : (rest.drop extent).length ≤ rest.length := by
      rw [List.length_drop]
      omega
    -- Is the first piece a separator, or does it make an item?
    have hcase := item?_cases c rest
      ⟨utf8Length before, utf8Length before + utf8Length (c :: rest.take extent)⟩
    rw [hfirst] at hcase
    dsimp only at hcase
    rw [itemsFrom]
    dsimp only
    rw [← utf8Length_append] at hcase ⊢
    rw [hinit]
    rcases hcase with ⟨hnone, -⟩ | ⟨item, hsome, hspan, hstart, hfinds⟩
    · rw [hnone]
      exact ⟨init, rfl, by rw [List.length_cons]; omega, hitems⟩
    · rw [hsome]
      refine ⟨item :: init, rfl, by rw [List.length_cons, List.length_cons]; omega, ?_⟩
      intro other hother
      -- The first item covers its piece, and the others are found behind it.
      rcases List.mem_cons.mp hother with rfl | hother
      · refine ⟨_, _, List.cons_ne_nil _ _, ⟨before, by rw [piece_append, hsource], hspan⟩, ?_,
          hfinds⟩
        rwa [piece_append]
      · exact hitems other hother

/-- Where separators have been skipped since the last item, there are separators only up to the
next one. -/
theorem itemsFrom_gaps {before gap text : List Char}
    (hsource : source.toList = before ++ (gap ++ text)) (hgap : Separates gap text) :
    ∀ span ∈ gapsFrom (utf8Length before) (itemsFrom (utf8Length (before ++ gap)) (pieces text)),
      ∃ text rest, span.Covers source text rest ∧ Separates text rest := by
  fun_induction pieces text generalizing before gap with
  | case1 =>
    intro span hspan
    obtain rfl := List.mem_singleton.mp hspan
    exact ⟨gap, [], ⟨before, hsource, rfl⟩, hgap⟩
  | case2 c rest shape extent hfirst ih =>
    have hcase := item?_cases c rest
      ⟨utf8Length (before ++ gap),
        utf8Length (before ++ gap) + utf8Length (c :: rest.take extent)⟩
    rw [hfirst] at hcase
    dsimp only at hcase
    rw [itemsFrom]
    dsimp only
    rw [← utf8Length_append] at hcase ⊢
    rcases hcase with ⟨hnone, hseparates⟩ | ⟨item, hsome, hspan, -, -⟩
    · -- The gap grows by the piece.
      rw [hnone]
      have hsource' : source.toList =
          before ++ ((gap ++ (c :: rest.take extent)) ++ rest.drop extent) := by
        rw [List.append_assoc gap, piece_append, hsource]
      rw [List.append_assoc before]
      refine ih hsource' (Separates.append ?_ hseparates)
      rwa [piece_append]
    · -- The item ends the gap, and a new one begins after it.
      rw [hsome]
      intro span hmem
      rcases List.mem_cons.mp hmem with rfl | hmem
      · exact ⟨gap, c :: rest, ⟨before, hsource, by rw [hspan]⟩, hgap⟩
      · have hsource' : source.toList =
            ((before ++ gap) ++ (c :: rest.take extent)) ++ ([] ++ rest.drop extent) := by
          rw [List.nil_append, List.append_assoc, piece_append, hsource, List.append_assoc]
        rw [hspan] at hmem
        refine ih hsource' .nil span ?_
        rwa [List.append_nil]

end

/-- The item of a piece stands where the piece does. -/
theorem Piece.span_of_item? {piece : Piece} {span : Span} {item : ScanItem}
    (h : item ∈ (piece.item? span).toList) : item.span = span := by
  unfold Piece.item? at h
  split at h
  · cases h
  all_goals
    obtain rfl := List.mem_singleton.mp h
    rfl

/-- No item begins before the place where the pieces do. -/
theorem itemsFrom_start_le {start : Nat} {ps : List Piece} {item : ScanItem}
    (h : item ∈ itemsFrom start ps) : start ≤ item.span.start := by
  induction ps generalizing start with
  | nil =>
    obtain rfl := List.mem_singleton.mp h
    exact Nat.le_refl _
  | cons piece rest ih =>
    rcases List.mem_append.mp h with hfirst | hrest
    · rw [Piece.span_of_item? hfirst]
    · have := ih hrest
      omega

/-- Items of later pieces begin where earlier ones have ended. -/
theorem itemsFrom_ordered (start : Nat) {ps : List Piece} (hps : ∀ piece ∈ ps, piece.Sound) :
    (itemsFrom start ps).Pairwise fun a b =>
      a.span.start < b.span.start ∧ a.span.stop ≤ b.span.start := by
  induction ps generalizing start with
  | nil => exact List.pairwise_singleton _ _
  | cons piece rest ih =>
    have hlength := utf8Length_pos (hps piece (.head _)).text
    refine List.pairwise_append.mpr ⟨?_, ih _ fun p hp => hps p (.tail _ hp), ?_⟩
    · cases piece.item? _ with
      | none => exact .nil
      | some item => exact List.pairwise_singleton _ _
    · intro a ha b hb
      have hstart := itemsFrom_start_le hb
      rw [Piece.span_of_item? ha]
      exact ⟨by show start < b.span.start; omega, hstart⟩

/-- Scanning cuts every source into separators, the longest lexemes and the errors where there is no
lexeme, and ends. The pieces of the source follow each other without a gap; those that make no item
are the gaps between the items. -/
theorem tiles_scan (source : String) : Tiles source (scan source) := by
  obtain ⟨init, hinit, hcount, hitems⟩ :=
    @itemsFrom_found source [] source.toList rfl
  have hscan : scan source =
      init ++ [.token (.endOfFile ⟨source.utf8ByteSize, source.utf8ByteSize⟩)] := hinit
  refine ⟨?_, itemsFrom_ordered 0 (pieces_sound _), ?_, init, hscan, hitems, ?_⟩
  · rw [hscan, List.length_append]
    exact Nat.succ_le_succ hcount
  · exact @itemsFrom_gaps source [] [] source.toList rfl .nil
  · intro token hmem
    obtain ⟨text, rest, -, -, -, -, hlongest⟩ := hitems _ hmem
    exact hlongest.lexeme.ne_endOfFile

end Script
