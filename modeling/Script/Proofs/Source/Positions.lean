import Mathlib.Data.List.DropRight
import Mathlib.Data.List.Induction
import Script.Proofs.Grammar.Limits
import Script.Proofs.Grammar.Places
import Script.Proofs.Number.Digits

/-!
# Lines and columns

Positions name places exactly. Between the characters of a source, and at its two ends, lines and
columns only grow, so that no two of these boundaries have the same position; a byte inside a
character has the position of the character, and one past the end that of the end
(`exactPositions`). Each error of a rejected source starts at a boundary, and its report prints a
line and a column that no other boundary has.

The position of a boundary is reached by walking over the characters before it
(`Position.locate_boundary`). Everything else is said of this walk. It leads to the position that
is found by counting the lines and characters of the text before, too
(`Position.locate_eq_counted`).
-/

namespace Script

/-- The offset lies between two characters of the source, or at one of its ends. -/
def IsBoundary (source : String) (offset : Nat) : Prop :=
  ∃ before rest, source.toList = before ++ rest ∧ offset = utf8Length before

namespace Position

/-- The order of positions: by lines, and by columns in one line. -/
def Precedes (p q : Position) : Prop :=
  p.line < q.line ∨ p.line = q.line ∧ p.column < q.column

/-- The position tells what stands before it: so many lines that are complete, and so many
characters of the line that has been begun. Both are counted from one. -/
def Counts (p : Position) (before : List Char) : Prop :=
  ∃ above here, before = above ++ here ∧ (∀ c ∈ above.getLast?, c = '\n') ∧ '\n' ∉ here ∧
    p.line = above.count '\n' + 1 ∧ p.column = here.length + 1

section

variable {p q r : Position} {c : Char} {before rest text : List Char} {source : String}
  {offset : Nat}

/-! ## The order of positions

Positions are compared as places of a text are, line by line. -/

/-- Lines decide before columns do. -/
theorem Precedes.trans (h : p.Precedes q) (h' : q.Precedes r) : p.Precedes r := by
  unfold Precedes at h h' ⊢
  omega

theorem Precedes.ne (h : p.Precedes q) : p ≠ q := by
  rintro rfl
  unfold Precedes at h
  omega

/-- A character moves the position on, to the next column or to the next line. -/
theorem precedes_after (p : Position) (c : Char) : p.Precedes (p.after c) := by
  unfold after
  split
  · exact .inl (Nat.lt_succ_self p.line)
  · exact .inr ⟨rfl, Nat.lt_succ_self p.column⟩

/-- So do any number of characters, if it is at least one. -/
theorem precedes_walk (p : Position) (htext : text ≠ []) : p.Precedes (text.foldl after p) := by
  induction text generalizing p with
  | nil => exact absurd rfl htext
  | cons c text ih =>
    rw [List.foldl_cons]
    -- The last character has nothing behind it to go on with.
    by_cases hrest : text = []
    · rw [hrest]
      exact precedes_after p c
    · exact (precedes_after p c).trans (ih (p.after c) hrest)

/-! ## Locating is walking -/

/-- What comes before a boundary is walked over. -/
theorem locateFrom_append (p : Position) (before rest : List Char) (offset : Nat) :
    locateFrom p (before ++ rest) (utf8Length before + offset) =
      locateFrom (before.foldl after p) rest offset := by
  induction before generalizing p with
  | nil => rw [utf8Length_nil, Nat.zero_add, List.nil_append, List.foldl_nil]
  | cons c before ih =>
    have hpassed : ¬ c.utf8Size + utf8Length before + offset < c.utf8Size := by omega
    have hleft : c.utf8Size + utf8Length before + offset - c.utf8Size =
        utf8Length before + offset := by omega
    rw [List.cons_append, utf8Length_cons, locateFrom, if_neg hpassed, hleft, ih, List.foldl_cons]

/-- The first bytes are those of the first character. -/
theorem locateFrom_of_lt (h : offset < c.utf8Size) : locateFrom p (c :: rest) offset = p := by
  rw [locateFrom, if_pos h]

/-- The position of a boundary is that of the first character, moved on by what stands before. -/
theorem locate_boundary (h : source.toList = before ++ rest) :
    locate source (utf8Length before) = before.foldl after first := by
  have hwalk := locateFrom_append first before rest 0
  rw [Nat.add_zero, ← h] at hwalk
  rw [locate, hwalk]
  cases rest with
  | nil => rfl
  | cons c rest => exact locateFrom_of_lt c.utf8Size_pos

/-- A byte of a character has the position of the character. -/
theorem locate_inside (h : source.toList = before ++ c :: rest) (hfrom : utf8Length before ≤ offset)
    (hto : offset < utf8Length (before ++ [c])) :
    locate source offset = locate source (utf8Length before) := by
  obtain ⟨inside, rfl⟩ := Nat.exists_eq_add_of_le hfrom
  have hinside : inside < c.utf8Size := by
    rw [utf8Length_append, utf8Length_cons, utf8Length_nil] at hto
    omega
  rw [locate_boundary h, locate, h, locateFrom_append, locateFrom_of_lt hinside]

/-- The bytes of a source are those of its characters. -/
theorem utf8ByteSize_eq (source : String) : source.utf8ByteSize = utf8Length source.toList := by
  rw [← utf8ByteSize_ofList, String.ofList_toList]

/-- Past the end everything has the position of the end. -/
theorem locate_past (h : source.utf8ByteSize ≤ offset) :
    locate source offset = locate source source.utf8ByteSize := by
  obtain ⟨past, rfl⟩ := Nat.exists_eq_add_of_le h
  have hend : source.toList = source.toList ++ [] := (List.append_nil _).symm
  rw [utf8ByteSize_eq, locate_boundary hend, locate]
  have hwalk := locateFrom_append first source.toList [] past
  rwa [List.append_nil] at hwalk

/-- Between two boundaries there are characters: the earlier one is the end of a prefix of the text,
and the later one the end of a longer one. -/
theorem exists_between {a b : Nat} (ha : IsBoundary source a) (hb : IsBoundary source b)
    (hlt : a < b) : ∃ before between rest, source.toList = before ++ (between ++ rest) ∧
      a = utf8Length before ∧ b = utf8Length (before ++ between) ∧ between ≠ [] := by
  obtain ⟨before, rest, hsource, rfl⟩ := ha
  obtain ⟨before', rest', hsource', rfl⟩ := hb
  have htexts := hsource.symm.trans hsource'
  rcases List.append_eq_append_iff.mp htexts with ⟨between, rfl, rfl⟩ | ⟨between, rfl, -⟩
  · refine ⟨before, between, rest', hsource, rfl, rfl, ?_⟩
    rintro rfl
    rw [List.append_nil] at hlt
    exact Nat.lt_irrefl _ hlt
  · -- The second boundary would not be behind the first.
    rw [utf8Length_append] at hlt
    omega

/-- The position of a later boundary is a later one. -/
theorem locate_precedes {a b : Nat} (ha : IsBoundary source a) (hb : IsBoundary source b)
    (hlt : a < b) : (locate source a).Precedes (locate source b) := by
  obtain ⟨before, between, rest, hsource, rfl, rfl, hne⟩ := exists_between ha hb hlt
  have hsource' : source.toList = (before ++ between) ++ rest := by
    rw [List.append_assoc, hsource]
  rw [locate_boundary hsource, locate_boundary hsource', List.foldl_append]
  exact precedes_walk _ hne

/-- Two boundaries with one position are one boundary. -/
theorem locate_injective {a b : Nat} (ha : IsBoundary source a) (hb : IsBoundary source b)
    (h : locate source a = locate source b) : a = b := by
  rcases Nat.lt_trichotomy a b with hlt | heq | hgt
  · exact absurd h (locate_precedes ha hb hlt).ne
  · exact heq
  · exact absurd h.symm (locate_precedes hb ha hgt).ne

/-! ## What a position counts

The lines that are complete end with a line feed, and the line that has been begun has none. -/

/-- A character more is counted: as a column, or as the end of a line. -/
theorem Counts.after (h : p.Counts before) (c : Char) : (p.after c).Counts (before ++ [c]) := by
  obtain ⟨above, here, rfl, habove, hhere, hline, hcolumn⟩ := h
  unfold Position.after
  split
  · next hfeed =>
    -- The line is complete, and a new one begins.
    subst hfeed
    have hcount : here.count '\n' = 0 := List.count_eq_zero.mpr hhere
    refine ⟨above ++ here ++ ['\n'], [], by simp, by simp, by simp, ?_, rfl⟩
    show p.line + 1 = _
    rw [hline, List.count_append, List.count_append, hcount]
    simp
  · next hother =>
    have hhere' : '\n' ∉ here ++ [c] := by
      simp only [List.mem_append, List.mem_singleton, not_or]
      exact ⟨hhere, fun heq => hother heq.symm⟩
    refine ⟨above, here ++ [c], List.append_assoc .., habove, hhere', hline, ?_⟩
    show p.column + 1 = _
    rw [hcolumn, List.length_append, List.length_singleton]

/-- So a walk over a text counts its lines, and the characters of the last one. -/
theorem counts_walk (before : List Char) : (before.foldl after first).Counts before := by
  induction before using List.reverseRecOn with
  | nil => exact ⟨[], [], rfl, by simp, by simp, rfl, rfl⟩
  | append_singleton before c ih =>
    rw [List.foldl_append]
    exact ih.after c

end

/-! ## The position by counting

The position of a byte can also be had without a walk that carries it along. A byte past the end is
moved to the end, and a byte inside a character back to the first one of the character; then the
line feeds of the text before are counted, and the characters behind the last line feed. Both ways
lead to the same position (`locate_eq_counted`): what is before the byte is a text that ends at a
boundary (`exists_whole`), and a walk over such a text counts. -/

/-- The text before the byte `offset`. As long as the byte is inside a character, it is moved back
by one. -/
def textBefore (text : List Char) : Nat → List Char
  | 0 => []
  | offset + 1 =>
    match takeBytes? (offset + 1) text with
    | some before => before
    | none => textBefore text offset

/-- The position just after the text `before`: its line feeds are counted, and the characters after
the last one. -/
def count (before : List Char) : Position :=
  ⟨before.count '\n' + 1, (before.rtakeWhile (· ≠ '\n')).length + 1⟩

/-- The position of the byte `offset` of a source, from the text before it. -/
def counted (source : String) (offset : Nat) : Position :=
  count (textBefore source.toList (min offset source.utf8ByteSize))

section

variable {p : Position} {c : Char} {before rest text : List Char} {offset : Nat}

/-- The text before a boundary is taken as it is. -/
theorem textBefore_boundary (before rest : List Char) :
    textBefore (before ++ rest) (utf8Length before) = before := by
  cases hlength : utf8Length before with
  | zero =>
    cases before with
    | nil => rfl
    | cons c before =>
      have := c.utf8Size_pos
      rw [utf8Length_cons] at hlength
      omega
  | succ length =>
    rw [textBefore, ← hlength, takeBytes?_append]

/-- A part that ends inside a character cannot be taken. -/
theorem takeBytes?_inside (before rest : List Char) {inside : Nat} (hpos : 0 < inside)
    (hinside : inside < c.utf8Size) :
    takeBytes? (utf8Length before + inside) (before ++ c :: rest) = none := by
  induction before with
  | nil =>
    have hsome : ¬ inside = 0 := by omega
    rw [utf8Length_nil, Nat.zero_add, List.nil_append, takeBytes?, if_neg hsome, if_pos hinside]
  | cons b before ih =>
    have hsome : ¬ b.utf8Size + utf8Length before + inside = 0 := by omega
    have hpassed : ¬ b.utf8Size + utf8Length before + inside < b.utf8Size := by omega
    have hleft : b.utf8Size + utf8Length before + inside - b.utf8Size =
        utf8Length before + inside := by omega
    rw [List.cons_append, utf8Length_cons, takeBytes?, if_neg hsome, if_neg hpassed, hleft, ih]
    rfl

/-- From inside a character, the byte is moved back to its first one. -/
theorem textBefore_inside (before rest : List Char) {inside : Nat}
    (hinside : inside < c.utf8Size) :
    textBefore (before ++ c :: rest) (utf8Length before + inside) = before := by
  induction inside with
  | zero => exact textBefore_boundary before (c :: rest)
  | succ inside ih =>
    show textBefore _ (utf8Length before + inside + 1) = before
    rw [textBefore, Nat.add_assoc, takeBytes?_inside before rest (Nat.succ_pos inside) hinside]
    exact ih (Nat.lt_of_succ_lt hinside)

/-- A byte that is not past the end is the first of a character or inside one, or it is the end. -/
theorem exists_whole (text : List Char) (hoffset : offset ≤ utf8Length text) :
    ∃ before rest inside, text = before ++ rest ∧ offset = utf8Length before + inside ∧
      (rest = [] ∧ inside = 0 ∨ ∃ c others, rest = c :: others ∧ inside < c.utf8Size) := by
  induction text generalizing offset with
  | nil => exact ⟨[], [], 0, rfl, Nat.le_zero.mp hoffset, .inl ⟨rfl, rfl⟩⟩
  | cons c text ih =>
    rcases Nat.lt_or_ge offset c.utf8Size with hlt | hge
    · exact ⟨[], c :: text, offset, rfl, (Nat.zero_add offset).symm, .inr ⟨c, text, rfl, hlt⟩⟩
    · have hleft : offset - c.utf8Size ≤ utf8Length text := by
        rw [utf8Length_cons] at hoffset
        omega
      obtain ⟨before, rest, inside, htext, hsplit, hrest⟩ := ih hleft
      refine ⟨c :: before, rest, inside, by rw [htext, List.cons_append], ?_, hrest⟩
      rw [utf8Length_cons, Nat.add_assoc, ← hsplit]
      exact (Nat.add_sub_of_le hge).symm

/-- Only one position tells what stands before it, and it is found by counting. -/
theorem Counts.eq_count (h : p.Counts before) : p = count before := by
  obtain ⟨above, here, rfl, habove, hhere, hline, hcolumn⟩ := h
  have hothers : here.count '\n' = 0 := List.count_eq_zero.mpr hhere
  have hfeed : above.rtakeWhile (· ≠ '\n') = [] := by
    rw [List.rtakeWhile_eq_nil_iff]
    intro hne
    simpa using habove _ (List.getLast?_eq_some_getLast hne)
  have hlast : (above ++ here).rtakeWhile (· ≠ '\n') = here := by
    have hnone : ∀ c ∈ here.reverse, decide (c ≠ '\n') = true := by
      intro c hmem
      exact decide_eq_true fun heq => hhere (heq ▸ List.mem_reverse.mp hmem)
    unfold List.rtakeWhile at hfeed ⊢
    rw [List.reverse_append, List.takeWhile_append_of_pos hnone, List.reverse_append, hfeed,
      List.reverse_reverse, List.nil_append]
  unfold count
  rw [List.count_append, hothers, hlast, Nat.add_zero, ← hline, ← hcolumn]

/-- Walking over the characters and counting them give the same position, for every offset. -/
theorem locate_eq_counted (source : String) (offset : Nat) :
    locate source offset = counted source offset := by
  -- What is past the end has the position of the end.
  have hclamped : locate source offset = locate source (min offset source.utf8ByteSize) := by
    rcases Nat.le_total offset source.utf8ByteSize with hle | hge
    · rw [Nat.min_eq_left hle]
    · rw [Nat.min_eq_right hge, locate_past hge]
  have hwithin : min offset source.utf8ByteSize ≤ utf8Length source.toList :=
    utf8ByteSize_eq source ▸ Nat.min_le_right ..
  obtain ⟨before, rest, inside, htext, hsplit, hrest⟩ := exists_whole source.toList hwithin
  have hlocate : locate source (min offset source.utf8ByteSize) = before.foldl after first := by
    rw [hsplit, ← locate_boundary htext]
    rcases hrest with ⟨-, rfl⟩ | ⟨c, others, rfl, hinside⟩
    · rw [Nat.add_zero]
    · apply locate_inside htext (Nat.le_add_right ..)
      rw [utf8Length_append, utf8Length_cons, utf8Length_nil]
      omega
  have hbefore : textBefore source.toList (min offset source.utf8ByteSize) = before := by
    rw [hsplit, htext]
    rcases hrest with ⟨-, rfl⟩ | ⟨c, others, rfl, hinside⟩
    · exact textBefore_boundary before rest
    · exact textBefore_inside before others hinside
  rw [hclamped, hlocate, counted, hbefore]
  exact (counts_walk before).eq_count

end

end Position

/-! ## Where the errors of a source stand -/

section

variable {source : String}

/-- What scanning finds starts at a boundary, since pieces are made of whole characters. -/
theorem isBoundary_of_item {item : ScanItem} (h : item ∈ scan source) :
    IsBoundary source item.span.start := by
  obtain ⟨init, hinit, -, hitems⟩ := @itemsFrom_found source [] source.toList rfl
  have hscan : scan source =
      init ++ [.token (.endOfFile ⟨source.utf8ByteSize, source.utf8ByteSize⟩)] := hinit
  rw [hscan, List.mem_append, List.mem_singleton] at h
  rcases h with hmem | rfl
  · obtain ⟨text, rest, -, ⟨before, hsource, hspan⟩, -, -⟩ := hitems item hmem
    exact ⟨before, text ++ rest, hsource, by rw [hspan]⟩
  · exact ⟨source.toList, [], (List.append_nil _).symm, Position.utf8ByteSize_eq source⟩

/-- A token starts at a boundary. -/
theorem isBoundary_of_token {token : Token} (h : token ∈ tokens source) :
    IsBoundary source token.span.start := by
  obtain ⟨item, hitem, htoken⟩ := List.mem_filterMap.mp h
  cases item with
  | error e span => cases htoken
  | token t =>
    obtain rfl := Option.some.inj htoken
    exact isBoundary_of_item hitem

theorem isBoundary_of_scanError {error : ScanError × Span} (h : error ∈ scanErrors source) :
    IsBoundary source error.2.start := by
  obtain ⟨item, hitem, herror⟩ := List.mem_filterMap.mp h
  cases item with
  | token t => cases herror
  | error e span =>
    obtain rfl := Option.some.inj herror
    exact isBoundary_of_item hitem

/-- An excess is reported at a token. -/
theorem isBoundary_of_limitError {program : List Stmt}
    (hparse : parse (tokens source) = .ok program) {error : LimitError × Span}
    (h : error ∈ Stmt.limitErrorsOfAll program) : IsBoundary source error.2.start := by
  obtain ⟨token, htoken, hspan, -⟩ := exists_token_of_reported (limitErrors_tokens hparse) h
  rw [hspan]
  exact isBoundary_of_token htoken

/-- Each error of a rejected source starts at a boundary, at whatever stage it is found. -/
theorem isBoundary_of_error {errors : List SourceError} (h : readProgram source = .error errors)
    {error : SourceError} (hmem : error ∈ errors) : IsBoundary source error.span.start := by
  -- The errors of scanning are reported alone, or in front of those of parsing.
  have hscan : error ∈ (scanErrors source).map SourceError.ofScan →
      IsBoundary source error.span.start := by
    intro hmem
    obtain ⟨scanError, hscanError, rfl⟩ := List.mem_map.mp hmem
    exact isBoundary_of_scanError hscanError
  unfold readProgram at h
  dsimp only at h
  cases hparse : parse (tokens source) with
  | error syntaxErrors =>
    rw [hparse] at h
    obtain rfl := Except.error.inj h
    rcases List.mem_append.mp hmem with hmem | hmem
    · exact hscan hmem
    · obtain ⟨syntaxError, hsyntaxError, rfl⟩ := List.mem_map.mp hmem
      obtain ⟨token, htoken, hspan⟩ :=
        exists_token_of_parse_error (closed_tokens source) hparse hsyntaxError
      show IsBoundary source syntaxError.span.start
      rw [← hspan]
      exact isBoundary_of_token htoken
  | ok program =>
    rw [hparse] at h
    dsimp only at h
    split at h
    · obtain rfl := Except.error.inj h
      exact hscan hmem
    · split at h
      · cases h
      · next limitErrors _ hlimits =>
        obtain rfl := Except.error.inj h
        obtain ⟨limitError, hlimitError, rfl⟩ := List.mem_map.mp hmem
        exact isBoundary_of_limitError hparse hlimitError

end

/-! ## Reports -/

/-- The text of a report that names a position. -/
def Position.reportText (position : Position) (message : String) : String :=
  "[line " ++ toString position.line ++ ", column " ++ toString position.column ++ "] Error: "
    ++ message

/-- The position can be read off the report. -/
theorem Position.eq_of_reportText {p q : Position} {message message' : String}
    (h : p.reportText message = q.reportText message') : p = q := by
  -- Neither number is followed by a digit.
  have hbetween : ", column ".toList = ',' :: " column ".toList := by decide
  have hbehind : "] Error: ".toList = ']' :: " Error: ".toList := by decide
  have htext := congrArg String.toList h
  simp only [reportText, String.toList_append, Nat.toString_eq_repr, Nat.toList_repr,
    List.append_assoc, hbetween, hbehind, List.cons_append] at htext
  obtain ⟨hline, hrest⟩ := Decimal.eq_of_digits_before (by decide) (List.append_cancel_left htext)
  obtain ⟨hcolumn, -⟩ := Decimal.eq_of_digits_before (by decide) (List.append_cancel_left hrest)
  cases p
  cases q
  simp only [Position.mk.injEq]
  exact ⟨hline, hcolumn⟩

/-- The report of an error names the boundary at which the error starts, and no other one: the
position that is printed, whatever the message, is the position of this boundary only. -/
structure SourceError.Pinpointed (error : SourceError) (source : String) : Prop where
  boundary : IsBoundary source error.span.start
  report : error.report source =
    (Position.locate source error.span.start).reportText error.message
  named : ∀ position message, error.report source = position.reportText message →
    ∀ offset, IsBoundary source offset →
      (Position.locate source offset = position ↔ offset = error.span.start)

/-- What starts at a boundary has a position that no other boundary has. -/
theorem pinpointed_of_boundary {source : String} {error : SourceError}
    (hboundary : IsBoundary source error.span.start) : error.Pinpointed source where
  boundary := hboundary
  report := rfl
  named position message hreport offset hoffset := by
    have hprinted : (Position.locate source error.span.start).reportText error.message =
      position.reportText message := hreport
    rw [← Position.eq_of_reportText hprinted]
    constructor
    · exact Position.locate_injective hoffset hboundary
    · intro hstart
      rw [hstart]

/-! ## Positions are exact -/

/--
Positions are exact. The first is line one, column one; a character leads to the next column, and
a line feed to the beginning of the next line. Later boundaries have greater positions, so the
position of a boundary tells which one it is, and how many lines and how many characters of its own
line precede it. Offsets that are no boundaries have the position of the character that they are in,
or of the end. What the report of an error prints is the place where the error starts.
-/
structure ExactPositions (source : String) : Prop where
  first : Position.locate source 0 = ⟨1, 1⟩
  next : ∀ before c rest, source.toList = before ++ c :: rest →
    Position.locate source (utf8Length before + c.utf8Size) =
      let position := Position.locate source (utf8Length before)
      if c = '\n' then ⟨position.line + 1, 1⟩ else ⟨position.line, position.column + 1⟩
  increasing : ∀ a b, IsBoundary source a → IsBoundary source b →
    (a < b ↔ (Position.locate source a).Precedes (Position.locate source b))
  determined : ∀ a b, IsBoundary source a → IsBoundary source b →
    Position.locate source a = Position.locate source b → a = b
  counted : ∀ before rest, source.toList = before ++ rest →
    (Position.locate source (utf8Length before)).Counts before
  inside : ∀ before c rest, source.toList = before ++ c :: rest →
    ∀ offset, utf8Length before ≤ offset → offset < utf8Length before + c.utf8Size →
      Position.locate source offset = Position.locate source (utf8Length before)
  past : ∀ offset, source.utf8ByteSize ≤ offset →
    Position.locate source offset = Position.locate source source.utf8ByteSize
  errors : ∀ errors, readProgram source = .error errors →
    ∀ error ∈ errors, error.Pinpointed source

/-- Lines and columns name the places of a source exactly: they grow from boundary to boundary, tell
what stands before a boundary, and are reported of the boundary at which an error starts. -/
theorem exactPositions (source : String) : ExactPositions source where
  first := by
    have hstart : source.toList = [] ++ source.toList := rfl
    exact Position.locate_boundary hstart
  next before c rest hsource := by
    have hnext : source.toList = (before ++ [c]) ++ rest := by
      rw [hsource, List.append_assoc, List.singleton_append]
    have hlength : utf8Length (before ++ [c]) = utf8Length before + c.utf8Size := by
      rw [utf8Length_append, utf8Length_cons, utf8Length_nil, Nat.add_zero]
    rw [← hlength, Position.locate_boundary hnext, Position.locate_boundary hsource,
      List.foldl_append]
    rfl
  increasing a b ha hb := by
    constructor
    · exact Position.locate_precedes ha hb
    · intro hprecedes
      -- Were `b` not behind `a`, its position would not be either.
      by_contra hnot
      rcases Nat.lt_or_eq_of_le (Nat.le_of_not_lt hnot) with hlt | rfl
      · exact (hprecedes.trans (Position.locate_precedes hb ha hlt)).ne rfl
      · exact hprecedes.ne rfl
  determined a b ha hb := Position.locate_injective ha hb
  counted before rest hsource := by
    rw [Position.locate_boundary hsource]
    exact Position.counts_walk before
  inside before c rest hsource offset hfrom hto := by
    apply Position.locate_inside hsource hfrom
    rwa [utf8Length_append, utf8Length_cons, utf8Length_nil, Nat.add_zero]
  past offset hpast := Position.locate_past hpast
  errors errors h error hmem := pinpointed_of_boundary (isBoundary_of_error h hmem)

/-- A line feed after an empty line, behind a character of two bytes. -/
example : Position.locate "é\n\nb" 4 = ⟨3, 1⟩ := by decide

end Script
