import Mathlib.Data.List.TakeWhile
import Script.Token.Scan

/-!
# Lexemes

The texts that are tokens of the language, said without the scanner: every kind that has one
spelling with that spelling, the other words as identifiers, numerals, and strings between quotes.
The first piece of a text is a token exactly where some beginning of the text is a lexeme, and then
it is the longest one (`pieceCase_firstPiece`).

What a lexeme can be is decided by its first character. `Lexeme.cases_first` lists the
possibilities, which exclude each other, so that each rule of the scanner is compared with one of
them only.
-/

namespace Script

/-! ## The lexemes -/

/-- A letter or an underscore, and then letters, underscores and digits. -/
def IsWord (text : List Char) : Prop :=
  ∃ first others, text = first :: others ∧ isLetter first = true ∧
    ∀ c ∈ others, isWordCharacter c = true

/-- One or more digits, as a numeral has them on both sides of its point. -/
def IsDigits (text : List Char) : Prop := text ≠ [] ∧ ∀ c ∈ text, Decimal.isDigit c = true

/-- The texts that are tokens, with their kinds. -/
inductive Lexeme : TokenKind → List Char → Prop where
  /-- Punctuation, operators and keywords. -/
  | spelled {kind : TokenKind} {text : List Char}
      (h : kind.spelling? = some (String.ofList text)) : Lexeme kind text
  /-- A word is an identifier if it is no keyword. -/
  | identifier {word : List Char} (hword : IsWord word)
      (hkeyword : ∀ kind : TokenKind, kind.spelling? ≠ some (String.ofList word)) :
      Lexeme .identifier word
  | whole {digits : List Char} (h : IsDigits digits) : Lexeme .number digits
  | fraction {whole digits : List Char} (hwhole : IsDigits whole) (hdigits : IsDigits digits) :
      Lexeme .number (whole ++ '.' :: digits)
  | string {inside : List Char} (h : '"' ∉ inside) : Lexeme .string ('"' :: (inside ++ ['"']))

/-- The text is the longest lexeme that `remaining` begins with, and it is one of this kind
only. -/
structure LongestLexeme (kind : TokenKind) (text remaining : List Char) : Prop where
  lexeme : Lexeme kind text
  isPrefix : text <+: remaining
  longest : ∀ other text', Lexeme other text' → text' <+: remaining →
    text'.length < text.length ∨ (other = kind ∧ text' = text)

/-- Nothing that `remaining` begins with is a lexeme. -/
def NoLexeme (remaining : List Char) : Prop :=
  ∀ kind text, Lexeme kind text → ¬ text <+: remaining

/-! ## Spellings

The scanner has tables from texts to kinds, while `spelling?` goes from kinds to texts. Each table
is undone by it, and together the tables leave out none. -/

/-- A punctuation character is the spelling of its kind. -/
theorem spelling?_of_punctuation? {c : Char} {kind : TokenKind} (h : punctuation? c = some kind) :
    kind.spelling? = some (String.ofList [c]) := by
  unfold punctuation? at h
  split at h <;> cases h <;> rfl

/-- A sign, alone and extended, is the spelling of its two kinds. -/
theorem spelling?_of_extendable? {c : Char} {alone extended : TokenKind}
    (h : extendable? c = some (alone, extended)) :
    alone.spelling? = some (String.ofList [c]) ∧
      extended.spelling? = some (String.ofList [c, '=']) := by
  unfold extendable? at h
  split at h <;> cases h <;> exact ⟨rfl, rfl⟩

/-- A keyword is the spelling of its kind. -/
theorem spelling?_of_keyword? {word : String} {kind : TokenKind} (h : keyword? word = some kind) :
    kind.spelling? = some word := by
  unfold keyword? at h
  split at h <;> cases h <;> rfl

/-- Three tables make up the spellings: that of the keywords, which are words, that of the
punctuation and that of the operators, which are extended by an equals sign. -/
inductive SpellingCase (kind : TokenKind) (text : List Char) : Prop where
  | keyword (hword : IsWord text) (h : keyword? (String.ofList text) = some kind)
  | punctuation (c : Char) (htext : text = [c]) (h : punctuation? c = some kind)
  | alone (c : Char) (other : TokenKind) (htext : text = [c])
      (h : extendable? c = some (kind, other))
  | extended (c : Char) (other : TokenKind) (htext : text = [c, '='])
      (h : extendable? c = some (other, kind))

/-- Every spelling is in one of the tables. -/
theorem spellingCase_of_spelling? {kind : TokenKind} {spelling : String}
    (h : kind.spelling? = some spelling) : SpellingCase kind spelling.toList := by
  cases kind <;> cases h
  case leftParen | rightParen | leftBrace | rightBrace | comma | dot | minus | plus | semicolon |
    slash | star => exact .punctuation _ rfl rfl
  case bang | equal | greater | less => exact .alone _ _ rfl rfl
  case bangEqual | equalEqual | greaterEqual | lessEqual => exact .extended _ _ rfl rfl
  -- What is left are the keywords, each of them a word.
  all_goals exact .keyword ⟨_, _, rfl, by decide, List.all_eq_true.mp (by decide)⟩ (by decide)

/-! ## First characters

Letters, digits, the quote, punctuation and the signs that an equals sign extends are different
characters. -/

/-- No letter is a digit. -/
theorem not_digit_of_letter {c : Char} (h : isLetter c = true) : Decimal.isDigit c = false := by
  simp only [isLetter, Decimal.isDigit, Bool.or_eq_true, Bool.and_eq_true, decide_eq_true_eq,
    Bool.and_eq_false_iff, decide_eq_false_iff_not, Char.le_def, UInt32.le_iff_toNat_le] at h ⊢
  have hzero : ('0' : Char).val.toNat = 48 := rfl
  have hnine : ('9' : Char).val.toNat = 57 := rfl
  have ha : ('a' : Char).val.toNat = 97 := rfl
  have hA : ('A' : Char).val.toNat = 65 := rfl
  rcases h with (⟨hlower, -⟩ | ⟨hupper, -⟩) | rfl
  · omega
  · omega
  · decide

/-- A character of a class differs from one that is not in it. -/
theorem ne_of_class {p : Char → Bool} {c other : Char} (h : p c = true) (hother : p other = false) :
    c ≠ other := by
  rintro rfl
  rw [h] at hother
  cases hother

/-- The classes that a punctuation character is not in. -/
theorem classes_of_punctuation? {c : Char} {kind : TokenKind} (h : punctuation? c = some kind) :
    isLetter c = false ∧ Decimal.isDigit c = false ∧ c ≠ '"' ∧ extendable? c = none := by
  unfold punctuation? at h
  split at h <;> first | (cases h; done) | decide

/-- The classes that a sign that can be extended is not in. -/
theorem classes_of_extendable? {c : Char} {kinds : TokenKind × TokenKind}
    (h : extendable? c = some kinds) :
    isLetter c = false ∧ Decimal.isDigit c = false ∧ c ≠ '"' ∧ punctuation? c = none := by
  unfold extendable? at h
  split at h <;> first | (cases h; done) | decide

/-- What a lexeme can be, by its first character. -/
inductive Lexeme.FirstCase (kind : TokenKind) (c : Char) (others : List Char) : Prop where
  | word (hfirst : isLetter c = true) (hothers : ∀ x ∈ others, isWordCharacter x = true)
      (hkind : wordKind (c :: others) = kind)
  | whole (hfirst : Decimal.isDigit c = true) (hothers : ∀ x ∈ others, Decimal.isDigit x = true)
      (hkind : kind = .number)
  | fraction (whole digits : List Char) (hfirst : Decimal.isDigit c = true)
      (hwhole : ∀ x ∈ whole, Decimal.isDigit x = true) (hdigits : IsDigits digits)
      (hothers : others = whole ++ '.' :: digits) (hkind : kind = .number)
  | string (inside : List Char) (hfirst : c = '"') (hinside : '"' ∉ inside)
      (hothers : others = inside ++ ['"']) (hkind : kind = .string)
  | punctuation (hfirst : punctuation? c = some kind) (hothers : others = [])
  | alone (other : TokenKind) (hfirst : extendable? c = some (kind, other)) (hothers : others = [])
  | extended (other : TokenKind) (hfirst : extendable? c = some (other, kind))
      (hothers : others = ['='])

/-- The kind of a keyword is the one that the table has for it. -/
theorem wordKind_of_keyword? {word : List Char} {kind : TokenKind}
    (h : keyword? (String.ofList word) = some kind) : wordKind word = kind := by
  unfold wordKind
  rw [h]
  rfl

/-- A word that is no spelling is an identifier. -/
theorem wordKind_of_no_spelling {word : List Char}
    (h : ∀ kind : TokenKind, kind.spelling? ≠ some (String.ofList word)) :
    wordKind word = .identifier := by
  unfold wordKind
  cases hkeyword : keyword? (String.ofList word) with
  | none => rfl
  | some kind => exact absurd (spelling?_of_keyword? hkeyword) (h kind)

/-- Every lexeme has a first character, and by it falls under one of the cases. -/
theorem Lexeme.cases_first {kind : TokenKind} {text : List Char} (h : Lexeme kind text) :
    ∃ c others, text = c :: others ∧ FirstCase kind c others := by
  cases h with
  | spelled h =>
    have hcase := spellingCase_of_spelling? h
    rw [String.toList_ofList] at hcase
    rcases hcase with ⟨⟨c, others, rfl, hfirst, hothers⟩, hkeyword⟩ | ⟨c, rfl, hc⟩ |
      ⟨c, other, rfl, hc⟩ | ⟨c, other, rfl, hc⟩
    · exact ⟨c, others, rfl, .word hfirst hothers (wordKind_of_keyword? hkeyword)⟩
    · exact ⟨c, [], rfl, .punctuation hc rfl⟩
    · exact ⟨c, [], rfl, .alone other hc rfl⟩
    · exact ⟨c, ['='], rfl, .extended other hc rfl⟩
  | identifier hword hkeyword =>
    obtain ⟨c, others, rfl, hfirst, hothers⟩ := hword
    exact ⟨c, others, rfl, .word hfirst hothers (wordKind_of_no_spelling hkeyword)⟩
  | whole h =>
    obtain ⟨c, others, rfl⟩ := List.exists_cons_of_ne_nil h.1
    obtain ⟨hfirst, hothers⟩ := List.forall_mem_cons.mp h.2
    exact ⟨c, others, rfl, .whole hfirst hothers rfl⟩
  | @fraction whole digits hwhole hdigits =>
    obtain ⟨c, others, rfl⟩ := List.exists_cons_of_ne_nil hwhole.1
    obtain ⟨hfirst, hothers⟩ := List.forall_mem_cons.mp hwhole.2
    exact ⟨c, others ++ '.' :: digits, rfl, .fraction others digits hfirst hothers hdigits rfl rfl⟩
  | @string inside h => exact ⟨'"', inside ++ ['"'], rfl, .string inside rfl h rfl rfl⟩

/-! ## The longest lexeme

One lemma for each class of first characters. -/

section

variable {kind : TokenKind} {c : Char} {rest : List Char}

/-- What begins a text and consists of such characters is no longer than what is taken of them. -/
theorem prefix_takeWhile {p : Char → Bool} {text : List Char} (htext : ∀ x ∈ text, p x = true)
    (h : text <+: rest) : text <+: rest.takeWhile p := by
  obtain ⟨after, rfl⟩ := h
  rw [List.takeWhile_append_of_pos htext]
  exact List.prefix_append ..

/-- To take as many characters as there are of a kind at the front is to take these. -/
theorem take_length_takeWhile (p : Char → Bool) (text : List Char) :
    text.take (text.takeWhile p).length = text.takeWhile p :=
  (List.prefix_iff_eq_take.mp (List.takeWhile_prefix p)).symm

/-- Only lexemes with the same first character have to be compared. -/
theorem longestLexeme_of_cases {others : List Char} (hlexeme : Lexeme kind (c :: others))
    (hinitial : others <+: rest)
    (h : ∀ other others', Lexeme.FirstCase other c others' → others' <+: rest →
      others'.length < others.length ∨ (other = kind ∧ others' = others)) :
    LongestLexeme kind (c :: others) (c :: rest) where
  lexeme := hlexeme
  isPrefix := (List.prefix_cons_inj c).mpr hinitial
  longest := by
    intro other text hother htext
    obtain ⟨first, others', rfl, hcase⟩ := hother.cases_first
    obtain ⟨rfl, hothers⟩ := List.cons_prefix_cons.mp htext
    rcases h other others' hcase hothers with hlt | ⟨rfl, rfl⟩
    · exact .inl (Nat.succ_lt_succ hlt)
    · exact .inr ⟨rfl, rfl⟩

/-- A prefix of `others` is shorter, or it is the whole. -/
theorem lt_or_eq_of_prefix {a b : List Char} (h : a <+: b) : a.length < b.length ∨ a = b := by
  rcases Nat.lt_or_eq_of_le h.length_le with hlt | heq
  · exact .inl hlt
  · exact .inr (h.eq_of_length heq)

/-- No lexeme but a string begins with a quote. -/
theorem firstCase_quote {others : List Char} (h : Lexeme.FirstCase kind '"' others) :
    kind = .string ∧ ∃ inside, '"' ∉ inside ∧ others = inside ++ ['"'] := by
  cases h with
  | word h => exact absurd h (by decide)
  | whole h | fraction _ _ h => exact absurd h (by decide)
  | string inside _ hinside hothers hkind => exact ⟨hkind, inside, hinside, hothers⟩
  | punctuation h | alone _ h | extended _ h => cases h

/-- Where a sign stands that can be extended, there is the sign alone or the extended sign. -/
theorem firstCase_extendable {alone extended : TokenKind} {others : List Char}
    (hfirst : extendable? c = some (alone, extended)) (h : Lexeme.FirstCase kind c others) :
    (kind = alone ∧ others = []) ∨ (kind = extended ∧ others = ['=']) := by
  obtain ⟨hletter, hdigit, hquote, hpunctuation⟩ := classes_of_extendable? hfirst
  cases h with
  | word h => exact absurd (hletter.symm.trans h) (by decide)
  | whole h | fraction _ _ h => exact absurd (hdigit.symm.trans h) (by decide)
  | string _ h => exact absurd h hquote
  | punctuation h =>
    rw [hpunctuation] at h
    cases h
  | alone _ h hothers =>
    rw [hfirst] at h
    cases h
    exact .inl ⟨rfl, hothers⟩
  | extended _ h hothers =>
    rw [hfirst] at h
    cases h
    exact .inr ⟨rfl, hothers⟩

/-- Where a digit stands there is a numeral, with a point in it or without. -/
theorem firstCase_digit {others : List Char} (hfirst : Decimal.isDigit c = true)
    (h : Lexeme.FirstCase kind c others) : kind = .number ∧
      ((∀ x ∈ others, Decimal.isDigit x = true) ∨
        ∃ whole digits, (∀ x ∈ whole, Decimal.isDigit x = true) ∧ IsDigits digits ∧
          others = whole ++ '.' :: digits) := by
  cases h with
  | word h => exact absurd (hfirst.symm.trans (not_digit_of_letter h)) (by decide)
  | whole _ hothers hkind => exact ⟨hkind, .inl hothers⟩
  | fraction whole digits _ hwhole hdigits hothers hkind =>
    exact ⟨hkind, .inr ⟨whole, digits, hwhole, hdigits, hothers⟩⟩
  | string _ h => exact absurd h (ne_of_class hfirst rfl)
  | punctuation h => exact absurd (hfirst.symm.trans (classes_of_punctuation? h).2.1) (by decide)
  | alone _ h | extended _ h =>
    exact absurd (hfirst.symm.trans (classes_of_extendable? h).2.1) (by decide)

/-- At a letter the longest lexeme is the whole word, a keyword or an identifier. -/
theorem longestLexeme_word (hfirst : isLetter c = true) :
    LongestLexeme (wordKind (c :: rest.takeWhile isWordCharacter))
      (c :: rest.takeWhile isWordCharacter) (c :: rest) := by
  have hothers : ∀ x ∈ rest.takeWhile isWordCharacter, isWordCharacter x = true :=
    fun x hx => List.mem_takeWhile_imp hx
  refine longestLexeme_of_cases ?_ (List.takeWhile_prefix _) ?_
  · have hword : IsWord (c :: rest.takeWhile isWordCharacter) := ⟨c, _, rfl, hfirst, hothers⟩
    unfold wordKind
    cases hkeyword : keyword? (String.ofList (c :: rest.takeWhile isWordCharacter)) with
    | some kind => exact .spelled (spelling?_of_keyword? hkeyword)
    | none =>
      refine .identifier hword fun kind hkind => ?_
      -- A word with a spelling of its own is in the table of keywords.
      have hcase := spellingCase_of_spelling? hkind
      rw [String.toList_ofList] at hcase
      rcases hcase with ⟨-, h⟩ | ⟨first, htext, h⟩ | ⟨first, _, htext, h⟩ | ⟨first, _, htext, h⟩
      · rw [hkeyword] at h
        cases h
      · obtain ⟨rfl, -⟩ := List.cons.inj htext
        rw [(classes_of_punctuation? h).1] at hfirst
        cases hfirst
      all_goals
        obtain ⟨rfl, -⟩ := List.cons.inj htext
        rw [(classes_of_extendable? h).1] at hfirst
        cases hfirst
  · intro other others' hcase hinitial
    cases hcase with
    | word _ hothers' hkind =>
      rcases lt_or_eq_of_prefix (prefix_takeWhile hothers' hinitial) with hlt | rfl
      · exact .inl hlt
      · exact .inr ⟨hkind.symm, rfl⟩
    -- The other classes do not hold a letter.
    | whole hdigit | fraction _ _ hdigit =>
      rw [not_digit_of_letter hfirst] at hdigit
      cases hdigit
    | string _ hquote => exact absurd hquote (ne_of_class hfirst rfl)
    | punctuation h =>
      rw [(classes_of_punctuation? h).1] at hfirst
      cases hfirst
    | alone _ h | extended _ h =>
      rw [(classes_of_extendable? h).1] at hfirst
      cases hfirst

/-- At a punctuation character the longest lexeme is this character. -/
theorem longestLexeme_punctuation (hfirst : punctuation? c = some kind) :
    LongestLexeme kind [c] (c :: rest) := by
  obtain ⟨hletter, hdigit, hquote, hextendable⟩ := classes_of_punctuation? hfirst
  refine longestLexeme_of_cases (.spelled (spelling?_of_punctuation? hfirst)) List.nil_prefix ?_
  intro other others' hcase _
  cases hcase with
  | word h => exact absurd (hletter.symm.trans h) (by decide)
  | whole h | fraction _ _ h => exact absurd (hdigit.symm.trans h) (by decide)
  | string _ h => exact absurd h hquote
  | punctuation h hothers =>
    rw [hfirst] at h
    exact .inr ⟨(Option.some.inj h).symm, hothers⟩
  | alone _ h | extended _ h =>
    rw [hextendable] at h
    cases h

/-- At a sign the longest lexeme is the extended one if an equals sign follows, and the sign alone
otherwise. -/
theorem longestLexeme_extendable {alone extended : TokenKind}
    (hfirst : extendable? c = some (alone, extended)) :
    (rest.head? = some '=' → LongestLexeme extended [c, '='] (c :: rest)) ∧
      (rest.head? ≠ some '=' → LongestLexeme alone [c] (c :: rest)) := by
  obtain ⟨halone, hextended⟩ := spelling?_of_extendable? hfirst
  constructor
  · intro hequals
    obtain ⟨after, rfl⟩ : ∃ after, rest = '=' :: after := by
      cases rest with
      | nil => cases hequals
      | cons x after => exact ⟨after, by rw [Option.some.inj hequals]⟩
    refine longestLexeme_of_cases (.spelled hextended) ⟨after, rfl⟩ ?_
    intro other others' hcase _
    rcases firstCase_extendable hfirst hcase with ⟨-, rfl⟩ | h
    · exact .inl Nat.zero_lt_one
    · exact .inr h
  · intro hequals
    refine longestLexeme_of_cases (.spelled halone) List.nil_prefix ?_
    intro other others' hcase hinitial
    rcases firstCase_extendable hfirst hcase with h | ⟨-, rfl⟩
    · exact .inr h
    · -- The extended sign would want an equals sign here.
      obtain ⟨after, rfl⟩ := hinitial
      exact absurd rfl hequals

/-- Up to a character means up to its first occurrence. -/
theorem takeWhile_ne_append {stop : Char} {text after : List Char} (h : stop ∉ text) :
    (text ++ stop :: after).takeWhile (· ≠ stop) = text := by
  have hbefore : ∀ x ∈ text, decide (x ≠ stop) = true := by
    intro x hx
    refine decide_eq_true ?_
    rintro rfl
    exact h hx
  rw [List.takeWhile_append_of_pos hbefore]
  simp

/-- At a quote the longest lexeme runs to the next quote. -/
theorem longestLexeme_string {inside after : List Char} (hinside : '"' ∉ inside) :
    LongestLexeme .string ('"' :: (inside ++ ['"'])) ('"' :: (inside ++ '"' :: after)) := by
  refine longestLexeme_of_cases (.string hinside) ⟨after, by simp⟩ ?_
  intro other others' hcase hinitial
  obtain ⟨rfl, inside', hinside', rfl⟩ := firstCase_quote hcase
  obtain ⟨after', hafter⟩ := hinitial
  rw [List.append_assoc, List.singleton_append] at hafter
  -- The first quote ends both strings.
  have htext := congrArg (List.takeWhile (· ≠ '"')) hafter
  rw [takeWhile_ne_append hinside', takeWhile_ne_append hinside] at htext
  exact .inr ⟨rfl, by rw [htext]⟩

/-! Numerals have two parts, of which the second may be missing. -/

/-- How many of the characters after the digits before the point belong to the same numeral. -/
def fractionExtent : List Char → Nat
  | '.' :: after =>
    match (after.takeWhile Decimal.isDigit).length with
    | 0 => 0
    | digits => 1 + digits
  | _ => 0

/-- What comes after the digits before the point: a point with digits after it, or something
else. -/
inductive FractionCase (tail : List Char) : Prop where
  | present (digits after : List Char) (htail : tail = '.' :: (digits ++ after))
      (hdigits : IsDigits digits) (hmaximal : (digits ++ after).takeWhile Decimal.isDigit = digits)
      (hextent : fractionExtent tail = 1 + digits.length)
  | absent (hnone : ∀ digits after, tail = '.' :: (digits ++ after) → ¬ IsDigits digits)
      (hextent : fractionExtent tail = 0)

/-- After the digits there is a fraction or there is none. -/
theorem fractionCase (tail : List Char) : FractionCase tail := by
  by_cases hpoint : ∃ after, tail = '.' :: after
  · obtain ⟨after, rfl⟩ := hpoint
    have hsplit := List.takeWhile_append_dropWhile (p := Decimal.isDigit) (l := after)
    cases hdigits : after.takeWhile Decimal.isDigit with
    | nil =>
      -- A point without a digit behind it belongs to no numeral.
      refine .absent ?_ (by simp [fractionExtent, hdigits])
      rintro digits after' htail ⟨hne, hall⟩
      rw [List.cons.inj htail |>.2, List.takeWhile_append_of_pos hall] at hdigits
      exact hne (List.append_eq_nil_iff.mp hdigits).1
    | cons first others =>
      rw [hdigits] at hsplit
      refine .present (first :: others) (after.dropWhile Decimal.isDigit) (by rw [hsplit]) ?_
        (by rw [hsplit, hdigits]) (by simp [fractionExtent, hdigits])
      refine ⟨List.cons_ne_nil _ _, fun x hx => ?_⟩
      rw [← hdigits] at hx
      exact List.mem_takeWhile_imp hx
  · refine .absent (fun digits after htail => absurd ⟨_, htail⟩ hpoint) ?_
    unfold fractionExtent
    split
    · next after => exact absurd ⟨after, rfl⟩ hpoint
    · rfl

/-- To drop as many characters as there are of a kind at the front is to drop these. -/
theorem drop_length_takeWhile (p : Char → Bool) (text : List Char) :
    text.drop (text.takeWhile p).length = text.dropWhile p := by
  conv => lhs; arg 2; rw [← List.takeWhile_append_dropWhile (p := p) (l := text)]
  exact List.drop_left

/-- A numeral is its digits and its fraction. -/
theorem numeralExtent_eq (rest : List Char) :
    numeralExtent rest =
      (rest.takeWhile Decimal.isDigit).length +
        fractionExtent (rest.dropWhile Decimal.isDigit) := by
  unfold numeralExtent
  dsimp only
  rw [drop_length_takeWhile]
  generalize rest.dropWhile Decimal.isDigit = tail
  split
  · next after =>
    rw [fractionExtent]
    cases (after.takeWhile Decimal.isDigit).length with
    | zero => rfl
    | succ digits => exact Nat.add_assoc ..
  · next hpoint =>
    unfold fractionExtent
    split
    · next after => exact absurd rfl (hpoint after)
    · rfl

/-- Digits before a point are all the digits. -/
theorem split_at_point {whole tail : List Char}
    (hwhole : ∀ x ∈ whole, Decimal.isDigit x = true) (h : whole ++ '.' :: tail = rest) :
    rest.takeWhile Decimal.isDigit = whole ∧ rest.dropWhile Decimal.isDigit = '.' :: tail := by
  subst h
  rw [List.takeWhile_append_of_pos hwhole, List.dropWhile_append_of_pos hwhole]
  exact ⟨List.append_nil _, rfl⟩

/-- The digits from a digit on are digits. -/
theorem isDigits_takeWhile (hfirst : Decimal.isDigit c = true) :
    IsDigits (c :: rest.takeWhile Decimal.isDigit) := by
  have hwhole : ∀ x ∈ rest.takeWhile Decimal.isDigit, Decimal.isDigit x = true :=
    fun x hx => List.mem_takeWhile_imp hx
  exact ⟨List.cons_ne_nil _ _, List.forall_mem_cons.mpr ⟨hfirst, hwhole⟩⟩

/-- All the digits, where no point with digits comes after them. -/
theorem longestLexeme_whole (hfirst : Decimal.isDigit c = true)
    (hnone : ∀ digits after, rest.dropWhile Decimal.isDigit = '.' :: (digits ++ after) →
      ¬ IsDigits digits) :
    LongestLexeme .number (c :: rest.takeWhile Decimal.isDigit) (c :: rest) := by
  refine longestLexeme_of_cases (.whole (isDigits_takeWhile hfirst)) (List.takeWhile_prefix _) ?_
  intro other others hcase hinitial
  obtain ⟨rfl, hall | ⟨whole, digits, hwhole, hdigits, rfl⟩⟩ := firstCase_digit hfirst hcase
  · rcases lt_or_eq_of_prefix (prefix_takeWhile hall hinitial) with hlt | rfl
    · exact .inl hlt
    · exact .inr ⟨rfl, rfl⟩
  · -- A numeral with a point would have its point behind all the digits.
    obtain ⟨after, hafter⟩ := hinitial
    rw [List.append_assoc, List.cons_append] at hafter
    obtain ⟨-, htail⟩ := split_at_point hwhole hafter
    exact absurd hdigits (hnone digits after htail)

/-- All the digits, the point after them and all the digits after the point. -/
theorem longestLexeme_fraction {digits after : List Char} (hfirst : Decimal.isDigit c = true)
    (htail : rest.dropWhile Decimal.isDigit = '.' :: (digits ++ after)) (hdigits : IsDigits digits)
    (hmaximal : (digits ++ after).takeWhile Decimal.isDigit = digits)
    (hrest : rest = (rest.takeWhile Decimal.isDigit ++ '.' :: digits) ++ after) :
    LongestLexeme .number (c :: (rest.takeWhile Decimal.isDigit ++ '.' :: digits)) (c :: rest) := by
  have hlexeme := Lexeme.fraction (@isDigits_takeWhile c rest hfirst) hdigits
  refine longestLexeme_of_cases hlexeme ⟨after, hrest.symm⟩ ?_
  intro other others hcase hinitial
  obtain ⟨rfl, hall | ⟨whole, digits', hwhole, hdigits', rfl⟩⟩ := firstCase_digit hfirst hcase
  · have hle := (prefix_takeWhile hall hinitial).length_le
    left
    rw [List.length_append, List.length_cons]
    omega
  · obtain ⟨after', hafter⟩ := hinitial
    rw [List.append_assoc, List.cons_append] at hafter
    -- Both numerals have the same digits before the point.
    obtain ⟨hsame, htail'⟩ := split_at_point hwhole hafter
    have hfractions : digits' ++ after' = digits ++ after :=
      (List.cons.inj (htail'.symm.trans htail)).2
    have hinitial' : digits' <+: digits := by
      rw [← hmaximal, ← hfractions]
      exact prefix_takeWhile hdigits'.2 (List.prefix_append ..)
    rw [hsame]
    rcases lt_or_eq_of_prefix hinitial' with hlt | rfl
    · left
      simp only [List.length_append, List.length_cons]
      omega
    · exact .inr ⟨rfl, rfl⟩

/-- At a digit the longest lexeme is the numeral that the scanner takes. -/
theorem longestLexeme_digit (hfirst : Decimal.isDigit c = true) :
    LongestLexeme .number (c :: rest.take (numeralExtent rest)) (c :: rest) := by
  rw [numeralExtent_eq]
  cases fractionCase (rest.dropWhile Decimal.isDigit) with
  | present digits after htail hdigits hmaximal hextent =>
    -- The fraction is the digits after the point, so the text is cut behind them.
    have hrest : rest = (rest.takeWhile Decimal.isDigit ++ '.' :: digits) ++ after := by
      rw [List.append_assoc, List.cons_append, ← htail, List.takeWhile_append_dropWhile]
    have hlength : (rest.takeWhile Decimal.isDigit).length +
        fractionExtent (rest.dropWhile Decimal.isDigit) =
        (rest.takeWhile Decimal.isDigit ++ '.' :: digits).length := by
      rw [hextent, List.length_append, List.length_cons, Nat.add_comm 1]
    have htake : rest.take (rest.takeWhile Decimal.isDigit ++ '.' :: digits).length =
        rest.takeWhile Decimal.isDigit ++ '.' :: digits := by
      conv => lhs; arg 2; rw [hrest]
      exact List.take_left
    rw [hlength, htake]
    exact longestLexeme_fraction hfirst htail hdigits hmaximal hrest
  | absent hnone hextent =>
    rw [hextent, Nat.add_zero, take_length_takeWhile]
    exact longestLexeme_whole hfirst hnone

/-! ## The first piece

The scanner tries its rules one after the other: separators, strings, numerals, words, punctuation,
signs. A character that comes to none of them begins no lexeme. -/

/-- A quote that some later quote closes, or one that none does. -/
theorem closing_quote (rest : List Char) :
    (∃ inside after, rest = inside ++ '"' :: after ∧ '"' ∉ inside ∧
      rest.takeWhile (· ≠ '"') = inside) ∨
    ('"' ∉ rest ∧ rest.takeWhile (· ≠ '"') = rest) := by
  have hsplit := List.takeWhile_append_dropWhile (p := (· ≠ '"')) (l := rest)
  have hinside : '"' ∉ rest.takeWhile (· ≠ '"') := fun hmem => by
    simpa using List.mem_takeWhile_imp hmem
  cases htail : rest.dropWhile (· ≠ '"') with
  | nil =>
    rw [htail, List.append_nil] at hsplit
    exact .inr ⟨hsplit ▸ hinside, hsplit⟩
  | cons first after =>
    have hfirst := List.head?_dropWhile_not (· ≠ '"') rest
    rw [htail] at hfirst hsplit
    obtain rfl : first = '"' := by simpa using hfirst
    exact .inl ⟨_, after, hsplit.symm, hinside, rfl⟩

/-- A text begins with no lexeme if its first character is that of none. -/
theorem noLexeme_of_cases
    (h : ∀ kind others, Lexeme.FirstCase kind c others → ¬ others <+: rest) :
    NoLexeme (c :: rest) := by
  intro kind text htext hinitial
  obtain ⟨first, others, rfl, hcase⟩ := htext.cases_first
  obtain ⟨rfl, hothers⟩ := List.cons_prefix_cons.mp hinitial
  exact h kind others hcase hothers

/-- A blank or a comment begins with the character before `rest`. -/
def StartsSeparator (c : Char) (rest : List Char) : Prop :=
  isBlank c = true ∨ (c = '/' ∧ rest.head? = some '/')

/-- What the first piece of a text is: a separator, the longest lexeme, or an error where there is
no lexeme. -/
inductive PieceCase (c : Char) (rest : List Char) : Shape × Nat → Prop where
  | blank (h : isBlank c = true) : PieceCase c rest (.trivia, 0)
  | comment (hfirst : c = '/') (hsecond : rest.head? = some '/') :
      PieceCase c rest (.trivia, (rest.takeWhile (· ≠ '\n')).length)
  | token {kind : TokenKind} {extent : Nat} (hstart : ¬ StartsSeparator c rest)
      (h : LongestLexeme kind (c :: rest.take extent) (c :: rest)) :
      PieceCase c rest (.token kind, extent)
  | openString (hquote : c = '"') (hstart : ¬ StartsSeparator c rest) (h : NoLexeme (c :: rest)) :
      PieceCase c rest (.openString, rest.length)
  | unexpected (hquote : c ≠ '"') (hstart : ¬ StartsSeparator c rest)
      (h : NoLexeme (c :: rest)) : PieceCase c rest (.unexpected c, 0)

/-- A quote begins a string, which is closed by the next quote. -/
theorem pieceCase_quote (rest : List Char) :
    PieceCase '"' rest
      (let inside := (rest.takeWhile (· ≠ '"')).length
      if inside < rest.length then (.token .string, inside + 1) else (.openString, inside)) := by
  have hstart : ¬ StartsSeparator '"' rest := by
    rintro (h | ⟨h, -⟩) <;> exact absurd h (by decide)
  rcases closing_quote rest with ⟨inside, after, hafter, hinside, htake⟩ | ⟨hnone, htake⟩
  · have hlength : inside.length < rest.length := by
      rw [hafter, List.length_append, List.length_cons]
      omega
    have htext : rest.take (inside.length + 1) = inside ++ ['"'] := by
      rw [hafter, List.take_length_add_append]
      rfl
    dsimp only
    rw [htake, if_pos hlength]
    refine .token hstart ?_
    rw [htext, hafter]
    exact longestLexeme_string hinside
  · dsimp only
    rw [htake, if_neg (Nat.lt_irrefl _)]
    -- Any string that begins here would need a second quote.
    refine .openString rfl hstart (noLexeme_of_cases ?_)
    intro kind others hcase hinitial
    obtain ⟨-, inside, -, rfl⟩ := firstCase_quote hcase
    have hquote : '"' ∈ inside ++ ['"'] := by simp
    exact hnone (hinitial.mem hquote)

/-- The first piece of a text is what the lexemes say it is. -/
theorem pieceCase_firstPiece (c : Char) (rest : List Char) :
    PieceCase c rest (firstPiece c rest) := by
  unfold firstPiece
  split
  · next hblank => exact .blank hblank
  next hblank =>
  split
  · next hcomment => exact .comment hcomment.1 hcomment.2
  next hcomment =>
  have hstart : ¬ StartsSeparator c rest := not_or.mpr ⟨hblank, hcomment⟩
  split
  · next hquote =>
    subst hquote
    exact pieceCase_quote rest
  next hquote =>
  split
  · next hdigit => exact .token hstart (longestLexeme_digit hdigit)
  next hdigit =>
  split
  · next hletter =>
    refine .token hstart ?_
    rw [take_length_takeWhile]
    exact longestLexeme_word hletter
  next hletter =>
  split
  · next hpunctuation => exact .token hstart (longestLexeme_punctuation hpunctuation)
  · next hextendable =>
    obtain ⟨hextended, halone⟩ := @longestLexeme_extendable c rest _ _ hextendable
    split
    · next hequals =>
      obtain ⟨after, rfl⟩ := List.head?_eq_some_iff.mp hequals
      exact .token hstart (hextended hequals)
    · next hequals => exact .token hstart (halone hequals)
  · next hpunctuation hextendable =>
    -- The character is in none of the classes.
    refine .unexpected hquote hstart (noLexeme_of_cases ?_)
    intro kind others hcase _
    cases hcase with
    | word h => exact hletter h
    | whole h | fraction _ _ h => exact hdigit h
    | string _ h => exact hquote h
    | punctuation h =>
      rw [hpunctuation] at h
      cases h
    | alone _ h | extended _ h =>
      rw [hextendable] at h
      cases h

end

end Script
