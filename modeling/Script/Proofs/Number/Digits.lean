import Mathlib.Tactic.Ring
import Script.Proofs.Token.Lexemes

/-!
# The digits of decimals

What the text of a decimal says can be read off it again: the digits of a natural number are worth
that number (`digitsValue_toDigits`), padding does not change the worth, and the point stands where
the places say. So reading the text of a decimal yields the decimal itself, with its places
(`ofText_text`), and the text is a numeral of the language (`lexeme_text`).
-/

namespace Script

namespace Decimal

variable {n width : Nat} {d : Decimal}

/-! ## Rows of digits

The library writes a number with `Nat.toDigits`; what it says of these digits is said here of the
digits of the language. -/

/-- The digits of the library are those of the language. -/
theorem isDigit_of_char {c : Char} (h : c.isDigit = true) : isDigit c = true := by
  simp only [Char.isDigit, Bool.and_eq_true, decide_eq_true_eq, ge_iff_le] at h
  simp only [isDigit, Char.le_def, Bool.and_eq_true, decide_eq_true_eq]
  exact h

/-- A number is written with digits, and with at least one. -/
theorem isDigits_toDigits (n : Nat) : IsDigits (Nat.toDigits 10 n) :=
  ⟨Nat.toDigits_ne_nil, fun _ hmem =>
    isDigit_of_char (Nat.isDigit_of_mem_toDigits (by decide) (by decide) hmem)⟩

/-- The worth of digits as the library computes it. -/
theorem digitsValue_eq (digits : List Char) : digitsValue digits = Nat.ofDigitChars 10 digits 0 :=
  Nat.ofDigitChars_eq_foldl.symm

/-- Digits after others are worth less by the power of ten for their number. -/
theorem digitsValue_append (a b : List Char) :
    digitsValue (a ++ b) = 10 ^ b.length * digitsValue a + digitsValue b := by
  simp only [digitsValue_eq]
  rw [Nat.ofDigitChars_append, Nat.ofDigitChars_eq_ofDigitChars_zero]

/-- The digits of a number are worth this number. -/
@[simp] theorem digitsValue_toDigits (n : Nat) : digitsValue (Nat.toDigits 10 n) = n := by
  rw [digitsValue_eq, Nat.ofDigitChars_ten_toDigits]

/-- With zeros before it a number is still written with digits. -/
theorem isDigits_paddedDigits (width n : Nat) : IsDigits (paddedDigits width n) := by
  obtain ⟨hne, hdigits⟩ := isDigits_toDigits n
  refine ⟨by simp [paddedDigits, hne], fun c hmem => ?_⟩
  rcases List.mem_append.mp hmem with hzero | hdigit
  · rw [List.eq_of_mem_replicate hzero]
    decide
  · exact hdigits c hdigit

/-- Zeros before a number are worth nothing. -/
@[simp] theorem digitsValue_paddedDigits (width n : Nat) :
    digitsValue (paddedDigits width n) = n := by
  have hzeros : ∀ count, digitsValue (List.replicate count '0') = 0 := by
    intro count
    rw [digitsValue_eq, Nat.ofDigitChars_replicate_zero, Nat.mul_zero]
  unfold paddedDigits
  rw [digitsValue_append, hzeros, digitsValue_toDigits, Nat.mul_zero, Nat.zero_add]

/-- A number that has no more digits than `width` is padded to that width. -/
theorem length_paddedDigits (hwidth : 0 < width) (hn : n < 10 ^ width) :
    (paddedDigits width n).length = width := by
  have hlength : (Nat.toDigits 10 n).length ≤ width :=
    (Nat.length_toDigits_le_iff (by decide) hwidth).mpr hn
  unfold paddedDigits
  rw [List.length_append, List.length_replicate]
  omega

/-- A number that is followed by something else than a digit can be read off. -/
theorem eq_of_digits_before {m n : Nat} {c : Char} (hc : isDigit c = false) {a b : List Char}
    (h : Nat.toDigits 10 m ++ c :: a = Nat.toDigits 10 n ++ c :: b) : m = n ∧ a = b := by
  have htake : ∀ (k : Nat) (rest : List Char),
      (Nat.toDigits 10 k ++ c :: rest).takeWhile isDigit = Nat.toDigits 10 k := by
    intro k rest
    rw [List.takeWhile_append_of_pos (isDigits_toDigits k).2]
    simp [hc]
  have hdigits : Nat.toDigits 10 m = Nat.toDigits 10 n := by
    rw [← htake m a, h, htake n b]
  have hmn : m = n := by
    rw [← digitsValue_toDigits m, hdigits, digitsValue_toDigits]
  rw [hdigits] at h
  exact ⟨hmn, (List.cons.inj (List.append_cancel_left h)).2⟩

/-! ## Reading the text of a decimal

The point is no digit, so the digits before it are those of the whole part, and all after it are
those of the fraction. -/

/-- No digit is a point. -/
theorem ne_point_of_digit {c : Char} (h : isDigit c = true) : c ≠ '.' :=
  ne_of_class h (by decide)

/-- The text is divided at the point: what is taken up to it is the whole part, and the rest begins
with it. -/
theorem takeWhile_ne_point {digits : List Char} (h : IsDigits digits) (rest : List Char) :
    (digits ++ '.' :: rest).takeWhile (· ≠ '.') = digits ∧
      (digits ++ '.' :: rest).dropWhile (· ≠ '.') = '.' :: rest := by
  have hall : ∀ c ∈ digits, decide (c ≠ '.') = true := fun c hc =>
    decide_eq_true (ne_point_of_digit (h.2 c hc))
  rw [List.takeWhile_append_of_pos hall, List.dropWhile_append_of_pos hall]
  simp

/-- Digits without a point are read as a whole number, with no places behind the point. -/
theorem ofText_digits {digits : List Char} (h : IsDigits digits) :
    ofText digits = ⟨digitsValue digits, 0⟩ := by
  have hall : ∀ c ∈ digits, decide (c ≠ '.') = true := fun c hc =>
    decide_eq_true (ne_point_of_digit (h.2 c hc))
  have htake : digits.takeWhile (· ≠ '.') = digits := List.takeWhile_eq_self_iff.mpr hall
  have hdrop : digits.dropWhile (· ≠ '.') = [] := List.dropWhile_eq_nil_iff.mpr hall
  unfold ofText
  dsimp only
  rw [htake, hdrop]
  simp

/-- Digits with a point among them are read as the number that all of the digits write, with as many
places as stand behind the point. -/
theorem ofText_fraction {whole fraction : List Char} (h : IsDigits whole) :
    ofText (whole ++ '.' :: fraction) = ⟨digitsValue (whole ++ fraction), fraction.length⟩ := by
  obtain ⟨htake, hdrop⟩ := takeWhile_ne_point h fraction
  unfold ofText
  dsimp only
  rw [htake, hdrop]
  rfl

/-- Without places there are only the digits of the coefficient. -/
theorem text_whole (h : d.places = 0) : d.text = Nat.toDigits 10 d.coefficient := by
  unfold text
  dsimp only
  rw [if_pos h, h]
  show Nat.toDigits 10 (d.coefficient / 1) = _
  rw [Nat.div_one]

/-- With places the coefficient is divided by a power of ten, and the rest is padded to that many
digits. -/
theorem text_fraction (h : d.places ≠ 0) :
    d.text = Nat.toDigits 10 (d.coefficient / 10 ^ d.places) ++
      '.' :: paddedDigits d.places (d.coefficient % 10 ^ d.places) := by
  unfold text
  dsimp only
  rw [if_neg h]
  rfl

/-- Reading the text of a decimal gives the decimal back, with as many places as it had. -/
theorem ofText_text (d : Decimal) : ofText d.text = d := by
  by_cases hplaces : d.places = 0
  · rw [text_whole hplaces, ofText_digits (isDigits_toDigits _), digitsValue_toDigits, ← hplaces]
  · have hfraction : d.coefficient % 10 ^ d.places < 10 ^ d.places :=
      Nat.mod_lt _ (Nat.pow_pos (by decide))
    -- The fraction has as many digits as there are places, so it counts for that power of ten.
    have hlength := length_paddedDigits (Nat.pos_of_ne_zero hplaces) hfraction
    have hcoefficient := Nat.div_add_mod d.coefficient (10 ^ d.places)
    rw [text_fraction hplaces, ofText_fraction (isDigits_toDigits _), digitsValue_append,
      digitsValue_toDigits, digitsValue_paddedDigits, hlength, hcoefficient]

example : ofText (⟨1050, 3⟩ : Decimal).text = ⟨1050, 3⟩ := by decide +kernel

/-- The text of a decimal is a numeral. -/
theorem lexeme_text (d : Decimal) : Lexeme .number d.text := by
  by_cases hplaces : d.places = 0
  · rw [text_whole hplaces]
    exact .whole (isDigits_toDigits _)
  · rw [text_fraction hplaces]
    exact .fraction (isDigits_toDigits _) (isDigits_paddedDigits _ _)

end Decimal

end Script
