import Mathlib.Data.List.Forall2
import Script.Proofs.Grammar.StatementCompleteness
import Script.Proofs.Grammar.StatementSoundness

/-!
# The parser decides its grammar

A row of tokens is parsed to a program exactly when the grammar derives the program and the tokens
up to the first end-of-file token are the program's text: one token for each mark, in order, of the
kind that the grammar prescribes or the very token that the tree keeps. So no token is lost or read
twice, and no row that is the text of a program is rejected.
-/

namespace Script

/-- The tokens before the first end-of-file token; all of them if there is none. -/
def textOf (tokens : List Token) : List Token :=
  tokens.takeWhile fun token => token.kind ≠ .endOfFile

/-- A token that does not end the input belongs to the text. -/
theorem textOf_cons {token : Token} (h : token.kind ≠ .endOfFile) (tokens : List Token) :
    textOf (token :: tokens) = token :: textOf tokens := by
  simp [textOf, h]

/-- The text is empty where the input ends at once. -/
theorem textOf_eq_nil {tokens : List Token} :
    textOf tokens = [] ↔ Parser.headKind tokens = .endOfFile := by
  cases tokens with
  | nil => simp [textOf, Parser.headKind]
  | cons token tokens => simp [textOf, Parser.headKind, List.takeWhile_cons]

/-- A text that goes on to the end of the input consists of all tokens before the end. -/
theorem spells_textOf {marks : List Mark} {tokens : List Token} :
    (∃ rest, Spells marks tokens rest ∧ Parser.headKind rest = .endOfFile) ↔
      List.Forall₂ Mark.Fits marks (textOf tokens) := by
  induction marks generalizing tokens with
  | nil =>
    -- With no marks left the text is empty, which is to say that the end comes first.
    rw [List.forall₂_nil_left_iff, textOf_eq_nil]
    simp
  | cons mark marks ih =>
    constructor
    · rintro ⟨rest, ⟨token, others, rfl, hfits, hkind, hspells⟩, hend⟩
      rw [textOf_cons hkind]
      exact .cons hfits (ih.mp ⟨rest, hspells, hend⟩)
    · intro h
      cases tokens with
      | nil => cases h
      | cons token tokens =>
        -- From left to right a mark gives its token. From right to left a token of the text has to
        -- be found, and the text holds none if the first token is the end.
        by_cases hkind : token.kind = .endOfFile
        · have hempty : textOf (token :: tokens) = [] := textOf_eq_nil.mpr hkind
          rw [hempty] at h
          cases h
        · rw [textOf_cons hkind] at h
          cases h with
          | cons hfits h =>
            obtain ⟨rest, hspells, hend⟩ := ih.mpr h
            exact ⟨rest, ⟨token, tokens, rfl, hfits, hkind, hspells⟩, hend⟩

/-- A text has as many tokens as marks. -/
theorem spells_length {marks : List Mark} {tokens rest : List Token}
    (h : Spells marks tokens rest) : marks.length ≤ tokens.length := by
  induction marks generalizing tokens with
  | nil => exact Nat.zero_le _
  | cons mark marks ih =>
    obtain ⟨token, others, rfl, -, -, h⟩ := h
    exact Nat.succ_le_succ (ih h)

/-- Parsing succeeds exactly where the whole input is read without an error being noted. A run that
reads on after an error ends as well, with the errors in its state, and is no success. -/
theorem parse_eq_ok {tokens : List Token} {program : List Stmt} :
    parse tokens = .ok program ↔
      ∃ s', Parser.program (Parser.fuelFor tokens) ⟨tokens, .origin, []⟩ = .ok program s' ∧
        s'.errors = [] := by
  unfold parse
  cases Parser.program (Parser.fuelFor tokens) ⟨tokens, .origin, []⟩ with
  | error stop s' => simp
  | ok statements s' =>
    dsimp only
    split
    · next h =>
      constructor
      · rintro ⟨⟩
        exact ⟨s', rfl, h⟩
      · rintro ⟨_, ⟨⟩, -⟩
        rfl
    · next h =>
      constructor
      · rintro ⟨⟩
      · rintro ⟨_, ⟨⟩, hclean⟩
        exact absurd hclean h

/-- A parsed program is derived by the grammar, and the tokens before the end are its text. -/
theorem fits_of_parse {tokens : List Token} {program : List Stmt}
    (h : parse tokens = .ok program) :
    Grammar.Program program ∧
      List.Forall₂ Mark.Fits (Stmt.marksOfAll program) (textOf tokens) := by
  obtain ⟨s', hrun, hclean⟩ := parse_eq_ok.mp h
  obtain ⟨hprogram, hreads, hend⟩ := Parser.program_sound hrun hclean
  have hnext : Parser.headKind s'.rest = .endOfFile := by rwa [← Parser.State.nextKind_eq]
  exact ⟨hprogram, spells_textOf.mp ⟨s'.rest, hreads.spells, hnext⟩⟩

/-- The parser accepts exactly the texts of programs, and yields the program that the tokens are the
text of. From left to right this is the soundness of the parsing functions, which reads the
derivation off a run; from right to left it is their completeness, for which the fuel that the
parser gives itself is enough. -/
theorem parse_eq_ok_iff (tokens : List Token) (program : List Stmt) :
    parse tokens = .ok program ↔
      Grammar.Program program ∧
        List.Forall₂ Mark.Fits (Stmt.marksOfAll program) (textOf tokens) := by
  rw [parse_eq_ok, ← spells_textOf]
  constructor
  · rintro ⟨s', hrun, hclean⟩
    obtain ⟨hprogram, hreads, hend⟩ := Parser.program_sound hrun hclean
    exact ⟨hprogram, s'.rest, hreads.spells, by rwa [← Parser.State.nextKind_eq]⟩
  · rintro ⟨hprogram, rest, hspells, hend⟩
    have hlength := spells_length hspells
    have hfuel : 16 * (Stmt.marksOfAll program).length + 1 < Parser.fuelFor tokens := by
      unfold Parser.fuelFor
      omega
    obtain ⟨s', hrun, -, hclean⟩ :=
      Parser.program_complete (s := ⟨tokens, .origin, []⟩) hprogram hfuel hspells hend
    exact ⟨s', hrun, hclean⟩

end Script
