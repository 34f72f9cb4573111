import Script.Program
import Script.Proofs.Grammar.Parse

/-!
# Accepted sources

A source is accepted when it passes all three stages of reading (`readProgram_eq_ok`). Its tokens
are then the text of a program, with the end-of-file token after it.
-/

namespace Script

/-- An accepted source scans without errors, parses to its program, and keeps the limits. The three
stages report together, and a source is accepted where none of them has anything to report. -/
theorem readProgram_eq_ok {source : String} {program : List Stmt} :
    readProgram source = .ok program ↔ scanErrors source = [] ∧
      parse (tokens source) = .ok program ∧ Stmt.limitErrorsOfAll program = [] := by
  unfold readProgram
  dsimp only
  cases parse (tokens source) with
  -- Without a tree the limits are not looked at, and the source is refused either way.
  | error errors => simp
  | ok statements =>
    dsimp only
    split
    · next hscan => simp_all
    · next hscan =>
      have hclean : scanErrors source = [] := by simpa using hscan
      split
      · next hlimits =>
        constructor
        · rintro ⟨⟩
          exact ⟨hclean, rfl, hlimits⟩
        · rintro ⟨-, ⟨⟩, -⟩
          rfl
      · next hlimits =>
        constructor
        · rintro ⟨⟩
        · rintro ⟨-, ⟨⟩, hkept⟩
          exact absurd hkept hlimits

/-- The tokens of an accepted source parse to its program. -/
theorem parse_of_read {source : String} {program : List Stmt}
    (h : readProgram source = .ok program) : parse (tokens source) = .ok program :=
  (readProgram_eq_ok.mp h).2.1

/-- A source can be tried out: where a test of its program computes to `true`, the source is
accepted and its program has the property. Witnesses are made by this. -/
theorem exists_read {source : String} {P : List Stmt → Prop} [DecidablePred P]
    (h : ((readProgram source).toOption.any fun program => P program) = true) :
    ∃ program, readProgram source = .ok program ∧ P program := by
  cases hread : readProgram source with
  | ok program =>
    rw [hread] at h
    exact ⟨program, rfl, of_decide_eq_true h⟩
  | error errors =>
    rw [hread] at h
    cases h

end Script
