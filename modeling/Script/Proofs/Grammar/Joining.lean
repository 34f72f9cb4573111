import Script.Proofs.Grammar.Fuel
import Script.Proofs.Grammar.Lockstep
import Script.Proofs.Grammar.Relocation
import Script.Proofs.Grammar.Source
import Script.Proofs.Token.Joining

/-!
# Reading a source after another one

An accepted source and another one after it, on a line of its own, are read as each of them alone:
the statements of the first, followed by what reading the second one yields at its new place
(`readProgram_join`). The only word that could reach back over the seam is an `else`, which belongs
to an `if` at the end of the first source.

The parser reads the text of the first source as its completeness says. From there on it goes in
lockstep with the parser of the second source.
-/

namespace Script

namespace Parser

open Grammar

/-! ## Tokens that have been moved

The rest of the joined row is the second row, moved. -/

/-- `t` is `s` with its tokens moved. The place of the last token consumed is left open: it is
looked at only where no token is left, and an end-of-file token is always left. -/
structure Moved (move : Span → Span) (s t : State) : Prop where
  rest : t.rest = s.rest.map (Token.relocate move)
  errors : t.errors = s.errors.map (SyntaxError.relocate move)
  closed : ∃ token ∈ s.rest, token.kind = .endOfFile

section

variable {move : Span → Span} {s t : State}

/-- A token that has been moved is of the same kind. -/
theorem Moved.nextKind (h : Moved move s t) : t.nextKind = s.nextKind := by
  rw [State.nextKind, State.nextKind, h.rest]
  cases s.rest <;> rfl

/-- The next token is where it has been moved to. There always is one. -/
theorem Moved.nextSpan (h : Moved move s t) : t.nextSpan = move s.nextSpan := by
  rw [State.nextSpan, State.nextSpan, h.rest]
  obtain ⟨token, hmem, -⟩ := h.closed
  cases hrest : s.rest with
  | nil =>
    rw [hrest] at hmem
    cases hmem
  | cons first others => rfl

/-- Both runs consume their token; the one that closes the row stays. -/
theorem Moved.consume {token : Token} {rest : List Token} (h : Moved move s t)
    (hrest : s.rest = token :: rest) (hkind : token.kind ≠ .endOfFile) :
    ∃ rest', t.rest = token.relocate move :: rest' ∧
      Moved move { s with rest := rest, last := token.span }
        { t with rest := rest', last := move token.span } := by
  refine ⟨rest.map (Token.relocate move), by rw [h.rest, hrest, List.map_cons], rfl, h.errors, ?_⟩
  obtain ⟨closing, hmem, hend⟩ := h.closed
  rw [hrest] at hmem
  rcases List.mem_cons.mp hmem with rfl | hmem
  · exact absurd hend hkind
  · exact ⟨closing, hmem, hend⟩

end

/-- The parser keeps step with itself on tokens that have been moved. -/
def Lockstep.moved (move : Span → Span) : Lockstep where
  recast := ⟨id, move⟩
  states := Moved move
  errors := fun e e' => e' = e.relocate move
  nextKind := Moved.nextKind
  consume := fun {_ _ token _} h hrest hkind => by
    rw [token.recast_move]
    exact h.consume hrest hkind
  unexpected := fun h expected => by
    rw [h.nextKind, h.nextSpan]
    rfl
  invalidTarget := fun _ => rfl
  note := fun h herror => ⟨h.rest, by rw [h.errors, herror, List.map_append]; rfl, h.closed⟩

/-! ## Two programs

One declaration after the other is read as if the first program stood alone, where no `else` comes
after it. -/

/-- A program goes on after its first declarations as if it started there. -/
theorem program_continues {fuel : Nat} {s : State} {rest : List Token} {statements : List Stmt}
    (h : Program statements) (hfuel : 16 * (Stmt.marksOfAll statements).length + 1 < fuel)
    (hspells : Spells (Stmt.marksOfAll statements) s.rest rest) (hnext : headKind rest ≠ .kwElse) :
    ∃ s₁ less, s₁.rest = rest ∧ s₁.errors = s.errors ∧
      fuel ≤ less + (Stmt.marksOfAll statements).length ∧
      ∀ others s', program less s₁ = .ok others s' →
        program fuel s = .ok (statements ++ others) s' := by
  induction statements generalizing fuel s with
  -- Nothing is left of the first program, so `s` itself is where the second one begins.
  | nil => exact ⟨s, fuel, hspells, rfl, Nat.le_add_right _ _, fun others s' hrun => hrun⟩
  | cons first next ih =>
    obtain ⟨fuel, rfl⟩ : ∃ m, fuel = m + 1 := ⟨fuel - 1, by omega⟩
    have hstarts := starts_of_declaration (h first (.head _))
    have hlength := hstarts.length_pos
    have hkinds := (hstarts.append (Stmt.marksOfAll next)).headKind_mem hspells
    have hdeclaration : ∀ kind ∈ declarationKinds, kind ≠ .endOfFile := by decide
    obtain ⟨middle, hspellsFirst, hspellsNext⟩ := spells_append.mp hspells
    simp only [Stmt.marksOfAll, List.length_append] at hfuel ⊢
    have hprogram : Program next := fun stmt hstmt => h stmt (.tail first hstmt)
    obtain ⟨s₁, hrun, hs₁, herrors₁⟩ :=
      (statementComplete fuel).declaration (h first (.head _)) (by omega) hspellsFirst
        (no_else_after hprogram hspellsNext hnext)
    obtain ⟨s₂, less, hs₂, herrors₂, hless, hgoOn⟩ :=
      @ih fuel _ hprogram (by omega) (hs₁ ▸ hspellsNext)
    refine ⟨s₂, less, hs₂, herrors₂.trans herrors₁, by omega, fun others s' hothers => ?_⟩
    rw [program_before_end (State.nextKind_eq s ▸ hdeclaration _ hkinds),
      bind_of_ok (recovering_of_ok hrun), bind_of_ok (hgoOn others s' hothers)]
    rfl

end Parser

open Script.Parser in
/-- The tokens of a program and of what comes after it are parsed one after the other. What comes
after it does not begin with an `else`, and it has an end. -/
theorem parse_join {first second : List Token} {program : List Stmt} (move : Span → Span)
    (hprogram : Grammar.Program program)
    (hspells : ∀ rest, Spells (Stmt.marksOfAll program) (first ++ rest) rest)
    (hclosed : ∃ token ∈ second, token.kind = .endOfFile)
    (helse : headKind second ≠ .kwElse) :
    parse (first ++ second.map (Token.relocate move)) =
      match parse second with
      | .ok statements => .ok (program ++ statements.map (Stmt.relocate move))
      | .error errors => .error (errors.map (SyntaxError.relocate move)) := by
  obtain ⟨statements, s', hrun, hsecond⟩ := parse_eq second
  have hlength : (Stmt.marksOfAll program).length ≤ first.length := by
    have hlength := spells_length (hspells [])
    rwa [List.append_nil] at hlength
  have hnext : headKind (second.map (Token.relocate move)) ≠ .kwElse := by
    cases second <;> exact helse
  have hfuel : 16 * (Stmt.marksOfAll program).length + 1 <
      fuelFor (first ++ second.map (Token.relocate move)) := by
    simp only [fuelFor, List.length_append]
    omega
  obtain ⟨s₁, less, hrest, herrors, hless, hgoOn⟩ :=
    program_continues (s := ⟨_, .origin, []⟩) hprogram hfuel (hspells _) hnext
  have hmore : fuelFor second ≤ less := by
    simp only [fuelFor, List.length_append, List.length_map] at hless ⊢
    omega
  -- From here on the parser keeps step with that of the second row.
  have hmoved : Moved move ⟨second, .origin, []⟩ s₁ := ⟨hrest, herrors, hclosed⟩
  have hstep := @program_follows (.moved move) _ _ hmore _ s₁ hmoved
  rw [hrun] at hstep
  obtain ⟨t', hrun', hmoved⟩ : ∃ t', Parser.program less s₁ =
      .ok (Stmt.recastAll ⟨id, move⟩ statements) t' ∧ Moved move s' t' := hstep
  rw [Stmt.recastAll_move] at hrun'
  rw [parse, hgoOn _ t' hrun', hsecond]
  dsimp only
  rw [hmoved.errors, Stmt.relocateAll_eq]
  by_cases hclean : s'.errors = []
  · simp [hclean]
  · simp [hclean]

/-- A text that is followed by the end of the input may be followed by something else. Marks never
ask for the token at the end, so what they spell lies in front of it. -/
theorem spells_before {marks : List Mark} {text rest : List Token} {closing : Token}
    (hspells : Spells marks (text ++ [closing]) rest) (hrest : Parser.headKind rest = .endOfFile)
    (htext : ∀ token ∈ text, token.kind ≠ .endOfFile) (hclosing : closing.kind = .endOfFile)
    (after : List Token) : Spells marks (text ++ after) after := by
  induction marks generalizing text with
  | nil =>
    rw [← show text ++ [closing] = rest from hspells] at hrest
    cases text with
    | nil => rfl
    | cons token text => exact absurd hrest (htext token (.head _))
  | cons mark marks ih =>
    obtain ⟨token, others, hsplit, hfits, hkind, hspells⟩ := hspells
    cases text with
    | nil =>
      obtain ⟨rfl, -⟩ := List.cons.inj hsplit
      -- A mark is left over: it would have to fit the closing token.
      exact absurd hclosing hkind
    | cons first text =>
      obtain ⟨rfl, rfl⟩ := List.cons.inj hsplit
      exact ⟨first, text ++ after, rfl, hfits, hkind,
        ih hspells fun token hmem => htext token (.tail _ hmem)⟩

/-! ## Sources

Scanning the joined source finds the items of the first one and then those of the second one, moved
(`tokens_join`). What reading makes of them is put together in the same order. -/

section

variable {first second : String} {program statements : List Stmt}

/-- The tokens of the joined source are parsed as those of the two sources. -/
theorem parse_tokens_join (hfirst : readProgram first = .ok program)
    (helse : (tokens second).head?.map Token.kind ≠ some .kwElse) :
    parse (tokens (first ++ "\n" ++ second)) =
      match parse (tokens second) with
      | .ok statements =>
        .ok (program ++ statements.map (Stmt.relocate (.shift (first.utf8ByteSize + 1))))
      | .error errors =>
        .error (errors.map (SyntaxError.relocate (.shift (first.utf8ByteSize + 1)))) := by
  obtain ⟨hscan, hparse, -⟩ := readProgram_eq_ok.mp hfirst
  obtain ⟨s', hrun, hclean⟩ := parse_eq_ok.mp hparse
  obtain ⟨hprogram, hreads, hend⟩ := Parser.program_sound hrun hclean
  obtain ⟨text, htokens, -, htext⟩ := tokens_eq first
  obtain ⟨text', htokens', -, -⟩ := tokens_eq second
  have hspells := hreads.spells
  dsimp only at hspells
  rw [htokens] at hspells
  rw [tokens_join second hscan, htokens, List.dropLast_concat]
  -- The first source has been read up to the end of its input. In front of the second one the same
  -- tokens are read, and only an `else` could go on with a statement of the first.
  refine parse_join _ hprogram
    (spells_before hspells (Parser.State.nextKind_eq s' ▸ hend) htext rfl) ?_ ?_
  · rw [htokens']
    exact ⟨_, List.mem_append_right _ (.head _), rfl⟩
  · rw [htokens'] at helse ⊢
    cases text' with
    | nil =>
      show TokenKind.endOfFile ≠ .kwElse
      decide
    | cons token text' =>
      intro hkind
      exact helse (congrArg some hkind)

/-- Two accepted sources make an accepted one, unless the second begins with an `else`. -/
theorem readProgram_join_ok (hfirst : readProgram first = .ok program)
    (helse : (tokens second).head?.map Token.kind ≠ some .kwElse)
    (hsecond : readProgram second = .ok statements) :
    readProgram (first ++ "\n" ++ second) =
      .ok (program ++ statements.map (Stmt.relocate (.shift (first.utf8ByteSize + 1)))) := by
  obtain ⟨hscan, -, hlimits⟩ := readProgram_eq_ok.mp hfirst
  obtain ⟨hscan', hparse', hlimits'⟩ := readProgram_eq_ok.mp hsecond
  refine readProgram_eq_ok.mpr ⟨?_, ?_, ?_⟩
  · rw [scanErrors_join second hscan, hscan', List.map_nil]
  · rw [parse_tokens_join hfirst helse, hparse']
  · rw [Stmt.limitErrorsOfAll_append, hlimits, ← Stmt.relocateAll_eq,
      Stmt.limitErrors_relocateAll, hlimits']
    rfl

/-- A source that is not accepted is not accepted after another one either, for the same
reasons. -/
theorem readProgram_join_error {errors : List SourceError}
    (hfirst : readProgram first = .ok program)
    (helse : (tokens second).head?.map Token.kind ≠ some .kwElse)
    (hsecond : readProgram second = .error errors) :
    readProgram (first ++ "\n" ++ second) =
      .error (errors.map (SourceError.relocate (.shift (first.utf8ByteSize + 1)))) := by
  obtain ⟨hscan, -, hlimits⟩ := readProgram_eq_ok.mp hfirst
  have hparse := parse_tokens_join hfirst helse
  have hjoined := scanErrors_join second hscan
  generalize Span.shift (first.utf8ByteSize + 1) = move at hparse hjoined ⊢
  have hfaults : ((scanErrors second).map (relocateScanError move)).map SourceError.ofScan =
      ((scanErrors second).map SourceError.ofScan).map (SourceError.relocate move) := by
    rw [List.map_map, List.map_map]
    rfl
  unfold readProgram at hsecond ⊢
  rw [hjoined, hfaults, hparse]
  generalize (scanErrors second).map SourceError.ofScan = faults at hsecond ⊢
  cases hparsed : parse (tokens second) with
  | error syntaxErrors =>
    rw [hparsed] at hsecond
    obtain rfl := Except.error.inj hsecond
    dsimp only
    rw [List.map_append, List.map_map, List.map_map]
    rfl
  | ok statements =>
    rw [hparsed] at hsecond
    dsimp only at hsecond ⊢
    rw [Stmt.limitErrorsOfAll_append, hlimits, ← Stmt.relocateAll_eq,
      Stmt.limitErrors_relocateAll, List.nil_append]
    -- Scanning has found the errors, or nothing but excesses of the limits.
    by_cases hnone : faults = []
    · subst hnone
      rw [if_neg (by simp)] at hsecond ⊢
      cases hexcess : Stmt.limitErrorsOfAll statements with
      | nil =>
        rw [hexcess] at hsecond
        cases hsecond
      | cons excess others =>
        rw [hexcess] at hsecond
        obtain rfl := Except.error.inj hsecond
        simp only [List.map_cons, List.map_map]
        rfl
    · rw [if_pos hnone] at hsecond
      rw [if_pos (by simpa using hnone)]
      obtain rfl := Except.error.inj hsecond
      rfl

end

/-- An accepted source with another source on the lines after it is read as the program of the
first, followed by what reading the second one yields: its program at its new place, or its errors
there, unless the second source begins with an `else`. -/
theorem readProgram_join {first second : String} {program : List Stmt}
    (hfirst : readProgram first = .ok program)
    (helse : (tokens second).head?.map Token.kind ≠ some .kwElse) :
    readProgram (first ++ "\n" ++ second) =
      match readProgram second with
      | .ok statements =>
        .ok (program ++ statements.map (Stmt.relocate (.shift (first.utf8ByteSize + 1))))
      | .error errors =>
        .error (errors.map (SourceError.relocate (.shift (first.utf8ByteSize + 1)))) := by
  cases hsecond : readProgram second with
  | ok statements => exact readProgram_join_ok hfirst helse hsecond
  | error errors => exact readProgram_join_error hfirst helse hsecond

/-- An `if` that could take an `else`, with a comment after it, and a source that is rejected. -/
theorem readProgram_join_rejected :
    ∃ program, readProgram "if (1 > 2) print 3; // no end of line" = .ok program ∧
      (tokens "print ; @").head?.map Token.kind ≠ some .kwElse ∧
      readProgram ("if (1 > 2) print 3; // no end of line" ++ "\n" ++ "print ; @") =
        match readProgram "print ; @" with
        | .ok statements => .ok (program ++ statements.map (Stmt.relocate (.shift 38)))
        | .error errors => .error (errors.map (SourceError.relocate (.shift 38))) := by
  obtain ⟨program, hread, -⟩ :=
    @exists_read "if (1 > 2) print 3; // no end of line" (fun _ => True) _ (by decide +kernel)
  have helse : (tokens "print ; @").head?.map Token.kind ≠ some .kwElse := by decide +kernel
  exact ⟨program, hread, helse, readProgram_join hread helse⟩

end Script
