import Script.Proofs.Grammar.Joining

/-!
# Reading without places

The places of tokens are carried along in trees and errors, and nothing is decided by them. So a
row of tokens that has been moved is parsed to the same outcome, moved (`parse_relocate`), and two
sources in which the same is found, though at other places, are read alike
(`readsAlike_of_scan`). For the same reason an error has no place of its own making: it has that of
one of the tokens (`exists_token_of_parse_error`).
-/

namespace Script

/-! ## Moved rows

The parser carries places along. So it may be given a row that has been moved, or its outcome may be
moved. -/

/-- The outcome of parsing at another place. -/
def relocateParsed (move : Span → Span) (parsed : Except (List SyntaxError) (List Stmt)) :
    Except (List SyntaxError) (List Stmt) :=
  (parsed.map fun statements => statements.map (Stmt.relocate move)).mapError
    fun errors => errors.map (SyntaxError.relocate move)

/-- The outcome of reading a source at another place. -/
def relocateRead (move : Span → Span) (read : Except (List SourceError) (List Stmt)) :
    Except (List SourceError) (List Stmt) :=
  (read.map fun statements => statements.map (Stmt.relocate move)).mapError
    fun errors => errors.map (SourceError.relocate move)

open Script.Parser in
/-- A row of tokens that has an end is parsed in the same way wherever its tokens stand. -/
theorem parse_relocate (move : Span → Span) {row : List Token}
    (hclosed : ∃ token ∈ row, token.kind = .endOfFile) :
    parse (row.map (Token.relocate move)) = relocateParsed move (parse row) := by
  obtain ⟨statements, s', hrun, hparse⟩ := parse_eq row
  have hfuel : fuelFor row ≤ fuelFor (row.map (Token.relocate move)) := by simp [fuelFor]
  have hmoved : Moved move ⟨row, .origin, []⟩ ⟨row.map (Token.relocate move), .origin, []⟩ :=
    ⟨rfl, rfl, hclosed⟩
  -- Both runs of the parser go the same way, and note corresponding errors.
  have hstep := @program_follows (.moved move) _ _ hfuel _ _ hmoved
  rw [hrun] at hstep
  obtain ⟨t', hrun', hmoved⟩ : ∃ t', Parser.program (fuelFor (row.map (Token.relocate move)))
      ⟨row.map (Token.relocate move), .origin, []⟩ =
        .ok (Stmt.recastAll ⟨id, move⟩ statements) t' ∧ Moved move s' t' := hstep
  rw [Stmt.recastAll_move, Stmt.relocateAll_eq] at hrun'
  rw [parse, hrun', hparse]
  dsimp only
  rw [hmoved.errors]
  by_cases hclean : s'.errors = []
  · simp [hclean, relocateParsed, Except.map, Except.mapError]
  · simp [hclean, relocateParsed, Except.map, Except.mapError]

/-! ## Places of errors

That an error stands at a token is shown without looking at the parser: were there no such token,
moving the place of the error would change the outcome and not the row. -/

/-- Moves one place, and leaves all others where they are. -/
def Span.displace (place : Span) (span : Span) : Span :=
  if span = place then ⟨span.start + 1, span.stop⟩ else span

/-- The place is moved: a span and the displaced one differ in their start. -/
theorem Span.displace_self (place : Span) : place.displace place ≠ place := by
  intro h
  have hstart := congrArg Span.start h
  simp [displace] at hstart

/-- A token at another place stays where it is. -/
theorem Token.relocate_displace {token : Token} {place : Span} (h : token.span ≠ place) :
    token.relocate place.displace = token := by
  have hspan : place.displace token.span = token.span := if_neg h
  rw [Token.relocate, hspan]

/-- An error of parsing has the place of one of the tokens. Any other place could be moved and
nothing else with it, and the same row would have different errors. -/
theorem exists_token_of_parse_error {row : List Token}
    (hclosed : ∃ token ∈ row, token.kind = .endOfFile) {errors : List SyntaxError}
    (h : parse row = .error errors) {error : SyntaxError} (hmem : error ∈ errors) :
    ∃ token ∈ row, token.span = error.span := by
  by_contra hnone
  have hstays : ∀ token ∈ row, token.relocate error.span.displace = token := by
    intro token htoken
    apply Token.relocate_displace
    intro hspan
    exact hnone ⟨token, htoken, hspan⟩
  have hmoved := parse_relocate error.span.displace hclosed
  rw [List.map_congr_left hstays, List.map_id', h] at hmoved
  have herrors : errors = errors.map (SyntaxError.relocate error.span.displace) :=
    Except.error.inj hmoved
  have hsame : error = error.relocate error.span.displace := by
    rw [← List.map_id errors, List.map_map, List.map_inj_left] at herrors
    exact herrors error hmem
  exact Span.displace_self error.span (congrArg SyntaxError.span hsame).symm

/-! ## Sources that are read alike

The first two parts, scanning and parsing, are compared up to places. All else is put together from
these two. -/

/-- The place of nothing in particular, whatever the place was. -/
def Span.forget (_ : Span) : Span := .origin

/-- Apart from places the same is found in both sources, and both are read to the same. -/
structure ReadsAlike (source source' : String) : Prop where
  scan : (scan source).map (ScanItem.relocate .forget) =
    (Script.scan source').map (ScanItem.relocate .forget)
  parse : relocateParsed .forget (parse (tokens source)) =
    relocateParsed .forget (Script.parse (tokens source'))
  read : relocateRead .forget (readProgram source) = relocateRead .forget (readProgram source')

section

variable {source source' : String} {move : Span → Span}

/-- The tokens among the items that have been moved are the tokens, moved. -/
theorem tokens_relocate : ((scan source).map (ScanItem.relocate move)).filterMap ScanItem.token? =
    (tokens source).map (Token.relocate move) := by
  rw [List.filterMap_map, tokens, List.map_filterMap]
  congr 1
  funext item
  exact token?_relocate move item

theorem scanErrors_relocate :
    ((scan source).map (ScanItem.relocate move)).filterMap ScanItem.error? =
      (scanErrors source).map (relocateScanError move) := by
  rw [List.filterMap_map, scanErrors, List.map_filterMap]
  congr 1
  funext item
  exact error?_relocate move item

/-- Scanning closes every row with an end-of-file token. -/
theorem closed_tokens (source : String) : ∃ token ∈ tokens source, token.kind = .endOfFile := by
  obtain ⟨init, htokens, -, -⟩ := tokens_eq source
  rw [htokens]
  exact ⟨_, List.mem_append_right _ (.head _), rfl⟩

/-- What a source is read to, moved, depends on what scanning finds, moved. -/
theorem relocateRead_eq : relocateRead move (readProgram source) =
    match relocateParsed move (parse (tokens source)) with
    | .error errors => .error
      (((scanErrors source).map (relocateScanError move)).map SourceError.ofScan ++
        errors.map SourceError.ofSyntax)
    | .ok statements =>
      if (scanErrors source).map (relocateScanError move) ≠ [] then
        .error (((scanErrors source).map (relocateScanError move)).map SourceError.ofScan)
      else match Stmt.limitErrorsOfAll statements with
        | [] => .ok statements
        | errors => .error (errors.map SourceError.ofLimit) := by
  -- Errors are moved before they are put together or after.
  have hscan : ∀ errors : List (ScanError × Span),
      (errors.map SourceError.ofScan).map (SourceError.relocate move) =
        (errors.map (relocateScanError move)).map SourceError.ofScan := by
    simp [SourceError.ofScan, SourceError.relocate, relocateScanError]
  have hsyntax : ∀ errors : List SyntaxError,
      (errors.map SourceError.ofSyntax).map (SourceError.relocate move) =
        (errors.map (SyntaxError.relocate move)).map SourceError.ofSyntax := by
    simp [SourceError.ofSyntax, SourceError.relocate, SyntaxError.relocate]
  have hlimit : ∀ errors : List (LimitError × Span),
      (errors.map SourceError.ofLimit).map (SourceError.relocate move) =
        (errors.map (relocateLimitError move)).map SourceError.ofLimit := by
    simp [SourceError.ofLimit, SourceError.relocate, relocateLimitError]
  unfold readProgram
  cases parse (tokens source) with
  | error errors =>
    show Except.error ((_ ++ errors.map SourceError.ofSyntax).map (SourceError.relocate move)) =
      Except.error (_ ++ (errors.map (SyntaxError.relocate move)).map SourceError.ofSyntax)
    rw [List.map_append, hscan, hsyntax]
  | ok statements =>
    show relocateRead move (if (scanErrors source).map SourceError.ofScan ≠ [] then _ else _) = _
    by_cases hclean : scanErrors source = []
    · have hlimits := Stmt.limitErrors_relocateAll move statements
      rw [Stmt.relocateAll_eq] at hlimits
      simp only [hclean, List.map_nil, ne_eq, not_true_eq_false, if_false, relocateParsed,
        Except.map, Except.mapError, hlimits]
      cases Stmt.limitErrorsOfAll statements with
      | nil => rfl
      | cons first others =>
        show Except.error (((first :: others).map SourceError.ofLimit).map _) = _
        rw [hlimit]
        rfl
    · rw [if_pos (by simpa using hclean)]
      show Except.error (((scanErrors source).map SourceError.ofScan).map _) = _
      rw [hscan]
      simp [hclean, relocateParsed, Except.map, Except.mapError]

/-- Where the same is found, it is read to the same. -/
theorem readsAlike_of_scan (h : (scan source).map (ScanItem.relocate .forget) =
    (scan source').map (ScanItem.relocate .forget)) : ReadsAlike source source' := by
  have htokens : (tokens source).map (Token.relocate .forget) =
      (tokens source').map (Token.relocate .forget) := by
    rw [← tokens_relocate, ← tokens_relocate, h]
  have herrors : (scanErrors source).map (relocateScanError .forget) =
      (scanErrors source').map (relocateScanError .forget) := by
    rw [← scanErrors_relocate, ← scanErrors_relocate, h]
  have hparse : relocateParsed .forget (parse (tokens source)) =
      relocateParsed .forget (parse (tokens source')) := by
    rw [← parse_relocate _ (closed_tokens source), ← parse_relocate _ (closed_tokens source'),
      htokens]
  refine ⟨h, hparse, ?_⟩
  rw [relocateRead_eq, relocateRead_eq, hparse, herrors]

end

end Script
