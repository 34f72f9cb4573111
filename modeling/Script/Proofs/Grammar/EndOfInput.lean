import Script.Proofs.Grammar.Numbering
import Script.Proofs.Grammar.Relocation

/-!
# The end of the input

The parser takes a row of tokens to end at its first end-of-file token, and where there is none
after its last token. What stands behind that token is never looked at, and a row without one is
parsed as if it had one (`parse_closed`): the programs are the same, and so are the errors, but for
the place of those that are found at the end.

A run on a row without an end-of-file token and a run on the same row with one, and with anything
behind it, go in lockstep. The first run knows the place of the end from the last token consumed.
-/

namespace Script

/-! ## Errors at the end

The end of the input has a place in one row and none in the other. It is the only place about which
the errors may differ. -/

/-- Whether the error was found at the end of the input, where another token was expected. -/
def SyntaxError.atEnd (error : SyntaxError) : Bool :=
  match error.fault with
  | .unexpected _ .endOfFile => true
  | _ => false

/-- The errors are the same, and so are their places unless they were found at the end of the
input, which is at `ending` for the first one and at `ending'` for the second. -/
structure SameButEnd (ending ending' : Span) (error error' : SyntaxError) : Prop where
  fault : error'.fault = error.fault
  message : error'.message = error.message
  here : error.atEnd = true → error.span = ending ∧ error'.span = ending'
  elsewhere : error.atEnd = false → error'.span = error.span

/-- An error that is found elsewhere is the same in both rows. -/
theorem sameButEnd_refl (ending ending' : Span) {error : SyntaxError} (h : error.atEnd = false) :
    SameButEnd ending ending' error error where
  fault := rfl
  message := rfl
  here := fun hend => by
    rw [h] at hend
    cases hend
  elsewhere := fun _ => rfl

/-- What was expected at the end is missing in both rows. -/
theorem sameButEnd_ending (expected : Expectation) (ending ending' : Span) :
    SameButEnd ending ending' ⟨.unexpected expected .endOfFile, ending⟩
      ⟨.unexpected expected .endOfFile, ending'⟩ where
  fault := rfl
  message := rfl
  here := fun _ => ⟨rfl, rfl⟩
  elsewhere := nofun

namespace Parser

/-! ## Closed rows

Until the last token is consumed, the two rows look the same. Then the one has an end-of-file token,
and in the other one nothing is left, which the parser takes for the end of the file. -/

/-- Where the input ends for a row without an end-of-file token: at its last token, which is the
last one consumed when none is left. -/
def State.ending (s : State) : Span :=
  match s.rest.getLast? with
  | some token => token.span
  | none => s.last

/-- `t` is `s` with an end-of-file token after its tokens, and `behind` after that. The tokens of
`s` end at `ending`. -/
structure Closed (marker : Token) (behind : List Token) (ending : Span) (s t : State) : Prop where
  rest : t.rest = s.rest ++ marker :: behind
  isOpen : ∀ token ∈ s.rest, token.kind ≠ .endOfFile
  ends : s.ending = ending
  errors : List.Forall₂ (SameButEnd ending marker.span) s.errors t.errors

section

variable {marker : Token} {behind : List Token} {ending : Span} {s t : State}

/-- Consuming a token does not change where the input ends. -/
theorem State.ending_consumed {token : Token} {rest : List Token} (hrest : s.rest = token :: rest) :
    State.ending { s with rest := rest, last := token.span } = s.ending := by
  unfold State.ending
  rw [hrest]
  cases rest with
  | nil => rfl
  | cons next others =>
    rw [List.getLast?_cons_cons]
    rfl

/-- The next token is of the same kind in both rows. -/
theorem Closed.nextKind (hmarker : marker.kind = .endOfFile) (h : Closed marker behind ending s t) :
    t.nextKind = s.nextKind := by
  unfold State.nextKind
  rw [h.rest]
  cases s.rest with
  | nil => exact hmarker
  | cons token rest => rfl

/-- Both rows have the same token to consume. What is behind the end stays behind it. -/
theorem Closed.consume {token : Token} {rest : List Token} (h : Closed marker behind ending s t)
    (hrest : s.rest = token :: rest) :
    ∃ rest', t.rest = token.relocate id :: rest' ∧
      Closed marker behind ending { s with rest := rest, last := token.span }
        { t with rest := rest', last := token.span } := by
  refine ⟨rest ++ marker :: behind, ?_, rfl, fun other hmem => ?_, ?_, h.errors⟩
  · rw [h.rest, hrest, List.cons_append, Token.relocate_id]
  · exact h.isOpen other (hrest ▸ List.mem_cons_of_mem token hmem)
  · rw [State.ending_consumed hrest, h.ends]

/-- An unexpected token is found at the same place, unless it is the end that is unexpected. In
front of the marker the two runs see the same token; behind the last token the one run sees the
marker and the other one nothing, and both report the end. -/
theorem Closed.unexpected (hmarker : marker.kind = .endOfFile)
    (h : Closed marker behind ending s t) (expected : Expectation) :
    SameButEnd ending marker.span ⟨.unexpected expected s.nextKind, s.nextSpan⟩
      ⟨.unexpected expected t.nextKind, t.nextSpan⟩ := by
  rw [h.nextKind hmarker]
  have hending := h.ends
  unfold State.ending at hending
  unfold State.nextKind State.nextSpan
  rw [h.rest]
  cases hrest : s.rest with
  | nil =>
    rw [hrest] at hending
    subst hending
    exact sameButEnd_ending expected s.last marker.span
  | cons token rest =>
    -- A token that is still there is not an end of the input, so the error is not one at the end
    -- and its span may not differ.
    have hkind : token.kind ≠ .endOfFile := h.isOpen token (hrest ▸ List.mem_cons_self)
    refine sameButEnd_refl ending marker.span ?_
    unfold SyntaxError.atEnd
    split
    · next heq => exact absurd (SyntaxFault.unexpected.inj heq).2 hkind
    · rfl

/-- Both runs note an error, with the places that it has in the two rows. -/
theorem Closed.note {error error' : SyntaxError} (h : Closed marker behind ending s t)
    (herror : SameButEnd ending marker.span error error') :
    Closed marker behind ending { s with errors := s.errors ++ [error] }
      { t with errors := t.errors ++ [error'] } :=
  ⟨h.rest, h.isOpen, h.ends, List.rel_append h.errors (.cons herror .nil)⟩

end

/-- The parser keeps step with itself on a row that is closed by an end-of-file token. -/
def Lockstep.closed {marker : Token} (hmarker : marker.kind = .endOfFile) (behind : List Token)
    (ending : Span) : Lockstep where
  recast := ⟨id, id⟩
  states := Closed marker behind ending
  errors := SameButEnd ending marker.span
  nextKind := Closed.nextKind hmarker
  consume := fun {_ _ token _} h hrest _ => by
    rw [token.recast_move]
    exact h.consume hrest
  unexpected := Closed.unexpected hmarker
  invalidTarget := fun _ => sameButEnd_refl _ _ rfl
  note := Closed.note

/-- Both runs begin at the same token, and where the row ends is known from its last one. -/
theorem closed_initial {tokens : List Token} (hopen : ∀ token ∈ tokens, token.kind ≠ .endOfFile)
    (marker : Token) (behind : List Token) :
    Closed marker behind (spanAt tokens tokens.length) ⟨tokens, .origin, []⟩
      ⟨tokens ++ marker :: behind, .origin, []⟩ where
  rest := rfl
  isOpen := hopen
  ends := by
    have hnone : tokens[tokens.length]? = none := List.getElem?_eq_none (Nat.le_refl _)
    cases hlast : tokens.getLast? <;> simp only [State.ending, spanAt, hnone, hlast]
  errors := .nil

end Parser

/-! ## Rows with and without an end -/

/-- A row of tokens without an end-of-file token, and the same row with one and with anything
behind it, write the same program, or have the same errors. An error that is found at the end of
the input has the place of the end-of-file token, and without one that of the last token. -/
theorem parse_closed {tokens : List Token} (hopen : ∀ token ∈ tokens, token.kind ≠ .endOfFile)
    {marker : Token} (hmarker : marker.kind = .endOfFile) (behind : List Token) :
    match parse tokens, parse (tokens ++ marker :: behind) with
    | .ok program, .ok program' => program' = program
    | .error errors, .error errors' =>
      List.Forall₂ (SameButEnd (spanAt tokens tokens.length) marker.span) errors errors'
    | _, _ => False := by
  obtain ⟨program, s, hrun, hparse⟩ := parse_eq tokens
  obtain ⟨program', t, hrun', hparse'⟩ := parse_eq (tokens ++ marker :: behind)
  have hfuel : Parser.fuelFor tokens ≤ Parser.fuelFor (tokens ++ marker :: behind) := by
    unfold Parser.fuelFor
    rw [List.length_append]
    omega
  -- The longer row gives the parser more fuel, which `program_follows` allows for.
  have hstep := @Parser.program_follows (.closed hmarker behind _) _ _ hfuel _ _
    (Parser.closed_initial hopen marker behind)
  rw [hrun] at hstep
  obtain ⟨t', hlockstep, hclosed⟩ := hstep
  rw [hrun'] at hlockstep
  obtain ⟨rfl, rfl⟩ := EStateM.Result.ok.inj hlockstep
  have herrors := hclosed.errors
  rw [hparse, hparse']
  -- Both runs have noted an error or neither has.
  cases hnoted : s.errors with
  | nil =>
    rw [hnoted, List.forall₂_nil_left_iff] at herrors
    rw [if_pos rfl, if_pos herrors]
    exact (Stmt.recastAll_move id program).trans (Stmt.relocateAll_id program)
  | cons error others =>
    rw [hnoted] at herrors
    cases hnoted' : t.errors with
    | nil =>
      rw [hnoted'] at herrors
      cases herrors
    | cons error' others' =>
      rw [hnoted'] at herrors
      simpa using herrors

/-- A row that ends inside a block, after an error in it, and what is not looked at behind it. -/
theorem parse_closed_block :
    ∃ errors errors',
      parse [⟨.leftBrace, "\x7b", none, ⟨0, 1⟩⟩, ⟨.kwPrint, "print", none, ⟨2, 7⟩⟩,
        ⟨.semicolon, ";", none, ⟨8, 9⟩⟩] = .error errors ∧
      parse [⟨.leftBrace, "\x7b", none, ⟨0, 1⟩⟩, ⟨.kwPrint, "print", none, ⟨2, 7⟩⟩,
        ⟨.semicolon, ";", none, ⟨8, 9⟩⟩, .endOfFile ⟨20, 20⟩,
        ⟨.rightBrace, "\x7d", none, ⟨30, 31⟩⟩] = .error errors' ∧
      errors.length = 2 ∧ List.Forall₂ (SameButEnd ⟨8, 9⟩ ⟨20, 20⟩) errors errors' := by
  have hclosed := @parse_closed [⟨.leftBrace, "\x7b", none, ⟨0, 1⟩⟩,
    ⟨.kwPrint, "print", none, ⟨2, 7⟩⟩, ⟨.semicolon, ";", none, ⟨8, 9⟩⟩] (by decide)
    (.endOfFile ⟨20, 20⟩) rfl [⟨.rightBrace, "\x7d", none, ⟨30, 31⟩⟩]
  exact ⟨_, _, rfl, rfl, rfl, hclosed⟩

end Script
