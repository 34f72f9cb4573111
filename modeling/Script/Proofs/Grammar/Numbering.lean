import Mathlib.Data.List.Forall2
import Script.Proofs.Grammar.Fuel
import Script.Proofs.Grammar.Lockstep
import Script.Proofs.Grammar.Parse

/-!
# Where the parser finds its errors

The parser never looks at the place that a token has in the source. So a run on tokens that carry
their index in the row instead tells at which token each error is found: `faults` lists the errors
of that run. `parseErrors_eq` says that the errors of the row itself are these, each with the span
of the token at its index.
-/

namespace Script

/-- The syntax errors that the parser finds in a row of tokens, in the order of the report. -/
def parseErrors (tokens : List Token) : List SyntaxError :=
  match parse tokens with
  | .ok _ => []
  | .error errors => errors

/-- The index of the first end-of-file token; the length of the row if there is none. -/
def endPlace (tokens : List Token) : Nat := (textOf tokens).length

/-- The kind of the token at an index; end of file past the last one. -/
def kindAt (tokens : List Token) (place : Nat) : TokenKind := Parser.headKind (tokens.drop place)

/-- The span of the token at an index. Past the last token it is the span of that one, and the
origin if there is no token at all. -/
def spanAt (tokens : List Token) (place : Nat) : Span :=
  match tokens[place]? with
  | some token => token.span
  | none =>
    match tokens.getLast? with
    | some token => token.span
    | none => .origin

/-- A syntax error and the index in the row of the token at which it was found. -/
structure Fault where
  fault : SyntaxFault
  place : Nat
deriving DecidableEq, Repr

/-- How the error is reported: with the span of its token. -/
def Fault.report (tokens : List Token) (fault : Fault) : SyntaxError :=
  ⟨fault.fault, spanAt tokens fault.place⟩

/-- The token with its index in the row for its place. -/
def Token.at (place : Nat) (token : Token) : Token := { token with span := ⟨place, place⟩ }

/-- The tokens with their indices for their places, and an end-of-file token after them. -/
def numbered (tokens : List Token) : List Token :=
  tokens.mapIdx Token.at ++ [.endOfFile ⟨tokens.length, tokens.length⟩]

/-- The syntax errors of a row, each with the index of the token at which it is found. -/
def faults (tokens : List Token) : List Fault :=
  (parseErrors (numbered tokens)).map fun error => ⟨error.fault, error.span.start⟩

variable {tokens : List Token} {place : Nat}

/-! ## Numbered rows

The numbered row is longer than the row by the end-of-file token, which stands at the index where
the row has ended. -/

/-- The numbered row has one token more than the tokens, the one at the end. -/
theorem numbered_length (tokens : List Token) : (numbered tokens).length = tokens.length + 1 := by
  simp [numbered]

/-- The tokens of the row are where they were. -/
theorem getElem?_numbered {token : Token} (h : tokens[place]? = some token) :
    (numbered tokens)[place]? = some (token.at place) := by
  obtain ⟨hlt, -⟩ := List.getElem?_eq_some_iff.mp h
  rw [numbered, List.getElem?_append_left (by simpa using hlt), List.getElem?_mapIdx, h]
  rfl

/-- After them comes the end of the file. -/
theorem getElem?_numbered_length (tokens : List Token) :
    (numbered tokens)[tokens.length]? = some (.endOfFile ⟨tokens.length, tokens.length⟩) := by
  simp [numbered]

/-- What remains at some index begins with the token of this index. -/
theorem drop_numbered {token : Token} (h : tokens[place]? = some token) :
    (numbered tokens).drop place = token.at place :: (numbered tokens).drop (place + 1) := by
  obtain ⟨hlt, hget⟩ := List.getElem?_eq_some_iff.mp (getElem?_numbered h)
  rw [List.drop_eq_getElem_cons hlt, hget]

/-- When all tokens of the row are consumed, the end of the file remains. -/
theorem drop_numbered_length (tokens : List Token) :
    (numbered tokens).drop tokens.length = [.endOfFile ⟨tokens.length, tokens.length⟩] := by
  obtain ⟨hlt, hget⟩ := List.getElem?_eq_some_iff.mp (getElem?_numbered_length tokens)
  rw [List.drop_eq_getElem_cons hlt, hget,
    List.drop_of_length_le (Nat.le_of_eq (numbered_length tokens))]

/-- A row and its numbered one have tokens of the same kinds. -/
theorem kindAt_numbered (tokens : List Token) (place : Nat) :
    kindAt (numbered tokens) place = kindAt tokens place := by
  unfold kindAt
  -- Within the row, at its end, or past it, where both rows are at an end.
  rcases Nat.lt_trichotomy place tokens.length with hlt | rfl | hlt
  · have hget := List.getElem?_eq_getElem hlt
    rw [drop_numbered hget, List.drop_eq_getElem_cons hlt]
    rfl
  · rw [drop_numbered_length, List.drop_length]
    rfl
  · rw [List.drop_of_length_le (by rw [numbered_length]; omega), List.drop_of_length_le (by omega)]

/-- Within the row this is the span of the token. -/
theorem spanAt_of_getElem? {token : Token} (h : tokens[place]? = some token) :
    spanAt tokens place = token.span := by
  rw [spanAt, h]

/-- The end of the row is where the last token has been consumed. -/
theorem spanAt_length {token : Token} (hplace : place + 1 = tokens.length)
    (h : tokens[place]? = some token) : spanAt tokens tokens.length = token.span := by
  have hlast : tokens.getLast? = some token := by
    rw [List.getLast?_eq_getElem?, ← hplace, Nat.add_sub_cancel, h]
  rw [spanAt, List.getElem?_eq_none (Nat.le_refl _), hlast]

namespace Parser

/-! ## The bound on nested calls

The two rows differ in length, and so in the bounds that the parser gives itself. The larger bound
makes no difference to what it finds. -/

/-- The parser keeps step with itself under any larger bound. -/
def Lockstep.same : Lockstep where
  recast := ⟨id, id⟩
  states := Eq
  errors := Eq
  nextKind := by
    rintro s _ rfl
    rfl
  consume := by
    rintro s _ token rest rfl hrest -
    exact ⟨rest, by rw [token.recast_move, hrest, Token.relocate_id], rfl⟩
  unexpected := by
    rintro s _ rfl expected
    rfl
  invalidTarget := fun _ => rfl
  note := by
    rintro s _ e _ rfl rfl
    rfl

/-- A program that ends under some bound ends in the same state under any larger one. -/
theorem program_more {fuel more : Nat} {s s' : State} {statements : List Stmt}
    (hrun : program fuel s = .ok statements s') (h : fuel ≤ more) :
    ∃ others, program more s = .ok others s' := by
  have hstep := @program_follows .same fuel more h s s rfl
  rw [hrun] at hstep
  obtain ⟨_, hmore, rfl⟩ := hstep
  exact ⟨_, hmore⟩

/-- Under every bound that is large enough the parser ends with the errors that it reports. -/
theorem program_errors (tokens : List Token) (more : Nat) :
    ∃ statements s', program (fuelFor tokens + more) ⟨tokens, .origin, []⟩ = .ok statements s' ∧
      s'.errors = parseErrors tokens := by
  obtain ⟨statements, s', hrun, hparse⟩ := parse_eq tokens
  obtain ⟨others, hmore⟩ := program_more hrun (Nat.le_add_right _ more)
  refine ⟨others, s', hmore, ?_⟩
  rw [parseErrors, hparse]
  -- A row without an error is one that is parsed.
  by_cases hclean : s'.errors = []
  · rw [if_pos hclean, hclean]
  · rw [if_neg hclean]

/-! ## A row and its numbered one

The parser asks tokens for their kinds only, and these are the same in both rows. What it notes are
their spans. -/

/-- The place of an error of the numbered row, taken in the row itself. -/
def Matches (tokens : List Token) (error error' : SyntaxError) : Prop :=
  error' = ⟨error.fault, spanAt tokens error.span.start⟩

/-- Errors that match one by one are the errors of the numbered row, taken in the row itself. -/
theorem eq_of_matches {errors errors' : List SyntaxError}
    (h : List.Forall₂ (Matches tokens) errors errors') :
    errors' = errors.map fun error => ⟨error.fault, spanAt tokens error.span.start⟩ := by
  induction h with
  | nil => rfl
  | cons herror _ ih => rw [List.map_cons, ← ih, herror]

/-- Both runs have come to the same index, with the same errors behind them. -/
structure Numbered (tokens : List Token) (s t : State) : Prop where
  place : ∃ place ≤ tokens.length, s.rest = (numbered tokens).drop place ∧
    t.rest = tokens.drop place ∧ (place = tokens.length → t.last = spanAt tokens place)
  errors : List.Forall₂ (Matches tokens) s.errors t.errors

section

variable {s t : State}

/-- At the same index both rows have tokens of the same kind. -/
theorem Numbered.nextKind (h : Numbered tokens s t) : t.nextKind = s.nextKind := by
  obtain ⟨place, -, hs, ht, -⟩ := h.place
  rw [State.nextKind_eq, State.nextKind_eq, hs, ht]
  exact (kindAt_numbered tokens place).symm

/-- Both runs consume the token at their index, and come to the next one. The tokens of the second
run carry their index for a span, so the step says of both where they stand. -/
theorem Numbered.consume {token : Token} {rest : List Token} (h : Numbered tokens s t)
    (hrest : s.rest = token :: rest) (hkind : token.kind ≠ .endOfFile) :
    ∃ rest', t.rest = token.relocate (fun span => spanAt tokens span.start) :: rest' ∧
      Numbered tokens { s with rest := rest, last := token.span }
        { t with rest := rest', last := spanAt tokens token.span.start } := by
  obtain ⟨place, hle, hs, ht, -⟩ := h.place
  have hlt : place < tokens.length := by
    -- Behind the last token only an end of the input is left, and the token consumed is none.
    refine Nat.lt_of_le_of_ne hle fun hplace => hkind ?_
    rw [hplace, drop_numbered_length, hrest] at hs
    obtain ⟨rfl, -⟩ := List.cons.inj hs
    rfl
  have hget := List.getElem?_eq_getElem hlt
  rw [drop_numbered hget, hrest] at hs
  obtain ⟨rfl, rfl⟩ := List.cons.inj hs
  have hspan : spanAt tokens place = tokens[place].span := spanAt_of_getElem? hget
  refine ⟨tokens.drop (place + 1), ?_, ⟨place + 1, hlt, rfl, rfl, fun hlast => ?_⟩, h.errors⟩
  · rw [ht, List.drop_eq_getElem_cons hlt]
    show _ = { tokens[place] with span := spanAt tokens place } :: _
    rw [hspan]
  · show spanAt tokens place = _
    rw [hlast, spanAt_length hlast hget, hspan]

/-- Both runs find an unexpected token at the same index. -/
theorem Numbered.unexpected (h : Numbered tokens s t) (expected : Expectation) :
    Matches tokens ⟨.unexpected expected s.nextKind, s.nextSpan⟩
      ⟨.unexpected expected t.nextKind, t.nextSpan⟩ := by
  suffices hspan : t.nextSpan = spanAt tokens s.nextSpan.start by rw [h.nextKind, hspan]; rfl
  obtain ⟨place, hle, hs, ht, hlast⟩ := h.place
  unfold State.nextSpan
  rcases Nat.lt_or_eq_of_le hle with hlt | rfl
  · have hget := List.getElem?_eq_getElem hlt
    rw [hs, ht, drop_numbered hget, List.drop_eq_getElem_cons hlt]
    exact (spanAt_of_getElem? hget).symm
  · rw [hs, ht, drop_numbered_length, List.drop_length]
    exact hlast rfl

theorem Numbered.note {e e' : SyntaxError} (h : Numbered tokens s t)
    (herror : Matches tokens e e') :
    Numbered tokens { s with errors := s.errors ++ [e] } { t with errors := t.errors ++ [e'] } :=
  ⟨h.place, List.rel_append h.errors (.cons herror .nil)⟩

end

/-- The parser goes the same way on a row and on its numbered one. -/
def Lockstep.numbered (tokens : List Token) : Lockstep where
  recast := ⟨id, fun span => spanAt tokens span.start⟩
  states := Numbered tokens
  errors := Matches tokens
  nextKind := Numbered.nextKind
  consume := fun {_ _ token _} h hrest hkind => by
    rw [token.recast_move]
    exact h.consume hrest hkind
  unexpected := Numbered.unexpected
  invalidTarget := fun _ => rfl
  note := Numbered.note

/-- Both runs begin at the first token, or at the end if there is none. -/
theorem numbered_initial (tokens : List Token) :
    Numbered tokens ⟨Script.numbered tokens, .origin, []⟩ ⟨tokens, .origin, []⟩ where
  place := by
    refine ⟨0, Nat.zero_le _, rfl, rfl, fun hempty => ?_⟩
    rw [List.length_eq_zero_iff.mp hempty.symm]
    rfl
  errors := .nil

end Parser

/-- The errors of a row of tokens are those of its numbered row, each with the span of the token
at its index. -/
theorem parseErrors_eq (tokens : List Token) :
    parseErrors tokens = (faults tokens).map (Fault.report tokens) := by
  have hfuel : Parser.fuelFor (numbered tokens) = Parser.fuelFor tokens + 16 := by
    rw [Parser.fuelFor, numbered_length, Parser.fuelFor]
    omega
  obtain ⟨statements, s', hrun, hs'⟩ := Parser.program_errors (numbered tokens) 0
  obtain ⟨others, t', hrun', ht'⟩ := Parser.program_errors tokens 16
  have hstep := @Parser.program_follows (.numbered tokens) _ _ (Nat.le_of_eq hfuel) _ _
    (Parser.numbered_initial tokens)
  rw [← Nat.add_zero (Parser.fuelFor (numbered tokens)), hrun, hrun'] at hstep
  obtain ⟨_, heq, herrors⟩ := hstep
  obtain ⟨-, rfl⟩ := EStateM.Result.ok.inj heq
  rw [faults, List.map_map, ← hs', ← ht']
  exact Parser.eq_of_matches herrors.errors

end Script
