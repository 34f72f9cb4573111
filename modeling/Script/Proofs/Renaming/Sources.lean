import Mathlib.Data.List.Forall2
import Script.Proofs.Grammar.Fuel
import Script.Proofs.Grammar.Lockstep
import Script.Proofs.Grammar.Source
import Script.Proofs.Token.Joining
import Script.Proofs.Token.Spelled

/-!
# Sources under other names

A source with other identifiers, wherever its tokens stand, is parsed to the same program with
other names (`readProgram_renamed`): the parser goes the same way on a row of tokens and on the row
recast (`parse_recast`), and two rows that differ in identifiers and places have a common recast.
Such a source always exists (`exists_renamed`).
-/

namespace Script

/-! ## Identifiers

A map of identifiers is extended to all texts by leaving the others alone. It stays injective, since
an identifier never becomes anything but an identifier. -/

/-- The texts of identifiers: words that are no keywords. -/
abbrev IsIdentifier (text : String) : Prop := Lexeme .identifier text.toList

/-- An identifier is a text that is scanned to one identifier; this is how it is decided. -/
theorem isIdentifier_iff {text : String} :
    IsIdentifier text ↔ pieces text.toList = [⟨.token .identifier, text.toList⟩] := by
  refine ⟨pieces_of_lexeme, fun hpieces => ?_⟩
  have hmem : (⟨.token .identifier, text.toList⟩ : Piece) ∈ pieces text.toList := by
    rw [hpieces]
    exact .head _
  exact lexeme_of_piece hmem rfl

instance (text : String) : Decidable (IsIdentifier text) := decidable_of_iff' _ isIdentifier_iff

/-- A text that is an identifier: a word that is no keyword. -/
abbrev Identifier := { text : String // IsIdentifier text }

/-- The text that a map of identifiers makes of a text; other texts stay as they are. -/
def onIdentifiers (f : Identifier → Identifier) (text : String) : String :=
  if h : IsIdentifier text then f ⟨text, h⟩ else text

section

variable {f : Identifier → Identifier} {text : String}

/-- What is no identifier stays as it is. -/
theorem onIdentifiers_of_not (h : ¬ IsIdentifier text) : onIdentifiers f text = text := dif_neg h

/-- A text is an identifier after the change exactly if it was one before. -/
theorem isIdentifier_onIdentifiers : IsIdentifier (onIdentifiers f text) ↔ IsIdentifier text := by
  unfold onIdentifiers
  split
  · next h => exact iff_of_true (f ⟨text, h⟩).2 h
  · exact Iff.rfl

/-- No two texts become the same: identifiers stay apart since the map is injective, and never
become a text that is none. -/
theorem onIdentifiers_injective (hf : f.Injective) : (onIdentifiers f).Injective := by
  intro a b heq
  -- The two texts are both identifiers or neither of them is.
  by_cases ha : IsIdentifier a
  · have hb : IsIdentifier b := by
      rwa [← isIdentifier_onIdentifiers (f := f), ← heq, isIdentifier_onIdentifiers]
    unfold onIdentifiers at heq
    rw [dif_pos ha, dif_pos hb] at heq
    exact congrArg Subtype.val (hf (Subtype.ext heq))
  · have hb : ¬ IsIdentifier b := by
      rwa [← isIdentifier_onIdentifiers (f := f), ← heq, isIdentifier_onIdentifiers]
    rwa [onIdentifiers_of_not ha, onIdentifiers_of_not hb] at heq

end

/-! ## Rows of tokens

A row of tokens and the row renamed stand at different places, so neither is the other one recast.
Both are therefore recast to a third row, in which all tokens are at the origin. -/

namespace Parser

/-- `t` is `s` with its tokens recast. -/
structure Recasts (r : Recast) (s t : State) : Prop where
  rest : t.rest = s.rest.map (Token.recast r)
  errors : t.errors = [] ↔ s.errors = []

/-- The parser keeps step with itself on tokens that have been recast. -/
def Lockstep.recasts (r : Recast) : Lockstep where
  recast := r
  states := Recasts r
  errors := fun _ _ => True
  nextKind := fun {s t} h => by
    rw [State.nextKind, State.nextKind, h.rest]
    cases s.rest with
    | nil => rfl
    | cons token rest => exact token.recast_kind r
  consume := fun {_ _ token rest} h hrest _ =>
    ⟨rest.map (Token.recast r), by rw [h.rest, hrest, List.map_cons], rfl, h.errors⟩
  unexpected := fun _ _ => trivial
  invalidTarget := fun _ => trivial
  note := fun h _ => ⟨h.rest, by simp⟩

end Parser

/-- A row of tokens that has been recast is parsed to the program recast, if it is one. -/
theorem parse_recast (r : Recast) (tokens : List Token) (program' : List Stmt) :
    parse (tokens.map (Token.recast r)) = .ok program' ↔
      ∃ program, parse tokens = .ok program ∧ program' = Stmt.recastAll r program := by
  obtain ⟨statements, s, hrun, hparse⟩ := parse_eq tokens
  obtain ⟨statements', t, hrun', hparse'⟩ := parse_eq (tokens.map (Token.recast r))
  have hfuel : Parser.fuelFor tokens ≤ Parser.fuelFor (tokens.map (Token.recast r)) := by
    rw [Parser.fuelFor, Parser.fuelFor, List.length_map]
  have hstep := @Parser.program_follows (.recasts r) _ _ hfuel ⟨tokens, .origin, []⟩
    ⟨tokens.map (Token.recast r), .origin, []⟩ ⟨rfl, Iff.rfl⟩
  rw [hrun] at hstep
  obtain ⟨t', hlockstep, hrecasts⟩ := hstep
  rw [hrun'] at hlockstep
  obtain ⟨rfl, rfl⟩ := EStateM.Result.ok.inj hlockstep
  rw [hparse, hparse']
  -- Both runs have noted an error or neither has.
  by_cases hclean : s.errors = []
  · rw [if_pos hclean, if_pos (hrecasts.errors.mpr hclean)]
    constructor
    · rintro ⟨⟩
      exact ⟨statements, rfl, rfl⟩
    · rintro ⟨_, ⟨⟩, rfl⟩
      rfl
  · rw [if_neg hclean, if_neg fun hnone => hclean (hrecasts.errors.mp hnone)]
    constructor
    · rintro ⟨⟩
    · rintro ⟨_, ⟨⟩, -⟩

/-- Other names, and no places. -/
def Recast.placeless (name : String → String) : Recast := ⟨name, fun _ => .origin⟩

/-- The second token is the first one, but with another text if it is an identifier. Its place is
left open. -/
structure Token.Renamed (f : String → String) (token token' : Token) : Prop where
  kind : token'.kind = token.kind
  lexeme : token'.lexeme = if token.kind = .identifier then f token.lexeme else token.lexeme
  literal : token'.literal = token.literal

section

variable {f : String → String} {token token' : Token} {row row' : List Token}

instance : Decidable (token.Renamed f token') :=
  decidable_of_iff (token'.kind = token.kind ∧
      token'.lexeme = (if token.kind = .identifier then f token.lexeme else token.lexeme) ∧
      token'.literal = token.literal)
    ⟨fun ⟨hkind, hlexeme, hliteral⟩ => ⟨hkind, hlexeme, hliteral⟩,
      fun h => ⟨h.kind, h.lexeme, h.literal⟩⟩

/-- Without their places both tokens are the same under the new name. -/
theorem Token.Renamed.placeless (h : token.Renamed f token') :
    token'.recast (.placeless id) = token.recast (.placeless f) := by
  obtain ⟨kind, lexeme, literal, span⟩ := token
  obtain ⟨kind', lexeme', literal', span'⟩ := token'
  obtain ⟨hkind, hlexeme, hliteral⟩ := h
  dsimp only at hkind hlexeme hliteral
  subst hkind hliteral
  by_cases hname : kind' = .identifier
  · rw [if_pos hname] at hlexeme
    rw [recast_of_identifier _ hname, recast_of_identifier _ hname, hlexeme]
    rfl
  · rw [if_neg hname] at hlexeme
    rw [recast_of_ne _ hname, recast_of_ne _ hname, hlexeme]
    rfl

/-- Rows that differ in names and places are recast to the same row. -/
theorem placeless_of_renamed (h : List.Forall₂ (Token.Renamed f) row row') :
    row'.map (Token.recast (.placeless id)) = row.map (Token.recast (.placeless f)) := by
  induction h with
  | nil => rfl
  | cons htoken _ ih => rw [List.map_cons, List.map_cons, htoken.placeless, ih]

/-- Rows of renamed tokens are the rows of the same program under other names. -/
theorem parse_renamed (h : List.Forall₂ (Token.Renamed f) row row') {program : List Stmt}
    (hparse : parse row = .ok program) :
    ∃ program', parse row' = .ok program' ∧
      Stmt.recastAll (.placeless id) program' = Stmt.recastAll (.placeless f) program := by
  have hrecast : parse (row'.map (Token.recast (.placeless id))) =
      .ok (Stmt.recastAll (.placeless f) program) := by
    rw [placeless_of_renamed h]
    exact (parse_recast _ row _).mpr ⟨program, hparse, rfl⟩
  obtain ⟨program', hparse', hsame⟩ := (parse_recast _ row' _).mp hrecast
  exact ⟨program', hparse', hsame.symm⟩

end

/-! ## Sources -/

/-- The second source has the tokens of the first one with other identifiers, and scans without
errors. -/
structure RenamedSource (f : String → String) (source source' : String) : Prop where
  scans : scanErrors source' = []
  tokens : List.Forall₂ (Token.Renamed f) (tokens source) (tokens source')

section

variable {f : String → String} {source source' : String}

/-- A source under other names is accepted if the source itself is, and read as the same program
under those names. -/
theorem readProgram_renamed {program : List Stmt} (hread : readProgram source = .ok program)
    (h : RenamedSource f source source') :
    ∃ program', readProgram source' = .ok program' ∧
      Stmt.recastAll (.placeless id) program' = Stmt.recastAll (.placeless f) program := by
  obtain ⟨-, hparse, hlimits⟩ := readProgram_eq_ok.mp hread
  obtain ⟨program', hparse', hsame⟩ := parse_renamed h.tokens hparse
  refine ⟨program', readProgram_eq_ok.mpr ⟨h.scans, hparse', ?_⟩, hsame⟩
  -- The limits that a program exceeds do not depend on its names.
  have hlimits' := congrArg Stmt.limitErrorsOfAll hsame
  rw [Stmt.limitErrors_recastAll, Stmt.limitErrors_recastAll, hlimits, List.map_nil] at hlimits'
  exact List.map_eq_nil_iff.mp hlimits'

end

/-! ## There are renamed sources

The tokens are renamed and written down again, each on a line of its own. What they are scanned to
is known, because a line break ends every lexeme. -/

/-- A token that is renamed, before its place is known. -/
def Token.renamed (f : String → String) (token : Token) : Token :=
  if token.kind = .identifier then { token with lexeme := f token.lexeme } else token

/-- The token that is renamed is the token under its new name, wherever it is moved. -/
theorem Token.renamed_renamed (f : String → String) (token : Token) (move : Span → Span) :
    token.Renamed f ((token.renamed f).relocate move) := by
  unfold Token.renamed
  split
  · next h => exact ⟨rfl, by rw [if_pos h]; rfl, rfl⟩
  · next h => exact ⟨rfl, by rw [if_neg h]; rfl, rfl⟩

/-- Under another name a scanned token is still one. -/
theorem Token.Scanned.renamed {token : Token} (h : token.Scanned) (f : Identifier → Identifier) :
    (token.renamed (onIdentifiers f)).Scanned := by
  unfold Token.renamed
  split
  · next hname =>
    have hlexeme := h.lexeme
    have hliteral := h.literal
    rw [hname] at hlexeme hliteral
    refine ⟨?_, ?_⟩
    · show Lexeme token.kind (onIdentifiers f token.lexeme).toList
      rw [hname]
      exact isIdentifier_onIdentifiers.mpr hlexeme
    · show token.literal = literal? token.kind _
      rw [hname, hliteral]
      rfl
  · exact h

/-- A text that is a lexeme is scanned to one token. -/
theorem Token.Scanned.tokens {token : Token} (h : token.Scanned) :
    scanErrors token.lexeme = [] ∧ ∃ span ending,
      Script.tokens token.lexeme = [{ token with span := span }, .endOfFile ending] := by
  obtain ⟨stop, hstop⟩ : ∃ stop, 0 + utf8Length token.lexeme.toList = stop := ⟨_, rfl⟩
  have hscan : scan token.lexeme =
      [.token { token with span := ⟨0, stop⟩ }, .token (.endOfFile ⟨stop, stop⟩)] := by
    rw [scan, pieces_of_lexeme h.lexeme, itemsFrom, itemsFrom, hstop, Piece.item?]
    dsimp only
    rw [← h.literal, String.ofList_toList]
    rfl
  exact ⟨by rw [scanErrors, hscan]; rfl, _, _, by rw [Script.tokens, hscan]; rfl⟩

/-- Any row of scanned tokens can be written, one token on each line. -/
theorem exists_written {row : List Token} (h : ∀ token ∈ row, token.Scanned) :
    ∃ source, scanErrors source = [] ∧ ∃ written ending,
      tokens source = written ++ [.endOfFile ending] ∧
      List.Forall₂ (fun token token' : Token => ∃ move, token' = token.relocate move) row
        written := by
  induction row with
  | nil => exact ⟨"", by decide +kernel, [], ⟨0, 0⟩, by decide +kernel, .nil⟩
  | cons token rest ih =>
    obtain ⟨source, hclean, written, ending, htokens, hwritten⟩ :=
      ih fun other hmem => h other (.tail _ hmem)
    obtain ⟨hfirst, span, ending', hone⟩ := (h token (.head _)).tokens
    -- The tokens of the rest move up by the first one and the line break.
    generalize hmove : Span.shift (token.lexeme.utf8ByteSize + 1) = move
    refine ⟨token.lexeme ++ "\n" ++ source, ?_,
      token.relocate (fun _ => span) :: written.map (Token.relocate move), move ending, ?_, ?_⟩
    · rw [scanErrors_join source hfirst, hclean, List.map_nil]
    · rw [tokens_join source hfirst, hone, htokens, hmove, List.map_append]
      rfl
    · refine .cons ⟨_, rfl⟩ (List.forall₂_map_right_iff.mpr (hwritten.imp ?_))
      rintro other _ ⟨move', rfl⟩
      exact ⟨move ∘ move', rfl⟩

/-- Every source can be renamed: its tokens, renamed one by one, are tokens again, and a source that
has them in this order can be written. -/
theorem exists_renamed (source : String) (f : Identifier → Identifier) :
    ∃ source', RenamedSource (onIdentifiers f) source source' := by
  obtain ⟨row, htokens, -, hrow⟩ := tokens_eq source
  have hscanned : ∀ token ∈ row.map (Token.renamed (onIdentifiers f)), token.Scanned := by
    intro token hmem
    obtain ⟨first, hfirst, rfl⟩ := List.mem_map.mp hmem
    have hfrom : first ∈ tokens source := by
      rw [htokens]
      exact List.mem_append_left _ hfirst
    exact (tokens_scanned hfrom (hrow first hfirst)).renamed f
  obtain ⟨source', hclean, written, ending, htokens', hwritten⟩ := exists_written hscanned
  refine ⟨source', hclean, ?_⟩
  rw [htokens, htokens']
  refine List.rel_append (List.forall₂_map_left_iff.mp hwritten |>.imp ?_)
    (.cons ⟨rfl, rfl, rfl⟩ .nil)
  rintro token _ ⟨move, rfl⟩
  exact token.renamed_renamed _ move

end Script
