import Script.Interpreter.Run
import Script.Proofs.Grammar.Source
import Script.Proofs.Number.RoundTrip
import Script.Proofs.Run.Task
import Script.Proofs.Token.Breaks

/-!
# Representations are read back

With a semicolon after it, the representation of a value is a source: `nil`, `true` and `false` are
keywords, a string stands between its quotes, and a number is a numeral, after a minus if its sign
is set. Such a source is a single statement, and whatever interpreter runs it gets the value back,
the number bit for bit (`denotes_repr`).
-/

namespace Script

/-- The value has a notation of its own in the language: it is no reference and no infinity or NaN,
and a string without a quote in it. -/
def Value.HasNotation : Value → Prop
  | .nil | .boolean _ => True
  | .number n => n.isFinite = true
  | .string text => '"' ∉ text.toList
  | .function _ | .classRef _ | .instanceRef _ => False

/-- The source is a single statement, and running it, in whatever scope and state, yields the value
and changes nothing. -/
def Denotes (source : String) (value : Value) : Prop :=
  ∃ stmt, readProgram source = .ok [stmt] ∧
    ∀ fuel, 3 ≤ fuel → ∀ scope s, Eval.run fuel scope [stmt] s = .ok value s

/-! ## Sources of one expression

The source is scanned to known tokens. That they are parsed to the expression is what the
completeness of the parser says of the text of a tree, so the parser is not run here. -/

/-- An operand of the tightest level is an expression without any operators around it. -/
theorem Grammar.Unary.assignment {expr : Expr} (h : Unary expr) : Assignment expr := by
  have htight : ∀ levels : List (List TokenKind), Binary levels expr := by
    intro levels
    induction levels with
    | nil => exact .operand h
    | cons operators levels ih => exact .tighter ih
  exact .noTarget (htight _)

/-- A source that scans to the tokens of an expression, a semicolon and the end. -/
theorem read_expression {source : String} {expr : Expr} {kept : List Token}
    {semicolon close : Token} (hexpr : Grammar.Unary expr) (hmarks : expr.marks = kept.map .held)
    (hkept : ∀ token ∈ kept, token.kind ≠ .endOfFile) (hlimits : expr.limitErrors = [])
    (hsemicolon : semicolon.kind = .semicolon) (hclose : close.kind = .endOfFile)
    (hscan : scan source = (kept ++ [semicolon, close]).map .token) :
    readProgram source = .ok [.expression expr] := by
  have htokens : tokens source = kept ++ [semicolon, close] := by
    rw [tokens, hscan, List.filterMap_map]
    exact List.filterMap_some
  have herrors : scanErrors source = [] := by
    rw [scanErrors, hscan, List.filterMap_map]
    exact List.filterMap_eq_nil_iff.mpr fun _ _ => rfl
  -- Tokens that are all kept spell themselves.
  have hheld : ∀ rest, Spells (kept.map .held) (kept ++ rest) rest := by
    clear hmarks hscan htokens
    intro rest
    induction kept with
    | nil => rfl
    | cons token kept ih =>
      exact ⟨token, _, rfl, rfl, hkept token (.head _), ih fun t ht => hkept t (.tail _ ht)⟩
  have hspells : Spells (Stmt.marksOfAll [.expression expr]) (tokens source) [close] := by
    rw [htokens, Stmt.marksOfAll, Stmt.marksOfAll, Stmt.marks, hmarks, List.append_nil,
      spells_append]
    have hend : semicolon.kind ≠ .endOfFile := by
      rw [hsemicolon]
      decide
    exact ⟨_, hheld _, semicolon, [close], rfl, hsemicolon, hend, rfl⟩
  have hprogram : Grammar.Program [.expression expr] :=
    List.forall_mem_singleton.mpr (.statement (.expression hexpr.assignment))
  -- The parser has fuel for all the tokens of the source, and the expression has fewer.
  have hfuel : 16 * (Stmt.marksOfAll [.expression expr]).length + 1 <
      Parser.fuelFor (tokens source) := by
    have hlength := spells_length hspells
    unfold Parser.fuelFor
    omega
  obtain ⟨s', hrun, -, hclean⟩ := Parser.program_complete (s := ⟨tokens source, .origin, []⟩)
    hprogram hfuel hspells hclose
  refine readProgram_eq_ok.mpr ⟨herrors, parse_eq_ok.mpr ⟨s', hrun, hclean⟩, ?_⟩
  rw [Stmt.limitErrorsOfAll, Stmt.limitErrorsOfAll, Stmt.limitErrors, hlimits, List.append_nil]

/-- An expression as the only statement of a program. -/
theorem run_expression {fuel : Nat} {scope : ScopeId} {expr : Expr} {value : Value} {s s' : State}
    (h : Eval.evaluate fuel scope expr s = .ok value s') :
    Eval.run (fuel + 1) scope [.expression expr] s = .ok value s' := by
  have hexecute : Eval.execute (fuel + 1) scope (.expression expr) s = .ok (.normal value) s' := by
    rw [Eval.execute]
    exact Eval.bind_of_ok h
  have hstatement : Eval.runStatement (fuel + 1) scope (.expression expr) s = .ok value s' :=
    Eval.bind_of_ok hexecute
  rw [Eval.run, List.foldlM_cons]
  exact Eval.bind_of_ok hstatement

/-! ## Literals

The semicolon ends the literal before it, whatever characters that consists of. -/

/-- No lexeme goes on with a semicolon, so what stands in front of one is read as if it stood
alone. -/
theorem startsBreak_semicolon : StartsBreak [';'] := by
  intro c hc
  obtain rfl : ';' = c := Option.some.inj hc
  decide

/-- A semicolon is a token by itself. -/
theorem pieces_semicolon : pieces [';'] = [⟨.token .semicolon, [';']⟩] := by
  rw [pieces_cons]
  show _ :: pieces [] = _
  rw [pieces]
  rfl

/-- The token of a literal, at some place. -/
theorem exists_literal (kind : TokenKind) (text : List Char) (span : Span) :
    ∃ token : Token, token.kind = kind ∧ token.literal = literal? kind text ∧
      Piece.item? ⟨.token kind, text⟩ span = some (.token token) :=
  ⟨_, rfl, rfl, rfl⟩

variable {kind : TokenKind} {text : List Char}

/-- A literal and a semicolon are read as one statement, which evaluates to what the literal stands
for. Scanning, parsing and running are computed one after the other. -/
theorem denotes_literal (h : Lexeme kind text) (hkind : kind ∈ Grammar.literalKinds) {value : Value}
    (hvalue : ∀ token : Token, token.literal = literal? kind text → token.value = value) :
    Denotes (String.ofList (text ++ [';'])) value := by
  obtain ⟨token, htoken, hliteral, hitem⟩ := exists_literal kind text ⟨0, 0 + utf8Length text⟩
  have hscan : ∃ semicolon close : Token, semicolon.kind = .semicolon ∧ close.kind = .endOfFile ∧
      scan (String.ofList (text ++ [';'])) =
        ([token] ++ [semicolon, close]).map ScanItem.token := by
    rw [scan, String.toList_ofList, pieces_lexeme h startsBreak_semicolon, pieces_semicolon]
    simp only [itemsFrom, hitem]
    exact ⟨_, _, rfl, rfl, rfl⟩
  obtain ⟨semicolon, close, hsemicolon, hclose, hscan⟩ := hscan
  have hprimary : Grammar.Primary (.literal token) := .literal (by rwa [htoken])
  have hkept : ∀ t ∈ [token], t.kind ≠ .endOfFile := by
    rw [List.forall_mem_singleton, htoken]
    exact h.ne_endOfFile
  refine ⟨.expression (.literal token), read_expression (.call (.primary hprimary)) rfl hkept rfl
    hsemicolon hclose hscan, fun fuel hfuel scope s => ?_⟩
  -- Three calls: the statement, the expression, and the literal.
  obtain ⟨fuel, rfl⟩ := Nat.exists_eq_add_of_le' hfuel
  rw [← hvalue token hliteral]
  exact run_expression rfl

/-- A minus, a numeral and a semicolon are read as one statement, which evaluates to the negative
number. -/
theorem denotes_negated (h : Lexeme .number text) :
    Denotes (String.ofList ('-' :: (text ++ [';'])))
      (.number (Decimal.ofText text).nearest.neg) := by
  obtain ⟨minus, hminus, -, hitem⟩ := exists_literal .minus ['-'] ⟨0, 0 + utf8Length ['-']⟩
  obtain ⟨token, htoken, hliteral, hitem'⟩ := exists_literal .number text
    ⟨0 + utf8Length ['-'], 0 + utf8Length ['-'] + utf8Length text⟩
  -- A minus is a token whatever comes after it.
  have hpieces : pieces ('-' :: (text ++ [';'])) =
      ⟨.token .minus, ['-']⟩ :: pieces (text ++ [';']) := by
    rw [pieces_cons]
    rfl
  have hscan : ∃ semicolon close : Token, semicolon.kind = .semicolon ∧ close.kind = .endOfFile ∧
      scan (String.ofList ('-' :: (text ++ [';']))) =
        ([minus, token] ++ [semicolon, close]).map ScanItem.token := by
    rw [scan, String.toList_ofList, hpieces, pieces_lexeme h startsBreak_semicolon,
      pieces_semicolon]
    simp only [itemsFrom, hitem, hitem']
    exact ⟨_, _, rfl, rfl, rfl⟩
  obtain ⟨semicolon, close, hsemicolon, hclose, hscan⟩ := hscan
  have hprimary : Grammar.Primary (.literal token) := .literal (by rw [htoken]; decide)
  have hunary : Grammar.Unary (.unary minus (.literal token)) :=
    .applied (by rw [hminus]; decide) (.call (.primary hprimary))
  have hkept : ∀ t ∈ [minus, token], t.kind ≠ .endOfFile := by
    simp [hminus, htoken]
  refine ⟨.expression (.unary minus (.literal token)), read_expression hunary rfl hkept rfl
    hsemicolon hclose hscan, fun fuel hfuel scope s => ?_⟩
  obtain ⟨fuel, rfl⟩ := Nat.exists_eq_add_of_le' hfuel
  have hvalue : token.value = .number (Decimal.ofText text).nearest := by
    rw [Token.value, hliteral]
    rfl
  -- The sign is applied when the program is run, to the number that the numeral stands for.
  have hunaryValue : applyUnary minus token.value s =
      .ok (.number (Decimal.ofText text).nearest.neg) s := by
    unfold applyUnary
    rw [hminus, hvalue]
    rfl
  refine @run_expression (fuel + 2) _ _ _ _ _ ?_
  rw [Eval.evaluate]
  exact (Eval.bind_of_ok rfl).trans hunaryValue

/-! ## Representations

A string is its literal already. For numbers the numeral is that of the magnitude, and the minus
before it is the sign. -/

/-- The text of a finite number is the numeral of its magnitude, after its sign. -/
theorem Number.text_finite {n : Number} (h : n.isFinite = true) :
    n.text = (if n.negative then ['-'] else []) ++ n.magnitude.shortest.text := by
  have hbits : n.magnitudeBits < infinityBits := of_decide_eq_true h
  have hnan : n.isNaN = false := decide_eq_false (Nat.not_lt_of_lt hbits)
  unfold Number.text
  rw [hnan, h]
  rfl

/-- The text of a finite number is read back as this number. -/
theorem denotes_number {n : Number} (h : n.isFinite = true) :
    Denotes (String.ofList (n.text ++ [';'])) (.number n) := by
  have hmagnitude : n.magnitude.isFinite = true := by rwa [Number.isFinite_magnitude]
  have hread : (Decimal.ofText n.magnitude.shortest.text).nearest = n.magnitude := by
    rw [Decimal.ofText_text]
    exact Number.nearest_shortest hmagnitude n.magnitude_not_negative
  have hlexeme := Decimal.lexeme_text n.magnitude.shortest
  rw [Number.text_finite h]
  -- With a sign the text begins with a minus, which is an operator and no part of the numeral.
  cases hsign : n.negative with
  | true =>
    have hnumber := denotes_negated hlexeme
    rw [hread, Number.neg_magnitude hsign] at hnumber
    exact hnumber
  | false =>
    refine denotes_literal hlexeme (by decide) fun token hliteral => ?_
    rw [Token.value, hliteral]
    show Value.number (Decimal.ofText _).nearest = _
    rw [hread, Number.magnitude_of_not_negative hsign]

/-- A string between quotes is read back as this string. -/
theorem denotes_string {text : List Char} (h : '"' ∉ text) :
    Denotes (String.ofList ('"' :: (text ++ ['"']) ++ [';'])) (.string (String.ofList text)) := by
  refine denotes_literal (.string h) (by decide) fun token hliteral => ?_
  rw [Token.value, hliteral]
  show Value.string (String.ofList (text ++ ['"']).dropLast) = _
  rw [List.dropLast_concat]

/-- The representation of a value that has a notation, in whatever store, is a source of it. -/
theorem denotes_repr {value : Value} (h : value.HasNotation) (store : Store) :
    Denotes (store.repr value ++ ";") value := by
  -- For the keywords only the value of the token is left to say.
  have hkeyword : ∀ kind : TokenKind, kind ∈ Grammar.literalKinds → ∀ spelling,
      kind.spelling? = some spelling →
      (∀ token : Token, token.literal = literal? kind spelling.toList → token.value = value) →
      Denotes (spelling ++ ";") value := by
    intro kind hkind spelling hspelling hvalue
    have hlexeme : Lexeme kind spelling.toList := .spelled (by rwa [String.ofList_toList])
    have hdenotes := denotes_literal hlexeme hkind hvalue
    rwa [String.ofList_append, String.ofList_toList] at hdenotes
  cases value with
  | nil =>
    refine hkeyword .kwNil (by decide) "nil" rfl fun token hliteral => ?_
    rw [Token.value, hliteral]
    rfl
  | boolean b =>
    cases b with
    | true =>
      refine hkeyword .kwTrue (by decide) "true" rfl fun token hliteral => ?_
      rw [Token.value, hliteral]
      rfl
    | false =>
      refine hkeyword .kwFalse (by decide) "false" rfl fun token hliteral => ?_
      rw [Token.value, hliteral]
      rfl
  | number n =>
    have hdenotes := denotes_number h
    rwa [String.ofList_append] at hdenotes
  | string text =>
    have hdenotes := denotes_string h
    rw [String.ofList_toList, String.ofList_append] at hdenotes
    have hquoted : String.ofList ('"' :: (text.toList ++ ['"'])) = "\"" ++ text ++ "\"" := by
      rw [← String.toList_inj]
      simp
    rwa [hquoted] at hdenotes
  | function | classRef | instanceRef => exact h.elim

end Script
