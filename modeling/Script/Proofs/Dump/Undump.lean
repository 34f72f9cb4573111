import Script.Proofs.Dump.Shown
import Script.Proofs.Grammar.Shape
import Script.Proofs.Scoping.Names
import Script.Proofs.Token.Spelled

/-!
# Reading dumps back

A dump hides nothing but places and missing clauses (`dump_eq_iff`): two programs with the same
dumps are shown alike.

The proof reads dumps back. `Form.stmt?` rebuilds a statement from its form, and a statement that
was read from a source `Undumps`: what is rebuilt is what the dump shows of it. The parts of a form
tell what they are, since operators, names and literals are tokens of the source and so known by
their texts; and the grammar leaves no doubt which of the forms with the same head it is, as an
assignment to a variable and one to a property.
-/

namespace Script

/-! ## Rebuilding expressions

A form is read from the inside: the items of a list are rebuilt first, and then the head says what
they are parts of. The heads with a name of their own come before the operators, and of these the
number of operands says which kind it is. -/

/-- The expression that a single token is. -/
def Token.leaf (token : Token) : Expr :=
  match token.kind with
  | .kwThis => .this token
  | .identifier => .variable token
  | _ => .literal token

/-- The expression that has this head and these parts. -/
def Expr.compound? (head : String) (parts : List Expr) : Option Expr :=
  match head, parts with
  | "group", [inner] => some (.grouping inner)
  | "call", callee :: arguments => some (.call callee (.ofText "(") arguments)
  | ".", [object, .variable name] => some (.get object name)
  -- An assignment to a variable has the same head. It is left to the operators, being one in the
  -- tree.
  | "=", [.get object name, value] => some (.set object name value)
  | "super", [.variable method] => some (.superGet (.ofText "super") method)
  | "super-call", arguments => some (.superCall (.ofText "super") arguments)
  | operator, [operand] => some (.unary (.ofText operator) operand)
  | operator, [left, right] => some (.binary left (.ofText operator) right)
  | _, _ => none

mutual

/-- The expression with this form, if it is one. The first item of a list says which kind of
expression is meant, as it does in the dump. -/
def Form.expr? : Form → Option Expr
  | .atom text => some (Token.ofText text).leaf
  | .list (.atom head :: items) => do Expr.compound? head (← Form.exprs? items)
  | .list _ => none

/-- The expressions with these forms. -/
def Form.exprs? : List Form → Option (List Expr)
  | [] => some []
  | item :: rest => do
    let expr ← item.expr?
    let others ← Form.exprs? rest
    some (expr :: others)

end

/-! ## Rebuilding statements

The head of a list says which statement it is, and where a part may be missing the number of items
says whether it is there. Two places need a look at an item itself: an initializer is a list and the
word for its absence an atom, and the superclass comes after an atom while methods are lists. -/

/-- The name with this form. A list stands for no name, and is not met where one is expected. -/
def Form.name : Form → Token
  | .atom text => .ofText text
  | .list _ => .ofText ""

/-- The function that a statement declares. The methods of a class are dumped like functions, and
are read back by this. -/
def Stmt.function? : Stmt → Option FunctionDecl
  | .function decl => some decl
  | _ => none

mutual

/-- The statement with this form, if it is one. A `var` or an `if` with one item more is the form
with the optional part. -/
def Form.stmt? : Form → Option Stmt
  | .list [.atom "expr", expr] => do some (.expression (← expr.expr?))
  | .list [.atom "print", expr] => do some (.print (← expr.expr?))
  | .list [.atom "var", name] => some (.varDecl name.name none)
  | .list [.atom "var", name, init] => do some (.varDecl name.name (some (← init.expr?)))
  | .list (.atom "block" :: body) => do some (.block (← Form.stmts? body))
  | .list [.atom "if", condition, thenBranch] => do
    some (.ifElse (← condition.expr?) (← thenBranch.stmt?) none)
  | .list [.atom "if", condition, thenBranch, elseBranch] => do
    some (.ifElse (← condition.expr?) (← thenBranch.stmt?) (some (← elseBranch.stmt?)))
  | .list [.atom "while", condition, body] => do
    some (.whileLoop (← condition.expr?) (← body.stmt?))
  | .list [.atom "for", .atom _, condition, post, body] => do
    some (.forLoop none (some (← condition.expr?)) (some (← post.expr?)) (← body.stmt?))
  | .list [.atom "for", init, condition, post, body] => do
    some (.forLoop (some (← init.stmt?)) (some (← condition.expr?)) (some (← post.expr?))
      (← body.stmt?))
  | .list (.atom "fun" :: name :: .list params :: body) => do
    some (.function ⟨name.name, params.map Form.name, ← Form.stmts? body⟩)
  | .list [.atom "return"] => some (.returnValue (.ofText "return") none)
  | .list [.atom "return", value] => do
    some (.returnValue (.ofText "return") (some (← value.expr?)))
  | .list (.atom "class" :: name :: .atom _ :: superclass :: methods) => do
    some (.classDecl name.name (some superclass.name)
      ((← Form.stmts? methods).filterMap Stmt.function?))
  | .list (.atom "class" :: name :: methods) => do
    some (.classDecl name.name none ((← Form.stmts? methods).filterMap Stmt.function?))
  | _ => none

/-- The statements with these forms. -/
def Form.stmts? : List Form → Option (List Stmt)
  | [] => some []
  | item :: rest => do
    let stmt ← item.stmt?
    let others ← Form.stmts? rest
    some (stmt :: others)

end

/-! ## Texts of tokens are atoms

The texts that go into a form are those of tokens, and the texts of tokens are lexemes. No lexeme
but a parenthesis holds a parenthesis, and none but a string holds a blank or a quote. -/

/-- Whether there is no delimiter among the characters. Unlike `∀ c ∈ text, c ∉ Form.delimiters`
this is never decided by going through all characters that there are. -/
def Form.isPlain (text : List Char) : Bool := text.all fun c => !Form.delimiters.contains c

/-- What is found by going through the text holds for all of its characters. -/
theorem Form.not_mem_of_isPlain {text : List Char} (h : Form.isPlain text = true) :
    ∀ c ∈ text, c ∉ Form.delimiters := by
  intro c hc
  have hplain := List.all_eq_true.mp h c hc
  simpa using hplain

/-- The spelling of an operator or keyword is an atom. -/
theorem isAtom_of_spelling? {kind : TokenKind} {spelling : String}
    (h : kind.spelling? = some spelling) (hopen : kind ≠ .leftParen) (hclose : kind ≠ .rightParen) :
    Form.IsAtom spelling.toList := by
  cases kind <;> cases h
  case leftParen => exact absurd rfl hopen
  case rightParen => exact absurd rfl hclose
  -- Of all other kinds the spelling is at hand.
  all_goals exact .plain (by decide) (Form.not_mem_of_isPlain (by decide))

/-- The characters of words and numerals are no delimiters. -/
theorem not_mem_delimiters {c : Char} (h : isWordCharacter c = true ∨ c = '.') :
    c ∉ Form.delimiters := by
  intro hmem
  have hall : (Form.delimiters.all fun c => !(isWordCharacter c || c == '.')) = true := by decide
  have hnone := List.all_eq_true.mp hall c hmem
  rcases h with h | rfl
  · rw [h] at hnone
    cases hnone
  · cases hnone

/-- A digit may stand in a word. -/
theorem isWordCharacter_of_isDigit {c : Char} (h : Decimal.isDigit c = true) :
    isWordCharacter c = true := by
  rw [isWordCharacter, h, Bool.or_true]

/-- Every lexeme but a parenthesis is an atom. -/
theorem isAtom_of_lexeme {kind : TokenKind} {text : List Char} (h : Lexeme kind text)
    (hopen : kind ≠ .leftParen) (hclose : kind ≠ .rightParen) : Form.IsAtom text := by
  cases h with
  | spelled h =>
    have hatom := isAtom_of_spelling? h hopen hclose
    rwa [String.toList_ofList] at hatom
  | identifier hword _ =>
    obtain ⟨first, others, rfl, hfirst, hothers⟩ := hword
    have hletter : isWordCharacter first = true := by rw [isWordCharacter, hfirst, Bool.true_or]
    refine .plain (List.cons_ne_nil _ _) (List.forall_mem_cons.mpr ⟨?_, fun c hc => ?_⟩)
    · exact not_mem_delimiters (.inl hletter)
    · exact not_mem_delimiters (.inl (hothers c hc))
  | whole h =>
    exact .plain h.1 fun c hc => not_mem_delimiters (.inl (isWordCharacter_of_isDigit (h.2 c hc)))
  -- Digits, a point, and digits again.
  | fraction hwhole hdigits =>
    refine .plain (by simp) fun c hc => not_mem_delimiters ?_
    rcases List.mem_append.mp hc with hc | hc
    · exact .inl (isWordCharacter_of_isDigit (hwhole.2 c hc))
    · rcases List.mem_cons.mp hc with hpoint | hc
      · exact .inr hpoint
      · exact .inl (isWordCharacter_of_isDigit (hdigits.2 c hc))
  | string h => exact .quoted h

namespace Token.Scanned

variable {token : Token}

/-- A token of a source is known by its text, but for its place. -/
theorem bare_eq (h : token.Scanned) : token.bare = .ofText token.lexeme := h.eq_ofText

/-- The text of a token is an atom if the token is no parenthesis. -/
theorem isAtom {kinds : List TokenKind} (h : token.Scanned) (hkind : token.kind ∈ kinds)
    (hkinds : ∀ kind ∈ kinds, kind ≠ .leftParen ∧ kind ≠ .rightParen) :
    Form.IsAtom token.lexeme.toList :=
  isAtom_of_lexeme h.lexeme (hkinds _ hkind).1 (hkinds _ hkind).2

/-- The token of a kind with one spelling. -/
theorem bare_of_spelling? {spelling : String} (h : token.Scanned)
    (hspelling : token.kind.spelling? = some spelling) : token.bare = .ofText spelling := by
  rw [h.bare_eq, h.lexeme_eq hspelling]

end Token.Scanned

/-- The words that lists begin with and names stand between. -/
def headWords : List String :=
  ["group", "call", ".", "=", "super", "super-call", "this", "expr", "print", "var", "block", "if",
    "while", "for", "nil", "fun", "return", "class", "<"]

/-- The words of the dump are atoms, since none of them holds a blank, a parenthesis or a quote. -/
theorem isAtom_headWord {text : String} (h : text ∈ headWords) : Form.IsAtom text.toList := by
  have hall : ∀ text ∈ headWords, text.toList ≠ [] ∧ Form.isPlain text.toList = true := by decide
  exact .plain (hall text h).1 (Form.not_mem_of_isPlain (hall text h).2)

/-! ## Expressions

There is one lemma for each way to build an expression. It takes what the grammar says of the tokens
in it and what the induction says of its parts. -/

/-- The form of the expression shows what the expression is. -/
structure Expr.Undumps (expr : Expr) : Prop where
  valid : expr.form.Valid
  read : expr.form.expr? = some expr.bare

section

variable {head : String} {item : Form} {items : List Form} {expr left right : Expr}
  {exprs arguments : List Expr} {token name operator keyword method paren : Token}

theorem exprs?_nil : Form.exprs? [] = some [] := rfl

/-- The expressions are rebuilt one by one. -/
theorem exprs?_cons (hfirst : item.expr? = some expr) (hrest : Form.exprs? items = some exprs) :
    Form.exprs? (item :: items) = some (expr :: exprs) := by
  rw [Form.exprs?, hfirst, hrest]
  rfl

/-- A list with a head is rebuilt from its parts. -/
theorem expr?_list (h : Form.exprs? items = some exprs) :
    (Form.list (.atom head :: items)).expr? = Expr.compound? head exprs := by
  rw [Form.expr?, h]
  rfl

/-- Several expressions are shown by their forms, one behind the other, and are read back in this
order. -/
theorem undumps_forms (h : ∀ e ∈ arguments, e.Undumps) :
    Form.AllValid (Expr.forms arguments) ∧
      Form.exprs? (Expr.forms arguments) =
        some (Expr.relocateAll (fun _ => .origin) arguments) := by
  induction arguments with
  | nil => exact ⟨trivial, rfl⟩
  | cons first others ih =>
    obtain ⟨hvalid, hread⟩ := ih fun e he => h e (.tail _ he)
    have hfirst := h first (.head _)
    exact ⟨⟨hfirst.valid, hvalid⟩, exprs?_cons hfirst.read hread⟩

/-- A literal is shown by its text. Its kind tells it from a name and from `this`, which are single
tokens as well. -/
theorem undumps_literal (htoken : token.Scanned) (hkind : token.kind ∈ Grammar.literalKinds) :
    (Expr.literal token).Undumps where
  valid := htoken.isAtom hkind (by decide)
  read := by
    -- Of the tokens that are expressions by themselves a literal is neither `this` nor a name.
    have hleaf : token.bare.leaf = .literal token.bare := by
      unfold Token.leaf
      rw [show token.bare.kind = token.kind from rfl]
      simp only [Grammar.literalKinds, List.mem_cons, List.not_mem_nil, or_false] at hkind
      rcases hkind with h | h | h | h | h <;> rw [h]
    show some (Token.ofText token.lexeme).leaf = _
    rw [← htoken.bare_eq, hleaf]
    rfl

/-- A name reads as the variable of this name. -/
theorem expr?_name (hname : name.Scanned) (hkind : name.kind = .identifier) :
    (nameForm name).expr? = some (.variable name.bare) := by
  have hleaf : name.bare.leaf = .variable name.bare := by
    unfold Token.leaf
    rw [show name.bare.kind = name.kind from rfl, hkind]
  show some (Token.ofText name.lexeme).leaf = _
  rw [← hname.bare_eq, hleaf]

/-- A name is an atom, because an identifier holds word characters only. -/
theorem valid_name (hname : name.Scanned) (hkind : name.kind = .identifier) :
    (nameForm name).Valid :=
  hname.isAtom (List.mem_singleton.mpr hkind) (by decide)

/-- A variable is shown by its name. -/
theorem undumps_variable (hname : name.Scanned) (hkind : name.kind = .identifier) :
    (Expr.variable name).Undumps :=
  ⟨valid_name hname hkind, expr?_name hname hkind⟩

/-- The keyword `this` is shown by itself. No other token has this text, so its kind is known from
it. -/
theorem undumps_this (hkeyword : keyword.Scanned) (hkind : keyword.kind = .kwThis) :
    (Expr.this keyword).Undumps where
  valid := isAtom_headWord (by decide)
  read := by
    have hleaf : keyword.bare.leaf = .this keyword.bare := by
      unfold Token.leaf
      rw [show keyword.bare.kind = keyword.kind from rfl, hkind]
    show some (Token.ofText "this").leaf = _
    rw [← hkeyword.bare_of_spelling? (by rw [hkind]; rfl), hleaf]
    rfl

/-- Parentheses are shown by the word `group`. -/
theorem undumps_grouping (h : expr.Undumps) : (Expr.grouping expr).Undumps where
  valid := ⟨isAtom_headWord (by decide), h.valid, trivial⟩
  read := (expr?_list (exprs?_cons h.read exprs?_nil)).trans rfl

/-- An operator with one operand is shown by its text. -/
theorem undumps_unary (hoperator : operator.Scanned) (hkind : operator.kind ∈ Grammar.unaryKinds)
    (h : expr.Undumps) : (Expr.unary operator expr).Undumps where
  valid := ⟨hoperator.isAtom hkind (by decide), h.valid, trivial⟩
  read := by
    have hcompound : Expr.compound? operator.lexeme [expr.bare] =
        some (.unary (.ofText operator.lexeme) expr.bare) := by
      simp only [Grammar.unaryKinds, List.mem_cons, List.not_mem_nil, or_false] at hkind
      -- Neither of the two operators is a word of the dump.
      rcases hkind with h | h <;> rw [hoperator.lexeme_eq (by rw [h]; rfl)] <;> rfl
    rw [← hoperator.bare_eq] at hcompound
    exact (expr?_list (exprs?_cons h.read exprs?_nil)).trans hcompound

/-- The spellings of the operators between operands, the assignment left out. -/
def operatorWords : List String :=
  ["or", "and", "==", "!=", "+", "-", "*", "/", ">", ">=", "<", "<="]

/-- An operator that heads two parts joins them. -/
theorem compound?_binary (h : head ∈ operatorWords) (left right : Expr) :
    Expr.compound? head [left, right] = some (.binary left (.ofText head) right) := by
  simp only [operatorWords, List.mem_cons, List.not_mem_nil, or_false] at h
  rcases h with rfl | rfl | rfl | rfl | rfl | rfl | rfl | rfl | rfl | rfl | rfl | rfl <;> rfl

/-- What has an operator for its head joins two operands, and what has `=` for its head and a
variable after it assigns to that. -/
theorem undumps_binary (hoperator : operator.Scanned) (hkind : operator.kind ∈ binaryKinds)
    (hassigns : operator.kind = .equal → ∃ name, left = .variable name) (hleft : left.Undumps)
    (hright : right.Undumps) : (Expr.binary left operator right).Undumps where
  valid := ⟨hoperator.isAtom hkind (by decide), hleft.valid, hright.valid, trivial⟩
  read := by
    have hcompound : Expr.compound? operator.lexeme [left.bare, right.bare] =
        some (.binary left.bare (.ofText operator.lexeme) right.bare) := by
      -- The equals sign is also the head for assignments to properties, which assign to something
      -- else.
      by_cases hequal : operator.kind = .equal
      · obtain ⟨name, rfl⟩ := hassigns hequal
        rw [hoperator.lexeme_eq (by rw [hequal]; rfl)]
        rfl
      · have hwords : ∀ kind ∈ binaryKinds, kind ≠ .equal →
            ∃ word ∈ operatorWords, kind.spelling? = some word := by decide
        obtain ⟨word, hword, hspelling⟩ := hwords _ hkind hequal
        rw [hoperator.lexeme_eq hspelling]
        exact compound?_binary hword _ _
    rw [← hoperator.bare_eq] at hcompound
    exact (expr?_list (exprs?_cons hleft.read (exprs?_cons hright.read exprs?_nil))).trans hcompound

/-- A call is shown by its callee and its arguments; the parenthesis is always the same. -/
theorem undumps_call (hparen : paren.Scanned) (hkind : paren.kind = .leftParen)
    (hcallee : expr.Undumps) (harguments : ∀ e ∈ arguments, e.Undumps) :
    (Expr.call expr paren arguments).Undumps where
  valid := ⟨isAtom_headWord (by decide), hcallee.valid, (undumps_forms harguments).1⟩
  read := by
    refine (expr?_list (exprs?_cons hcallee.read (undumps_forms harguments).2)).trans ?_
    show some (Expr.call expr.bare (.ofText "(") _) = _
    rw [← hparen.bare_of_spelling? (by rw [hkind]; rfl)]
    rfl

/-- A property is shown by its object and its name. -/
theorem undumps_get (hname : name.Scanned) (hkind : name.kind = .identifier) (h : expr.Undumps) :
    (Expr.get expr name).Undumps where
  valid := ⟨isAtom_headWord (by decide), h.valid, valid_name hname hkind, trivial⟩
  read := by
    have hparts := exprs?_cons h.read (exprs?_cons (expr?_name hname hkind) exprs?_nil)
    exact (expr?_list hparts).trans rfl

/-- An assignment to a property is shown by the property and the value. -/
theorem undumps_set (hname : name.Scanned) (hkind : name.kind = .identifier) (hleft : left.Undumps)
    (hright : right.Undumps) : (Expr.set left name right).Undumps where
  valid := ⟨isAtom_headWord (by decide), (undumps_get hname hkind hleft).valid, hright.valid,
    trivial⟩
  read := by
    have hparts := exprs?_cons (undumps_get hname hkind hleft).read
      (exprs?_cons hright.read exprs?_nil)
    exact (expr?_list hparts).trans rfl

/-- A method of the superclass is shown by its name. -/
theorem undumps_superGet (hkeyword : keyword.Scanned) (hsuper : keyword.kind = .kwSuper)
    (hmethod : method.Scanned) (hkind : method.kind = .identifier) :
    (Expr.superGet keyword method).Undumps where
  valid := ⟨isAtom_headWord (by decide), valid_name hmethod hkind, trivial⟩
  read := by
    refine (expr?_list (exprs?_cons (expr?_name hmethod hkind) exprs?_nil)).trans ?_
    show some (Expr.superGet (.ofText "super") _) = _
    rw [← hkeyword.bare_of_spelling? (by rw [hsuper]; rfl)]
    rfl

/-- A call of the superclass's constructor is shown by its arguments. -/
theorem undumps_superCall (hkeyword : keyword.Scanned) (hsuper : keyword.kind = .kwSuper)
    (harguments : ∀ e ∈ arguments, e.Undumps) : (Expr.superCall keyword arguments).Undumps where
  valid := ⟨isAtom_headWord (by decide), (undumps_forms harguments).1⟩
  read := by
    refine (expr?_list (undumps_forms harguments).2).trans ?_
    show some (Expr.superCall (.ofText "super") _) = _
    rw [← hkeyword.bare_of_spelling? (by rw [hsuper]; rfl)]
    rfl

end

/-! ## Statements

The same for statements. For each of them the first step is to say what rebuilding it comes to: the
head is at hand, and what is left are the parts. -/

/-- The form of the statement shows what the statement is. -/
structure Stmt.Undumps (stmt : Stmt) : Prop where
  valid : stmt.form.Valid
  read : stmt.form.stmt? = some stmt.shown

/-- The form of the clause shows what the clause is; it is that of `nil` if there is none. -/
structure ClauseUndumps (clause : Option Expr) : Prop where
  valid : (clauseForm clause).Valid
  read : (clauseForm clause).expr? = some ((relocateClause (fun _ => .origin) clause).getD .nil)

section

variable {expr condition : Expr} {value init post : Option Expr} {name keyword : Token}
  {params : List Token} {stmt thenBranch elseBranch : Stmt} {body : List Stmt}
  {methods : List FunctionDecl}

/-- A clause is shown by its form, if the expression in it is. -/
theorem clauseUndumps (h : ∀ expr ∈ value, expr.Undumps) : ClauseUndumps value := by
  cases value with
  | none =>
    -- The atom is read as the literal, as it would be if the literal stood there.
    have hnil : Token.ofText "nil" = ⟨.kwNil, "nil", none, .origin⟩ := by
      have hkind : lexemeKind "nil".toList = .kwNil := lexemeKind_of_lexeme (.spelled rfl)
      rw [Token.ofText, hkind]
      rfl
    refine ⟨isAtom_headWord (by decide), ?_⟩
    show some (Token.ofText "nil").leaf = _
    rw [hnil]
    rfl
  | some expr => exact ⟨(h expr rfl).valid, (h expr rfl).read⟩

/-- Several statements are shown by their forms, with the missing clauses of each of them filled
in. -/
theorem undumps_statements (h : ∀ stmt ∈ body, stmt.Undumps) :
    Form.AllValid (Stmt.forms body) ∧
      Form.stmts? (Stmt.forms body) =
        some (Stmt.filledAll (Stmt.relocateAll (fun _ => .origin) body)) := by
  induction body with
  | nil => exact ⟨trivial, rfl⟩
  | cons first others ih =>
    obtain ⟨hvalid, hread⟩ := ih fun stmt hstmt => h stmt (.tail _ hstmt)
    have hfirst := h first (.head _)
    refine ⟨⟨hfirst.valid, hvalid⟩, ?_⟩
    rw [Stmt.forms, Form.stmts?, hfirst.read, hread]
    rfl

/-- A name is shown by its text. -/
theorem name_nameForm (hname : name.Scanned) : (nameForm name).name = name.bare :=
  hname.bare_eq.symm

/-- An expression statement is shown by its expression. -/
theorem undumps_expression (h : expr.Undumps) : (Stmt.expression expr).Undumps where
  valid := ⟨isAtom_headWord (by decide), h.valid, trivial⟩
  read := by
    show (do some (Stmt.expression (← expr.form.expr?))) = _
    rw [h.read]
    rfl

/-- A `print` is shown by its expression. -/
theorem undumps_print (h : expr.Undumps) : (Stmt.print expr).Undumps where
  valid := ⟨isAtom_headWord (by decide), h.valid, trivial⟩
  read := by
    show (do some (Stmt.print (← expr.form.expr?))) = _
    rw [h.read]
    rfl

/-- A declaration of a variable is shown by its name and the initial value, if there is one. -/
theorem undumps_varDecl (hname : name.Scanned) (hkind : name.kind = .identifier)
    (h : ∀ expr ∈ init, expr.Undumps) : (Stmt.varDecl name init).Undumps := by
  have hvalid := valid_name hname hkind
  cases init with
  | none =>
    refine ⟨⟨isAtom_headWord (by decide), hvalid, trivial⟩, ?_⟩
    show some (Stmt.varDecl (nameForm name).name none) = _
    rw [name_nameForm hname]
    rfl
  | some expr =>
    have hexpr := h expr rfl
    refine ⟨⟨isAtom_headWord (by decide), hvalid, hexpr.valid, trivial⟩, ?_⟩
    show (do some (Stmt.varDecl (nameForm name).name (some (← expr.form.expr?)))) = _
    rw [name_nameForm hname, hexpr.read]
    rfl

/-- A block is shown by its statements. -/
theorem undumps_block (h : ∀ stmt ∈ body, stmt.Undumps) : (Stmt.block body).Undumps where
  valid := ⟨isAtom_headWord (by decide), (undumps_statements h).1⟩
  read := by
    show (do some (Stmt.block (← Form.stmts? (Stmt.forms body)))) = _
    rw [(undumps_statements h).2]
    rfl

/-- An `if` without an `else` has one part less. -/
theorem undumps_ifThen (hcondition : condition.Undumps) (hthen : thenBranch.Undumps) :
    (Stmt.ifElse condition thenBranch none).Undumps where
  valid := ⟨isAtom_headWord (by decide), hcondition.valid, hthen.valid, trivial⟩
  read := by
    show (do some (Stmt.ifElse (← condition.form.expr?) (← thenBranch.form.stmt?) none)) = _
    rw [hcondition.read, hthen.read]
    rfl

/-- An `if` with an `else` is shown by its condition and both branches. -/
theorem undumps_ifElse (hcondition : condition.Undumps) (hthen : thenBranch.Undumps)
    (helse : elseBranch.Undumps) :
    (Stmt.ifElse condition thenBranch (some elseBranch)).Undumps where
  valid := ⟨isAtom_headWord (by decide), hcondition.valid, hthen.valid, helse.valid, trivial⟩
  read := by
    show (do some (Stmt.ifElse (← condition.form.expr?) (← thenBranch.form.stmt?)
      (some (← elseBranch.form.stmt?)))) = _
    rw [hcondition.read, hthen.read, helse.read]
    rfl

/-- A `while` is shown by its condition and its body. -/
theorem undumps_whileLoop (hcondition : condition.Undumps) (hbody : stmt.Undumps) :
    (Stmt.whileLoop condition stmt).Undumps where
  valid := ⟨isAtom_headWord (by decide), hcondition.valid, hbody.valid, trivial⟩
  read := by
    show (do some (Stmt.whileLoop (← condition.form.expr?) (← stmt.form.stmt?))) = _
    rw [hcondition.read, hbody.read]
    rfl

/-- A `for` without an initializer has an atom in its place. -/
theorem undumps_for (hcondition : ClauseUndumps value) (hpost : ClauseUndumps post)
    (hbody : stmt.Undumps) : (Stmt.forLoop none value post stmt).Undumps where
  valid := ⟨isAtom_headWord (by decide), isAtom_headWord (by decide), hcondition.valid,
    hpost.valid, hbody.valid, trivial⟩
  read := by
    show (do some (Stmt.forLoop none (some (← (clauseForm value).expr?))
      (some (← (clauseForm post).expr?)) (← stmt.form.stmt?))) = _
    rw [hcondition.read, hpost.read, hbody.read]
    rfl

theorem undumps_forInit {first : Stmt} (hinit : first.isInitializer = true) (hfirst : first.Undumps)
    (hcondition : ClauseUndumps value) (hpost : ClauseUndumps post) (hbody : stmt.Undumps) :
    (Stmt.forLoop (some first) value post stmt).Undumps where
  valid := ⟨isAtom_headWord (by decide), hfirst.valid, hcondition.valid, hpost.valid, hbody.valid,
    trivial⟩
  read := by
    -- Both kinds of initializers are lists, so that the word for its absence does not come up.
    have hlist : ∃ items, first.form = .list items := by
      cases first with
      | varDecl name init => cases init <;> exact ⟨_, rfl⟩
      | expression expr => exact ⟨_, rfl⟩
      | _ => cases hinit
    obtain ⟨items, hitems⟩ := hlist
    have hread : (Stmt.forLoop (some first) value post stmt).form.stmt? =
        (do some (Stmt.forLoop (some (← first.form.stmt?)) (some (← (clauseForm value).expr?))
          (some (← (clauseForm post).expr?)) (← stmt.form.stmt?))) := by
      rw [Stmt.form, hitems]
      rfl
    rw [hread, hfirst.read, hcondition.read, hpost.read, hbody.read]
    rfl

/-- A `return` is shown by its value, if there is one. -/
theorem undumps_return (hkeyword : keyword.Scanned) (hkind : keyword.kind = .kwReturn)
    (h : ∀ expr ∈ value, expr.Undumps) : (Stmt.returnValue keyword value).Undumps := by
  have hbare : keyword.bare = .ofText "return" := hkeyword.bare_of_spelling? (by rw [hkind]; rfl)
  cases value with
  | none =>
    refine ⟨⟨isAtom_headWord (by decide), trivial⟩, ?_⟩
    show some (Stmt.returnValue (.ofText "return") none) = _
    rw [← hbare]
    rfl
  | some expr =>
    have hexpr := h expr rfl
    refine ⟨⟨isAtom_headWord (by decide), hexpr.valid, trivial⟩, ?_⟩
    show (do some (Stmt.returnValue (.ofText "return") (some (← expr.form.expr?)))) = _
    rw [← hbare, hexpr.read]
    rfl

theorem undumps_parameters (h : ∀ token ∈ params, token.Scanned ∧ token.kind = .identifier) :
    Form.AllValid (params.map nameForm) ∧
      (params.map nameForm).map Form.name = params.map Token.bare := by
  induction params with
  | nil => exact ⟨trivial, rfl⟩
  | cons first others ih =>
    obtain ⟨hvalid, hnames⟩ := ih fun token htoken => h token (.tail _ htoken)
    obtain ⟨hfirst, hkind⟩ := h first (.head _)
    refine ⟨⟨valid_name hfirst hkind, hvalid⟩, ?_⟩
    rw [List.map_cons, List.map_cons, hnames, name_nameForm hfirst, List.map_cons]

/-- A function is shown by its name, its parameters and its body. -/
theorem undumps_function (hname : name.Scanned) (hkind : name.kind = .identifier)
    (hparams : ∀ token ∈ params, token.Scanned ∧ token.kind = .identifier)
    (hbody : ∀ stmt ∈ body, stmt.Undumps) : (Stmt.function ⟨name, params, body⟩).Undumps where
  valid := ⟨isAtom_headWord (by decide), valid_name hname hkind, (undumps_parameters hparams).1,
    (undumps_statements hbody).1⟩
  read := by
    show (do some (Stmt.function ⟨(nameForm name).name, (params.map nameForm).map Form.name,
      ← Form.stmts? (Stmt.forms body)⟩)) = _
    rw [name_nameForm hname, (undumps_parameters hparams).2, (undumps_statements hbody).2]
    rfl

/-- Methods are functions, and are dumped as such. A class reads them back as statements that
declare functions, and keeps these. -/
theorem undumps_methods (h : ∀ decl ∈ methods, (Stmt.function decl).Undumps) :
    Form.AllValid (FunctionDecl.forms methods) ∧
      ∃ statements, Form.stmts? (FunctionDecl.forms methods) = some statements ∧
        statements.filterMap Stmt.function? =
          FunctionDecl.filledAll (FunctionDecl.relocateAll (fun _ => .origin) methods) := by
  induction methods with
  | nil => exact ⟨trivial, [], rfl, rfl⟩
  | cons first others ih =>
    obtain ⟨hvalid, statements, hread, hmethods⟩ := ih fun decl hdecl => h decl (.tail _ hdecl)
    have hfirst := h first (.head _)
    refine ⟨⟨hfirst.valid, hvalid⟩, (Stmt.function first).shown :: statements, ?_, ?_⟩
    · have hform : first.form.stmt? = some (Stmt.function first).shown := hfirst.read
      rw [FunctionDecl.forms, Form.stmts?, hform, hread]
      rfl
    · show _ :: statements.filterMap Stmt.function? = _
      rw [hmethods]
      rfl

/-- A class without a superclass is shown by its name and its methods. -/
theorem undumps_class (hname : name.Scanned) (hkind : name.kind = .identifier)
    (h : ∀ decl ∈ methods, (Stmt.function decl).Undumps) :
    (Stmt.classDecl name none methods).Undumps := by
  obtain ⟨hvalid, statements, hread, hmethods⟩ := undumps_methods h
  refine ⟨⟨isAtom_headWord (by decide), valid_name hname hkind, hvalid⟩, ?_⟩
  -- What comes after the name is a method, and no `<`.
  have hstmt : (Stmt.classDecl name none methods).form.stmt? =
      (do some (Stmt.classDecl (nameForm name).name none
        ((← Form.stmts? (FunctionDecl.forms methods)).filterMap Stmt.function?))) := by
    cases methods with
    | nil => rfl
    | cons first others =>
      cases first
      cases others <;> rfl
  rw [hstmt, hread, name_nameForm hname]
  show some (Stmt.classDecl name.bare none (statements.filterMap Stmt.function?)) = _
  rw [hmethods]
  rfl

/-- A class with a superclass has two more items after its name. -/
theorem undumps_subclass {superclass : Token} (hname : name.Scanned)
    (hkind : name.kind = .identifier) (hsuperclass : superclass.Scanned)
    (hsuperkind : superclass.kind = .identifier)
    (h : ∀ decl ∈ methods, (Stmt.function decl).Undumps) :
    (Stmt.classDecl name (some superclass) methods).Undumps := by
  obtain ⟨hvalid, statements, hread, hmethods⟩ := undumps_methods h
  refine ⟨⟨isAtom_headWord (by decide), valid_name hname hkind, isAtom_headWord (by decide),
    valid_name hsuperclass hsuperkind, hvalid⟩, ?_⟩
  show (do some (Stmt.classDecl (nameForm name).name (some (nameForm superclass).name)
    ((← Form.stmts? (FunctionDecl.forms methods)).filterMap Stmt.function?))) = _
  rw [hread, name_nameForm hname, name_nameForm hsuperclass]
  show some (Stmt.classDecl name.bare (some superclass.bare)
    (statements.filterMap Stmt.function?)) = _
  rw [hmethods]
  rfl

end

end Script
