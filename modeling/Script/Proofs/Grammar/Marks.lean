import Script.Syntax.Tree

/-!
# Trees written out as tokens

A tree keeps some of the tokens that it was read from and forgets the others, which the grammar
prescribes. Its *marks* are one entry for each token of its text, in order: the token itself where
the tree keeps it, and the kind of token where the grammar leaves no choice.

`Spells marks tokens rest` says that a row of tokens begins with a text that has these marks, and
that `rest` comes after it. Being stated over what is left of the input, it composes along the
parser (`spells_append`). An end-of-file token belongs to no text.
-/

namespace Script

/-- What a tree tells about one token of its text. -/
inductive Mark where
  /-- The tree keeps this token. -/
  | held (token : Token)
  /-- The grammar prescribes a token of this kind. -/
  | fixed (kind : TokenKind)

/-- The token is the one that the mark tells about. -/
def Mark.Fits : Mark → Token → Prop
  | .held kept, token => kept = token
  | .fixed kind, token => token.kind = kind

/-- The kind of the token that a mark tells about. -/
def Mark.kind : Mark → TokenKind
  | .held token => token.kind
  | .fixed kind => kind

/-- Whatever a mark tells about a token, it tells its kind. -/
theorem Mark.Fits.kind_eq {mark : Mark} {token : Token} (h : mark.Fits token) :
    token.kind = mark.kind := by
  cases mark with
  | held kept => rw [← show kept = token from h]; rfl
  | fixed kind => exact h

/-! ## The marks of expressions

Parentheses and commas are not kept, and neither is the dot before a property. -/

mutual

/-- The marks of an expression, from left to right: the tokens that the tree holds, and between them
the kinds of those that it does not. -/
def Expr.marks : Expr → List Mark
  | .literal token => [.held token]
  | .variable name => [.held name]
  | .grouping inner => .fixed .leftParen :: (inner.marks ++ [.fixed .rightParen])
  | .unary operator operand => .held operator :: operand.marks
  | .binary left operator right => left.marks ++ .held operator :: right.marks
  | .call callee paren arguments =>
    callee.marks ++ .held paren :: Expr.argumentMarks arguments
  | .get object name => object.marks ++ [.fixed .dot, .held name]
  | .set object name value =>
    object.marks ++ .fixed .dot :: .held name :: .fixed .equal :: value.marks
  | .this keyword => [.held keyword]
  | .superGet keyword method => [.held keyword, .fixed .dot, .held method]
  | .superCall keyword arguments =>
    .held keyword :: .fixed .leftParen :: Expr.argumentMarks arguments

/-- The marks of an argument list after its opening parenthesis. -/
def Expr.argumentMarks : List Expr → List Mark
  | [] => [.fixed .rightParen]
  | first :: others => first.marks ++ Expr.moreArgumentMarks others

/-- The marks of the arguments after the first, each with the comma before it. -/
def Expr.moreArgumentMarks : List Expr → List Mark
  | [] => [.fixed .rightParen]
  | next :: others => .fixed .comma :: (next.marks ++ Expr.moreArgumentMarks others)

end

/-- The marks of an expression that may be missing. -/
def clauseMarks : Option Expr → List Mark
  | none => []
  | some expr => expr.marks

/-- The marks of an initial value with its equals sign, unless there is none. -/
def initialValueMarks : Option Expr → List Mark
  | none => []
  | some expr => .fixed .equal :: expr.marks

/-! ## The marks of statements

The keyword of a `return` is the only one that is kept, since errors are reported at it. -/

/-- The marks of the parameters after the first, each with the comma before it. -/
def moreParameterMarks : List Token → List Mark
  | [] => [.fixed .rightParen]
  | next :: others => .fixed .comma :: .held next :: moreParameterMarks others

/-- The marks of a parameter list after its opening parenthesis. -/
def parameterMarks : List Token → List Mark
  | [] => [.fixed .rightParen]
  | first :: others => .held first :: moreParameterMarks others

/-- The marks of a superclass with the sign before it, unless there is none. -/
def superclassMarks : Option Token → List Mark
  | none => []
  | some name => [.fixed .less, .held name]

mutual

/-- The marks of a statement, from left to right. -/
def Stmt.marks : Stmt → List Mark
  | .expression expr => expr.marks ++ [.fixed .semicolon]
  | .print expr => .fixed .kwPrint :: (expr.marks ++ [.fixed .semicolon])
  | .varDecl name init =>
    .fixed .kwVar :: .held name :: (initialValueMarks init ++ [.fixed .semicolon])
  | .block body => .fixed .leftBrace :: (Stmt.marksOfAll body ++ [.fixed .rightBrace])
  | .ifElse condition thenBranch none =>
    .fixed .kwIf :: .fixed .leftParen :: (condition.marks ++ .fixed .rightParen :: thenBranch.marks)
  | .ifElse condition thenBranch (some elseBranch) =>
    .fixed .kwIf :: .fixed .leftParen ::
      (condition.marks ++ .fixed .rightParen ::
        (thenBranch.marks ++ .fixed .kwElse :: elseBranch.marks))
  | .whileLoop condition body =>
    .fixed .kwWhile :: .fixed .leftParen :: (condition.marks ++ .fixed .rightParen :: body.marks)
  | .forLoop none condition post body =>
    .fixed .kwFor :: .fixed .leftParen :: .fixed .semicolon ::
      (clauseMarks condition ++ .fixed .semicolon ::
        (clauseMarks post ++ .fixed .rightParen :: body.marks))
  | .forLoop (some init) condition post body =>
    .fixed .kwFor :: .fixed .leftParen ::
      (init.marks ++ (clauseMarks condition ++ .fixed .semicolon ::
        (clauseMarks post ++ .fixed .rightParen :: body.marks)))
  | .function decl => decl.marks
  | .returnValue keyword value => .held keyword :: (clauseMarks value ++ [.fixed .semicolon])
  | .classDecl name superclass methods =>
    .fixed .kwClass :: .held name :: (superclassMarks superclass ++ .fixed .leftBrace ::
      (FunctionDecl.marksOfAll methods ++ [.fixed .rightBrace]))

/-- The marks of statements, one after the other. -/
def Stmt.marksOfAll : List Stmt → List Mark
  | [] => []
  | stmt :: rest => stmt.marks ++ Stmt.marksOfAll rest

/-- The marks of a function or a method. -/
def FunctionDecl.marks : FunctionDecl → List Mark
  | ⟨name, params, body⟩ =>
    .fixed .kwFun :: .held name :: .fixed .leftParen ::
      (parameterMarks params ++ .fixed .leftBrace :: (Stmt.marksOfAll body ++ [.fixed .rightBrace]))

/-- The marks of methods, one after the other. -/
def FunctionDecl.marksOfAll : List FunctionDecl → List Mark
  | [] => []
  | decl :: rest => decl.marks ++ FunctionDecl.marksOfAll rest

end

/-- The marks of what stands before the condition of a `for`. -/
def initializerMarks : Option Stmt → List Mark
  | none => [.fixed .semicolon]
  | some init => init.marks

/-- The marks of an `else` and its branch, unless there is none. -/
def elseMarks : Option Stmt → List Mark
  | none => []
  | some elseBranch => .fixed .kwElse :: elseBranch.marks

/-- The marks of an `if`, with or without an `else`. -/
theorem marks_ifElse (condition : Expr) (thenBranch : Stmt) (elseBranch : Option Stmt) :
    (Stmt.ifElse condition thenBranch elseBranch).marks =
      .fixed .kwIf :: .fixed .leftParen ::
        (condition.marks ++ .fixed .rightParen :: (thenBranch.marks ++ elseMarks elseBranch)) := by
  cases elseBranch <;> simp [Stmt.marks, elseMarks]

/-- The marks of a `for`, with or without an initialiser. The semicolon after it belongs to it. -/
theorem marks_forLoop (init : Option Stmt) (condition post : Option Expr) (body : Stmt) :
    (Stmt.forLoop init condition post body).marks =
      .fixed .kwFor :: .fixed .leftParen ::
        (initializerMarks init ++ (clauseMarks condition ++ .fixed .semicolon ::
          (clauseMarks post ++ .fixed .rightParen :: body.marks))) := by
  cases init <;> rfl

/-! ## Spelling

A row of tokens is compared with marks one by one, up to where these end. -/

/-- The row `tokens` begins with a text that has these marks, and `rest` comes after it. -/
def Spells : List Mark → List Token → List Token → Prop
  | [], tokens, rest => tokens = rest
  | mark :: marks, tokens, rest =>
    ∃ token others, tokens = token :: others ∧ mark.Fits token ∧ token.kind ≠ .endOfFile ∧
      Spells marks others rest

@[simp] theorem spells_nil {tokens rest : List Token} : Spells [] tokens rest ↔ tokens = rest :=
  Iff.rfl

/-- A text of two parts is the text of the first part followed by that of the second. -/
theorem spells_append {a b : List Mark} {tokens rest : List Token} :
    Spells (a ++ b) tokens rest ↔ ∃ middle, Spells a tokens middle ∧ Spells b middle rest := by
  induction a generalizing tokens with
  | nil => simp
  | cons mark a ih =>
    constructor
    · rintro ⟨token, others, rfl, hfits, hkind, h⟩
      obtain ⟨middle, ha, hb⟩ := ih.mp h
      exact ⟨middle, ⟨token, others, rfl, hfits, hkind, ha⟩, hb⟩
    · rintro ⟨middle, ⟨token, others, rfl, hfits, hkind, ha⟩, hb⟩
      exact ⟨token, others, rfl, hfits, hkind, ih.mpr ⟨middle, ha, hb⟩⟩

/-- Two texts in a row are one text. -/
theorem Spells.append {a b : List Mark} {tokens middle rest : List Token}
    (ha : Spells a tokens middle) (hb : Spells b middle rest) : Spells (a ++ b) tokens rest :=
  spells_append.mpr ⟨middle, ha, hb⟩

theorem Spells.single {mark : Mark} {token : Token} {rest : List Token} (hfits : mark.Fits token)
    (hkind : token.kind ≠ .endOfFile) : Spells [mark] (token :: rest) rest :=
  ⟨token, rest, rfl, hfits, hkind, rfl⟩

end Script
