import Script.Program

/-!
# Programs under other names

Two things can change in a program without changing how it is built: the places of its tokens, and
the texts of those that are names. A *recast* changes both. In a tree the names are known by where
they stand (`Token.rename`), in a row of tokens by their kind (`Token.recast`).
-/

namespace Script

/-- Other texts for names, and other places for all tokens. -/
structure Recast where
  name : String → String
  move : Span → Span

/-- One recast after another one, in names and in places. -/
def Recast.andThen (r r' : Recast) : Recast := ⟨r'.name ∘ r.name, r'.move ∘ r.move⟩

/-! ## Tokens

In a row there is no telling what an identifier will be, so all of them are names. In a tree only
identifiers stand where a name does, and the two ways to change a token agree. -/

/-- The token at another place. `move` is applied to the whole span. -/
def Token.relocate (move : Span → Span) (token : Token) : Token :=
  { token with span := move token.span }

section

variable (move : Span → Span)

/-- A token keeps its kind at another place. -/
@[simp] theorem Token.relocate_kind (token : Token) : (token.relocate move).kind = token.kind := rfl

/-- A token keeps its text at another place. -/
@[simp] theorem Token.relocate_lexeme (token : Token) :
    (token.relocate move).lexeme = token.lexeme := rfl

/-- A token that is moved stands where it was moved to. -/
@[simp] theorem Token.relocate_span (token : Token) :
    (token.relocate move).span = move token.span := rfl

/-- A token that keeps its place is the same. -/
@[simp] theorem Token.relocate_id (token : Token) : token.relocate id = token := rfl

end

variable (r : Recast)

/-- The token as a name: with another text, at another place. -/
def Token.rename (token : Token) : Token :=
  { token with lexeme := r.name token.lexeme, span := r.move token.span }

/-- The token in a row: identifiers are names, and other tokens keep their texts. -/
def Token.recast (token : Token) : Token :=
  if token.kind = .identifier then token.rename r else token.relocate r.move

/-- A token that is renamed is moved as well. -/
@[simp] theorem Token.rename_span (token : Token) :
    (token.rename r).span = r.move token.span := rfl

/-- An identifier in a row is a name. -/
theorem Token.recast_of_identifier {token : Token} (h : token.kind = .identifier) :
    token.recast r = token.rename r := if_pos h

/-- Any other token in a row keeps its text. -/
theorem Token.recast_of_ne {token : Token} (h : token.kind ≠ .identifier) :
    token.recast r = token.relocate r.move := if_neg h

/-- A token keeps its kind under another name. -/
@[simp] theorem Token.recast_kind (token : Token) : (token.recast r).kind = token.kind := by
  unfold Token.recast
  split <;> rfl

/-- A token that is recast stands where it was moved to. -/
@[simp] theorem Token.recast_span (token : Token) :
    (token.recast r).span = r.move token.span := by
  unfold Token.recast
  split <;> rfl

/-- Without new names a recast is a move. -/
theorem Token.recast_move (move : Span → Span) (token : Token) :
    token.recast ⟨id, move⟩ = token.relocate move := by
  unfold Token.recast
  split <;> rfl

/-! ## Trees -/

mutual

/-- The expression with other names, at another place. -/
def Expr.recast : Expr → Expr
  | .literal token => .literal (token.relocate r.move)
  | .variable name => .variable (name.rename r)
  | .grouping inner => .grouping inner.recast
  | .unary operator operand => .unary (operator.relocate r.move) operand.recast
  | .binary left operator right =>
    .binary left.recast (operator.relocate r.move) right.recast
  | .call callee paren arguments =>
    .call callee.recast (paren.relocate r.move) (Expr.recastAll arguments)
  | .get object name => .get object.recast (name.rename r)
  | .set object name value => .set object.recast (name.rename r) value.recast
  | .this keyword => .this (keyword.relocate r.move)
  | .superGet keyword method => .superGet (keyword.relocate r.move) (method.rename r)
  | .superCall keyword arguments =>
    .superCall (keyword.relocate r.move) (Expr.recastAll arguments)

/-- The expressions with other names, at other places. -/
def Expr.recastAll : List Expr → List Expr
  | [] => []
  | expr :: rest => expr.recast :: Expr.recastAll rest

end

/-- The clause with other names, if it is there. -/
def recastClause : Option Expr → Option Expr
  | none => none
  | some expr => some (expr.recast r)

mutual

/-- The statement with other names, at another place. -/
def Stmt.recast : Stmt → Stmt
  | .expression expr => .expression (expr.recast r)
  | .print expr => .print (expr.recast r)
  | .varDecl name init => .varDecl (name.rename r) (recastClause r init)
  | .block body => .block (Stmt.recastAll body)
  | .ifElse condition thenBranch none => .ifElse (condition.recast r) thenBranch.recast none
  | .ifElse condition thenBranch (some elseBranch) =>
    .ifElse (condition.recast r) thenBranch.recast (some elseBranch.recast)
  | .whileLoop condition body => .whileLoop (condition.recast r) body.recast
  | .forLoop none condition post body =>
    .forLoop none (recastClause r condition) (recastClause r post) body.recast
  | .forLoop (some init) condition post body =>
    .forLoop (some init.recast) (recastClause r condition) (recastClause r post) body.recast
  | .function decl => .function decl.recast
  | .returnValue keyword value =>
    .returnValue (keyword.relocate r.move) (recastClause r value)
  | .classDecl name superclass methods =>
    .classDecl (name.rename r) (superclass.map (Token.rename r)) (FunctionDecl.recastAll methods)

/-- The statements with other names, at other places. -/
def Stmt.recastAll : List Stmt → List Stmt
  | [] => []
  | stmt :: rest => stmt.recast :: Stmt.recastAll rest

/-- The function with other names, at another place. -/
def FunctionDecl.recast : FunctionDecl → FunctionDecl
  | ⟨name, params, body⟩ =>
    ⟨name.rename r, params.map (Token.rename r), Stmt.recastAll body⟩

/-- The functions with other names, at other places. -/
def FunctionDecl.recastAll : List FunctionDecl → List FunctionDecl
  | [] => []
  | decl :: rest => decl.recast :: FunctionDecl.recastAll rest

end

/-- Expressions are recast one by one, so that lengths and orders of rows stay. -/
theorem Expr.recastAll_eq (es : List Expr) : Expr.recastAll r es = es.map (Expr.recast r) := by
  induction es with
  | nil => rfl
  | cons e es ih => rw [Expr.recastAll, ih, List.map_cons]

/-- An `if` is recast with its branches, whether or not there is an `else`. -/
theorem Stmt.recast_ifElse (condition : Expr) (thenBranch : Stmt) (elseBranch : Option Stmt) :
    (Stmt.ifElse condition thenBranch elseBranch).recast r =
      .ifElse (condition.recast r) (thenBranch.recast r) (elseBranch.map (Stmt.recast r)) := by
  cases elseBranch <;> rfl

/-- A function is recast with its name, its parameters and its body. -/
theorem FunctionDecl.recast_eq (decl : FunctionDecl) :
    decl.recast r = ⟨decl.name.rename r, decl.params.map (Token.rename r),
      Stmt.recastAll r decl.body⟩ := by
  cases decl with
  | mk name params body => rw [FunctionDecl.recast]

/-! ## Twice

Two recasts in a row are one, with the names and the places put together. -/

section

variable (r' : Recast)

mutual

/-- Of two recasts of an expression the second one sees what the first one made. -/
theorem Expr.recast_recast : ∀ e : Expr, (e.recast r).recast r' = e.recast (r.andThen r')
  | .literal _ | .variable _ | .this _ | .superGet _ _ => rfl
  | .grouping inner => by simp only [Expr.recast, Expr.recast_recast inner]
  | .unary _ inner | .get inner _ => by
    simp only [Expr.recast, Expr.recast_recast inner]
    rfl
  | .binary left _ right | .set left _ right => by
    simp only [Expr.recast, Expr.recast_recast left, Expr.recast_recast right]
    rfl
  | .call callee _ arguments => by
    simp only [Expr.recast, Expr.recast_recast callee, Expr.recastAll_recastAll arguments]
    rfl
  | .superCall _ arguments => by
    simp only [Expr.recast, Expr.recastAll_recastAll arguments]
    rfl

theorem Expr.recastAll_recastAll : ∀ es : List Expr,
    Expr.recastAll r' (Expr.recastAll r es) = Expr.recastAll (r.andThen r') es
  | [] => rfl
  | e :: es => by
    simp only [Expr.recastAll, Expr.recast_recast e, Expr.recastAll_recastAll es]

end

theorem recastClause_recastClause (clause : Option Expr) :
    recastClause r' (recastClause r clause) = recastClause (r.andThen r') clause := by
  cases clause with
  | none => rfl
  | some e => exact congrArg some (e.recast_recast r r')

mutual

/-- Of two recasts of a statement the second one sees what the first one made, so that they make up
one. The proof goes through the constructors as the definition does, with the absent `else` and the
absent initializer apart. -/
theorem Stmt.recast_recast : ∀ stmt : Stmt,
    (stmt.recast r).recast r' = stmt.recast (r.andThen r')
  | .expression expr | .print expr => by simp only [Stmt.recast, expr.recast_recast r r']
  | .varDecl _ clause | .returnValue _ clause => by
    simp only [Stmt.recast, recastClause_recastClause]
    rfl
  | .block body => by simp only [Stmt.recast, Stmt.recastAll_recastAll body]
  | .ifElse condition thenBranch none => by
    simp only [Stmt.recast, condition.recast_recast r r', Stmt.recast_recast thenBranch]
  | .ifElse condition thenBranch (some elseBranch) => by
    simp only [Stmt.recast, condition.recast_recast r r', Stmt.recast_recast thenBranch,
      Stmt.recast_recast elseBranch]
  | .whileLoop condition body => by
    simp only [Stmt.recast, condition.recast_recast r r', Stmt.recast_recast body]
  | .forLoop none condition post body => by
    simp only [Stmt.recast, recastClause_recastClause, Stmt.recast_recast body]
  | .forLoop (some init) condition post body => by
    simp only [Stmt.recast, recastClause_recastClause, Stmt.recast_recast init,
      Stmt.recast_recast body]
  | .function decl => by simp only [Stmt.recast, FunctionDecl.recast_recast decl]
  | .classDecl _ superclass methods => by
    simp only [Stmt.recast, FunctionDecl.recastAll_recastAll methods, Option.map_map]
    rfl

theorem Stmt.recastAll_recastAll : ∀ statements : List Stmt,
    Stmt.recastAll r' (Stmt.recastAll r statements) = Stmt.recastAll (r.andThen r') statements
  | [] => rfl
  | stmt :: statements => by
    simp only [Stmt.recastAll, Stmt.recast_recast stmt, Stmt.recastAll_recastAll statements]

theorem FunctionDecl.recast_recast : ∀ decl : FunctionDecl,
    (decl.recast r).recast r' = decl.recast (r.andThen r')
  | ⟨_, params, body⟩ => by
    simp only [FunctionDecl.recast, Stmt.recastAll_recastAll body, List.map_map]
    rfl

theorem FunctionDecl.recastAll_recastAll : ∀ decls : List FunctionDecl,
    FunctionDecl.recastAll r' (FunctionDecl.recastAll r decls) =
      FunctionDecl.recastAll (r.andThen r') decls
  | [] => rfl
  | decl :: decls => by
    simp only [FunctionDecl.recastAll, FunctionDecl.recast_recast decl,
      FunctionDecl.recastAll_recastAll decls]

end

end

/-! ## Limits

A limit is a matter of how many arguments or parameters there are. Its excess is reported at the
place of one token, which moves. -/

/-- The excess of a limit at another place. -/
def relocateLimitError (move : Span → Span) (error : LimitError × Span) : LimitError × Span :=
  (error.1, move error.2)

section

/-- Too many arguments are reported at the place they were moved to. -/
theorem argumentErrors_move (move : Span → Span) (count : Nat) (span : Span) :
    argumentErrors count (move span) =
      (argumentErrors count span).map (relocateLimitError move) := by
  unfold argumentErrors
  split <;> rfl

/-- Too many parameters are reported at the place they were moved to. -/
theorem parameterErrors_move (move : Span → Span) (count : Nat) (span : Span) :
    parameterErrors count (move span) =
      (parameterErrors count span).map (relocateLimitError move) := by
  unfold parameterErrors
  split <;> rfl

mutual

/-- The limits that an expression exceeds move with it. A recast changes neither the number of
arguments nor their order, and the token at which too many are reported moves like all others. -/
theorem Expr.limitErrors_recast : ∀ e : Expr,
    (e.recast r).limitErrors = e.limitErrors.map (relocateLimitError r.move)
  | .literal _ | .variable _ | .this _ | .superGet _ _ => rfl
  | .grouping inner => Expr.limitErrors_recast inner
  | .unary _ operand => Expr.limitErrors_recast operand
  | .get object _ => Expr.limitErrors_recast object
  | .binary left _ right => by
    simp only [Expr.recast, Expr.limitErrors, Expr.limitErrors_recast left,
      Expr.limitErrors_recast right, List.map_append]
  | .set object _ value => by
    simp only [Expr.recast, Expr.limitErrors, Expr.limitErrors_recast object,
      Expr.limitErrors_recast value, List.map_append]
  | .call callee paren arguments => by
    simp only [Expr.recast, Expr.limitErrors, Expr.limitErrors_recast callee,
      Expr.limitErrors_recastAll arguments, Token.relocate_span, argumentErrors_move,
      Expr.recastAll_eq, List.length_map, List.map_append]
  | .superCall keyword arguments => by
    simp only [Expr.recast, Expr.limitErrors, Expr.limitErrors_recastAll arguments,
      Token.relocate_span, argumentErrors_move, Expr.recastAll_eq, List.length_map,
      List.map_append]

/-- The limits that several expressions exceed move with them. -/
theorem Expr.limitErrors_recastAll : ∀ es : List Expr,
    Expr.limitErrorsOfAll (es.map (Expr.recast r)) =
      (Expr.limitErrorsOfAll es).map (relocateLimitError r.move)
  | [] => rfl
  | e :: es => by
    simp only [List.map_cons, Expr.limitErrorsOfAll, Expr.limitErrors_recast e,
      Expr.limitErrors_recastAll es, List.map_append]

end

/-- The limits that a clause exceeds move with it. -/
theorem clauseLimitErrors_recast (clause : Option Expr) :
    clauseLimitErrors (recastClause r clause) =
      (clauseLimitErrors clause).map (relocateLimitError r.move) := by
  cases clause with
  | none => rfl
  | some e => exact e.limitErrors_recast r

mutual

/-- The limits that a statement exceeds move with it: those of its parts do, and they are listed in
the same order. -/
theorem Stmt.limitErrors_recast : ∀ stmt : Stmt,
    (stmt.recast r).limitErrors = stmt.limitErrors.map (relocateLimitError r.move)
  | .expression expr | .print expr => expr.limitErrors_recast r
  | .varDecl _ init => clauseLimitErrors_recast r init
  | .block body => Stmt.limitErrors_recastAll body
  | .ifElse condition thenBranch none => by
    simp only [Stmt.recast, Stmt.limitErrors, condition.limitErrors_recast r,
      Stmt.limitErrors_recast thenBranch, List.map_append]
  | .ifElse condition thenBranch (some elseBranch) => by
    simp only [Stmt.recast, Stmt.limitErrors, condition.limitErrors_recast r,
      Stmt.limitErrors_recast thenBranch, Stmt.limitErrors_recast elseBranch, List.map_append]
  | .whileLoop condition body => by
    simp only [Stmt.recast, Stmt.limitErrors, condition.limitErrors_recast r,
      Stmt.limitErrors_recast body, List.map_append]
  | .forLoop none condition post body => by
    simp only [Stmt.recast, Stmt.limitErrors, clauseLimitErrors_recast r,
      Stmt.limitErrors_recast body, List.map_append]
  | .forLoop (some init) condition post body => by
    simp only [Stmt.recast, Stmt.limitErrors, clauseLimitErrors_recast r,
      Stmt.limitErrors_recast init, Stmt.limitErrors_recast body, List.map_append]
  | .function decl => FunctionDecl.limitErrors_recast decl
  | .returnValue _ value => clauseLimitErrors_recast r value
  | .classDecl _ _ methods => FunctionDecl.limitErrors_recastAll methods

/-- The limits that several statements exceed move with them. -/
theorem Stmt.limitErrors_recastAll : ∀ statements : List Stmt,
    Stmt.limitErrorsOfAll (Stmt.recastAll r statements) =
      (Stmt.limitErrorsOfAll statements).map (relocateLimitError r.move)
  | [] => rfl
  | stmt :: statements => by
    simp only [Stmt.recastAll, Stmt.limitErrorsOfAll, Stmt.limitErrors_recast stmt,
      Stmt.limitErrors_recastAll statements, List.map_append]

/-- The limits that a function exceeds move with it. -/
theorem FunctionDecl.limitErrors_recast : ∀ decl : FunctionDecl,
    (decl.recast r).limitErrors = decl.limitErrors.map (relocateLimitError r.move)
  | ⟨name, params, body⟩ => by
    simp only [FunctionDecl.recast, FunctionDecl.limitErrors, Token.rename_span,
      parameterErrors_move, Stmt.limitErrors_recastAll body, List.length_map, List.map_append]

/-- The limits that several functions exceed move with them. -/
theorem FunctionDecl.limitErrors_recastAll : ∀ decls : List FunctionDecl,
    FunctionDecl.limitErrorsOfAll (FunctionDecl.recastAll r decls) =
      (FunctionDecl.limitErrorsOfAll decls).map (relocateLimitError r.move)
  | [] => rfl
  | decl :: decls => by
    simp only [FunctionDecl.recastAll, FunctionDecl.limitErrorsOfAll,
      FunctionDecl.limitErrors_recast decl, FunctionDecl.limitErrors_recastAll decls,
      List.map_append]

end

end

end Script
