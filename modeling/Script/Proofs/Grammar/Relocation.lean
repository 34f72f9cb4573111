import Script.Proofs.Grammar.Recasting

/-!
# Programs at other places

What a program means does not depend on where it stands in a source. `relocate` gives every token
of a tree, and every error, another place and leaves everything else as it is. Moving a text up by
some bytes is one case of it (`Span.shift`); forgetting all places is another.
-/

namespace Script

/-- The span moved up by `n` bytes. -/
def Span.shift (n : Nat) (span : Span) : Span := ⟨span.start + n, span.stop + n⟩

/-! ## Trees -/

section

variable (move : Span → Span)

mutual

/-- The expression at another place, with `move` applied to each of its tokens. -/
def Expr.relocate : Expr → Expr
  | .literal token => .literal (token.relocate move)
  | .variable name => .variable (name.relocate move)
  | .grouping inner => .grouping inner.relocate
  | .unary operator operand => .unary (operator.relocate move) operand.relocate
  | .binary left operator right =>
    .binary left.relocate (operator.relocate move) right.relocate
  | .call callee paren arguments =>
    .call callee.relocate (paren.relocate move) (Expr.relocateAll arguments)
  | .get object name => .get object.relocate (name.relocate move)
  | .set object name value => .set object.relocate (name.relocate move) value.relocate
  | .this keyword => .this (keyword.relocate move)
  | .superGet keyword method => .superGet (keyword.relocate move) (method.relocate move)
  | .superCall keyword arguments =>
    .superCall (keyword.relocate move) (Expr.relocateAll arguments)

def Expr.relocateAll : List Expr → List Expr
  | [] => []
  | expr :: rest => expr.relocate :: Expr.relocateAll rest

end

/-- The clause at another place, if it is there. -/
def relocateClause : Option Expr → Option Expr
  | none => none
  | some expr => some (expr.relocate move)

mutual

/-- The statement at another place, with `move` applied to each of its tokens. -/
def Stmt.relocate : Stmt → Stmt
  | .expression expr => .expression (expr.relocate move)
  | .print expr => .print (expr.relocate move)
  | .varDecl name init => .varDecl (name.relocate move) (relocateClause move init)
  | .block body => .block (Stmt.relocateAll body)
  | .ifElse condition thenBranch none =>
    .ifElse (condition.relocate move) thenBranch.relocate none
  | .ifElse condition thenBranch (some elseBranch) =>
    .ifElse (condition.relocate move) thenBranch.relocate (some elseBranch.relocate)
  | .whileLoop condition body => .whileLoop (condition.relocate move) body.relocate
  | .forLoop none condition post body =>
    .forLoop none (relocateClause move condition) (relocateClause move post) body.relocate
  | .forLoop (some init) condition post body =>
    .forLoop (some init.relocate) (relocateClause move condition) (relocateClause move post)
      body.relocate
  | .function decl => .function decl.relocate
  | .returnValue keyword value =>
    .returnValue (keyword.relocate move) (relocateClause move value)
  | .classDecl name superclass methods =>
    .classDecl (name.relocate move) (superclass.map (Token.relocate move))
      (FunctionDecl.relocateAll methods)

def Stmt.relocateAll : List Stmt → List Stmt
  | [] => []
  | stmt :: rest => stmt.relocate :: Stmt.relocateAll rest

/-- The function at another place: its name, its parameters and its body. -/
def FunctionDecl.relocate : FunctionDecl → FunctionDecl
  | ⟨name, params, body⟩ =>
    ⟨name.relocate move, params.map (Token.relocate move), Stmt.relocateAll body⟩

def FunctionDecl.relocateAll : List FunctionDecl → List FunctionDecl
  | [] => []
  | decl :: rest => decl.relocate :: FunctionDecl.relocateAll rest

end

/-- Statements are moved one by one, so that lengths and orders of rows stay. -/
theorem Stmt.relocateAll_eq (statements : List Stmt) :
    Stmt.relocateAll move statements = statements.map (Stmt.relocate move) := by
  induction statements with
  | nil => rfl
  | cons stmt statements ih => rw [Stmt.relocateAll, ih, List.map_cons]

/-! ## Moving and recasting

What is shown of recasts holds of moves, once a move is known to be a recast. This is an equation
for each kind of tree. -/

mutual

/-- A move is a recast that leaves the names as they are. -/
theorem Expr.recast_move : ∀ e : Expr, e.recast ⟨id, move⟩ = e.relocate move
  | .literal _ | .variable _ | .this _ | .superGet _ _ => rfl
  | .grouping inner | .unary _ inner => by
    simp only [Expr.recast, Expr.relocate, Expr.recast_move inner]
  | .get inner _ => by
    simp only [Expr.recast, Expr.relocate, Expr.recast_move inner]
    rfl
  | .binary left _ right => by
    simp only [Expr.recast, Expr.relocate, Expr.recast_move left, Expr.recast_move right]
  | .set left _ right => by
    simp only [Expr.recast, Expr.relocate, Expr.recast_move left, Expr.recast_move right]
    rfl
  | .call callee _ arguments => by
    simp only [Expr.recast, Expr.relocate, Expr.recast_move callee, Expr.recastAll_move arguments]
  | .superCall _ arguments => by
    simp only [Expr.recast, Expr.relocate, Expr.recastAll_move arguments]

theorem Expr.recastAll_move : ∀ es : List Expr,
    Expr.recastAll ⟨id, move⟩ es = Expr.relocateAll move es
  | [] => rfl
  | e :: es => by
    simp only [Expr.recastAll, Expr.relocateAll, Expr.recast_move e, Expr.recastAll_move es]

end

theorem recastClause_move (clause : Option Expr) :
    recastClause ⟨id, move⟩ clause = relocateClause move clause := by
  cases clause with
  | none => rfl
  | some e => exact congrArg some (e.recast_move move)

mutual

/-- A move is a recast that leaves the names as they are. What has been shown of recasts is thereby
shown of moves. -/
theorem Stmt.recast_move : ∀ stmt : Stmt, stmt.recast ⟨id, move⟩ = stmt.relocate move
  | .expression expr | .print expr => by
    simp only [Stmt.recast, Stmt.relocate, expr.recast_move move]
  | .varDecl _ clause => by
    simp only [Stmt.recast, Stmt.relocate, recastClause_move]
    rfl
  | .returnValue _ clause => by simp only [Stmt.recast, Stmt.relocate, recastClause_move]
  | .block body => by simp only [Stmt.recast, Stmt.relocate, Stmt.recastAll_move body]
  | .ifElse condition thenBranch none => by
    simp only [Stmt.recast, Stmt.relocate, condition.recast_move move,
      Stmt.recast_move thenBranch]
  | .ifElse condition thenBranch (some elseBranch) => by
    simp only [Stmt.recast, Stmt.relocate, condition.recast_move move,
      Stmt.recast_move thenBranch, Stmt.recast_move elseBranch]
  | .whileLoop condition body => by
    simp only [Stmt.recast, Stmt.relocate, condition.recast_move move, Stmt.recast_move body]
  | .forLoop none condition post body => by
    simp only [Stmt.recast, Stmt.relocate, recastClause_move, Stmt.recast_move body]
  | .forLoop (some init) condition post body => by
    simp only [Stmt.recast, Stmt.relocate, recastClause_move, Stmt.recast_move init,
      Stmt.recast_move body]
  | .function decl => by simp only [Stmt.recast, Stmt.relocate, FunctionDecl.recast_move decl]
  | .classDecl _ superclass methods => by
    simp only [Stmt.recast, Stmt.relocate, FunctionDecl.recastAll_move methods]
    rfl

theorem Stmt.recastAll_move : ∀ statements : List Stmt,
    Stmt.recastAll ⟨id, move⟩ statements = Stmt.relocateAll move statements
  | [] => rfl
  | stmt :: statements => by
    simp only [Stmt.recastAll, Stmt.relocateAll, Stmt.recast_move stmt,
      Stmt.recastAll_move statements]

theorem FunctionDecl.recast_move : ∀ decl : FunctionDecl,
    decl.recast ⟨id, move⟩ = decl.relocate move
  | ⟨_, params, body⟩ => by
    simp only [FunctionDecl.recast, FunctionDecl.relocate, Stmt.recastAll_move body]
    rfl

theorem FunctionDecl.recastAll_move : ∀ decls : List FunctionDecl,
    FunctionDecl.recastAll ⟨id, move⟩ decls = FunctionDecl.relocateAll move decls
  | [] => rfl
  | decl :: decls => by
    simp only [FunctionDecl.recastAll, FunctionDecl.relocateAll, FunctionDecl.recast_move decl,
      FunctionDecl.recastAll_move decls]

end

/-- Of two moves of a statement only the last place is left. -/
theorem Stmt.relocate_relocate (move' : Span → Span) (stmt : Stmt) :
    (stmt.relocate move).relocate move' = stmt.relocate (move' ∘ move) := by
  rw [← stmt.recast_move, ← Stmt.recast_move, ← Stmt.recast_move, Stmt.recast_recast]
  rfl

/-- Of two moves of a function only the last place is left. -/
theorem FunctionDecl.relocate_relocate (move' : Span → Span) (decl : FunctionDecl) :
    (decl.relocate move).relocate move' = decl.relocate (move' ∘ move) := by
  rw [← decl.recast_move, ← FunctionDecl.recast_move, ← FunctionDecl.recast_move,
    FunctionDecl.recast_recast]
  rfl

/-! ## Moving nowhere

Moving by nothing is used where two ways to read a source agree in the places as well. -/

/-- Tokens that keep their places are the same. -/
theorem Token.map_relocate_id (tokens : List Token) : tokens.map (Token.relocate id) = tokens :=
  List.map_id tokens

mutual

/-- An expression that keeps its place is the same. -/
theorem Expr.relocate_id : ∀ e : Expr, e.relocate id = e
  | .literal _ | .variable _ | .this _ | .superGet _ _ => rfl
  | .grouping inner | .unary _ inner | .get inner _ => by
    simp only [Expr.relocate, Expr.relocate_id inner, Token.relocate_id]
  | .binary left _ right | .set left _ right => by
    simp only [Expr.relocate, Expr.relocate_id left, Expr.relocate_id right, Token.relocate_id]
  | .call callee _ arguments => by
    simp only [Expr.relocate, Expr.relocate_id callee, Expr.relocateAll_id arguments,
      Token.relocate_id]
  | .superCall _ arguments => by
    simp only [Expr.relocate, Expr.relocateAll_id arguments, Token.relocate_id]

theorem Expr.relocateAll_id : ∀ es : List Expr, Expr.relocateAll id es = es
  | [] => rfl
  | e :: es => by simp only [Expr.relocateAll, Expr.relocate_id e, Expr.relocateAll_id es]

end

theorem relocateClause_id (clause : Option Expr) : relocateClause id clause = clause := by
  cases clause with
  | none => rfl
  | some e => exact congrArg some e.relocate_id

mutual

/-- A statement that keeps its place is the same. -/
theorem Stmt.relocate_id : ∀ stmt : Stmt, stmt.relocate id = stmt
  | .expression expr | .print expr => by simp only [Stmt.relocate, expr.relocate_id]
  | .varDecl _ clause | .returnValue _ clause => by
    simp only [Stmt.relocate, relocateClause_id, Token.relocate_id]
  | .block body => by simp only [Stmt.relocate, Stmt.relocateAll_id body]
  | .ifElse condition thenBranch none => by
    simp only [Stmt.relocate, condition.relocate_id, Stmt.relocate_id thenBranch]
  | .ifElse condition thenBranch (some elseBranch) => by
    simp only [Stmt.relocate, condition.relocate_id, Stmt.relocate_id thenBranch,
      Stmt.relocate_id elseBranch]
  | .whileLoop condition body => by
    simp only [Stmt.relocate, condition.relocate_id, Stmt.relocate_id body]
  | .forLoop none condition post body => by
    simp only [Stmt.relocate, relocateClause_id, Stmt.relocate_id body]
  | .forLoop (some init) condition post body => by
    simp only [Stmt.relocate, relocateClause_id, Stmt.relocate_id init, Stmt.relocate_id body]
  | .function decl => by simp only [Stmt.relocate, FunctionDecl.relocate_id decl]
  | .classDecl _ superclass methods => by
    simp only [Stmt.relocate, FunctionDecl.relocateAll_id methods, Token.relocate_id]
    cases superclass <;> rfl

theorem Stmt.relocateAll_id : ∀ statements : List Stmt, Stmt.relocateAll id statements = statements
  | [] => rfl
  | stmt :: statements => by
    simp only [Stmt.relocateAll, Stmt.relocate_id stmt, Stmt.relocateAll_id statements]

theorem FunctionDecl.relocate_id : ∀ decl : FunctionDecl, decl.relocate id = decl
  | ⟨_, params, body⟩ => by
    simp only [FunctionDecl.relocate, Stmt.relocateAll_id body, Token.map_relocate_id,
      Token.relocate_id]

theorem FunctionDecl.relocateAll_id : ∀ decls : List FunctionDecl,
    FunctionDecl.relocateAll id decls = decls
  | [] => rfl
  | decl :: decls => by
    simp only [FunctionDecl.relocateAll, FunctionDecl.relocate_id decl,
      FunctionDecl.relocateAll_id decls]

end

/-! ## Errors -/

/-- The scan error at another place. Its wording names a character and no place. -/
def relocateScanError (error : ScanError × Span) : ScanError × Span := (error.1, move error.2)

/-- The syntax error at another place. Its wording names tokens by their kinds, so it stays the
same. -/
def SyntaxError.relocate (error : SyntaxError) : SyntaxError :=
  { error with span := move error.span }

/-- The error of a source at another place. -/
def SourceError.relocate (error : SourceError) : SourceError :=
  { error with span := move error.span }

/-- What an error says does not depend on its place. -/
@[simp] theorem SourceError.message_relocate (error : SourceError) :
    (error.relocate move).message = error.message := by
  unfold SourceError.message SourceError.relocate
  cases error.fault <;> rfl

/-! ## Limits -/

/-- The limits that a program exceeds move with it. -/
theorem Stmt.limitErrors_relocateAll (statements : List Stmt) :
    Stmt.limitErrorsOfAll (Stmt.relocateAll move statements) =
      (Stmt.limitErrorsOfAll statements).map (relocateLimitError move) := by
  rw [← Stmt.recastAll_move, Stmt.limitErrors_recastAll]

end

/-- The limits that two programs exceed, one program after the other. -/
theorem Stmt.limitErrorsOfAll_append (a b : List Stmt) :
    Stmt.limitErrorsOfAll (a ++ b) = Stmt.limitErrorsOfAll a ++ Stmt.limitErrorsOfAll b := by
  induction a with
  | nil => rfl
  | cons stmt a ih =>
    rw [List.cons_append, Stmt.limitErrorsOfAll, Stmt.limitErrorsOfAll, ih, List.append_assoc]

end Script
