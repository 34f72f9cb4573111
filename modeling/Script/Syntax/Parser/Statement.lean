import Script.Syntax.Parser.Expression

/-!
# Parsing statements

Declarations stand in programs and blocks only; the branches of an `if` and the bodies of loops
are statements. After a syntax error the parser goes on at the next statement of the innermost
block, so that all errors of a program are found.
-/

namespace Script

namespace Parser

/-- The declaration of a variable, from its keyword to its semicolon. -/
def variableDecl (fuel : Nat) : Parser Stmt := do
  let _ ← accept [.kwVar]
  let name ← expect .identifier .variableName
  let init ← (do
    match ← accept [.equal] with
    | some _ => some <$> expression fuel
    | none => pure none)
  let _ ← expect .semicolon .variableEnd
  pure (.varDecl name init)

/-- An expression and its semicolon. What begins like no other statement is taken for one. -/
def expressionStatement (fuel : Nat) : Parser Stmt := do
  let expr ← expression fuel
  let _ ← expect .semicolon .expressionEnd
  pure (.expression expr)

/-- An expression, unless the next token is of the kind that ends the clause. -/
def clause (fuel : Nat) (stop : TokenKind) : Parser (Option Expr) := do
  if (← peek) = stop then pure none else some <$> expression fuel

/-- One or more parameter names with commas between them, and the closing parenthesis. -/
def parameterRow : Nat → Parser (List Token)
  | 0 => exhausted
  | fuel + 1 => do
    let first ← expect .identifier .parameterName
    match ← accept [.comma] with
    | some _ =>
      let others ← parameterRow fuel
      pure (first :: others)
    | none =>
      let _ ← expect .rightParen .parametersEnd
      pure [first]

/-- The parameters of a function, after its opening parenthesis, and the closing one. -/
def parameters (fuel : Nat) : Parser (List Token) := do
  match ← accept [.rightParen] with
  | some _ => pure []
  | none => parameterRow fuel

mutual

/-- A declaration or a statement, told apart by the keyword at the front. -/
def declaration : Nat → Parser Stmt
  | 0 => exhausted
  | fuel + 1 => do
    match ← peek with
    | .kwClass => classDecl fuel
    | .kwFun => .function <$> function fuel .function
    | .kwVar => variableDecl fuel
    | _ => statement fuel

/-- The declaration of a class, with its keyword. The superclass is a name and no expression. -/
def classDecl : Nat → Parser Stmt
  | 0 => exhausted
  | fuel + 1 => do
    let _ ← accept [.kwClass]
    let name ← expect .identifier .className
    let superclass ← (do
      match ← accept [.less] with
      | some _ => some <$> expect .identifier .superclassName
      | none => pure none)
    let _ ← expect .leftBrace .classBodyStart
    let methods ← methods fuel
    let _ ← expect .rightBrace .classBodyEnd
    pure (.classDecl name superclass methods)

/-- The methods of a class, up to its closing brace. -/
def methods : Nat → Parser (List FunctionDecl)
  | 0 => exhausted
  | fuel + 1 => do
    match ← peek with
    | .rightBrace => pure []
    -- The missing brace is found by the class declaration.
    | .endOfFile => pure []
    | _ =>
      let first ← function fuel .method
      let others ← methods fuel
      pure (first :: others)

/-- The declaration of a function or a method, from its keyword to its closing brace. -/
def function : Nat → FunctionRole → Parser FunctionDecl
  | 0, _ => exhausted
  | fuel + 1, role => do
    let _ ← expect .kwFun (.functionKeyword role)
    let name ← expect .identifier (.functionName role)
    let _ ← expect .leftParen (.parametersStart role)
    let params ← parameters fuel
    let _ ← expect .leftBrace (.functionBodyStart role)
    let body ← block fuel
    pure ⟨name, params, body⟩

/-- A statement that is no declaration, as it may stand in a branch or a loop without braces. -/
def statement : Nat → Parser Stmt
  | 0 => exhausted
  | fuel + 1 => do
    match ← accept [.kwPrint, .leftBrace, .kwIf, .kwWhile, .kwFor, .kwReturn] with
    | none => expressionStatement fuel
    | some token =>
      match token.kind with
      | .kwPrint =>
        let expr ← expression fuel
        let _ ← expect .semicolon .printEnd
        pure (.print expr)
      | .leftBrace => .block <$> block fuel
      | .kwIf => ifElse fuel
      | .kwWhile => whileLoop fuel
      | .kwFor => forLoop fuel
      | _ =>
        let value ← clause fuel .semicolon
        let _ ← expect .semicolon .returnEnd
        pure (.returnValue token value)

/-- What follows the keyword `if`. An `else` belongs to the nearest `if` before it. -/
def ifElse : Nat → Parser Stmt
  | 0 => exhausted
  | fuel + 1 => do
    let _ ← expect .leftParen .ifConditionStart
    let condition ← expression fuel
    let _ ← expect .rightParen .ifConditionEnd
    let thenBranch ← statement fuel
    -- The branch has taken an `else` of its own already.
    match ← accept [.kwElse] with
    | some _ =>
      let elseBranch ← statement fuel
      pure (.ifElse condition thenBranch (some elseBranch))
    | none => pure (.ifElse condition thenBranch none)

/-- What follows the keyword `while`: a condition in parentheses and a body. -/
def whileLoop : Nat → Parser Stmt
  | 0 => exhausted
  | fuel + 1 => do
    let _ ← expect .leftParen .whileConditionStart
    let condition ← expression fuel
    let _ ← expect .rightParen .whileConditionEnd
    let body ← statement fuel
    pure (.whileLoop condition body)

/-- What follows the keyword `for`: three clauses in parentheses, of which each may be missing, and
a body. -/
def forLoop : Nat → Parser Stmt
  | 0 => exhausted
  | fuel + 1 => do
    let _ ← expect .leftParen .forClausesStart
    -- A declaration or an expression statement brings its own semicolon.
    let init ← (do
      match ← peek with
      | .semicolon => do
        let _ ← accept [.semicolon]
        pure none
      | .kwVar => some <$> variableDecl fuel
      | _ => some <$> expressionStatement fuel)
    let condition ← clause fuel .semicolon
    let _ ← expect .semicolon .forConditionEnd
    let post ← clause fuel .rightParen
    let _ ← expect .rightParen .forClausesEnd
    let body ← statement fuel
    pure (.forLoop init condition post body)

/-- The declarations of a block, after its opening brace, and the closing one. -/
def block : Nat → Parser (List Stmt)
  | 0 => exhausted
  | fuel + 1 => do
    match ← peek with
    | .rightBrace => do
      let _ ← accept [.rightBrace]
      pure []
    | .endOfFile => reject .blockEnd
    | _ =>
      -- A declaration with an error is left out.
      let first ← recovering (declaration fuel)
      let others ← block fuel
      pure (first.toList ++ others)

end

/-- The declarations of a program, up to the end of the input. -/
def program : Nat → Parser (List Stmt)
  | 0 => exhausted
  | fuel + 1 => do
    match ← peek with
    | .endOfFile => pure []
    | _ =>
      let first ← recovering (declaration fuel)
      let others ← program fuel
      pure (first.toList ++ others)

/-- A bound on the nested calls that parsing a row of so many tokens takes: between two calls that
consume a token there are fewer than sixteen others. -/
def fuelFor (tokens : List Token) : Nat := 16 * (tokens.length + 1)

end Parser

/-- The program that a row of tokens writes, or all its syntax errors. -/
def parse (tokens : List Token) : Except (List SyntaxError) (List Stmt) :=
  match Parser.program (Parser.fuelFor tokens) ⟨tokens, .origin, []⟩ with
  | .ok statements state => if state.errors = [] then .ok statements else .error state.errors
  | .error _ state => .error state.errors

end Script
