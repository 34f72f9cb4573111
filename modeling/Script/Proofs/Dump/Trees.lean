import Script.Proofs.Dump.Nested
import Script.Syntax.Dump

/-!
# Trees as nested lists

The nested list that a tree is dumped as. The heads of lists are words, and the parameters of a
function are a list without a head. `Stmt.toList_dump` says that the dump is the text of this form.
-/

namespace Script

/-! ## Expressions

The head of a list is the operator for operators and a word of its own for everything else.
Parentheses, dots and keywords that a tree always has are left out. -/

mutual

/-- The form of an expression, with one item for each part that the dump shows. It follows
`Expr.dump` case by case. -/
def Expr.form : Expr → Form
  | .literal token => .atom token.lexeme
  | .variable name => .atom name.lexeme
  | .grouping inner => .list [.atom "group", inner.form]
  | .unary operator operand => .list [.atom operator.lexeme, operand.form]
  | .binary left operator right => .list [.atom operator.lexeme, left.form, right.form]
  | .call callee _ arguments => .list (.atom "call" :: callee.form :: Expr.forms arguments)
  | .get object name => .list [.atom ".", object.form, .atom name.lexeme]
  | .set object name value =>
    .list [.atom "=", .list [.atom ".", object.form, .atom name.lexeme], value.form]
  | .this _ => .atom "this"
  | .superGet _ method => .list [.atom "super", .atom method.lexeme]
  | .superCall _ arguments => .list (.atom "super-call" :: Expr.forms arguments)

/-- The forms of expressions. -/
def Expr.forms : List Expr → List Form
  | [] => []
  | expr :: rest => expr.form :: Expr.forms rest

end

/-- The form of a clause that may be missing. -/
def clauseForm : Option Expr → Form
  | none => .atom "nil"
  | some expr => expr.form

/-! ## Statements -/

/-- The form of a name, which is its lexeme. -/
def nameForm (name : Token) : Form := .atom name.lexeme

mutual

/-- The form of a statement. It follows `Stmt.dump` case by case, and what is missing there is
missing here. -/
def Stmt.form : Stmt → Form
  | .expression expr => .list [.atom "expr", expr.form]
  | .print expr => .list [.atom "print", expr.form]
  | .varDecl name none => .list [.atom "var", nameForm name]
  | .varDecl name (some init) => .list [.atom "var", nameForm name, init.form]
  | .block body => .list (.atom "block" :: Stmt.forms body)
  | .ifElse condition thenBranch none => .list [.atom "if", condition.form, thenBranch.form]
  | .ifElse condition thenBranch (some elseBranch) =>
    .list [.atom "if", condition.form, thenBranch.form, elseBranch.form]
  | .whileLoop condition body => .list [.atom "while", condition.form, body.form]
  | .forLoop none condition post body =>
    .list [.atom "for", .atom "nil", clauseForm condition, clauseForm post, body.form]
  | .forLoop (some init) condition post body =>
    .list [.atom "for", init.form, clauseForm condition, clauseForm post, body.form]
  | .function decl => decl.form
  | .returnValue _ none => .list [.atom "return"]
  | .returnValue _ (some value) => .list [.atom "return", value.form]
  | .classDecl name none methods =>
    .list (.atom "class" :: nameForm name :: FunctionDecl.forms methods)
  | .classDecl name (some superclass) methods =>
    .list (.atom "class" :: nameForm name :: .atom "<" :: nameForm superclass ::
      FunctionDecl.forms methods)

/-- The forms of statements. -/
def Stmt.forms : List Stmt → List Form
  | [] => []
  | stmt :: rest => stmt.form :: Stmt.forms rest

/-- The form of a function or method. -/
def FunctionDecl.form : FunctionDecl → Form
  | ⟨name, params, body⟩ =>
    .list (.atom "fun" :: nameForm name :: .list (params.map nameForm) :: Stmt.forms body)

/-- The forms of methods. -/
def FunctionDecl.forms : List FunctionDecl → List Form
  | [] => []
  | decl :: rest => decl.form :: FunctionDecl.forms rest

end

/-! ## Dumps are texts of forms

The dump is written as a string at once, blanks and parentheses included. Each case below is one of
its formats, character by character. -/

namespace Form

/-- An atom is written as it is. -/
@[simp] theorem text_atom (text : String) : (Form.atom text).text = text.toList := rfl

@[simp] theorem text_list_nil : (Form.list []).text = ['(', ')'] := rfl

@[simp] theorem text_list_cons (first : Form) (others : List Form) :
    (Form.list (first :: others)).text = '(' :: (first.text ++ more others) := rfl

/-- After the last item the list is closed. -/
@[simp] theorem more_nil : more [] = [')'] := rfl

@[simp] theorem more_cons (next : Form) (others : List Form) :
    more (next :: others) = ' ' :: (next.text ++ more others) := rfl

end Form

mutual

/-- An expression is dumped as the text of its form. -/
theorem Expr.toList_dump : ∀ expr : Expr, expr.dump.toList = expr.form.text
  | .literal _ => rfl
  | .variable _ => rfl
  | .grouping inner => by simp [Expr.dump, Expr.form, inner.toList_dump]
  | .unary _ operand => by simp [Expr.dump, Expr.form, operand.toList_dump]
  | .binary left _ right => by
    simp [Expr.dump, Expr.form, left.toList_dump, right.toList_dump]
  | .call callee _ arguments => by
    simp [Expr.dump, Expr.form, callee.toList_dump, Expr.toList_dumpEach arguments]
  | .get object _ => by simp [Expr.dump, Expr.form, object.toList_dump]
  | .set object _ value => by
    simp [Expr.dump, Expr.form, object.toList_dump, value.toList_dump]
  | .this _ => rfl
  | .superGet _ _ => by simp [Expr.dump, Expr.form]
  | .superCall _ arguments => by
    simp [Expr.dump, Expr.form, Expr.toList_dumpEach arguments]

/-- Arguments are dumped with a blank before each, as items of a list after its first one. -/
theorem Expr.toList_dumpEach : ∀ es : List Expr,
    (Expr.dumpEach es).toList ++ [')'] = Form.more (Expr.forms es)
  | [] => rfl
  | expr :: rest => by
    simp [Expr.dumpEach, Expr.forms, expr.toList_dump, ← Expr.toList_dumpEach rest]

end

/-- A clause is dumped as the text of its form, a missing one as `nil`. -/
theorem toList_dumpClause (clause : Option Expr) :
    (dumpClause clause).toList = (clauseForm clause).text := by
  cases clause with
  | none => rfl
  | some expr => exact expr.toList_dump

/-- Names with a blank between any two, and a parenthesis at the end: this is how parameters are
dumped, and the text of a list says the same. -/
theorem intercalate_names (first : Token) (others : List Token) :
    [' '].intercalate ((first :: others).map fun name => name.lexeme.toList) ++ [')'] =
      first.lexeme.toList ++ Form.more (others.map nameForm) := by
  induction others generalizing first with
  | nil => simp
  | cons next others ih =>
    -- The names from the second on are again names with blanks between them.
    have hnext := ih next
    rw [List.map_cons] at hnext
    rw [List.map_cons, List.map_cons, List.intercalate_cons_cons, List.append_assoc,
      List.append_assoc, hnext]
    simp [nameForm]

/-- Parameters are dumped as the items of a list of their own. -/
theorem toList_parameters (params : List Token) :
    '(' :: ((" ".intercalate (params.map Token.lexeme)).toList ++ [')']) =
      (Form.list (params.map nameForm)).text := by
  cases params with
  | nil => rfl
  | cons first others =>
    have hnames := intercalate_names first others
    simpa [nameForm, Function.comp_def] using hnames

mutual

/-- A statement is dumped as the text of its form. The dump puts strings together and the form is a
tree, so each case says that the pieces of the string are the texts of the children. -/
theorem Stmt.toList_dump : ∀ stmt : Stmt, stmt.dump.toList = stmt.form.text
  | .expression expr => by simp [Stmt.dump, Stmt.form, expr.toList_dump]
  | .print expr => by simp [Stmt.dump, Stmt.form, expr.toList_dump]
  | .varDecl _ none => by simp [Stmt.dump, Stmt.form, nameForm]
  | .varDecl _ (some init) => by simp [Stmt.dump, Stmt.form, nameForm, init.toList_dump]
  | .block body => by simp [Stmt.dump, Stmt.form, Stmt.toList_dumpEach body]
  | .ifElse condition thenBranch none => by
    simp [Stmt.dump, Stmt.form, condition.toList_dump, thenBranch.toList_dump]
  | .ifElse condition thenBranch (some elseBranch) => by
    simp [Stmt.dump, Stmt.form, condition.toList_dump, thenBranch.toList_dump,
      elseBranch.toList_dump]
  | .whileLoop condition body => by
    simp [Stmt.dump, Stmt.form, condition.toList_dump, body.toList_dump]
  | .forLoop none condition post body => by
    simp [Stmt.dump, Stmt.form, toList_dumpClause, body.toList_dump]
  | .forLoop (some init) condition post body => by
    simp [Stmt.dump, Stmt.form, toList_dumpClause, init.toList_dump, body.toList_dump]
  | .function decl => by rw [Stmt.dump, Stmt.form, decl.toList_dump]
  | .returnValue _ none => by simp [Stmt.dump, Stmt.form]
  | .returnValue _ (some value) => by simp [Stmt.dump, Stmt.form, value.toList_dump]
  | .classDecl _ none methods => by
    simp [Stmt.dump, Stmt.form, nameForm, FunctionDecl.toList_dumpEach methods]
  | .classDecl _ (some _) methods => by
    simp [Stmt.dump, Stmt.form, nameForm, FunctionDecl.toList_dumpEach methods]

/-- Statements are dumped with a blank before each. -/
theorem Stmt.toList_dumpEach : ∀ statements : List Stmt,
    (Stmt.dumpEach statements).toList ++ [')'] = Form.more (Stmt.forms statements)
  | [] => rfl
  | stmt :: rest => by
    simp [Stmt.dumpEach, Stmt.forms, stmt.toList_dump, ← Stmt.toList_dumpEach rest]

/-- A function is dumped as the text of its form. -/
theorem FunctionDecl.toList_dump : ∀ decl : FunctionDecl, decl.dump.toList = decl.form.text
  | ⟨name, params, body⟩ => by
    have hparams := toList_parameters params
    simp [FunctionDecl.dump, FunctionDecl.form, nameForm, Stmt.toList_dumpEach body, ← hparams]

/-- Methods are dumped with a blank before each. -/
theorem FunctionDecl.toList_dumpEach : ∀ decls : List FunctionDecl,
    (FunctionDecl.dumpEach decls).toList ++ [')'] = Form.more (FunctionDecl.forms decls)
  | [] => rfl
  | decl :: rest => by
    simp [FunctionDecl.dumpEach, FunctionDecl.forms, decl.toList_dump,
      ← FunctionDecl.toList_dumpEach rest]

end

end Script
