import Mathlib.Data.List.Nodup
import Script.Proofs.Grammar.Source
import Script.Proofs.Scoping.Occurrences
import Script.Proofs.Store.Growth
import Script.Proofs.Token.Places

/-!
# The names of a program

In a program that was read from a source, the occurrences of names stand at different places of the
text, in the order of the text (`occurrences_nodup`): an occurrence is known by its token. All of
them except the keywords `this` and `super` are identifiers, and so never spelled like these two
(`keepsReserved_of_read`).
-/

namespace Script

/-! ## The tokens that a tree keeps -/

/-- The token that a mark keeps. Punctuation and most keywords are told by their kind and not
kept. -/
def Mark.token? : Mark → Option Token
  | .held token => some token
  | .fixed _ => none

/-- The tokens that marks keep, in the order of the text. -/
def heldTokens (marks : List Mark) : List Token := marks.filterMap Mark.token?

@[simp] theorem heldTokens_nil : heldTokens [] = [] := rfl

@[simp] theorem heldTokens_held (token : Token) (marks : List Mark) :
    heldTokens (.held token :: marks) = token :: heldTokens marks := rfl

@[simp] theorem heldTokens_fixed (kind : TokenKind) (marks : List Mark) :
    heldTokens (.fixed kind :: marks) = heldTokens marks := rfl

@[simp] theorem heldTokens_append (a b : List Mark) :
    heldTokens (a ++ b) = heldTokens a ++ heldTokens b := List.filterMap_append

/-- The tokens that a text keeps are tokens of the text, in the same order. -/
theorem heldTokens_sublist {marks : List Mark} {tokens : List Token}
    (h : List.Forall₂ Mark.Fits marks tokens) : (heldTokens marks).Sublist tokens := by
  induction h with
  | nil => exact .slnil
  | @cons mark token marks tokens hfits _ ih =>
    cases mark with
    | held kept =>
      obtain rfl : kept = token := hfits
      exact ih.cons_cons _
    | fixed kind => exact ih.cons _

/-! ## Occurrences stand in the text

A tree keeps some of the tokens that it was read from, and the marks of its text tell which. Each
name that occurs in the tree is a kept token, and the occurrences are listed in the order of the
text. So the tokens of the occurrences are a sublist of the tokens that are kept, for expressions as
well as statements. The induction follows the trees; in each case both sides are unfolded by one
step, tokens without a name are passed over, and the parts are put together. -/

/-- Placing names in a context keeps their tokens. -/
theorem map_token_place (context : Context) (uses : List (Role × Token)) :
    (context.place uses).map Occurrence.token = uses.map Prod.snd := by
  unfold Context.place
  rw [List.map_map]
  rfl

/-- The same for the names that a declaration adds. -/
theorem map_token_placeDeclared (context : Context) (names : List Token) :
    (context.placeDeclared names).map Occurrence.token = names := by
  unfold Context.placeDeclared
  rw [map_token_place, List.map_map]
  exact List.map_id names

/-- What is assigned to is a token of the left side. -/
theorem Expr.targets_sublist (expr : Expr) :
    (expr.targets.map Prod.snd).Sublist (heldTokens expr.marks) := by
  cases expr with
  | «variable» name => exact List.Sublist.refl _
  | _ => exact List.nil_sublist _

mutual

/-- The names in an expression stand in its text, in the same order. A use is a token that the text
holds, and the uses leave out tokens but never turn two of them round. -/
theorem Expr.uses_sublist : ∀ expr : Expr,
    (expr.uses.map Prod.snd).Sublist (heldTokens expr.marks)
  | .literal _ => List.nil_sublist _
  | .variable _ => List.Sublist.refl _
  | .grouping inner => by
    rw [Expr.uses, Expr.marks, heldTokens_fixed, heldTokens_append]
    exact (Expr.uses_sublist inner).trans (List.sublist_append_left ..)
  | .unary _ operand => (Expr.uses_sublist operand).cons _
  | .binary left operator right => by
    have hright := (Expr.uses_sublist right).cons operator
    rw [Expr.uses, Expr.marks, List.map_append, heldTokens_append, heldTokens_held]
    -- The left side of an assignment is a target and no use, and otherwise an expression.
    split
    · exact left.targets_sublist.append hright
    · exact (Expr.uses_sublist left).append hright
  | .call callee paren arguments => by
    have harguments := (Expr.usesOfAll_sublist arguments).cons paren
    rw [Expr.uses, Expr.marks, List.map_append, heldTokens_append, heldTokens_held]
    exact (Expr.uses_sublist callee).append harguments
  | .get object _ => by
    rw [Expr.uses, Expr.marks, heldTokens_append]
    exact (Expr.uses_sublist object).trans (List.sublist_append_left ..)
  | .set object name value => by
    have hvalue := (Expr.uses_sublist value).cons name
    rw [Expr.uses, Expr.marks, List.map_append, heldTokens_append, heldTokens_fixed,
      heldTokens_held, heldTokens_fixed]
    exact (Expr.uses_sublist object).append hvalue
  | .this _ => List.Sublist.refl _
  | .superGet keyword method => (List.nil_sublist [method]).cons_cons keyword
  | .superCall keyword arguments => (Expr.usesOfAll_sublist arguments).cons_cons keyword

/-- The names in a row of arguments stand in its text. -/
theorem Expr.usesOfAll_sublist : ∀ arguments : List Expr,
    ((Expr.usesOfAll arguments).map Prod.snd).Sublist (heldTokens (Expr.argumentMarks arguments))
  | [] => List.Sublist.refl _
  | first :: others => by
    rw [Expr.usesOfAll, Expr.argumentMarks, List.map_append, heldTokens_append]
    exact (Expr.uses_sublist first).append (Expr.usesOfMore_sublist others)

/-- The same for a row that goes on after a comma. -/
theorem Expr.usesOfMore_sublist : ∀ arguments : List Expr,
    ((Expr.usesOfAll arguments).map Prod.snd).Sublist
      (heldTokens (Expr.moreArgumentMarks arguments))
  | [] => List.Sublist.refl _
  | next :: others => by
    rw [Expr.usesOfAll, Expr.moreArgumentMarks, List.map_append, heldTokens_fixed,
      heldTokens_append]
    exact (Expr.uses_sublist next).append (Expr.usesOfMore_sublist others)

end

/-- The names in a clause, which may be absent. -/
theorem clauseUses_sublist (clause : Option Expr) :
    ((clauseUses clause).map Prod.snd).Sublist (heldTokens (clauseMarks clause)) := by
  cases clause with
  | none => exact List.Sublist.refl _
  | some expr => exact expr.uses_sublist

/-- The names in the initial value of a variable, if it has one. -/
theorem initialUses_sublist (init : Option Expr) :
    ((clauseUses init).map Prod.snd).Sublist (heldTokens (initialValueMarks init)) := by
  cases init with
  | none => exact List.Sublist.refl _
  | some expr => exact expr.uses_sublist

/-- Of parameters after commas the text keeps the parameters. -/
theorem heldTokens_moreParameters (params : List Token) :
    heldTokens (moreParameterMarks params) = params := by
  induction params with
  | nil => rfl
  | cons param rest ih => rw [moreParameterMarks, heldTokens_fixed, heldTokens_held, ih]

/-- Of a row of parameters the text keeps the parameters. -/
theorem heldTokens_parameters (params : List Token) :
    heldTokens (parameterMarks params) = params := by
  cases params with
  | nil => rfl
  | cons param rest => rw [parameterMarks, heldTokens_held, heldTokens_moreParameters]

/-- Of the clause for a superclass the text keeps the name of the class. -/
theorem heldTokens_superclass (superclass : Option Token) :
    heldTokens (superclassMarks superclass) = superclass.toList := by
  cases superclass <;> rfl

mutual

/-- The names in a statement stand in its text, in the same order, whatever the context is. -/
theorem Stmt.occurrences_sublist (context : Context) : ∀ stmt : Stmt,
    ((stmt.occurrences context).map Occurrence.token).Sublist (heldTokens stmt.marks)
  | .expression expr => by
    rw [Stmt.occurrences, Stmt.marks, map_token_place, heldTokens_append]
    exact expr.uses_sublist.trans (List.sublist_append_left ..)
  | .print expr => by
    rw [Stmt.occurrences, Stmt.marks, map_token_place, heldTokens_fixed, heldTokens_append]
    exact expr.uses_sublist.trans (List.sublist_append_left ..)
  | .varDecl name init => by
    have hinit := (initialUses_sublist init).trans
      (List.sublist_append_left _ (heldTokens [.fixed .semicolon]))
    rw [Stmt.occurrences, Stmt.marks, List.map_append, map_token_placeDeclared, map_token_place,
      heldTokens_fixed, heldTokens_held, heldTokens_append]
    exact hinit.cons_cons name
  | .block body => by
    rw [Stmt.occurrences, Stmt.marks, heldTokens_fixed, heldTokens_append]
    exact (Stmt.occurrencesOfAll_sublist _ body).trans (List.sublist_append_left ..)
  | .ifElse condition thenBranch none => by
    have hthen := Stmt.occurrences_sublist (context.enter (.branch thenBranch)) thenBranch
    rw [Stmt.occurrences, Stmt.marks, List.map_append, map_token_place, heldTokens_fixed,
      heldTokens_fixed, heldTokens_append, heldTokens_fixed]
    exact condition.uses_sublist.append hthen
  | .ifElse condition thenBranch (some elseBranch) => by
    have hthen := Stmt.occurrences_sublist (context.enter (.branch thenBranch)) thenBranch
    have helse := Stmt.occurrences_sublist (context.enter (.branch elseBranch)) elseBranch
    rw [Stmt.occurrences, Stmt.marks, List.append_assoc, List.map_append, List.map_append,
      map_token_place, heldTokens_fixed, heldTokens_fixed, heldTokens_append, heldTokens_fixed,
      heldTokens_append, heldTokens_fixed]
    exact condition.uses_sublist.append (hthen.append helse)
  | .whileLoop condition body => by
    have hbody := Stmt.occurrences_sublist (context.enter (.branch body)) body
    rw [Stmt.occurrences, Stmt.marks, List.map_append, map_token_place, heldTokens_fixed,
      heldTokens_fixed, heldTokens_append, heldTokens_fixed]
    exact condition.uses_sublist.append hbody
  -- The names are listed in the order of the text, although the last clause runs after the
  -- body.
  | .forLoop none condition post body => by
    have hbody := Stmt.occurrences_sublist
      ((context.enter (.header none)).enter (.branch body)) body
    rw [Stmt.occurrences, Stmt.marks, List.append_assoc, List.map_append, List.map_append,
      map_token_place, map_token_place, heldTokens_fixed, heldTokens_fixed, heldTokens_fixed,
      heldTokens_append, heldTokens_fixed, heldTokens_append, heldTokens_fixed]
    exact (clauseUses_sublist condition).append ((clauseUses_sublist post).append hbody)
  | .forLoop (some init) condition post body => by
    have hinit := Stmt.occurrences_sublist (context.enter (.header (some init))) init
    have hbody := Stmt.occurrences_sublist
      (((context.enter (.header (some init))).declare init.declared).enter (.branch body)) body
    rw [Stmt.occurrences, Stmt.marks, List.append_assoc, List.append_assoc, List.map_append,
      List.map_append, List.map_append, map_token_place, map_token_place, heldTokens_fixed,
      heldTokens_fixed, heldTokens_append, heldTokens_append, heldTokens_fixed,
      heldTokens_append, heldTokens_fixed]
    exact hinit.append
      ((clauseUses_sublist condition).append ((clauseUses_sublist post).append hbody))
  | .function decl => by
    have hbody := FunctionDecl.occurrences_sublist (context.declare [decl.name.lexeme]) decl false
    rw [Stmt.occurrences, Stmt.marks, List.map_append, map_token_placeDeclared]
    exact hbody
  | .returnValue keyword value => by
    have hvalue := (clauseUses_sublist value).trans
      (List.sublist_append_left _ (heldTokens [.fixed .semicolon]))
    rw [Stmt.occurrences, Stmt.marks, map_token_place, heldTokens_held, heldTokens_append]
    exact hvalue.cons keyword
  | .classDecl name superclass methods => by
    have hmethods := (FunctionDecl.occurrencesOfAll_sublist (context.declare [name.lexeme])
      methods).trans (List.sublist_append_left _ (heldTokens [.fixed .rightBrace]))
    rw [Stmt.occurrences, Stmt.marks, List.append_assoc, List.map_append, List.map_append,
      map_token_placeDeclared, map_token_place, List.map_map, heldTokens_fixed, heldTokens_held,
      heldTokens_append, heldTokens_superclass, heldTokens_fixed, heldTokens_append]
    have hsuperclass : superclass.toList.map (Prod.snd ∘ fun parent => (Role.superclass, parent)) =
        superclass.toList := List.map_id _
    rw [hsuperclass]
    exact ((List.Sublist.refl superclass.toList).append hmethods).cons_cons name

/-- The names in a row of statements stand in its text. The context changes from one statement to
the next, and their tokens do not depend on it. -/
theorem Stmt.occurrencesOfAll_sublist (context : Context) : ∀ statements : List Stmt,
    ((Stmt.occurrencesOfAll context statements).map Occurrence.token).Sublist
      (heldTokens (Stmt.marksOfAll statements))
  | [] => List.Sublist.refl _
  | stmt :: rest => by
    rw [Stmt.occurrencesOfAll, Stmt.marksOfAll, List.map_append, heldTokens_append]
    exact (Stmt.occurrences_sublist context stmt).append
      (Stmt.occurrencesOfAll_sublist (context.declare stmt.declared) rest)

/-- The name of the function comes first in its text; it is no occurrence within the function. -/
theorem FunctionDecl.occurrences_sublist (context : Context) :
    ∀ (decl : FunctionDecl) (isMethod : Bool),
    (decl.name :: (decl.occurrences context isMethod).map Occurrence.token).Sublist
      (heldTokens decl.marks)
  | ⟨name, params, body⟩, isMethod => by
    have hbody := (Stmt.occurrencesOfAll_sublist
      (context.enterFunction ⟨name, params, body⟩ isMethod) body).trans
        (List.sublist_append_left _ (heldTokens [.fixed .rightBrace]))
    rw [FunctionDecl.occurrences, FunctionDecl.marks, List.map_append, map_token_placeDeclared,
      heldTokens_fixed, heldTokens_held, heldTokens_fixed, heldTokens_append,
      heldTokens_parameters, heldTokens_fixed, heldTokens_append]
    exact ((List.Sublist.refl params).append hbody).cons_cons name

/-- The names in a row of methods stand in its text. Those of the methods themselves are passed
over: a method is no variable. -/
theorem FunctionDecl.occurrencesOfAll_sublist (context : Context) :
    ∀ decls : List FunctionDecl,
    ((FunctionDecl.occurrencesOfAll context decls).map Occurrence.token).Sublist
      (heldTokens (FunctionDecl.marksOfAll decls))
  | [] => List.Sublist.refl _
  | decl :: rest => by
    have hdecl := FunctionDecl.occurrences_sublist context decl true
    rw [FunctionDecl.occurrencesOfAll, FunctionDecl.marksOfAll, List.map_append, heldTokens_append]
    exact ((List.sublist_cons_self ..).trans hdecl).append
      (FunctionDecl.occurrencesOfAll_sublist context rest)

end

/-! ## Occurrences are identifiers

The grammar asks for an identifier wherever a name is declared, read or assigned. So what holds is
shown along the derivation of a program, one case for each rule. The keywords `this` and `super` are
listed as occurrences as well, because they are looked up like names. -/

/-- Apart from the keywords `this` and `super` these names are identifiers. -/
def AreIdentifiers (uses : List (Role × Token)) : Prop :=
  ∀ use ∈ uses, use.1 ≠ .receiver → use.2.kind = .identifier

theorem AreIdentifiers.append {a b : List (Role × Token)} (ha : AreIdentifiers a)
    (hb : AreIdentifiers b) : AreIdentifiers (a ++ b) :=
  fun use hmem => (List.mem_append.mp hmem).elim (ha use) (hb use)

theorem areIdentifiers_single {role : Role} {name : Token} (h : name.kind = .identifier) :
    AreIdentifiers [(role, name)] := by
  intro use hmem _
  obtain rfl := List.mem_singleton.mp hmem
  exact h

/-- The keywords are not asked for: `this` and `super` are looked up like names but are no
identifiers. -/
theorem areIdentifiers_receiver (keyword : Token) : AreIdentifiers [(.receiver, keyword)] := by
  intro use hmem hrole
  obtain rfl := List.mem_singleton.mp hmem
  exact absurd rfl hrole

/-- The names in a row of expressions. -/
theorem areIdentifiers_usesOfAll {exprs : List Expr} (h : ∀ e ∈ exprs, AreIdentifiers e.uses) :
    AreIdentifiers (Expr.usesOfAll exprs) := by
  induction exprs with
  | nil => exact fun _ hmem => nomatch hmem
  | cons expr rest ih =>
    rw [Expr.usesOfAll]
    exact (h expr (.head _)).append (ih fun e he => h e (.tail _ he))

/-- What is assigned to is an identifier if it would be one as an operand. -/
theorem AreIdentifiers.targets {expr : Expr} (h : AreIdentifiers expr.uses) :
    AreIdentifiers expr.targets := by
  cases expr with
  | «variable» name =>
    refine areIdentifiers_single (h (.read, name) (.head _) ?_)
    intro hrole
    cases hrole
  | _ => exact fun _ hmem => nomatch hmem

namespace Grammar

mutual

/-- The names in an expression that the grammar derives are identifiers. -/
theorem Assignment.areIdentifiers {expr : Expr} : Assignment expr → AreIdentifiers expr.uses
  | @Assignment.toVariable name equals value hname hequals hvalue => by
    rw [Expr.uses, if_pos hequals]
    exact (areIdentifiers_single hname).append hvalue.areIdentifiers
  | @Assignment.toProperty object name value hobject _ hvalue => by
    rw [Expr.uses]
    exact hobject.areIdentifiers.append hvalue.areIdentifiers
  | .noTarget h => h.areIdentifiers

/-- The names in an operation, on any level. -/
theorem Binary.areIdentifiers {levels : List (List TokenKind)} {expr : Expr} :
    Binary levels expr → AreIdentifiers expr.uses
  | .operand h => h.areIdentifiers
  | .tighter h => h.areIdentifiers
  | @Binary.joined operators tighter left right operator hleft _ hright => by
    rw [Expr.uses]
    split
    · -- The operator of a level is never an equals sign, but that does not matter here.
      exact hleft.areIdentifiers.targets.append hright.areIdentifiers
    · exact hleft.areIdentifiers.append hright.areIdentifiers

/-- The names in an operand with signs before it. -/
theorem Unary.areIdentifiers {expr : Expr} : Unary expr → AreIdentifiers expr.uses
  | .applied _ hoperand => hoperand.areIdentifiers
  | .call h => h.areIdentifiers

/-- The names in a call or the reading of a property. -/
theorem Call.areIdentifiers {expr : Expr} : Call expr → AreIdentifiers expr.uses
  | .primary h => h.areIdentifiers
  | @Call.applied callee paren arguments hcallee _ harguments => by
    rw [Expr.uses]
    exact hcallee.areIdentifiers.append
      (areIdentifiers_usesOfAll fun e he => (harguments e he).areIdentifiers)
  | .property hobject _ => hobject.areIdentifiers

/-- The names in an innermost operand are identifiers: a variable by its rule, and all others by
those of the parts. -/
theorem Primary.areIdentifiers {expr : Expr} : Primary expr → AreIdentifiers expr.uses
  | .literal _ => fun _ hmem => nomatch hmem
  | .variable h => areIdentifiers_single h
  | .this _ => areIdentifiers_receiver _
  | .grouping h => h.areIdentifiers
  | .superGet _ _ => areIdentifiers_receiver _
  | @Primary.superCall keyword arguments _ harguments =>
    (areIdentifiers_receiver keyword).append
      (areIdentifiers_usesOfAll fun e he => (harguments e he).areIdentifiers)

end

/-- The names in a clause, which may be absent. -/
theorem Clause.areIdentifiers {clause : Option Expr} (h : Clause clause) :
    AreIdentifiers (clauseUses clause) := by
  cases clause with
  | none => exact fun _ hmem => nomatch hmem
  | some expr => exact (h expr rfl).areIdentifiers

end Grammar

/-- Apart from the keywords `this` and `super` these occurrences are identifiers. -/
def OccurrencesAreIdentifiers (occurrences : List Occurrence) : Prop :=
  ∀ o ∈ occurrences, o.role ≠ .receiver → o.token.kind = .identifier

theorem OccurrencesAreIdentifiers.append {a b : List Occurrence}
    (ha : OccurrencesAreIdentifiers a) (hb : OccurrencesAreIdentifiers b) :
    OccurrencesAreIdentifiers (a ++ b) :=
  fun o hmem => (List.mem_append.mp hmem).elim (ha o) (hb o)

/-- Placing names in a context does not change what they are. -/
theorem AreIdentifiers.place {uses : List (Role × Token)} (h : AreIdentifiers uses)
    (context : Context) : OccurrencesAreIdentifiers (context.place uses) := by
  intro o hmem hrole
  obtain ⟨use, huse, rfl⟩ := List.mem_map.mp hmem
  exact h use huse hrole

theorem identifiers_placeDeclared {names : List Token}
    (h : ∀ name ∈ names, name.kind = .identifier) (context : Context) :
    OccurrencesAreIdentifiers (context.placeDeclared names) := by
  refine AreIdentifiers.place ?_ context
  intro use hmem _
  obtain ⟨name, hname, rfl⟩ := List.mem_map.mp hmem
  exact h name hname

/-- The occurrences in a row of statements, if those in each of the statements are identifiers in
any context. -/
theorem identifiers_ofAll {statements : List Stmt}
    (h : ∀ stmt ∈ statements, ∀ context, OccurrencesAreIdentifiers (stmt.occurrences context))
    (context : Context) : OccurrencesAreIdentifiers (Stmt.occurrencesOfAll context statements) := by
  induction statements generalizing context with
  | nil => exact fun _ hmem => nomatch hmem
  | cons stmt rest ih =>
    rw [Stmt.occurrencesOfAll]
    exact (h stmt (.head _) context).append (ih (fun s hs => h s (.tail _ hs)) _)

theorem identifiers_ofFunctions {decls : List FunctionDecl}
    (h : ∀ decl ∈ decls, ∀ context isMethod,
      OccurrencesAreIdentifiers (decl.occurrences context isMethod)) (context : Context) :
    OccurrencesAreIdentifiers (FunctionDecl.occurrencesOfAll context decls) := by
  induction decls with
  | nil => exact fun _ hmem => nomatch hmem
  | cons decl rest ih =>
    rw [FunctionDecl.occurrencesOfAll]
    exact (h decl (.head _) context true).append (ih fun d hd => h d (.tail _ hd))

namespace Grammar

theorem VariableDecl.identifiers {stmt : Stmt} (h : VariableDecl stmt) (context : Context) :
    OccurrencesAreIdentifiers (stmt.occurrences context) := by
  cases h with
  | @mk name init hname hinit =>
    rw [Stmt.occurrences]
    exact (identifiers_placeDeclared (List.forall_mem_singleton.mpr hname) context).append
      (hinit.areIdentifiers.place context)

/-- The name of a function is an identifier. -/
theorem Function.name_kind {decl : FunctionDecl} (h : Function decl) :
    decl.name.kind = .identifier := by
  cases h with
  | mk hname => exact hname

mutual

/-- The occurrences in a statement that the grammar derives. -/
theorem Statement.identifiers {stmt : Stmt} : Statement stmt → ∀ context,
    OccurrencesAreIdentifiers (stmt.occurrences context)
  | .expression h, context => by
    rw [Stmt.occurrences]
    exact h.areIdentifiers.place context
  | .print h, context => by
    rw [Stmt.occurrences]
    exact h.areIdentifiers.place context
  | .block h, context => by
    rw [Stmt.occurrences]
    exact identifiers_ofAll (fun stmt hstmt => (h stmt hstmt).identifiers) _
  | .ifThen hcondition hthen, context => by
    rw [Stmt.occurrences]
    exact (hcondition.areIdentifiers.place context).append (hthen.identifiers _)
  | .ifElse hcondition hthen _ helse, context => by
    rw [Stmt.occurrences]
    exact ((hcondition.areIdentifiers.place context).append (hthen.identifiers _)).append
      (helse.identifiers _)
  | .whileLoop hcondition hbody, context => by
    rw [Stmt.occurrences]
    exact (hcondition.areIdentifiers.place context).append (hbody.identifiers _)
  | .forLoop .absent hcondition hpost hbody, context => by
    rw [Stmt.occurrences]
    exact ((hcondition.areIdentifiers.place _).append (hpost.areIdentifiers.place _)).append
      (hbody.identifiers _)
  -- The four clauses stand in different contexts, which does not matter for what their names are.
  | .forLoop (.declaration hinit) hcondition hpost hbody, context => by
    rw [Stmt.occurrences]
    exact (((hinit.identifiers _).append (hcondition.areIdentifiers.place _)).append
      (hpost.areIdentifiers.place _)).append (hbody.identifiers _)
  | .forLoop (.expression hinit) hcondition hpost hbody, context => by
    have hinit := hinit.areIdentifiers.place
    rw [Stmt.occurrences, Stmt.occurrences]
    exact (((hinit _).append (hcondition.areIdentifiers.place _)).append
      (hpost.areIdentifiers.place _)).append (hbody.identifiers _)
  | .returnValue _ hvalue, context => by
    rw [Stmt.occurrences]
    exact hvalue.areIdentifiers.place context

theorem Declaration.identifiers {stmt : Stmt} : Declaration stmt → ∀ context,
    OccurrencesAreIdentifiers (stmt.occurrences context)
  | .statement h, context => h.identifiers context
  | .variable h, context => h.identifiers context
  | @Declaration.function decl h, context => by
    rw [Stmt.occurrences]
    exact (identifiers_placeDeclared (List.forall_mem_singleton.mpr h.name_kind) context).append
      (h.identifiers _ false)
  | @Declaration.classDecl name superclass methods hname hsuperclass hmethods, context => by
    rw [Stmt.occurrences]
    have hparent : AreIdentifiers (superclass.toList.map fun parent => (.superclass, parent)) := by
      intro use hmem _
      obtain ⟨parent, hparent, rfl⟩ := List.mem_map.mp hmem
      exact hsuperclass parent (Option.mem_toList.mp hparent)
    exact ((identifiers_placeDeclared (List.forall_mem_singleton.mpr hname) context).append
      (hparent.place context)).append
        (identifiers_ofFunctions (fun decl hdecl => (hmethods decl hdecl).identifiers) _)

/-- The occurrences in a function: its parameters, and what stands in its body. -/
theorem Function.identifiers {decl : FunctionDecl} : Function decl → ∀ context isMethod,
    OccurrencesAreIdentifiers (decl.occurrences context isMethod)
  | @Function.mk name params body _ hparams hbody, context, isMethod => by
    rw [FunctionDecl.occurrences]
    exact (identifiers_placeDeclared hparams context).append
      (identifiers_ofAll (fun stmt hstmt => (hbody stmt hstmt).identifiers) _)

end

end Grammar

/-! ## Programs that were read

The text of a program that was read is the list of its tokens, which stand at different places. So
no two occurrences have the same token, and the identifiers among them are not keywords. -/

section

variable {source : String} {program : List Stmt}

/-- The program of a source is derived by the grammar, and the tokens before the end are its
text. -/
theorem fits_of_read (h : readProgram source = .ok program) :
    Grammar.Program program ∧
      List.Forall₂ Mark.Fits (Stmt.marksOfAll program) (textOf (tokens source)) :=
  fits_of_parse (parse_of_read h)

/-- The grammar derives the program, and the tokens that the program keeps are some of those of the
source. -/
theorem text_of_read (h : readProgram source = .ok program) :
    Grammar.Program program ∧ (heldTokens (Stmt.marksOfAll program)).Sublist (tokens source) := by
  obtain ⟨hprogram, hfits⟩ := fits_of_read h
  exact ⟨hprogram, (heldTokens_sublist hfits).trans (List.takeWhile_sublist _)⟩

/-- The occurrences of names in a program are tokens of its source, in the same order. -/
theorem occurrences_sublist_of_read (h : readProgram source = .ok program) :
    ((programOccurrences program).map Occurrence.token).Sublist (tokens source) :=
  (Stmt.occurrencesOfAll_sublist [] program).trans (text_of_read h).2

/-- An occurrence in a program is known by its token. -/
theorem occurrence_eq_of_token (h : readProgram source = .ok program) {a b : Occurrence}
    (ha : a ∈ programOccurrences program) (hb : b ∈ programOccurrences program)
    (htoken : a.token = b.token) : a = b :=
  List.inj_on_of_nodup_map ((tokens_nodup source).sublist (occurrences_sublist_of_read h)) ha hb
    htoken

/-- Only the keywords `this` and `super` are spelled like them. -/
theorem not_reserved_of_read (h : readProgram source = .ok program) {o : Occurrence}
    (ho : o ∈ programOccurrences program) (hrole : o.role ≠ .receiver) :
    o.token.lexeme ∉ reservedNames := by
  have hkind : o.token.kind = .identifier :=
    identifiers_ofAll (fun stmt hstmt => ((text_of_read h).1 stmt hstmt).identifiers) [] o ho hrole
  have hmem : o.token ∈ tokens source :=
    (occurrences_sublist_of_read h).subset (List.mem_map_of_mem ho)
  -- A word that is a keyword is never read as an identifier.
  have hkeyword := keyword?_of_identifier hmem hkind
  intro hreserved
  rcases List.mem_cons.mp hreserved with hthis | hreserved
  · rw [hthis] at hkeyword
    cases hkeyword
  · rw [List.mem_singleton.mp hreserved] at hkeyword
    cases hkeyword

end

/-- A method that calls the method it overrides, from a function that outlives the call. -/
def overridingSource : String :=
  "class A \x7b fun f(x) \x7b print x; \x7d \x7d
   class B < A \x7b fun f(x) \x7b fun g() \x7b super.f(x); \x7d return g; \x7d \x7d
   var h = B().f(1); h();"

theorem read_overriding : ∃ program, readProgram overridingSource = .ok program := by
  obtain ⟨program, hread, -⟩ := @exists_read overridingSource (fun _ => True) _ (by decide +kernel)
  exact ⟨program, hread⟩

end Script
