import Script.Proofs.Run.SoundStatements
import Script.Proofs.Scoping.NestedExpressions

/-!
# Statements keep the nesting

Only three kinds of statements declare anything, and each declares its name as its last action. The
functions that a declaration creates are placed in the scope that the name goes to, so that their
bodies see the name: it is there even where the declaration fails because it was there before.
-/

namespace Script

open Contract Plan

section

variable {U : List Occurrence} {Occurs : Moment → Prop} {scope : ScopeId} {context : Context}
  {fuel : Nat} {s : State}

/-! ## Declarations

A variable makes nothing before its name is declared. A function makes one function and a class a
row of them, which are in the store for a moment while the name is not there. `Declaring` says of
this moment what is needed to see that the nesting holds again once the name is added, and
`define_nested` adds it. -/

/-- The functions of a row of declarations are placed in one scope. -/
theorem newFunctions_functions {closure : ScopeId} {decls : List FunctionDecl} {store : Store}
    {id : FunctionId} (hle : store.functions.size ≤ id.index)
    (hlt : id.index < (store.newFunctions closure decls).2.functions.size) :
    ((store.newFunctions closure decls).2.function id).decl ∈ decls ∧
      ((store.newFunctions closure decls).2.function id).closure = closure := by
  induction decls generalizing store with
  | nil => exact absurd hlt (Nat.not_lt_of_le hle)
  | cons decl rest ih =>
    have hgrows := Store.grows_newFunctions closure rest (store.newFunction decl closure).2
    have hsize : (store.newFunction decl closure).2.functions.size = store.functions.size + 1 :=
      Arena.size_push ..
    -- The index tells whether `id` is the function of the first declaration or one of the rest.
    by_cases hfirst : id.index = store.functions.size
    · -- The first function is kept while the others are made.
      have hid : id.index < (store.newFunction decl closure).2.functions.size := by omega
      have hnew : (store.newFunction decl closure).2.function id = ⟨decl, closure, .empty⟩ := by
        unfold Store.function
        rw [hfirst]
        exact Arena.get_push_size ..
      have hdecl := hgrows.decl hid
      have hclosure := hgrows.closure hid
      rw [hnew] at hdecl hclosure
      exact ⟨List.mem_cons.mpr (.inl hdecl), hclosure⟩
    · have hle' : (store.newFunction decl closure).2.functions.size ≤ id.index := by omega
      obtain ⟨hmem, hclosure⟩ := ih hle' hlt
      exact ⟨.tail _ hmem, hclosure⟩

/-- A class that is declared with new functions declares none that was there before. -/
theorem old_of_declares {a store : Store} {name : String} {parent : ClassId}
    {methods : List (String × FunctionId)} {c : ClassId} {id : FunctionId}
    (hsize : store.classes.size = a.classes.size)
    (hnew : ∀ entry ∈ methods, a.functions.size ≤ entry.2.index)
    (hc : c.index < (store.declareClass name (some parent) methods).2.classes.size)
    (hdeclares : (store.declareClass name (some parent) methods).2.Declares c id)
    (hid : id.index < a.functions.size) : c.index < a.classes.size := by
  rcases Arena.get_push_cases _ _ hc with ⟨hlt, -⟩ | ⟨-, hclass⟩
  · rwa [hsize] at hlt
  · obtain ⟨method, hmethod⟩ := hdeclares
    have hclass : (store.declareClass name (some parent) methods).2.classOf c =
        ⟨name, store.lineage parent, .ofList methods, .empty⟩ := hclass
    unfold Store.ownMethod? at hmethod
    rw [hclass] at hmethod
    -- The new class declares new functions only, so `c` is not the new class.
    have hnewer : (Table.ofList methods).Holds fun id => a.functions.size ≤ id.index :=
      Table.holds_ofList hnew
    have hle : a.functions.size ≤ id.index := hnewer method id hmethod
    omega

/-- What is left of the functions and classes that a declaration makes, from the store `a` on:
that the functions have a place, and that the classes declare no older function. -/
structure Declaring (U : List Occurrence) (Occurs : Moment → Prop) (scope : ScopeId)
    (context : Context) (name : String) (a middle : Store) : Prop where
  grows : a.Grows middle
  scopes : middle.scopes = a.scopes
  placed : ∀ b : Store, b.functions = middle.functions → b.classes = middle.classes →
    Follows Occurs b scope (context.declare [name]) → ∀ id : FunctionId,
    a.functions.size ≤ id.index → id.index < b.functions.size → Placed U Occurs b id
  classes : ∀ (c : ClassId) (id : FunctionId), c.index < middle.classes.size →
    middle.Declares c id → id.index < a.functions.size → c.index < a.classes.size
  apart : a.DeclaresApart middle

theorem Declaring.refl (a : Store) (name : String) :
    Declaring U Occurs scope context name a a where
  grows := Store.Grows.refl a
  scopes := rfl
  placed := by
    intro b hfunctions _ _ id hle hlt
    rw [hfunctions] at hlt
    exact absurd hlt (Nat.not_lt_of_le hle)
  classes := fun _ _ hc _ _ => hc
  apart := .of_size rfl

/-- Once the name is in its scope, all is in place. -/
theorem Declaring.reaches {a middle b : Store} {name : String} (honce : OpensOnce Occurs)
    (h : Declaring U Occurs scope context name a middle) (ha : Nested U Occurs a)
    (hat : At Occurs a scope context) (hroom : context.HasRoom [name]) (hgrows : middle.Grows b)
    (hsize : b.scopes.size = middle.scopes.size) (hfunctions : b.functions = middle.functions)
    (hclasses : b.classes = middle.classes) (hdeclares : b.declares scope name = true)
    (hgains : ∀ id : ScopeId, id.index < middle.scopes.size → ∀ other,
      b.declares id other = true → middle.declares id other = true ∨ (id = scope ∧ other = name)) :
    Reaches U Occurs (some scope) [name] a b := by
  -- Seen from `a`, the scope has gained the one name, and all other scopes nothing.
  have hgrows : a.Grows b := h.grows.trans hgrows
  have hgains : ∀ id : ScopeId, id.index < a.scopes.size → ∀ other, b.declares id other = true →
      a.declares id other = true ∨ (id = scope ∧ other ∈ [name]) := by
    intro id hid other hother
    rw [← h.scopes] at hid
    rcases hgains id hid other hother with hbefore | ⟨rfl, rfl⟩
    · left
      unfold Store.declares Store.bindings Store.scope at hbefore ⊢
      rwa [h.scopes] at hbefore
    · exact .inr ⟨rfl, .head _⟩
  have hfollows : Follows Occurs b scope (context.declare [name]) := by
    refine (hat.follows.mono hgrows).declare fun other hother => ?_
    rw [List.mem_singleton.mp hother]
    exact hdeclares
  rw [h.scopes] at hsize
  have hback : ∀ {c : ClassId} {id : FunctionId}, b.Declares c id → middle.Declares c id := by
    intro c id hdecl
    unfold Store.Declares Store.ownMethod? Store.classOf at hdecl ⊢
    rwa [hclasses] at hdecl
  refine ⟨hgrows, ha.declare honce hgrows hat hroom hsize hgains ?_ ?_ ?_,
    fun id hid other hother => ?_⟩
  · exact h.placed b hfunctions hclasses hfollows
  · intro c id hc hdecl hid
    rw [hclasses] at hc
    exact h.classes c id hc (hback hdecl) hid
  · intro c c' id hc hc' hdecl hdecl'
    rw [hclasses] at hc hc'
    exact h.apart c c' id hc hc' (hback hdecl) (hback hdecl')
  · rcases hgains id hid other hother with hbefore | ⟨rfl, hnew⟩
    · exact .inl hbefore
    · exact .inr ⟨rfl, hnew⟩

section

variable (hfacts : ∀ moment, Occurs moment → (soundness U Occurs).Fact moment)
include hfacts

/-- The last action of a declaration. The name is there afterwards, even if the action fails. -/
theorem define_nested (honce : OpensOnce Occurs) {a : Store} {name : String} {value : Value}
    (h : Declaring U Occurs scope context name a s.store) (ha : Nested U Occurs a)
    (hat : At Occurs a scope context) (hroom : context.HasRoom [name]) :
    (nesting U Occurs).Meets Occurs fuel (act (Eval.define scope name value)) s fun outcome =>
      Reaches U Occurs (some scope) [name] a (finalState outcome).store ∧
        (finalState outcome).store.declares scope name = true := by
  have hscope : scope.index < s.store.scopes.size := by
    rw [h.scopes]
    exact hat.follows.lt
  refine layer_act hfacts fun _ _ hgrows => ?_
  have hgrows : s.store.Grows (finalState (Eval.define scope name value s)).store := hgrows
  rcases Store.define_cases s.store scope name value with ⟨hfailed, hdeclares⟩ | hdefined
  · -- The name was there before. Nothing changes, and the name is there all the same.
    have hrun : Eval.define scope name value s =
        .error (.error (.redeclaredVariable name)) s := by
      unfold Eval.define Eval.update
      dsimp only
      rw [hfailed]
    rw [hrun]
    refine ⟨h.reaches honce ha hat hroom (Store.Grows.refl _) rfl rfl rfl hdeclares ?_, hdeclares⟩
    exact fun _ _ _ hother => .inl hother
  · have hrun : Eval.define scope name value s =
        .ok () { s with store := s.store.bind scope name value } := by
      unfold Eval.define Eval.update
      dsimp only
      rw [hdefined]
    -- The name is new in its scope, and in no other scope does anything change.
    have hdeclares : (s.store.bind scope name value).declares scope name = true :=
      Store.declares_bind_self hscope
    rw [hrun] at hgrows ⊢
    refine ⟨h.reaches honce ha hat hroom hgrows (Store.bind_scopes_size ..) rfl rfl hdeclares ?_,
      hdeclares⟩
    exact fun id hid other hother => Store.declares_of_bind hid hother

/-- A quiet plan at a place, after something quiet. -/
theorem quiet_nested {α : Type} {plan : Plan α} {a : Store}
    (hreaches : Reaches U Occurs none [] a s.store) (hat : At Occurs s.store scope context)
    (hquiet : plan.Quiet U (some scope) context) :
    (nesting U Occurs).Meets Occurs fuel plan s
      fun outcome => Reaches U Occurs none [] a (finalState outcome).store := by
  have hplace : ∀ other ∈ some scope, At Occurs s.store other context := by
    intro other hother
    obtain rfl := Option.some.inj hother
    exact hat
  refine (meets_quiet hfacts hquiet hreaches.nested hplace).mono fun outcome houtcome => ?_
  exact hreaches.quiet houtcome

/-! ## Statements that declare nothing

Seen from their own scope these statements are quiet: what they declare goes to scopes that they
open themselves. A branch, a block and the clauses of a `for` have such a scope, and are followed
there with one more region in the context. -/

/-- What is to be shown of the execution of a statement. -/
abbrev Executes (U : List Occurrence) (Occurs : Moment → Prop) (scope : ScopeId) (stmt : Stmt)
    (s : State) : Outcome Completion → Prop :=
  fun outcome => Reaches U Occurs (some scope) stmt.declared s.store (finalState outcome).store ∧
    Yields (fun _ s' => ∀ name ∈ stmt.declared, s'.store.declares scope name = true) outcome

omit hfacts in
/-- A statement that declares nothing has no names to show. -/
theorem executes_of_quiet {stmt : Stmt} (hdeclared : stmt.declared = [])
    {outcome : Outcome Completion}
    (h : Reaches U Occurs none [] s.store (finalState outcome).store) :
    Executes U Occurs scope stmt s outcome := by
  refine ⟨h.weaken, ?_⟩
  cases outcome with
  | ok completion s' =>
    intro name hname
    rw [hdeclared] at hname
    cases hname
  | error interrupt s' => trivial

/-- A statement that is quiet as a plan, which is all that the simple statements are. -/
theorem quiet_executes {stmt : Stmt} {plan : Plan Completion} (hdeclared : stmt.declared = [])
    (hquiet : plan.Quiet U (some scope) context) (hnested : Nested U Occurs s.store)
    (hat : At Occurs s.store scope context) :
    (nesting U Occurs).Meets Occurs fuel plan s (Executes U Occurs scope stmt s) :=
  (quiet_nested hfacts (.refl hnested) hat hquiet).mono fun _ => executes_of_quiet hdeclared

/-- A branch or one run of the body of a loop, in a scope of its own. -/
theorem branch_nested (honce : OpensOnce Occurs) {stmt : Stmt} (hnested : Nested U Occurs s.store)
    (hfollows : Follows Occurs s.store scope context)
    (hwithin : stmt.occurrences (context.enter (.branch stmt)) ⊆ U) :
    (nesting U Occurs).Meets Occurs fuel
      (do
        let inner ← child (.branch stmt) scope
        perform (.execute inner stmt)) s
      fun outcome => Reaches U Occurs none [] s.store (finalState outcome).store := by
  refine meets_bind (child_nested hfacts honce hnested hfollows (.branch stmt) ?_)
  intro inner s₁ hinner hreaches₁ hat
  have hbegins : (Task.execute inner stmt).Begins U Occurs s₁.store :=
    Task.begins_at rfl hreaches₁.nested hat hwithin (Context.hasRoom_enter _ _) trivial
  refine layer_perform hfacts (fun _ _ => hbegins) ?_
  rintro outcome - - ⟨hreaches₂, -⟩
  exact hreaches₁.inside hinner hreaches₂

/-- A block runs its statements in a scope for the block. -/
theorem block_nested (honce : OpensOnce Occurs) {statements : List Stmt}
    (hnested : Nested U Occurs s.store) (hfollows : Follows Occurs s.store scope context)
    (hwithin : Stmt.occurrencesOfAll (context.enter (.block statements)) statements ⊆ U) :
    (nesting U Occurs).Meets Occurs fuel (Task.executeBody scope (.block statements)) s
      (Executes U Occurs scope (.block statements) s) := by
  -- The new scope follows the region of the block, with none of its names declared yet.
  refine meets_bind (child_nested hfacts honce hnested hfollows (.block statements) ?_)
  intro inner s₁ hinner hreaches₁ hat
  have hbegins : (Task.executeAll inner statements).Begins U Occurs s₁.store :=
    Task.begins_at rfl hreaches₁.nested hat hwithin (Context.hasRoom_enter _ _) trivial
  refine layer_perform hfacts (fun _ _ => hbegins) ?_
  rintro outcome - - ⟨hreaches₂, -⟩
  exact executes_of_quiet rfl (hreaches₁.inside hinner hreaches₂)

/-- A conditional evaluates its condition outside of the branches, and then runs one of them or
none. -/
theorem ifElse_nested (honce : OpensOnce Occurs) {condition : Expr} {thenBranch : Stmt}
    {elseBranch : Option Stmt} (hnested : Nested U Occurs s.store)
    (hat : At Occurs s.store scope context)
    (hwithin : (Stmt.ifElse condition thenBranch elseBranch).occurrences context ⊆ U) :
    (nesting U Occurs).Meets Occurs fuel
      (Task.executeBody scope (.ifElse condition thenBranch elseBranch)) s
      (Executes U Occurs scope (.ifElse condition thenBranch elseBranch) s) := by
  obtain ⟨hcondition, hthen, helse⟩ := within_ifElse hwithin
  refine meets_bind
    ((quiet_nested hfacts (.refl hnested) hat (quiet_evaluate hcondition)).mono ?_)
  intro outcome hreaches₁
  cases outcome with
  | error interrupt s₁ => exact executes_of_quiet rfl hreaches₁
  | ok value s₁ =>
    have hreaches₁ : Reaches U Occurs none [] s.store s₁.store := hreaches₁
    have hfollows := (hat.quiet hreaches₁).follows
    -- The condition has declared nothing, so the scope still stands at the same context, and a
    -- branch opens one below it.
    dsimp only [andThen]
    split
    · refine (branch_nested hfacts honce hreaches₁.nested hfollows hthen).mono ?_
      exact fun outcome hreaches₂ => executes_of_quiet rfl (hreaches₁.quiet hreaches₂)
    · cases elseBranch with
      | none => exact executes_of_quiet rfl hreaches₁
      | some elseBranch =>
        refine (branch_nested hfacts honce hreaches₁.nested hfollows (helse _ rfl)).mono ?_
        exact fun outcome hreaches₂ => executes_of_quiet rfl (hreaches₁.quiet hreaches₂)

/-- The clauses of a `for` have a scope, and what stands first may declare a variable in it. -/
theorem forLoop_executes (honce : OpensOnce Occurs) {init : Option Stmt}
    {condition post : Option Expr} {body : Stmt} (hnested : Nested U Occurs s.store)
    (hfollows : Follows Occurs s.store scope context)
    (hwithin : (Stmt.forLoop init condition post body).occurrences context ⊆ U) :
    (nesting U Occurs).Meets Occurs fuel
      (Task.executeBody scope (.forLoop init condition post body)) s
      (Executes U Occurs scope (.forLoop init condition post body) s) := by
  refine meets_bind (child_nested hfacts honce hnested hfollows (.header init) ?_)
  intro clauses s₁ hclauses hreaches₁ hat
  cases init with
  | none =>
    rw [Stmt.occurrences] at hwithin
    have hbegins : (Task.forLoop clauses condition post body).Begins U Occurs s₁.store :=
      Task.begins_at rfl hreaches₁.nested hat hwithin (Context.hasRoom_nil _) trivial
    refine layer_perform hfacts (fun _ _ => hbegins) ?_
    rintro outcome - - ⟨hreaches₂, -⟩
    exact executes_of_quiet rfl (hreaches₁.inside hclauses hreaches₂)
  | some init =>
    obtain ⟨hinit, hloop⟩ := within_forLoop hwithin
    have hbegins : (Task.execute clauses init).Begins U Occurs s₁.store :=
      Task.begins_at rfl hreaches₁.nested hat hinit (Context.hasRoom_enter _ _) trivial
    refine layer_sub hfacts (fun _ _ => hbegins) ?_ ?_
    · rintro interrupt s₂ - - ⟨hreaches₂, -⟩
      exact executes_of_quiet rfl (hreaches₁.inside hclauses hreaches₂)
    · rintro completion s₂ - - ⟨hreaches₂, hsettled⟩
      have hreaches₂ : Reaches U Occurs (some clauses) init.declared s₁.store s₂.store := hreaches₂
      -- The other clauses and the body see the name.
      have hat₂ : At Occurs s₂.store clauses
          (Context.declare init.declared (context.enter (.header (some init)))) :=
        hat.settled hreaches₂ hsettled
      have hbegins₂ : (Task.forLoop clauses condition post body).Begins U Occurs s₂.store :=
        Task.begins_at rfl hreaches₂.nested hat₂ (hloop clauses) (Context.hasRoom_nil _) trivial
      refine layer_perform hfacts (fun _ _ => hbegins₂) ?_
      rintro outcome - - ⟨hreaches₃, -⟩
      have hreaches₃ : Reaches U Occurs (some clauses) [] s₂.store (finalState outcome).store :=
        hreaches₃
      exact executes_of_quiet rfl ((hreaches₁.inside hclauses hreaches₂).quiet hreaches₃.of_nil)

/-! ## Statements that declare a name

Such a statement is quiet up to its last action. The store in which that action begins differs from
the store at the start of the statement by what the statement has made, and `Declaring` covers the
difference. -/

omit hfacts in
/-- Something quiet may happen before a statement: it declares nothing, so the statement finds the
names that it would have found. -/
theorem Executes.after {stmt : Stmt} {s₁ : State} {outcome : Outcome Completion}
    (h : Reaches U Occurs none [] s.store s₁.store)
    (hexecutes : Executes U Occurs scope stmt s₁ outcome) :
    Executes U Occurs scope stmt s outcome := by
  have hweak : Reaches U Occurs (some scope) stmt.declared s.store s₁.store := h.weaken
  exact ⟨hweak.trans hexecutes.1 fun _ _ heq _ hmem => ⟨heq, hmem⟩, hexecutes.2⟩

omit hfacts in
/-- The outcome of a declaration is that of its last action. -/
theorem executes_of_define {a : State} {stmt : Stmt} {name : String} {outcome : Outcome Unit}
    (hstmt : stmt.declared = [name])
    (hreaches : Reaches U Occurs (some scope) [name] a.store (finalState outcome).store)
    (hdeclares : (finalState outcome).store.declares scope name = true) :
    (nesting U Occurs).andThen Occurs fuel (fun _ => pure (.normal .nil))
      (Executes U Occurs scope stmt a) outcome := by
  unfold Executes
  rw [hstmt]
  cases outcome with
  | error interrupt s' => exact ⟨hreaches, trivial⟩
  | ok _ s' =>
    refine ⟨hreaches, fun other hother => ?_⟩
    rw [List.mem_singleton.mp hother]
    exact hdeclares

/-- A declaration that has made all that it needs ends by declaring the name. -/
theorem define_executes (honce : OpensOnce Occurs) {a : State} {stmt : Stmt} {name : String}
    {value : Value} (hstmt : stmt.declared = [name])
    (h : Declaring U Occurs scope context name a.store s.store) (ha : Nested U Occurs a.store)
    (hat : At Occurs a.store scope context) (hroom : context.HasRoom stmt.declared) :
    (nesting U Occurs).Meets Occurs fuel
      (act (Eval.define scope name value) >>= fun _ => pure (.normal .nil)) s
      (Executes U Occurs scope stmt a) := by
  rw [hstmt] at hroom
  refine meets_bind ((define_nested hfacts honce h ha hat hroom).mono ?_)
  rintro outcome ⟨hreaches, hdeclares⟩
  exact executes_of_define hstmt hreaches hdeclares

/-- The value of a variable is evaluated before the variable is there. -/
theorem varDecl_nested (honce : OpensOnce Occurs) {name : Token} {init : Option Expr}
    (hnested : Nested U Occurs s.store) (hat : At Occurs s.store scope context)
    (hwithin : (Stmt.varDecl name init).occurrences context ⊆ U)
    (hroom : context.HasRoom (Stmt.varDecl name init).declared) :
    (nesting U Occurs).Meets Occurs fuel (Task.executeBody scope (.varDecl name init)) s
      (Executes U Occurs scope (.varDecl name init) s) := by
  rw [Stmt.occurrences] at hwithin
  have hinit := (List.append_subset.mp hwithin).2
  refine meets_bind
    ((quiet_nested hfacts (.refl hnested) hat (quiet_evaluateOption hinit)).mono ?_)
  intro outcome hreaches₁
  cases outcome with
  | error interrupt s₁ => exact ⟨hreaches₁.weaken, trivial⟩
  | ok value s₁ =>
    have hreaches₁ : Reaches U Occurs none [] s.store s₁.store := hreaches₁
    have hat₁ := hat.quiet hreaches₁
    refine (define_executes hfacts honce rfl (.refl s₁.store _) hreaches₁.nested hat₁
      hroom).mono ?_
    exact fun outcome hexecutes => hexecutes.after hreaches₁

/-- A function is made in the scope that its name goes to, and is no method. -/
theorem function_nested (honce : OpensOnce Occurs) {decl : FunctionDecl}
    (h : SoundStore U Occurs s.store) (hnested : Nested U Occurs s.store)
    (hat : At Occurs s.store scope context)
    (hwithin : (Stmt.function decl).occurrences context ⊆ U)
    (hroom : context.HasRoom (Stmt.function decl).declared) :
    (nesting U Occurs).Meets Occurs fuel (Task.executeBody scope (.function decl)) s
      (Executes U Occurs scope (.function decl) s) := by
  rw [Stmt.occurrences] at hwithin
  have hbody := (List.append_subset.mp hwithin).2
  refine meets_bind (layer_act hfacts fun _ _ hgrows => ?_)
  have hgrows : s.store.Grows (s.store.newFunction decl scope).2 := hgrows
  have hdeclared : (Stmt.function decl).declared = [decl.name.lexeme] := by cases decl; rfl
  refine define_executes hfacts honce hdeclared ?_ hnested hat hroom
  refine ⟨hgrows, rfl, ?_, fun _ _ hc _ _ => hc, .of_size rfl⟩
  intro b hfunctions hclasses hfollows id hle hlt
  -- The only new function is the declared one, and no class declares it.
  have hsize : b.functions.size = s.store.functions.size + 1 := by
    rw [hfunctions]
    exact Arena.size_push ..
  have hid : id.index = s.store.functions.size := by omega
  have hfunction : b.function id = ⟨decl, scope, .empty⟩ := by
    unfold Store.function
    rw [hfunctions, hid]
    exact Arena.get_push_size ..
  refine ⟨context.declare [decl.name.lexeme], false, ?_, ?_, fun c hc hdeclares => ?_⟩
  · rw [hfunction]
    exact hfollows
  · rw [hfunction]
    exact hbody
  · have hdeclares : s.store.Declares c id := by
      unfold Store.Declares Store.ownMethod? Store.classOf at hdeclares ⊢
      rwa [hclasses] at hdeclares
    rw [hclasses] at hc
    have hold := h.consistent.method_lt hc hdeclares
    omega

omit hfacts in
/-- The methods of a class are placed where the class is, and only the class declares them. -/
theorem declaring_class {name : Token} {parent : ClassId} {methods : List FunctionDecl}
    {store : Store} (h : store.Consistent (KnownIn U)) (hscope : scope.index < store.scopes.size)
    (hwithin : FunctionDecl.occurrencesOfAll (context.declare [name.lexeme]) methods ⊆ U) :
    Declaring U Occurs scope context name.lexeme store
      ((store.newFunctions scope methods).2.declareClass name.lexeme (some parent)
        (store.newFunctions scope methods).1).2 := by
  obtain ⟨-, hids⟩ := h.newFunctions (known_of_mem hwithin) hscope
  have hsize : (store.newFunctions scope methods).2.classes.size = store.classes.size :=
    congrArg Arena.size (Store.newFunctions_classes scope methods store)
  have hgrows : store.Grows ((store.newFunctions scope methods).2.declareClass name.lexeme
      (some parent) (store.newFunctions scope methods).1).2 :=
    (Store.grows_newFunctions scope methods store).trans (Store.grows_newClass ..)
  have hold : ∀ (c : ClassId) (id : FunctionId),
      c.index < ((store.newFunctions scope methods).2.declareClass name.lexeme (some parent)
        (store.newFunctions scope methods).1).2.classes.size →
      ((store.newFunctions scope methods).2.declareClass name.lexeme (some parent)
        (store.newFunctions scope methods).1).2.Declares c id →
      id.index < store.functions.size → c.index < store.classes.size :=
    fun _ _ => old_of_declares hsize fun entry hentry => (hids entry hentry).1
  refine ⟨hgrows, Store.newFunctions_scopes scope methods store, ?_, hold, ?_⟩
  · -- A new function is one of the methods, and its text is the text of a method.
    intro b hfunctions _ hfollows id hle hlt
    rw [hfunctions] at hlt
    obtain ⟨hmem, hclosure⟩ := newFunctions_functions hle hlt
    have hfunction : b.function id = (store.newFunctions scope methods).2.function id := by
      unfold Store.function
      rw [hfunctions]
      rfl
    refine ⟨context.declare [name.lexeme], true, ?_, ?_, fun _ _ _ => rfl⟩
    · rw [hfunction, hclosure]
      exact hfollows
    · rw [hfunction]
      exact List.Subset.trans (occurrences_subset_methods hmem) hwithin
  · -- There is one new class, so no two new classes can declare one function.
    refine .of_new h hgrows ?_ hold
    rw [← hsize]
    exact Arena.size_push ..

omit hfacts in
/-- The superclass is looked up and declares nothing. -/
theorem parentClass_quiet (superclass : Option Token) :
    (parentClass scope superclass).Quiet U (some scope) context := by
  cases superclass with
  | none => exact quiet_pure _
  | some parent =>
    refine (quiet_act (silent_readOrFail _)).bind fun value => ?_
    cases value with
    | classRef id => exact quiet_pure id
    | _ => exact quiet_act (silent_fail _)

/-- A class is made from its superclass and its methods, and its name is declared last. -/
theorem classDecl_nested (honce : OpensOnce Occurs) {name : Token} {superclass : Option Token}
    {methods : List FunctionDecl} (hnested : Nested U Occurs s.store)
    (hat : At Occurs s.store scope context)
    (hwithin : (Stmt.classDecl name superclass methods).occurrences context ⊆ U)
    (hroom : context.HasRoom (Stmt.classDecl name superclass methods).declared) :
    (nesting U Occurs).Meets Occurs fuel
      (Task.executeBody scope (.classDecl name superclass methods)) s
      (Executes U Occurs scope (.classDecl name superclass methods) s) := by
  rw [Stmt.occurrences] at hwithin
  have hmethods := (List.append_subset.mp hwithin).2
  -- First the superclass is looked up, which may fail but declares nothing.
  refine meets_bind (meets_bind
    ((quiet_nested hfacts (.refl hnested) hat (parentClass_quiet superclass)).mono ?_))
  intro outcome hreaches₁
  cases outcome with
  | error interrupt s₁ => exact ⟨hreaches₁.weaken, trivial⟩
  | ok parent s₁ =>
    have hreaches₁ : Reaches U Occurs none [] s.store s₁.store := hreaches₁
    have hat₁ := hat.quiet hreaches₁
    refine meets_bind (layer_act hfacts fun hsound _ _ => ?_)
    have hsound : SoundStore U Occurs s₁.store := hsound
    refine meets_bind (layer_act hfacts fun _ _ _ => ?_)
    -- The functions and the class are made next. The name is declared only after that.
    have hdeclaring : Declaring U Occurs scope context name.lexeme s₁.store
        ((s₁.store.newFunctions scope methods).2.declareClass name.lexeme (some parent)
          (s₁.store.newFunctions scope methods).1).2 :=
      declaring_class hsound.consistent hat₁.follows.lt hmethods
    refine (define_nested hfacts honce hdeclaring hreaches₁.nested hat₁ hroom).mono ?_
    rintro outcome ⟨hreaches₂, hdeclares⟩
    have hexecutes : (nesting U Occurs).andThen Occurs fuel (fun _ => pure (.normal .nil))
        (Executes U Occurs scope (.classDecl name superclass methods) s₁) outcome :=
      executes_of_define rfl hreaches₂ hdeclares
    cases outcome with
    | error interrupt s₂ => exact Executes.after hreaches₁ hexecutes
    | ok _ s₂ => exact Executes.after hreaches₁ hexecutes

/-- All statements, by their kind. Each keeps the nesting, and at its end the scope has the names
that it declares. -/
theorem execute_nested (honce : OpensOnce Occurs) {stmt : Stmt} (h : SoundStore U Occurs s.store)
    (hnested : Nested U Occurs s.store) (hat : At Occurs s.store scope context)
    (hwithin : stmt.occurrences context ⊆ U) (hroom : context.HasRoom stmt.declared) :
    (nesting U Occurs).Meets Occurs fuel (Task.executeBody scope stmt) s
      (Executes U Occurs scope stmt s) := by
  -- Some statements declare a name, some open scopes, and all others are quiet.
  cases stmt with
  | expression expr =>
    rw [Stmt.occurrences] at hwithin
    refine quiet_executes hfacts rfl ?_ hnested hat
    exact (quiet_evaluate hwithin).bind fun value => quiet_pure _
  | print expr =>
    rw [Stmt.occurrences] at hwithin
    refine quiet_executes hfacts rfl ?_ hnested hat
    refine (quiet_evaluate hwithin).bind fun value => ?_
    refine (quiet_act (silent_read _)).bind fun text => ?_
    exact (quiet_act (silent_of_store (write_store _))).bind fun _ => quiet_pure _
  | varDecl name init => exact varDecl_nested hfacts honce hnested hat hwithin hroom
  | block statements =>
    rw [Stmt.occurrences] at hwithin
    exact block_nested hfacts honce hnested hat.follows hwithin
  | ifElse condition thenBranch elseBranch => exact ifElse_nested hfacts honce hnested hat hwithin
  | whileLoop condition body =>
    rw [Stmt.occurrences] at hwithin
    exact quiet_executes hfacts rfl (quiet_perform rfl hwithin rfl fun _ => trivial) hnested hat
  | forLoop init condition post body =>
    exact forLoop_executes hfacts honce hnested hat.follows hwithin
  | function decl => exact function_nested hfacts honce h hnested hat hwithin hroom
  | returnValue keyword value =>
    rw [Stmt.occurrences] at hwithin
    refine quiet_executes hfacts rfl ?_ hnested hat
    exact (quiet_evaluateOption hwithin).bind fun result => quiet_pure _
  | classDecl name superclass methods =>
    exact classDecl_nested hfacts honce hnested hat hwithin hroom

/-! ## Rows of statements

The names of a row are declared one by one, and each statement of the row stands where those of the
statements before are declared. A return ends the row with some of the names missing. -/

/-- A row of statements declares in its scope names of its own and no others. -/
theorem executeAll_nested {statements : List Stmt} (hnested : Nested U Occurs s.store)
    (hat : At Occurs s.store scope context)
    (hwithin : Stmt.occurrencesOfAll context statements ⊆ U)
    (hroom : context.HasRoom (Stmt.declaredByAll statements)) :
    (nesting U Occurs).Meets Occurs fuel (Task.executeAllBody scope statements) s fun outcome =>
      Reaches U Occurs (some scope) (Stmt.declaredByAll statements) s.store
        (finalState outcome).store := by
  cases statements with
  | nil => exact .refl hnested
  | cons stmt rest =>
    rw [Stmt.occurrencesOfAll] at hwithin
    have hstmt := (List.append_subset.mp hwithin).1
    have hrest := (List.append_subset.mp hwithin).2
    have hbegins : (Task.execute scope stmt).Begins U Occurs s.store :=
      Task.begins_at rfl hnested hat hstmt hroom.first trivial
    -- The first statement declares some of the names.
    have hfirst : ∀ {b : Store}, Reaches U Occurs (some scope) stmt.declared s.store b →
        Reaches U Occurs (some scope) (Stmt.declaredByAll (stmt :: rest)) s.store b := by
      intro b hreaches
      have hrefl : Reaches U Occurs (some scope) (Stmt.declaredByAll (stmt :: rest)) s.store
          s.store := .refl hnested
      exact hrefl.trans hreaches fun _ _ heq _ hmem => ⟨heq, List.mem_append_left _ hmem⟩
    cases rest with
    | nil =>
      refine layer_perform hfacts (fun _ _ => hbegins) ?_
      rintro outcome - - ⟨hreaches, -⟩
      exact hfirst hreaches
    | cons next rest =>
      refine layer_sub hfacts (fun _ _ => hbegins) ?_ ?_
      · rintro interrupt s₁ - - ⟨hreaches, -⟩
        exact hfirst hreaches
      · rintro completion s₁ - - ⟨hreaches, hsettled⟩
        have hreaches : Reaches U Occurs (some scope) stmt.declared s.store s₁.store := hreaches
        cases completion with
        | returned value => exact hfirst hreaches
        | normal value =>
          -- The rest stands where the names of the first statement are declared.
          have hat₁ : At Occurs s₁.store scope (context.declare stmt.declared) :=
            hat.settled hreaches hsettled
          have hbegins₁ : (Task.executeAll scope (next :: rest)).Begins U Occurs s₁.store :=
            Task.begins_at rfl hreaches.nested hat₁ hrest hroom.rest trivial
          refine layer_perform hfacts (fun _ _ => hbegins₁) ?_
          rintro outcome - - ⟨hreaches₂, -⟩
          exact (hfirst hreaches).trans hreaches₂ fun _ _ heq _ hmem =>
            ⟨heq, List.mem_append_right _ hmem⟩

/-! ## Loops

What a loop declares, its body declares in a scope of its own for each turn. So the scope of a loop
is the same before and after any number of turns, and the next turn starts where the first one
did. -/

/-- One turn of a loop, after which what is left of the loop is quiet. The scope of the turn is a
branch of the loop, and since it is left again, the loop stands where it stood before. -/
theorem turn_nested (honce : OpensOnce Occurs) {stmt : Stmt} {f : Completion → Plan Completion}
    {a : Store} (hreaches : Reaches U Occurs none [] a s.store)
    (hat : At Occurs s.store scope context)
    (hwithin : stmt.occurrences (context.enter (.branch stmt)) ⊆ U)
    (hquiet : ∀ completion, (f completion).Quiet U (some scope) context) :
    (nesting U Occurs).Meets Occurs fuel
      (do
        let inner ← child (.branch stmt) scope
        let completion ← perform (.execute inner stmt)
        f completion) s
      fun outcome => Reaches U Occurs none [] a (finalState outcome).store := by
  show (nesting U Occurs).Meets Occurs fuel
    ((child (.branch stmt) scope >>= fun inner => perform (.execute inner stmt)) >>= f) s _
  refine meets_bind ((branch_nested hfacts honce hreaches.nested hat.follows hwithin).mono ?_)
  intro outcome hreaches₁
  cases outcome with
  | error interrupt s₁ => exact hreaches.quiet hreaches₁
  | ok completion s₁ =>
    have hreaches₁ : Reaches U Occurs none [] s.store s₁.store := hreaches₁
    exact quiet_nested hfacts (hreaches.quiet hreaches₁) (hat.quiet hreaches₁) (hquiet completion)

/-- A `while` loop, of which the rest after a turn is again the same loop. It declares nothing
itself, so that the context at its end is the one at its start. -/
theorem whileLoop_nested (honce : OpensOnce Occurs) {condition : Expr} {body : Stmt}
    (hnested : Nested U Occurs s.store) (hat : At Occurs s.store scope context)
    (hwithin : (Task.whileLoop scope condition body).occurrences context ⊆ U) :
    (nesting U Occurs).Meets Occurs fuel (Task.whileLoopBody scope condition body) s
      fun outcome => Reaches U Occurs none [] s.store (finalState outcome).store := by
  have hcondition := (List.append_subset.mp hwithin).1
  have hbody := (List.append_subset.mp hwithin).2
  refine meets_bind
    ((quiet_nested hfacts (.refl hnested) hat (quiet_evaluate hcondition)).mono ?_)
  intro outcome hreaches₁
  cases outcome with
  | error interrupt s₁ => exact hreaches₁
  | ok value s₁ =>
    have hreaches₁ : Reaches U Occurs none [] s.store s₁.store := hreaches₁
    have hat₁ := hat.quiet hreaches₁
    dsimp only [andThen]
    split
    · refine turn_nested hfacts honce hreaches₁ hat₁ hbody fun completion => ?_
      cases completion with
      | returned value => exact quiet_pure _
      | normal value => exact quiet_perform rfl hwithin rfl fun _ => trivial
    · exact hreaches₁

omit hfacts in
/-- The condition of a `for`, which may be absent, declares nothing. -/
theorem goesOn_quiet {condition : Option Expr}
    (hwithin : context.place (clauseUses condition) ⊆ U) :
    (goesOn scope condition).Quiet U (some scope) context := by
  cases condition with
  | none => exact quiet_pure _
  | some condition => exact (quiet_evaluate hwithin).bind fun value => quiet_pure _

/-- The turns of a `for`, in the scope of its clauses. The last clause is evaluated in that scope as
well, and not in the scope of a turn. -/
theorem forLoop_nested (honce : OpensOnce Occurs) {condition post : Option Expr} {body : Stmt}
    (hnested : Nested U Occurs s.store) (hat : At Occurs s.store scope context)
    (hwithin : (Task.forLoop scope condition post body).occurrences context ⊆ U) :
    (nesting U Occurs).Meets Occurs fuel (Task.forLoopBody scope condition post body) s
      fun outcome => Reaches U Occurs none [] s.store (finalState outcome).store := by
  have hclauses := (List.append_subset.mp hwithin).1
  have hcondition := (List.append_subset.mp hclauses).1
  have hpost := (List.append_subset.mp hclauses).2
  have hbody := (List.append_subset.mp hwithin).2
  refine meets_bind
    ((quiet_nested hfacts (.refl hnested) hat (goesOn_quiet hcondition)).mono ?_)
  intro outcome hreaches₁
  cases outcome with
  | error interrupt s₁ => exact hreaches₁
  | ok goOn s₁ =>
    have hreaches₁ : Reaches U Occurs none [] s.store s₁.store := hreaches₁
    have hat₁ := hat.quiet hreaches₁
    dsimp only [andThen]
    split
    · refine turn_nested hfacts honce hreaches₁ hat₁ hbody fun completion => ?_
      cases completion with
      | returned value => exact quiet_pure _
      | normal value =>
        refine (quiet_evaluateOption hpost).bind fun _ => ?_
        exact quiet_perform rfl hwithin rfl fun _ => trivial
    · exact hreaches₁

/-! ## All tasks -/

/-- Every task keeps the nesting, if the tasks inside it do. -/
theorem nesting_kept (honce : OpensOnce Occurs) : (nesting U Occurs).Kept Occurs where
  exhausted := by
    intro task s _ hbegins
    have hbegins : task.Begins U Occurs s.store := hbegins
    exact ⟨.refl hbegins.nested, trivial⟩
  body := by
    intro fuel task s hoccurs h hbegins
    have h : SoundStore U Occurs s.store := h
    obtain ⟨hnested, hplace, hbalanced⟩ : task.Begins U Occurs s.store := hbegins
    obtain ⟨-, ⟨hvalid, -⟩, -⟩ := hfacts _ hoccurs
    have hdone : ∀ outcome : Outcome task.Result,
        Reaches U Occurs none [] s.store (finalState outcome).store →
        (∀ store, task.Settled store) → (nesting U Occurs).post task s outcome := by
      intro outcome hreaches hsettled
      refine ⟨hreaches.weaken, ?_⟩
      cases outcome with
      | ok a s' => exact hsettled s'.store
      | error interrupt s' => trivial
    -- Expressions and loops declare nothing where they stand, and calls run in scopes of their own.
    -- What is left are single statements and rows of statements.
    cases task with
    | evaluate scope expr =>
      obtain ⟨context, hat, hwithin, -⟩ := hplace scope rfl
      exact (quiet_nested hfacts (.refl hnested) hat (evaluate_quiet hwithin)).mono
        fun outcome hreaches => hdone outcome hreaches fun _ => trivial
    | evaluateAll scope exprs =>
      obtain ⟨context, hat, hwithin, -⟩ := hplace scope rfl
      exact (quiet_nested hfacts (.refl hnested) hat (evaluateAll_quiet hwithin)).mono
        fun outcome hreaches => hdone outcome hreaches fun _ => trivial
    | evaluateOption scope expr =>
      obtain ⟨context, hat, hwithin, -⟩ := hplace scope rfl
      exact (quiet_nested hfacts (.refl hnested) hat (evaluateOption_quiet hwithin)).mono
        fun outcome hreaches => hdone outcome hreaches fun _ => trivial
    | call callee arguments =>
      exact (call_nested hfacts h hnested).mono
        fun outcome hreaches => hdone outcome hreaches fun _ => trivial
    | construct id start arguments =>
      exact (construct_nested hfacts h hnested).mono
        fun outcome hreaches => hdone outcome hreaches fun _ => trivial
    | invoke id binding arguments =>
      exact (invoke_nested hfacts honce h hnested hvalid.1 hvalid.2.1 hbalanced).mono
        fun outcome hreaches => hdone outcome hreaches fun _ => trivial
    | execute scope stmt =>
      obtain ⟨context, hat, hwithin, hroom⟩ := hplace scope rfl
      exact execute_nested hfacts honce h hnested hat hwithin hroom
    | executeAll scope statements =>
      obtain ⟨context, hat, hwithin, hroom⟩ := hplace scope rfl
      refine (executeAll_nested hfacts hnested hat hwithin hroom).mono ?_
      intro outcome hreaches
      exact ⟨hreaches, by cases outcome <;> trivial⟩
    | whileLoop scope condition body =>
      obtain ⟨context, hat, hwithin, -⟩ := hplace scope rfl
      exact (whileLoop_nested hfacts honce hnested hat hwithin).mono
        fun outcome hreaches => hdone outcome hreaches fun _ => trivial
    | forLoop scope condition post body =>
      obtain ⟨context, hat, hwithin, -⟩ := hplace scope rfl
      exact (forLoop_nested hfacts honce hnested hat hwithin).mono
        fun outcome hreaches => hdone outcome hreaches fun _ => trivial

end

end

end Script
