import Script.Proofs.Grammar.Shape
import Script.Proofs.Grammar.Source
import Script.Proofs.Run.Uniform
import Script.Proofs.Store.Growth

/-!
# Parsed programs never get stuck

The evaluator has no rule for some trees, such as a binary node that carries a `!`. The parser
builds none of them (`parse_formed`), the tasks that a formed task calls are formed, and the bodies
in the store are those of functions that formed statements have declared. So no run of a parsed
program comes to a tree without a rule, and no `for` starts with a statement that returns
(`parsed_neverStuck`).
-/

namespace Script

/-- The trees that the task is about are formed. -/
def Task.Formed : Task → Prop
  | .evaluate _ expr => expr.Formed
  | .evaluateAll _ exprs => Expr.AllFormed exprs
  | .evaluateOption _ expr => FormedClause expr
  | .call _ _ | .construct _ _ _ | .invoke _ _ _ => True
  | .execute _ stmt => stmt.Formed
  | .executeAll _ statements => Stmt.AllFormed statements
  | .whileLoop _ condition body => condition.Formed ∧ body.Formed
  | .forLoop _ condition post body => (FormedClause condition ∧ FormedClause post) ∧ body.Formed

/-- The bodies of all functions in the store are formed. -/
def Store.Formed (store : Store) : Prop := ∀ id, (store.function id).decl.Formed

/-! ## Formed trees have rules

A tree without a rule is one that a task misfits (`Task.Misfit`). There are three ways to misfit,
and a formed tree takes none of them. -/

/-- Between them, the rules cover all binary operators. -/
theorem covered_of_mem_binaryKinds : ∀ kind ∈ binaryKinds,
    (kind = .equal ∨ kind = .kwOr ∨ kind = .kwAnd) ∨ (kind = .equalEqual ∨ kind = .bangEqual) ∨
      (numericOperator? kind).isSome = true := by
  unfold binaryKinds
  simp [numericOperator?]

/-- No formed task is about a tree without a rule. -/
theorem Task.Formed.not_misfit {task : Task} (h : task.Formed) : ¬ task.Misfit := by
  intro hmisfit
  cases hmisfit with
  | unary hminus hbang =>
    obtain ⟨hkind, -⟩ := h
    exact hkind.elim hbang hminus
  -- A binary node carries one of the operators that parsing knows, and all of these are covered.
  | binary hlogical hequality hnumeric =>
    obtain ⟨hkind, -⟩ := h
    have hcovered := covered_of_mem_binaryKinds _ hkind
    rw [hnumeric] at hcovered
    simp [hlogical, hequality] at hcovered
  | assignment hkind hleft =>
    obtain ⟨-, hassigned, -⟩ := h
    obtain ⟨name, hname⟩ := hassigned hkind
    exact hleft name hname

/-! ## Formed tasks call formed tasks

The parts of a formed tree are formed, and bodies of functions are taken from the store. -/

/-- The statements inside a formed statement are formed. Where a clause or a branch may be absent,
what is formed is written differently in the two cases, and the cases are told apart. -/
theorem Task.Formed.encloses {task other : Task} (h : task.Formed) (hcalls : task.Encloses other) :
    other.Formed := by
  cases hcalls with
  | block scope inner body => exact h
  | thenBranch scope inner condition thenBranch elseBranch =>
    cases elseBranch with
    | none => exact h.2.2
    | some elseBranch => exact h.2.1.2
  | elseBranch scope inner condition thenBranch elseBranch => exact h.2.2.2
  | whileStmt scope condition body => exact ⟨h.1, h.2.2⟩
  | forStmt scope clauses init condition post body =>
    cases init with
    | none => exact ⟨h.1, h.2.2⟩
    | some init => exact ⟨h.2.1, h.2.2.2⟩
  | first scope stmt rest => exact h.1
  | rest scope stmt next rest => exact h.2
  | whileBody scope inner condition body => exact h.2
  | whileAgain scope condition body => exact h
  | forBody clauses inner condition post body => exact h.2
  | forAgain clauses condition post body => exact h

/-- So is every task that a formed task calls. -/
theorem Task.Formed.calls {task other : Task} (h : task.Formed)
    (hcalls : task.Calls (fun s => s.store.Formed) other) : other.Formed := by
  cases hcalls with
  | inside hencloses => exact h.encloses hencloses
  -- This body does not come from the tree of the task, but from the store.
  | body hformed id binding arguments scope => exact (hformed id).body
  | init scope clauses init condition post body => exact h.1.2
  | expression scope expr => exact h
  | print scope expr => exact h
  | varDecl scope name init => exact h
  | condition scope condition thenBranch elseBranch =>
    cases elseBranch with
    | none => exact h.1
    | some elseBranch => exact h.1
  | returned scope keyword value => exact h
  | whileCondition scope condition body => exact h.1
  | forCondition clauses condition post body => exact h.1.1
  | post clauses condition post body => exact h.1.2
  | grouping scope inner => exact h
  | operand scope operator operand => exact h.2
  | left scope left operator right => exact h.2.2.1
  | right scope left operator right => exact h.2.2.2
  | callee scope callee paren arguments => exact h.1
  | arguments scope callee paren arguments => exact h.2
  | object scope object name => exact h
  | target scope object name value => exact h.1
  | assigned scope object name value => exact h.2
  | superArguments scope keyword arguments => exact h
  | firstOf scope expr rest => exact h.1
  | restOf scope expr rest => exact h.2
  | given scope expr => exact h
  | call callee arguments => trivial
  | construct id start arguments => trivial
  | invoke id binding arguments => trivial

/-! ## Formed tasks declare formed functions

Only two kinds of statements put functions into the store, and the bodies are parts of them. -/

/-- What a formed task declares is formed: the function, or the methods of the class. -/
theorem Task.Formed.functionDecls {task : Task} (h : task.Formed) :
    FunctionDecl.AllFormed task.functionDecls := by
  unfold Task.functionDecls
  split
  · exact ⟨h, trivial⟩
  · exact h
  · trivial

/-- It depends on the functions of the store only. -/
theorem Store.Formed.of_functions {a b : Store} (h : a.Formed) (hsame : b.functions = a.functions) :
    b.Formed := by
  intro id
  unfold Store.function
  rw [hsame]
  exact h id

/-- A new function has the body that was declared, and the others keep theirs. -/
theorem Store.Formed.newFunction {store : Store} (h : store.Formed) {decl : FunctionDecl}
    (hdecl : decl.Formed) (closure : ScopeId) : (store.newFunction decl closure).2.Formed := by
  intro id
  show ((store.functions.push ⟨decl, closure, .empty⟩).get id.index).decl.Formed
  by_cases hnew : id.index = store.functions.size
  · rw [hnew, Arena.get_push_size]
    exact hdecl
  · rw [Arena.get_push_of_ne _ _ hnew]
    exact h id

/-- The same holds of all the methods of a class. -/
theorem Store.Formed.newFunctions {store : Store} (h : store.Formed) {decls : List FunctionDecl}
    (hdecls : FunctionDecl.AllFormed decls) (closure : ScopeId) :
    (store.newFunctions closure decls).2.Formed := by
  induction decls generalizing store with
  | nil => exact h
  | cons decl rest ih => exact ih (h.newFunction hdecls.1 closure) hdecls.2

/-- A property of a function may change, not its body. A store is formed if the bodies of its
functions are, so classes and instances do not come into it at all. -/
theorem Store.Formed.setProperty {store store' : Store} (h : store.Formed) {object value : Value}
    {name : String} (hset : store.setProperty object name value = .ok store') : store'.Formed := by
  cases object with
  | function ref =>
    cases ref with
    | user id =>
      obtain rfl := Except.ok.inj hset
      intro other
      have hdecl : ((store.functions.modify id.index fun x =>
          { x with fields := x.fields.set name value }).get other.index).decl =
          (store.function other).decl :=
        store.functions.get_modify_part id.index other.index fun _ => rfl
      show ((store.functions.modify id.index _).get other.index).decl.Formed
      rw [hdecl]
      exact h other
    | native native =>
      obtain rfl := Except.ok.inj hset
      exact h.of_functions rfl
    | bound id =>
      obtain rfl := Except.ok.inj hset
      exact h.of_functions rfl
  | classRef id =>
    obtain rfl := Except.ok.inj hset
    exact h.of_functions rfl
  | instanceRef id =>
    obtain rfl := Except.ok.inj hset
    exact h.of_functions rfl
  | _ => cases hset

/-- The functions that are in the store after an action of a formed task have formed bodies. -/
theorem Task.Formed.changes {task : Task} (h : task.Formed) {s s' : State}
    (hchanges : task.Changes s s') (hstore : s.store.Formed) : s'.store.Formed := by
  cases hchanges with
  | newFunctions closure hdecls => exact hstore.newFunctions (hdecls ▸ h.functionDecls) closure
  | setProperty _ hset => exact hstore.setProperty hset
  | write text => exact hstore.of_functions (by rw [Contract.write_store])
  | _ => exact hstore.of_functions rfl

/-- The initial store has no functions at all. -/
theorem Store.formed_initial : Store.initial.Formed := fun _ => trivial

/-! ## Runs

Being formed is kept by every step, hence by every run, and a run from a formed store never gets
stuck. -/

/-- Runs of formed tasks keep the store formed and never come to a tree without a rule. -/
theorem uniform_formed : Uniform (fun s => s.store.Formed) (fun _ _ => True) (· ≠ .malformed)
    Task.Formed where
  exhausted := nofun
  keeps := fun htask hchanges hstore => ⟨htask.changes hchanges hstore, trivial⟩
  fails := fun htask hfails => by
    cases hfails with
    | error herror => exact nofun
    | malformed hmisfit => exact absurd hmisfit htask.not_misfit
  calls := fun htask hcalls => htask.calls hcalls

/-- What may start a `for` does not return: an expression and a declaration end with a value, and
nothing else may stand there. -/
theorem Stmt.completes_of_isInitializer {stmt : Stmt} (h : stmt.isInitializer = true) (fuel : Nat)
    (scope : ScopeId) (s s' : State) (value : Value) :
    (Task.execute scope stmt).run fuel s ≠ .ok (.returned value) s' := by
  intro hreturned
  cases fuel with
  | zero =>
    rw [Task.run_zero] at hreturned
    cases hreturned
  | succ fuel =>
    have hreturned : Eval.execute (fuel + 1) scope stmt s = .ok (.returned value) s' := hreturned
    cases stmt with
    | expression expr =>
      rw [Eval.execute] at hreturned
      obtain ⟨result, s₁, -, hpure⟩ := Eval.bind_eq_ok.mp hreturned
      cases hpure
    | varDecl name init =>
      rw [Eval.execute] at hreturned
      obtain ⟨result, s₁, -, hdefine⟩ := Eval.bind_eq_ok.mp hreturned
      obtain ⟨-, s₂, -, hpure⟩ := Eval.bind_eq_ok.mp hdefine
      cases hpure
    | _ => cases h

/-- In no run does the evaluator meet a tree that the parser does not build. -/
structure NeverStuck (fuel : Nat) (scope : ScopeId) (statements : List Stmt) (s : State) :
    Prop where
  /-- No expression, call or statement of the run, in whatever function, ends at a tree without a
  rule. -/
  tasks : ∀ fuel' task state,
    .visit fuel' task state ∈ sessionTrace fuel scope statements s →
      ∀ s', task.run fuel' state ≠ .error .malformed s'
  /-- No `for` of the run starts with a statement that returns. -/
  initializers : ∀ fuel' inner init condition post body state,
    .visit fuel' (.execute inner (.forLoop (some init) condition post body)) state ∈
        sessionTrace fuel scope statements s →
      ∀ fuel'' clauses s₁ s₂ value,
        (Task.execute clauses init).run fuel'' s₁ ≠ .ok (.returned value) s₂
  /-- Nor does the run as a whole end so, whether it stops at the first failure or goes on. -/
  run : ∀ s', Eval.run fuel scope statements s ≠ .error .malformed s'
  runEach : ∀ s', Eval.runEach fuel scope statements s ≠ .error .malformed s'
  /-- The same holds of whatever is run after it. -/
  formed : (finalState (Eval.run fuel scope statements s)).store.Formed ∧
    (finalState (Eval.runEach fuel scope statements s)).store.Formed

/-- Formed statements never get stuck in a formed store. -/
theorem neverStuck_of_formed {statements : List Stmt}
    (hstatements : ∀ stmt ∈ statements, stmt.Formed) (fuel : Nat) (scope : ScopeId) {s : State}
    (hstore : s.store.Formed) : NeverStuck fuel scope statements s := by
  obtain ⟨s', hends⟩ :=
    @Uniform.session_ends _ _ _ _ uniform_formed scope statements s hstatements hstore fuel
  obtain ⟨hrun, hformed⟩ :=
    @Uniform.safe_run _ _ _ _ uniform_formed fuel scope nofun statements hstatements s hstore
  obtain ⟨hrunEach, hformedEach⟩ :=
    @Uniform.safe_runEach _ _ _ _ uniform_formed fuel scope nofun statements hstatements s hstore
  -- The contract of formed programs gives all of it: for tasks and initializers at each visit of
  -- the trace, for the two ways to run a program at its end.
  refine ⟨?tasks, ?initializers, ?run, ?runEach, hformed, hformedEach⟩
  case tasks =>
    intro fuel' task state hvisit s₁ hmalformed
    obtain ⟨-, -, -, -, hpost⟩ := hends.covers.facts _ hvisit
    exact hpost _ s₁ hmalformed rfl
  case initializers =>
    intro fuel' inner init condition post body state hvisit fuel'' clauses s₁ s₂ value
    obtain ⟨-, hformed, -⟩ := hends.covers.facts _ hvisit
    have hformed : (Stmt.forLoop (some init) condition post body).Formed := hformed
    exact Stmt.completes_of_isInitializer hformed.1.1 fuel'' clauses s₁ s₂ value
  case run => exact fun s₁ hmalformed => hrun _ s₁ hmalformed rfl
  case runEach => exact fun s₁ hmalformed => hrunEach _ s₁ hmalformed rfl

/-- What the parser builds from a row of tokens is formed, and its statements never get stuck. They
may be run in any scope of any store whose functions come from parsed programs, as those of the
initial store and of each store after such a run do. -/
theorem parsed_neverStuck {tokens : List Token} {program : List Stmt}
    (h : parse tokens = .ok program) :
    Stmt.AllFormed program ∧ Store.initial.Formed ∧
      ∀ statements, statements ⊆ program → ∀ fuel scope s, s.store.Formed →
        NeverStuck fuel scope statements s := by
  have hformed := parse_formed h
  refine ⟨hformed, Store.formed_initial, fun statements hsubset fuel scope s hstore => ?_⟩
  refine neverStuck_of_formed (fun stmt hmem => ?_) fuel scope hstore
  exact Stmt.allFormed_iff.mp hformed stmt (hsubset hmem)

/-- All operators, a method that returns from a loop, and a `for` of each form. -/
def operatorsSource : String :=
  "class A \x7b fun f(x) \x7b for (var i = 0; i < x; i = i + 1) if (!x or i == 3) return -i;
   \x7d \x7d
   while (1 >= 2 and 3 != 4 * 5) nil; for (A(); 1 <= 0;) print A().f(5) - 1 / 2 > 3; for (;;) a();"

/-- The theorem at this program, run from the initial state. -/
theorem parsed_neverStuck_operators : ∃ program, parse (tokens operatorsSource) = .ok program ∧
    Stmt.AllFormed program ∧
      NeverStuck 60 Store.globalScope program (.initial .unlimited ⟨fun _ => ⟨0⟩⟩) := by
  obtain ⟨program, hread, -⟩ := @exists_read operatorsSource (fun _ => True) _ (by decide +kernel)
  have hparse := parse_of_read hread
  obtain ⟨hformed, hinitial, hruns⟩ := parsed_neverStuck hparse
  exact ⟨program, hparse, hformed, hruns program (fun _ h => h) 60 _ _ hinitial⟩

end Script
