import Script.Proofs.Scoping.NestedPrograms
import Script.Proofs.Scoping.Resolution

/-!
# Lexical scoping

There is no pass over a program that resolves its names: every name is looked up when it is met,
in whatever scopes there are at that moment. Where a program declares its names in time, each of
them is found in the scope that belongs to its declaration all the same, and the text tells how
many scopes away that one is (`lexicallyScoped_of_read`).
-/

namespace Script

open Contract

/-- What holds of the names of variables throughout the run of a program. -/
structure LexicallyScoped (fuel : Nat) (program : List Stmt) (s : State) : Prop where
  /-- A scope belongs to one region of the text. -/
  opened : OpensOnce (· ∈ programTrace fuel program s)
  /-- What a region declares under a name that occurs in it has been declared before. -/
  settled : ∀ o ∈ programOccurrences program, o.role.isUse = true → o.Settled
  /-- A name that is read is read in the scope that the text tells. -/
  read : ∀ fuel' scope name state,
    .visit (fuel' + 1) (.evaluate scope (.variable name)) state ∈ programTrace fuel program s →
    ∃ context owner, StandsAt program .read name context ∧
      FoundAt (· ∈ programTrace fuel program s) state.store scope context name.lexeme owner ∧
      Eval.evaluate (fuel' + 1) scope (.variable name) state =
        Eval.readOrFail (fun store => store.valueIn owner name.lexeme) state
  /-- A name that is assigned to is assigned to in the scope that the text tells, once the value
  has been evaluated. -/
  assigned : ∀ fuel' scope name operator value state, operator.kind = .equal →
    .visit (fuel' + 1) (.evaluate scope (.binary (.variable name) operator value)) state ∈
      programTrace fuel program s →
    ∃ context, StandsAt program .assigned name context ∧
      ∀ result after, Eval.evaluate fuel' scope value state = .ok result after →
        ∃ owner,
          FoundAt (· ∈ programTrace fuel program s) after.store scope context name.lexeme owner ∧
          Eval.evaluate (fuel' + 1) scope (.binary (.variable name) operator value) state =
            if after.store.declares owner name.lexeme then
              .ok result { after with store := after.store.bind owner name.lexeme result }
            else .error (.error (.undefinedVariable name.lexeme)) after
  /-- The superclass of a class is read in the scope that the text tells. -/
  superclass : ∀ fuel' scope name parent methods state,
    .visit (fuel' + 1) (.execute scope (.classDecl name (some parent) methods)) state ∈
      programTrace fuel program s →
    ∃ context owner, StandsAt program .superclass parent context ∧
      FoundAt (· ∈ programTrace fuel program s) state.store scope context parent.lexeme owner ∧
      Eval.execute (fuel' + 1) scope (.classDecl name (some parent) methods) state =
        (do
          let value ← Eval.readOrFail fun store => store.valueIn owner parent.lexeme
          let parentId ← match value with
            | .classRef id => pure id
            | _ => Eval.fail (.notAClass parent.lexeme)
          let functions ← Eval.allocate fun store => store.newFunctions scope methods
          let id ← Eval.allocate fun store =>
            store.declareClass name.lexeme (some parentId) functions
          Eval.define scope name.lexeme (.classRef id)
          pure (.normal .nil) : Eval Completion) state

/-! ## Evaluation by the scope that is found

The evaluator walks along the scopes. Once it is known where the walk ends, it can be left out of
what is evaluated: a name is read in the table of one scope, and assigned in that table. -/

section

variable {Occurs : Moment → Prop} {scope owner : ScopeId} {context : Context} {name : Token}
  {fuel : Nat} {state after : State}

/-- A name is looked up in the scope that it is found in. -/
theorem FoundAt.lookup_eval {name : String}
    (h : FoundAt Occurs state.store scope context name owner) :
    Eval.lookup scope name state =
      Eval.readOrFail (fun store => store.valueIn owner name) state := by
  unfold Eval.lookup Eval.readOrFail
  dsimp only
  rw [h.lookup]

/-- An assignment evaluates the value, and then changes the scope that the name is found in. If that
scope does not hold the name, then it is the global one, and the assignment fails. -/
theorem FoundAt.evaluate_assigned {operator : Token} {value : Expr} {result : Value}
    (hequal : operator.kind = .equal)
    (hvalue : Eval.evaluate fuel scope value state = .ok result after)
    (h : FoundAt Occurs after.store scope context name.lexeme owner) :
    Eval.evaluate (fuel + 1) scope (.binary (.variable name) operator value) state =
      if after.store.declares owner name.lexeme then
        .ok result { after with store := after.store.bind owner name.lexeme result }
      else .error (.error (.undefinedVariable name.lexeme)) after := by
  have hassign := h.assign result
  rw [Eval.evaluate, hequal]
  -- The two actions are run one after the other.
  show EStateM.bind _ _ state = _
  simp only [EStateM.bind, hvalue]
  show EStateM.bind _ _ after = _
  simp only [EStateM.bind, Eval.assign, Eval.update, hassign]
  cases after.store.declares owner name.lexeme <;> rfl

/-- A class reads its superclass in the scope that the name is found in, and goes on as before. -/
theorem FoundAt.execute_classDecl {parent : Token} {methods : List FunctionDecl}
    (h : FoundAt Occurs state.store scope context parent.lexeme owner) :
    Eval.execute (fuel + 1) scope (.classDecl name (some parent) methods) state =
      (do
        let value ← Eval.readOrFail fun store => store.valueIn owner parent.lexeme
        let parentId ← match value with
          | .classRef id => pure id
          | _ => Eval.fail (.notAClass parent.lexeme)
        let functions ← Eval.allocate fun store => store.newFunctions scope methods
        let id ← Eval.allocate fun store =>
          store.declareClass name.lexeme (some parentId) functions
        Eval.define scope name.lexeme (.classRef id)
        pure (.normal .nil) : Eval Completion) state := by
  have hlookup := h.lookup_eval
  rw [Eval.execute]
  simp only [Eval.declareClass, bind, EStateM.bind, hlookup]
  -- What comes after the lookup is the same on both sides.
  cases Eval.readOrFail (fun store => store.valueIn owner parent.lexeme) state with
  | error interrupt s' => rfl
  | ok value s' => cases value <;> rfl

end

/-! ## The runs of programs -/

section

variable {source : String} {program : List Stmt} {role : Role} {token : Token}
  {context : Context} {fuel : Nat} {output : Sink} {clock : Clock} {s' : State}

/-- The name at a place of the text is found by the text, wherever the run is there. -/
theorem StandsAt.found {Occurs : Moment → Prop} {store : Store} {scope : ScopeId}
    (hstands : StandsAt program role token context) (h : readProgram source = .ok program)
    (htime : DeclaresInTime program) (huse : role.isUse = true)
    (hnested : Nested (programOccurrences program) Occurs store)
    (hat : At Occurs store scope context) :
    ∃ owner, FoundAt Occurs store scope context token.lexeme owner := by
  have hsettled := programOccurrences_settled htime hstands.occurs huse
  refine hat.found hnested hsettled.outer ?_
  refine not_reserved_of_read h hstands.occurs ?_
  rintro rfl
  cases huse

/-- The value of an assignment is evaluated first. -/
theorem visit_assigned {fuel' : Nat} {scope : ScopeId} {name operator : Token} {value : Expr}
    {state s : State} (hequal : operator.kind = .equal)
    (h : .visit (fuel' + 1) (.evaluate scope (.binary (.variable name) operator value)) state ∈
      programTrace fuel program s) :
    .visit fuel' (.evaluate scope value) state ∈ programTrace fuel program s := by
  refine sessionTrace_subset h ?_
  -- For an equals sign the plan is to evaluate the right side and to assign; the left side is not
  -- evaluated.
  have hbody : Task.evaluateBody scope (.binary (.variable name) operator value) =
      (do
        let result ← Plan.perform (.evaluate scope value)
        Plan.act (Eval.assign scope name.lexeme result)
        pure result) := by
    unfold Task.evaluateBody
    dsimp only
    rw [hequal]
  rw [Task.trace]
  refine List.mem_cons_of_mem _ ?_
  show _ ∈ Plan.trace _ _ (Task.evaluateBody scope (.binary (.variable name) operator value)) state
  rw [hbody]
  show _ ∈ Plan.trace _ _ (.sub (.evaluate scope value) _) state
  rw [Plan.trace]
  exact List.mem_append_left _ (Task.visit_mem_trace fuel' _ state)

/-- In every run of a program that was read, where blocks and functions declare their names in time,
every name of a variable is read and assigned in the scope that belongs to its declaration, which is
as many scopes away as the text says. The scopes around a running piece of the text are nested like
the regions around it, and hold the names that these have declared so far. -/
theorem lexicallyScoped_of_read (h : readProgram source = .ok program)
    (htime : DeclaresInTime program) (fuel : Nat) (output : Sink) (clock : Clock) :
    LexicallyScoped fuel program (.initial output clock) := by
  obtain ⟨s', hends, -⟩ := program_nested h fuel output clock
  have hfacts := hends.covers.facts
  refine ⟨program_opensOnce h fuel output clock, ?settled, ?read, ?assigned, ?superclass⟩
  case settled => exact fun o ho huse => programOccurrences_settled htime ho huse
  case read =>
    -- The task begins at a place that follows its text. The name stands there, and is found by the
    -- text.
    intro fuel' scope name state hvisit
    obtain ⟨-, hbegins, -⟩ := hfacts _ hvisit
    obtain ⟨context, hat, hwithin, -⟩ := hbegins.place scope rfl
    have hstands := standsAt_of_read h (hwithin (.head _))
    obtain ⟨owner, hfound⟩ := hstands.found h htime rfl hbegins.nested hat
    refine ⟨context, owner, hstands, hfound, ?_⟩
    rw [Eval.evaluate]
    exact hfound.lookup_eval
  case assigned =>
    intro fuel' scope name operator value state hequal hvisit
    obtain ⟨-, hbegins, -⟩ := hfacts _ hvisit
    obtain ⟨context, hat, hwithin, -⟩ := hbegins.place scope rfl
    have huse : (Role.assigned, name) ∈ (Expr.binary (.variable name) operator value).uses := by
      rw [Expr.uses, if_pos hequal]
      exact .head _
    have hstands := standsAt_of_read h (hwithin (Context.mem_place huse))
    refine ⟨context, hstands, fun result after hvalue => ?_⟩
    -- Evaluating the value leaves the names alone, so the place is still the same.
    obtain ⟨-, -, -, -, hreaches, -⟩ := hfacts _ (visit_assigned hequal hvisit)
    have hreaches : Reaches (programOccurrences program) _ none [] state.store
        (finalState (Eval.evaluate fuel' scope value state)).store := hreaches.of_nil
    rw [hvalue] at hreaches
    obtain ⟨owner, hfound⟩ := hstands.found h htime rfl hreaches.nested (hat.quiet hreaches)
    exact ⟨owner, hfound, hfound.evaluate_assigned hequal hvalue⟩
  case superclass =>
    intro fuel' scope name parent methods state hvisit
    obtain ⟨-, hbegins, -⟩ := hfacts _ hvisit
    obtain ⟨context, hat, hwithin, -⟩ := hbegins.place scope rfl
    have hoccurs : ⟨.superclass, parent, context⟩ ∈
        (Stmt.classDecl name (some parent) methods).occurrences context := by
      rw [Stmt.occurrences]
      exact List.mem_append_left _ (List.mem_append_right _ (.head _))
    have hstands := standsAt_of_read h (hwithin hoccurs)
    obtain ⟨owner, hfound⟩ := hstands.found h htime rfl hbegins.nested hat
    exact ⟨context, owner, hstands, hfound, hfound.execute_classDecl⟩

end

/-- A function that changes the variable next to it, called where that one is hidden, and a class
in a block that is the superclass of another. -/
def shadowingSource : String :=
  "var x = 0;
   \x7b var x = 1; fun f() \x7b x = x + 1; return x; \x7d \x7b var x = x; print f(); \x7d \x7d
   \x7b class A \x7b\x7d class B < A \x7b fun m(i) \x7b return i; \x7d \x7d
   for (var i = 0; i < 2; i = i + 1) print B().m(i); \x7d"

/-- The condition can be met: this is the run of a program that hides a variable which a function
changes. -/
theorem lexicallyScoped_shadowing : ∃ program, readProgram shadowingSource = .ok program ∧
    DeclaresInTime program ∧
    LexicallyScoped 60 program (.initial .unlimited ⟨fun _ => ⟨0⟩⟩) := by
  have hread : ∃ program, readProgram shadowingSource = .ok program ∧ DeclaresInTime program :=
    exists_read (by decide +kernel)
  obtain ⟨program, hread, htime⟩ := hread
  exact ⟨program, hread, htime, lexicallyScoped_of_read hread htime 60 _ _⟩

end Script
