import Mathlib.Logic.Equiv.Basic
import Script.Proofs.Renaming.Evaluator
import Script.Proofs.Renaming.Sources
import Script.Proofs.Run.Formed

/-!
# Names cannot be observed

A program whose identifiers have been renamed, each name into another one and no two into the same,
prints what it printed before and ends as it ended before (`run_renamed`). The names of functions,
methods and classes, which display texts show, must stay, and so must the names of the variables
that every program finds and the name of constructors.

Both programs, once their places are forgotten, are the same under other names, and so both runs
are disguises of the same run.
-/

namespace Script

/-- The names that must stay as they are: those of the variables that every program finds, that of
constructors, and those that the program declares with `fun` and `class`. -/
def fixedNames (program : List Stmt) : List String :=
  [Native.clock.name, Native.toString.name, Store.rootClassName, constructorName] ++
    (Stmt.definitionsOfAll program).map fun definition => definition.name.lexeme

/-! ## Outcomes

Values of the two runs are compared by their kind and their representation. The references in them
need not be told apart, since both runs make the same ones. -/

/-- Both runs have printed the same and end alike: with values of one kind that have the same
representation, with the same error up to the name that it carries, or both for want of fuel. -/
inductive EndsAlike (f : String → String) : Outcome Value → Outcome Value → Prop
  | value {value value' : Value} {s s' : State} (houtput : s'.output = s.output)
    (htype : value'.type = value.type) (hrepr : s'.store.repr value' = s.store.repr value) :
    EndsAlike f (.ok value s) (.ok value' s')
  | error {error : RuntimeError} {s s' : State} (houtput : s'.output = s.output) :
    EndsAlike f (.error (.error error) s) (.error (.error (error.rename f)) s')
  | outOfFuel {s s' : State} (houtput : s'.output = s.output) :
    EndsAlike f (.error .outOfFuel s) (.error .outOfFuel s')

/-- The program comes to an end, if it is given enough fuel. -/
def Terminates (program : List Stmt) (s : State) : Prop :=
  ∃ fuel, ∀ s', Eval.run fuel Store.globalScope program s ≠ .error .outOfFuel s'

/-- The programs cannot be told apart when they are run, the one under the names of the other. -/
structure RunAlike (f : String → String) (program program' : List Stmt) (s : State) : Prop where
  terminate : Terminates program s ↔ Terminates program' s
  end_alike : ∀ fuel, EndsAlike f (Eval.run fuel Store.globalScope program s)
    (Eval.run fuel Store.globalScope program' s)

/-- Of two runs that end alike both have run out of fuel or neither has. -/
theorem EndsAlike.outOfFuel_iff {f : String → String} {x y : Outcome Value}
    (h : EndsAlike f x y) :
    (∀ s, x ≠ .error .outOfFuel s) ↔ ∀ s, y ≠ .error .outOfFuel s := by
  cases h with
  | value => exact iff_of_true nofun nofun
  | error => exact iff_of_true nofun nofun
  | outOfFuel => exact iff_of_false (fun h => h _ rfl) fun h => h _ rfl

/-- Programs that end alike with any fuel cannot be told apart. -/
theorem runAlike_of_endsAlike {f : String → String} {program program' : List Stmt} {s : State}
    (h : ∀ fuel, EndsAlike f (Eval.run fuel Store.globalScope program s)
      (Eval.run fuel Store.globalScope program' s)) : RunAlike f program program' s :=
  ⟨exists_congr fun fuel => (h fuel).outOfFuel_iff, h⟩

/-! ## Forgetting places

In the disguise that forgets places nothing else happens to the output, and the store that every
program starts in is its own disguise. -/

/-- All places forgotten, and the output left as it is. -/
def Mask.placeless : Mask where
  move _ := .origin
  sink := id
  fits _ := True
  move_origin := rfl
  write := fun _ _ => ⟨rfl, trivial⟩

namespace Disguise

/-- Other names, and no places: two sources that differ in layout and names have such a disguise in
common. -/
def placeless (name : String → String) (injective : name.Injective)
    (own : ∀ special ∈ ownNames, name special = special) : Disguise :=
  ⟨.placeless, name, injective, own⟩

variable (d : Disguise)

/-- What every program finds it finds under the old names. -/
theorem store_initial : d.store .initial = .initial := by
  have hnames : ∀ entry ∈ Store.globalBindings, Prod.map d.name id entry = entry := by
    intro entry hentry
    have hown : ∀ entry ∈ Store.globalBindings, entry.1 ∈ ownNames := by decide
    exact Prod.ext (d.own _ (hown entry hentry)) rfl
  have hbindings : (Table.ofList Store.globalBindings).rename d.name =
      .ofList Store.globalBindings := by
    rw [← Table.ofList_rename d.injective, List.map_congr_left hnames, List.map_id']
  have hroot : d.name Store.rootClassName = Store.rootClassName := d.own _ (by decide)
  simp only [Disguise.store, Store.initial, Arena.map_push, Arena.map_empty, Disguise.scope,
    Disguise.classOf, hbindings, hroot]
  rfl

/-- The disguise does not show in the store that every program starts in. -/
theorem suits_initial : d.Suits .initial where
  functions := fun id => by
    show d.Keeps (FunctionDecl.definitions ⟨.anonymous, [], []⟩)
    rw [FunctionDecl.definitions, Stmt.definitionsOfAll]
    exact List.forall_mem_singleton.mpr (d.own "" (by decide))
  classes := fun id => by
    -- There is one class in it, and its name is one of the evaluator's own.
    by_cases hroot : id.index = 0
    · unfold Store.classOf
      rw [hroot]
      exact d.own Store.rootClassName (by decide)
    · have hdefault : Store.initial.classOf id = default := by
        have hne : id.index ≠ (Arena.empty : Arena Class).size := hroot
        exact Arena.get_push_of_ne _ _ hne
      rw [hdefault]
      exact d.own "" (by decide)

end Disguise

section

variable {name : String → String} {injective : name.Injective}
  {own : ∀ special ∈ ownNames, name special = special}

/-- A program under its own names and with its places runs as it does without them. -/
theorem run_placeless {program : List Stmt}
    (h : (Disguise.placeless name injective own).Keeps (Stmt.definitionsOfAll program)) (fuel : Nat)
    (output : Sink) (clock : Clock) :
    Eval.run fuel Store.globalScope (Stmt.recastAll (.placeless name) program)
        (.initial output clock) =
      (Disguise.placeless name injective own).outcome id
        (Eval.run fuel Store.globalScope program (.initial output clock)) ∧
    (Disguise.placeless name injective own).Hides
      (finalState (Eval.run fuel Store.globalScope program (.initial output clock))) := by
  have hinitial : (Disguise.placeless name injective own).state (.initial output clock) =
      .initial output clock :=
    congrArg (fun store => State.mk store output clock) (Disguise.store_initial _)
  obtain ⟨hrun, hhides⟩ := @run_disguised (.placeless name injective own) fuel Store.globalScope
    program h (.initial output clock) ⟨Disguise.suits_initial _, trivial⟩
  rw [hinitial] at hrun
  exact ⟨hrun, hhides⟩

end

/-- Outcomes that are disguised as the same one end alike, where both outputs are left alone and the
second one has its own names. -/
theorem endsAlike_of_outcome {d d' : Disguise} (hsink : d.sink = id) (hsink' : d'.sink = id)
    (hname' : d'.name = id) {x y : Outcome Value} (hsame : d.outcome id x = d'.outcome id y)
    (hx : d.Hides (finalState x)) (hy : d'.Hides (finalState y))
    (hformed : ∀ s, x ≠ .error .malformed s) : EndsAlike d.name x y := by
  have hstates : ∀ {s s' : State}, d.state s = d'.state s' →
      s'.output = s.output ∧ d.store s.store = d'.store s'.store := by
    intro s s' hstate
    obtain ⟨hstore, houtput, -⟩ := State.mk.inj hstate
    rw [hsink, hsink'] at houtput
    exact ⟨houtput.symm, hstore⟩
  -- The same disguised outcome: both runs have a value, or both have an error.
  cases x with
  | ok value s =>
    cases y with
    | ok value' s' =>
      obtain ⟨hvalue, hstate⟩ := EStateM.Result.ok.inj hsame
      obtain rfl : value = value' := hvalue
      obtain ⟨houtput, hstore⟩ := hstates hstate
      refine .value houtput rfl ?_
      -- A representation names only what the disguise hides in neither of the two stores.
      calc s'.store.repr value = (d'.store s'.store).repr value := (hy.store.repr value).symm
        _ = (d.store s.store).repr value := by rw [hstore]
        _ = s.store.repr value := hx.store.repr value
    | error interrupt' s' => cases hsame
  | error interrupt s =>
    cases y with
    | ok value' s' => cases hsame
    | error interrupt' s' =>
      obtain ⟨hinterrupt, hstate⟩ := EStateM.Result.error.inj hsame
      rw [hname', interrupt'.rename_id] at hinterrupt
      subst hinterrupt
      obtain ⟨houtput, -⟩ := hstates hstate
      cases interrupt with
      | error e => exact .error houtput
      | malformed => exact absurd rfl (hformed s)
      | outOfFuel => exact .outOfFuel houtput

/-! ## Programs -/

/-- The identifiers of an accepted source may be renamed by any injective map that leaves the fixed
names as they are. This can always be done, and wherever the tokens stand afterwards, the source is
accepted and cannot be told from the first one by running it. -/
theorem run_renamed {source : String} {program : List Stmt}
    (hread : readProgram source = .ok program) {f : Identifier → Identifier} (hf : f.Injective)
    (hfixed : ∀ name ∈ fixedNames program, onIdentifiers f name = name) :
    (∃ source', RenamedSource (onIdentifiers f) source source') ∧
      ∀ source', RenamedSource (onIdentifiers f) source source' →
        ∃ program', readProgram source' = .ok program' ∧ ∀ output clock,
          RunAlike (onIdentifiers f) program program' (.initial output clock) := by
  refine ⟨exists_renamed source f, fun source' hsource => ?_⟩
  obtain ⟨program', hread', hsame⟩ := readProgram_renamed hread hsource
  refine ⟨program', hread', fun output clock => runAlike_of_endsAlike fun fuel => ?_⟩
  obtain ⟨hglobals, hdefined⟩ := List.forall_mem_append.mp hfixed
  have hown : ∀ special ∈ ownNames, onIdentifiers f special = special := by
    -- A name of the evaluator that is no fixed one is a keyword or empty, so no identifier.
    have hcases : ∀ special ∈ ownNames, special ∈ [Native.clock.name, Native.toString.name,
        Store.rootClassName, constructorName] ∨ ¬ IsIdentifier special := by decide +kernel
    intro special hspecial
    rcases hcases special hspecial with hglobal | hnone
    · exact hglobals special hglobal
    · exact onIdentifiers_of_not hnone
  have hkeeps : ∀ definition ∈ Stmt.definitionsOfAll program,
      onIdentifiers f definition.name.lexeme = definition.name.lexeme := fun definition hmem =>
    hdefined _ (List.mem_map_of_mem hmem)
  -- Both runs, the first one under the new names, are disguised as one run without places.
  obtain ⟨hrun, hhides⟩ := @run_placeless _ (onIdentifiers_injective hf) hown program hkeeps fuel
    output clock
  obtain ⟨hrun', hhides'⟩ := @run_placeless id Function.injective_id (fun _ _ => rfl) program'
    (fun _ _ => rfl) fuel output clock
  rw [hsame] at hrun'
  have hformed := Stmt.allFormed_iff.mp (parse_formed (parse_of_read hread))
  exact endsAlike_of_outcome rfl rfl rfl (hrun.symm.trans hrun') hhides hhides'
    (neverStuck_of_formed hformed fuel _ Store.formed_initial).run

/-- `x` and `y`, each in the place of the other. -/
def exchange : Identifier → Identifier :=
  Equiv.swap ⟨"x", by decide +kernel⟩ ⟨"y", by decide +kernel⟩

/-- A source whose parameter, field and variable are named `x` and `y`. -/
def exchangeSource : String :=
  "class A \x7b fun constructor(x) \x7b this.y = x; \x7d
     fun m(z) \x7b return this.y + z; \x7d \x7d
   var x = A(1); print x.m(2); print x; print y;"

/-- The same source with `x` and `y` exchanged, on fewer lines. -/
def exchangedSource : String :=
  "class A \x7b fun constructor(y) \x7b this.x = y; \x7d fun m(z) \x7b return this.x + z; \x7d \x7d
   var y = A(1); print y.m(2); print y; print x;"

/-- A variable, a parameter and a field are exchanged, and the error that ends the run carries a
name. -/
theorem run_renamed_exchange :
    ∃ program program', readProgram exchangeSource = .ok program ∧ exchange.Injective ∧
      (∀ name ∈ fixedNames program, onIdentifiers exchange name = name) ∧
      RenamedSource (onIdentifiers exchange) exchangeSource exchangedSource ∧
      readProgram exchangedSource = .ok program' ∧ ∀ output clock,
        RunAlike (onIdentifiers exchange) program program' (.initial output clock) := by
  obtain ⟨program, hread, hfixed⟩ := @exists_read exchangeSource
    (fun program => ∀ name ∈ fixedNames program, onIdentifiers exchange name = name) _
    (by decide +kernel)
  have hinjective : exchange.Injective := Equiv.injective _
  have hsource : RenamedSource (onIdentifiers exchange) exchangeSource exchangedSource :=
    ⟨by decide +kernel, by decide +kernel⟩
  obtain ⟨-, hruns⟩ := run_renamed hread hinjective hfixed
  obtain ⟨program', hread', halike⟩ := hruns exchangedSource hsource
  exact ⟨program, program', hread, hinjective, hfixed, hsource, hread', halike⟩

end Script
