import Script.Proofs.Grammar.Joining
import Script.Proofs.Session.Transcript

/-!
# A session line by line and as one script

Lines that are accepted one by one make an accepted source when they are joined, and the program of
that source consists of their programs, moved to other places (`exists_read_lines`). An interactive
session on the lines and a run of the joined source as a script then differ only in what the
console adds: the prompts, and the values that it echoes (`session_as_script`).
-/

namespace Script

/-! ## Joined lines -/

/-- No accepted source begins with an `else`, because no statement begins with one and the program
of a source is spelled from its first token on. -/
theorem head_ne_else {source : String} {program : List Stmt}
    (h : readProgram source = .ok program) :
    (tokens source).head?.map Token.kind ≠ some .kwElse := by
  obtain ⟨s', hrun, hclean⟩ := parse_eq_ok.mp (parse_of_read h)
  obtain ⟨hprogram, hreads, hend⟩ := Parser.program_sound hrun hclean
  have hrest : Parser.headKind s'.rest ≠ .kwElse := by
    rw [← Parser.State.nextKind_eq, hend]
    decide
  have hhead := Parser.no_else_after hprogram hreads.spells hrest
  intro helse
  cases htokens : tokens source with
  | nil =>
    rw [htokens] at helse
    cases helse
  | cons token rest =>
    rw [htokens] at helse hhead
    exact hhead (Option.some.inj helse)

/-- Accepted lines make an accepted source with their statements. -/
theorem exists_read_lines {lines : List String} {programs : List (List Stmt)}
    (h : List.Forall₂ (fun line statements => readProgram line = .ok statements) lines programs) :
    ∃ program, readProgram ("\n".intercalate lines) = .ok program ∧
      program.map Stmt.bare = programs.flatten.map Stmt.bare := by
  induction h with
  | nil =>
    obtain ⟨program, hread, hlength⟩ :=
      @exists_read "" (fun program => program.length = 0) _ (by decide +kernel)
    obtain rfl := List.length_eq_zero_iff.mp hlength
    exact ⟨[], hread, rfl⟩
  | @cons line statements lines programs hline hlines ih =>
    cases hlines with
    | nil =>
      rw [String.intercalate_singleton, List.flatten_singleton]
      exact ⟨statements, hline, rfl⟩
    | cons _ _ =>
      obtain ⟨program, hread, hprogram⟩ := ih
      rw [String.intercalate_cons_cons]
      refine ⟨_, readProgram_join_ok hline (head_ne_else hread) hread, ?_⟩
      -- Only the places of the later statements have changed.
      have hmoved : ∀ move, (program.map (Stmt.relocate move)).map Stmt.bare =
          program.map Stmt.bare := by
        intro move
        rw [List.map_map]
        exact List.map_congr_left fun stmt _ => stmt.bare_relocate move
      rw [List.flatten_cons, List.map_append, List.map_append, hmoved, hprogram]

/-! ## Sessions and scripts -/

/-- A script runs all its statements, and reports the failures at its end. -/
theorem Console.runScript_eq {fuel : Nat} {console : Console} {source : String}
    {program : List Stmt} {failures : List Failure} {s : State}
    (hread : readProgram source = .ok program)
    (hrun : Eval.runEach fuel Store.globalScope program console.state = .ok failures s) :
    console.runScript fuel false source =
      failures.foldl (fun console failure => console.report failure.error.message)
        ⟨s, console.reports⟩ := by
  unfold Console.runScript Console.withProgram
  rw [hread]
  show console.runProgram fuel program = _
  unfold Console.runProgram Console.perform
  dsimp only
  rw [hrun]

/-- An interactive session on the lines, which leaves these entries and ends with the console
`last`, and a run of the program of all lines, which ends in the state `t`. -/
structure Agree (fuel : Nat) (clock : Clock) (lines : List String) (program : List Stmt)
    (entries : List Entry) (last : Console) (t : State) : Prop where
  /-- The console shows the entries with prompts and echoes, and reports their errors. -/
  session : Session fuel (.initial clock) lines entries last
  /-- The script fails with the same errors, each after as much has been printed. -/
  script : Eval.runEach fuel Store.globalScope program (.initial .unlimited clock) =
    Entry.scriptOutcome 0 t entries
  /-- The script prints what the lines print. -/
  printed : t.output.accepted = Entry.printedBy entries
  /-- The global variables have the same values. -/
  globals : last.state.store.bindings Store.globalScope = t.store.bindings Store.globalScope
  /-- What these values refer to differs only in the places of tokens. -/
  alike : Alike last.state t
  /-- As a console the script prints and reports the same, without prompts and echoes. -/
  console : (∀ entry ∈ entries, entry.isOver = true) →
    (Console.initial clock).runScript fuel false ("\n".intercalate lines) = ⟨t, last.reports⟩
  /-- A run that stops at the first failure is the run of the script up to there. -/
  cut : ∀ scope s, Eval.CutAt fuel scope program s (Eval.run fuel scope program s)

/-- Lines that are accepted, each with one statement at most, may be run as one script: it is
accepted, and however the lines are run, the session and the script agree. Both leave the same
entries, line by line, though the session shows prompts and values in between. -/
theorem session_as_script {lines : List String}
    (hlines : ∀ line ∈ lines, ∃ statements, readProgram line = .ok statements ∧
      statements.length ≤ 1) :
    ∃ program, readProgram ("\n".intercalate lines) = .ok program ∧
      ∀ fuel clock, ∃ entries last t, Agree fuel clock lines program entries last t := by
  -- Each line is read by itself; joined, they are read to the same statements, moved.
  obtain ⟨programs, hall⟩ : ∃ programs : List (List Stmt),
      List.Forall₂ (fun line statements => readProgram line = .ok statements ∧
        statements.length ≤ 1) lines programs := by
    induction lines with
    | nil => exact ⟨[], .nil⟩
    | cons line lines ih =>
      obtain ⟨statements, hline⟩ := hlines line (.head _)
      obtain ⟨programs, hrest⟩ := ih fun line hmem => hlines line (.tail _ hmem)
      exact ⟨statements :: programs, .cons hline hrest⟩
  obtain ⟨program, hread, hprogram⟩ := exists_read_lines (hall.imp fun _ _ h => h.1)
  refine ⟨program, hread, fun fuel clock => ?_⟩
  -- Both runs begin in the initial state, with nothing printed.
  obtain ⟨entries, last, t, hsession, hscript, hprinted, halike⟩ :=
    @exists_session fuel _ _ _ _ _ hall hprogram
      (.refl (rfl : (Console.initial clock).state.output.limit = none))
  refine ⟨entries, last, t,
    { session := hsession
      script := hscript
      printed := hprinted.trans ByteArray.empty_append
      globals := ?_
      alike := halike
      console := ?_
      cut := fun scope s => Eval.run_cut program s }⟩
  · exact congrArg (fun scopes => (Arena.get scopes 0).bindings) halike.scopes
  · intro hover
    obtain ⟨failures, houtcome, hreports⟩ := scriptOutcome_over hover 0 t
    rw [Console.runScript_eq hread (hscript.trans houtcome), hreports, hsession.reports]

/-- A session with a declaration, a function, a failure, a line whose value is echoed, and an empty
line. -/
theorem session_as_script_with_failure :
    (∀ line ∈ ["var a = 1;", "fun f() { return a; }", "print b;", "f() + 1;", ""],
      ∃ statements, readProgram line = .ok statements ∧ statements.length ≤ 1) ∧
    ∃ program,
      readProgram "var a = 1;\nfun f() { return a; }\nprint b;\nf() + 1;\n" = .ok program ∧
      ∀ fuel clock, ∃ entries last t,
        Agree fuel clock ["var a = 1;", "fun f() { return a; }", "print b;", "f() + 1;", ""] program
          entries last t := by
  have hlines : ∀ line ∈ ["var a = 1;", "fun f() { return a; }", "print b;", "f() + 1;", ""],
      ∃ statements, readProgram line = .ok statements ∧ statements.length ≤ 1 := by
    simp only [List.forall_mem_cons]
    exact ⟨exists_read (by decide +kernel), exists_read (by decide +kernel),
      exists_read (by decide +kernel), exists_read (by decide +kernel),
      exists_read (by decide +kernel), fun _ hmem => absurd hmem List.not_mem_nil⟩
  have hjoined :
      "\n".intercalate ["var a = 1;", "fun f() { return a; }", "print b;", "f() + 1;", ""] =
        "var a = 1;\nfun f() { return a; }\nprint b;\nf() + 1;\n" := by
    decide +kernel
  obtain ⟨program, hread, hagree⟩ := session_as_script hlines
  rw [hjoined] at hread
  exact ⟨hlines, program, hread, hagree⟩

end Script
