import Mathlib.Data.List.Forall2
import Script.CommandLine.Console
import Script.Proofs.Session.Cut

/-!
# Interactive sessions and scripts

An interactive session leaves an *entry* for each line: what the line prints, and how it ends. The
console shows the entries, each after a prompt, with the values of the lines in between; the errors
go to the reports. Running the statements of all lines one after the other from a state that is
alike prints the same and fails in the same places (`exists_session`).
-/

namespace Script

/-! ## Entries

An entry tells what the line has done, and not how it is shown; so a script leaves the same entries,
though it shows them differently. -/

/-- What a line of an interactive session does: it prints a text, and ends with another text that
is echoed, or without one. -/
structure Entry where
  printed : ByteArray
  ended : Except Interrupt String

namespace Entry

/-- Whether the line has been run to its end, be it an error. -/
def isOver (entry : Entry) : Bool :=
  match entry.ended with
  | .ok _ | .error (.error _) => true
  | .error _ => false

/-- The text that is echoed, and nothing where the line has failed. -/
def echo (entry : Entry) : String :=
  match entry.ended with
  | .ok text => text
  | .error _ => ""

/-- What the console shows of the line: the prompt, what is printed, and what is echoed. -/
def shown (entry : Entry) : ByteArray := "> ".toUTF8 ++ entry.printed ++ entry.echo.toUTF8

/-- What is reported of the line: the message of its error, if it ended with one. -/
def reported (entry : Entry) : String :=
  match entry.ended with
  | .error (.error error) => error.message ++ "\n"
  | _ => ""

/-- Everything that the lines print, one after the other. -/
def printedBy : List Entry → ByteArray
  | [] => .empty
  | entry :: rest => entry.printed ++ printedBy rest

/-- Everything that is reported of the lines, one after the other. -/
def reportedBy : List Entry → String
  | [] => ""
  | entry :: rest => entry.reported ++ reportedBy rest

/-- How a run that goes on after failures ends if a statement does this and the rest ends in `next`:
an error is a failure, with the number of bytes printed by then, and a statement whose run does not
come to an end is the last one. -/
def followedBy (entry : Entry) (size : Nat) (s : State) (next : Outcome (List Failure)) :
    Outcome (List Failure) :=
  match entry.ended with
  | .ok _ => next
  | .error (.error error) => Eval.reportBefore ⟨error, size⟩ next
  | .error interrupt => .error interrupt s

/-- How a run that goes on after failures ends in the state `s` if it leaves these entries, after
`size` bytes have been printed. -/
def scriptOutcome (size : Nat) (s : State) : List Entry → Outcome (List Failure)
  | [] => .ok [] s
  | entry :: rest =>
    entry.followedBy (size + entry.printed.size) s
      (scriptOutcome (size + entry.printed.size) s rest)

/-- Where the run comes to an end, the next statement decides about the state. -/
theorem followedBy_over {entry : Entry} (h : entry.isOver = true) (size : Nat) (s s' : State)
    (next : Outcome (List Failure)) :
    entry.followedBy size s next = entry.followedBy size s' next := by
  unfold followedBy
  unfold isOver at h
  split <;> simp_all

/-- Where the run does not come to an end, nothing follows. -/
theorem followedBy_stuck {entry : Entry} (h : entry.isOver = false) (size : Nat) (s : State)
    (next next' : Outcome (List Failure)) :
    entry.followedBy size s next = entry.followedBy size s next' := by
  unfold followedBy
  unfold isOver at h
  split <;> simp_all

end Entry

/-! ## Lines

A line runs its statement as a script would, from a state in which the prompt has been printed. -/

/-- The text that the console echoes for the value of a line. -/
def Store.echo (store : Store) (value : Value) : String :=
  if value = .nil then "" else store.repr value ++ "\n"

/-- The line, entered after a prompt, leaves the entry and the console `after`. -/
structure Enters (fuel : Nat) (console : Console) (line : String) (entry : Entry)
    (after : Console) : Prop where
  after_eq : after = console.prompt.runLine fuel false line
  runs : ∃ statements outcome, readProgram line = .ok statements ∧
    Eval.run fuel Store.globalScope statements console.prompt.state = outcome ∧
    entry.ended = (ending outcome).map (finalState outcome).store.echo ∧
    (finalState outcome).output.accepted = console.prompt.output ++ entry.printed
  output : after.output = console.output ++ entry.shown
  reports : after.reports = console.reports ++ entry.reported

/-- The lines, entered one after the other, leave the entries and the console `last`. A line whose
run does not come to an end is the last one. -/
inductive Session (fuel : Nat) : Console → List String → List Entry → Console → Prop
  | nil (console : Console) : Session fuel console [] [] console
  | cons {console after last : Console} {line : String} {rest : List String} {entry : Entry}
      {entries : List Entry} (enters : Enters fuel console line entry after)
      (ends : entry.isOver = true) (session : Session fuel after rest entries last) :
      Session fuel console (line :: rest) (entry :: entries) last
  | stuck {console after : Console} {line : String} {rest : List String} {entry : Entry}
      (enters : Enters fuel console line entry after) (breaks : entry.isOver = false) :
      Session fuel console (line :: rest) [entry] after

section

variable {fuel : Nat} {scope : ScopeId}

/-- A session reports what its entries report, line after line. -/
theorem Session.reports {console last : Console} {lines : List String} {entries : List Entry}
    (h : Session fuel console lines entries last) :
    last.reports = console.reports ++ Entry.reportedBy entries := by
  induction h with
  | nil console => exact String.append_empty.symm
  | cons enters _ _ ih => rw [ih, enters.reports, Entry.reportedBy, String.append_assoc]
  | stuck enters _ =>
    rw [enters.reports, Entry.reportedBy, Entry.reportedBy, String.append_empty]

/-- A line without statements yields `nil`. -/
theorem run_nil (s : State) : Eval.run fuel scope [] s = .ok .nil s := rfl

/-- A line with one statement does what the statement does. -/
theorem run_singleton (stmt : Stmt) (s : State) :
    Eval.run fuel scope [stmt] s = Eval.runStatement fuel scope stmt s := by
  refine (Eval.runFrom_cons .nil stmt [] s).trans ?_
  cases Eval.runStatement fuel scope stmt s <;> rfl

/-- An unlimited output takes all of a text. -/
theorem Console.print_eq {console : Console} (text : String)
    (h : console.state.output.limit = none) :
    console.print text = ⟨⟨console.state.store, ⟨console.output ++ text.toUTF8, none⟩,
      console.state.clock⟩, console.reports⟩ := by
  obtain ⟨⟨store, ⟨accepted, limit⟩, clock⟩, reports⟩ := console
  obtain rfl : limit = none := h
  rfl

/-- Printing nothing leaves the console as it is. -/
theorem Console.print_empty {console : Console} (h : console.state.output.limit = none) :
    console.print "" = console := by
  rw [Console.print_eq "" h]
  obtain ⟨⟨store, ⟨accepted, limit⟩, clock⟩, reports⟩ := console
  obtain rfl : limit = none := h
  exact congrArg (fun bytes => Console.mk ⟨store, ⟨bytes, none⟩, clock⟩ reports)
    ByteArray.append_empty

/-- The console after the run of a line: the value is echoed, or the error reported. -/
def Console.finished (reports : String) : Outcome Value → Console
  | .ok value s => Console.print ⟨s, reports⟩ (s.store.echo value)
  | .error (.error error) s => Console.report ⟨s, reports⟩ error.message
  | .error _ s => ⟨s, reports⟩

/-- An accepted line is run, and then the console shows how this has ended. -/
theorem Console.runLine_eq {console : Console} {line : String} {statements : List Stmt}
    {outcome : Outcome Value} (hread : readProgram line = .ok statements)
    (hrun : Eval.run fuel Store.globalScope statements console.state = outcome)
    (hlimit : (finalState outcome).output.limit = none) :
    console.runLine fuel false line = finished console.reports outcome := by
  unfold Console.runLine Console.withProgram
  rw [hread]
  show console.runEntry fuel statements = _
  unfold Console.runEntry Console.perform
  dsimp only
  rw [hrun]
  cases outcome with
  | error interrupt s => cases interrupt <;> rfl
  | ok value s =>
    unfold finished Store.echo
    dsimp only
    split
    · exact (@Console.print_empty ⟨s, console.reports⟩ hlimit).symm
    · rfl

/-- The console shows what was printed before, and what is echoed. -/
theorem Console.finished_output (reports : String) {outcome : Outcome Value} {entry : Entry}
    (hlimit : (finalState outcome).output.limit = none)
    (hended : entry.ended = (ending outcome).map (finalState outcome).store.echo) :
    (finished reports outcome).state = ⟨(finalState outcome).store,
      ⟨(finalState outcome).output.accepted ++ entry.echo.toUTF8, none⟩,
      (finalState outcome).clock⟩ := by
  unfold Entry.echo
  rw [hended]
  cases outcome with
  | ok value s => exact congrArg Console.state (@Console.print_eq ⟨s, reports⟩ _ hlimit)
  | error interrupt s =>
    obtain ⟨store, ⟨accepted, limit⟩, clock⟩ := s
    obtain rfl : limit = none := hlimit
    have hnone : accepted ++ "".toUTF8 = accepted := ByteArray.append_empty
    show _ = State.mk store ⟨accepted ++ "".toUTF8, none⟩ clock
    rw [hnone]
    cases interrupt <;> rfl

/-- What is reported is the error, if there is one. -/
theorem Console.finished_reports (reports : String) {outcome : Outcome Value} {entry : Entry}
    (hended : entry.ended = (ending outcome).map (finalState outcome).store.echo) :
    (finished reports outcome).reports = reports ++ entry.reported := by
  unfold Entry.reported
  rw [hended]
  cases outcome with
  | ok value s => exact String.append_empty.symm
  | error interrupt s =>
    cases interrupt with
    | error error => exact String.append_assoc ..
    | malformed => exact String.append_empty.symm
    | outOfFuel => exact String.append_empty.symm

/-- An accepted line leaves an entry, and a state that differs from the one that its run ends in
only by what has been printed. -/
theorem exists_enters {console : Console} {line : String} {statements : List Stmt}
    {outcome : Outcome Value} {printed : ByteArray} (hread : readProgram line = .ok statements)
    (hunlimited : console.state.output.limit = none)
    (hrun : Eval.run fuel Store.globalScope statements console.prompt.state = outcome)
    (hlimit : (finalState outcome).output.limit = none)
    (hprinted : (finalState outcome).output.accepted = console.prompt.output ++ printed) :
    ∃ after, Enters fuel console line
        ⟨printed, (ending outcome).map (finalState outcome).store.echo⟩ after ∧
      ∃ accepted, after.state =
        ⟨(finalState outcome).store, ⟨accepted, none⟩, (finalState outcome).clock⟩ := by
  -- The console prints its prompt, runs the line, and echoes or reports; each of the three is known
  -- from a lemma of its own, and the output is put together from them.
  have hline := Console.runLine_eq hread hrun hlimit
  have hprompt : console.prompt.output = console.output ++ "> ".toUTF8 :=
    congrArg Console.output (Console.print_eq "> " hunlimited)
  have hstate := @Console.finished_output console.prompt.reports outcome
    ⟨printed, (ending outcome).map (finalState outcome).store.echo⟩ hlimit rfl
  refine ⟨_, ⟨rfl, ⟨statements, outcome, hread, hrun, rfl, hprinted⟩, ?_, ?_⟩, _, hline ▸ hstate⟩
  · rw [Console.output, hline, hstate, hprinted, hprompt, Entry.shown, ByteArray.append_assoc,
      ByteArray.append_assoc, ByteArray.append_assoc]
  · rw [hline]
    exact Console.finished_reports console.prompt.reports rfl

/-! ## Sessions and scripts

Line by line the session and the script stay alike: what the session prints in between, prompts and
values, is printed to the console only. -/

/-- One line of a session and its statements in a script, from states that are alike. -/
theorem enters_alike {console : Console} {t : State} {line : String} {statements first : List Stmt}
    (hread : readProgram line = .ok statements) (hlength : statements.length ≤ 1)
    (hfirst : first.map Stmt.bare = statements.map Stmt.bare) (halike : Alike console.state t) :
    ∃ entry after t', Enters fuel console line entry after ∧ Alike after.state t' ∧
      t'.output.accepted = t.output.accepted ++ entry.printed ∧
      ∀ rest, Eval.runEach fuel Store.globalScope (first ++ rest) t =
        entry.followedBy t'.output.accepted.size t'
          (Eval.runEach fuel Store.globalScope rest t') := by
  have hprompt : console.prompt.state = ⟨console.state.store,
      ⟨console.output ++ "> ".toUTF8, none⟩, console.state.clock⟩ :=
    congrArg Console.state (Console.print_eq "> " halike.unlimited)
  match statements, hlength with
  | [], _ =>
    -- A line without statements runs nothing.
    obtain rfl : first = [] := by simpa using hfirst
    obtain ⟨after, henters, accepted, hafter⟩ :=
      exists_enters hread halike.unlimited (run_nil console.prompt.state)
        (by rw [finalState_ok, hprompt]) ByteArray.append_empty.symm
    refine ⟨_, after, t, henters, ?_, ByteArray.append_empty.symm, fun rest => rfl⟩
    rw [hafter, finalState_ok, hprompt]
    exact halike.print accepted
  | [stmt], _ =>
    obtain ⟨stmt', rfl, hbare⟩ : ∃ stmt', first = [stmt'] ∧ stmt'.bare = stmt.bare := by
      rwa [List.map_singleton, List.map_eq_singleton_iff] at hfirst
    have hstart : Alike console.prompt.state t := hprompt ▸ halike.print _
    obtain ⟨hending, hfinal, text, hprinted, hprinted'⟩ :=
      @runStatement_alike fuel Store.globalScope _ _ _ _ hstart hbare.symm
    obtain ⟨after, henters, accepted, hafter⟩ :=
      exists_enters hread halike.unlimited (run_singleton stmt console.prompt.state)
        hfinal.unlimited hprinted
    refine ⟨_, after, _, henters, ?_, hprinted', fun rest => ?_⟩
    · rw [hafter]
      exact hfinal.print accepted
    · rw [List.singleton_append, Eval.runEach_cons]
      unfold Entry.followedBy
      rw [hending]
      cases Eval.runStatement fuel Store.globalScope stmt' t with
      | ok value t' => rfl
      | error interrupt t' => cases interrupt <;> rfl
  | _ :: _ :: _, hlong => simp at hlong

/-- Lines with at most one statement each, entered one after the other, and their statements run
as a script from a state that is alike: the script leaves the entries of the session. -/
theorem exists_session {console : Console} {t : State} {lines : List String}
    {programs : List (List Stmt)} {program : List Stmt}
    (hlines : List.Forall₂ (fun line statements => readProgram line = .ok statements ∧
      statements.length ≤ 1) lines programs)
    (hprogram : program.map Stmt.bare = programs.flatten.map Stmt.bare)
    (halike : Alike console.state t) :
    ∃ entries last t', Session fuel console lines entries last ∧
      Eval.runEach fuel Store.globalScope program t =
        Entry.scriptOutcome t.output.accepted.size t' entries ∧
      t'.output.accepted = t.output.accepted ++ Entry.printedBy entries ∧
      Alike last.state t' := by
  induction hlines generalizing console t program with
  | nil =>
    obtain rfl : program = [] := by simpa using hprogram
    exact ⟨[], console, t, .nil console, rfl, ByteArray.append_empty.symm, halike⟩
  | cons hline _ ih =>
    rw [List.flatten_cons, List.map_append] at hprogram
    obtain ⟨first, rest, rfl, hfirst, hrest⟩ := List.map_eq_append_iff.mp hprogram
    obtain ⟨entry, after, t', henters, hafter, hprinted, hrun⟩ :=
      @enters_alike fuel _ _ _ _ _ hline.1 hline.2 hfirst halike
    have hsize : t'.output.accepted.size = t.output.accepted.size + entry.printed.size := by
      rw [hprinted, ByteArray.size_append]
    rw [hrun rest, hsize]
    -- A line that does not come to its end is the last one of the session, and so is its statement
    -- in the script.
    cases hover : entry.isOver with
    | false =>
      refine ⟨[entry], after, t', .stuck henters hover, ?_, ?_, hafter⟩
      · exact Entry.followedBy_stuck hover ..
      · rw [hprinted, Entry.printedBy, Entry.printedBy, ByteArray.append_empty]
    | true =>
      obtain ⟨entries, last, t'', hsession, houtcome, haccepted, hlast⟩ := ih hrest hafter
      refine ⟨entry :: entries, last, t'', .cons henters hover hsession, ?_, ?_, hlast⟩
      · rw [houtcome, hsize]
        exact Entry.followedBy_over hover ..
      · rw [haccepted, hprinted, Entry.printedBy, ByteArray.append_assoc]

/-- Where all lines come to an end, a script reports what the session reports. The induction is on
the lines, with the number of bytes printed before them left open. -/
theorem scriptOutcome_over {entries : List Entry} (h : ∀ entry ∈ entries, entry.isOver = true)
    (size : Nat) (s : State) :
    ∃ failures, Entry.scriptOutcome size s entries = .ok failures s ∧
      ∀ reports, failures.foldl (fun console failure => console.report failure.error.message)
        (Console.mk s reports) = ⟨s, reports ++ Entry.reportedBy entries⟩ := by
  induction entries generalizing size with
  | nil => exact ⟨[], rfl, fun reports => congrArg (Console.mk s) String.append_empty.symm⟩
  | cons entry entries ih =>
    obtain ⟨failures, houtcome, hreports⟩ := ih (fun entry hmem => h entry (.tail _ hmem))
      (size + entry.printed.size)
    have hover := h entry (.head _)
    rw [Entry.scriptOutcome, houtcome]
    obtain ⟨printed, ended⟩ := entry
    cases ended with
    | ok text =>
      -- A line that has not failed reports nothing.
      refine ⟨failures, rfl, fun reports => ?_⟩
      rw [hreports]
      exact congrArg (fun text => Console.mk s (reports ++ text)) String.empty_append.symm
    | error interrupt =>
      cases interrupt with
      | error error =>
        refine ⟨⟨error, _⟩ :: failures, rfl, fun reports => ?_⟩
        rw [List.foldl_cons]
        refine (hreports (reports ++ error.message ++ "\n")).trans ?_
        rw [Entry.reportedBy, Entry.reported, String.append_assoc, String.append_assoc,
          String.append_assoc]
      | malformed => cases hover
      | outOfFuel => cases hover

end

end Script
