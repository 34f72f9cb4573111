import Script.Interpreter.Run
import Script.Program
import Script.Syntax.Dump

/-!
# Consoles

What a user sees of the interpreter: its output, which programs print to and which prompts and
echoes go to as well, and its error reports. A script is run as a whole, and each of its statements
that fails is reported. An interactive session is run line by line with one store, and shows the
value of each line's last statement.
-/

namespace Script

/-- A running interpreter and the error reports so far. -/
structure Console where
  state : State
  reports : String

namespace Console

/-- A console before anything has run: the store of a new session, an output that takes everything,
and no reports. -/
def initial (clock : Clock) : Console := ⟨.initial .unlimited clock, ""⟩

/-- Everything written to the output so far, by programs and by the console itself. -/
def output (console : Console) : ByteArray := console.state.output.accepted

/-- Writes to the output. What programs print goes the same way, so that the order is kept. -/
def print (console : Console) (text : String) : Console :=
  let ⟨⟨store, output, clock⟩, reports⟩ := console
  ⟨⟨store, (output.write text).1, clock⟩, reports⟩

/-- Adds a line to the error reports. -/
def report (console : Console) (line : String) : Console :=
  { console with reports := console.reports ++ line ++ "\n" }

/-- Runs an evaluation. What `finish` makes of the result is done after it; a runtime error is
reported instead. -/
def perform {α : Type} (console : Console) (x : Eval α) (finish : Console → α → Console) :
    Console :=
  let ⟨state, reports⟩ := console
  match x state with
  | .ok a state => finish ⟨state, reports⟩ a
  | .error (.error error) state => (Console.mk state reports).report error.message
  | .error _ state => ⟨state, reports⟩

/-- Reads a program and does something with it. The errors of a source that is not accepted are
reported instead. -/
def withProgram (console : Console) (source : String) (use : Console → List Stmt → Console) :
    Console :=
  match readProgram source with
  | .ok statements => use console statements
  | .error errors =>
    errors.foldl (fun console error => console.report (error.report source)) console

/-- Prints the dumps of a program, a line for each statement. -/
def printDumps (console : Console) (statements : List Stmt) : Console :=
  statements.foldl (fun console stmt => console.print (stmt.dump ++ "\n")) console

/-- Runs a program and reports each statement that fails. -/
def runProgram (fuel : Nat) (console : Console) (statements : List Stmt) : Console :=
  console.perform (Eval.runEach fuel Store.globalScope statements) fun console failures =>
    failures.foldl (fun console failure => console.report failure.error.message) console

/-- Runs the program of a line, up to the first statement that fails, and shows its value. -/
def runEntry (fuel : Nat) (console : Console) (statements : List Stmt) : Console :=
  console.perform (Eval.run fuel Store.globalScope statements) fun console value =>
    if value = .nil then console else console.print (console.state.store.repr value ++ "\n")

/-- Runs a script, or dumps it. A source that is not accepted is reported in either case. -/
def runScript (fuel : Nat) (dump : Bool) (console : Console) (source : String) : Console :=
  console.withProgram source (if dump then printDumps else runProgram fuel)

/-- Runs a line of an interactive session, or dumps it. -/
def runLine (fuel : Nat) (dump : Bool) (console : Console) (line : String) : Console :=
  console.withProgram line (if dump then printDumps else runEntry fuel)

/-- Asks for a line. The prompt goes to the output, like what programs print. -/
def prompt (console : Console) : Console := console.print "> "

end Console

end Script
