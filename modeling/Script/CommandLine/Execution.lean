import Script.CommandLine.Arguments
import Script.CommandLine.Console
import Script.CommandLine.Input
import Script.LogFilter.Directive

/-!
# Scripts and interactive sessions

The two ways to run the interpreter, from bytes to a finished console with an exit code.
-/

namespace Script

namespace CommandLine

/-- A console when the program ends, and its exit code. -/
structure Finished where
  console : Console
  exitCode : UInt32

/-- The report that ends the program when a directive of the log level is torn. -/
def tornDirectiveReport : String :=
  "Error: a part of the log level starts or ends inside a character\n"

/-- The console on which a run begins, with warnings about the directives of the log level that are
ignored. A torn directive ends the run instead. -/
def Options.console (options : Options) (clock : Clock) : Except Finished Console :=
  let (warnings, torn) := LogFilter.readFilter (options.logLevel.getD "")
  let console := warnings.foldl Console.report (.initial clock)
  if torn then .error ⟨{ console with reports := console.reports ++ tornDirectiveReport }, 101⟩
  else .ok console

/-- Runs the contents of a script, or reports why there are none. -/
def runContents (fuel : Nat) (dump : Bool) (path : String)
    (contents : Except ReadFailure ByteArray) (console : Console) : Finished :=
  match contents.bind decode with
  | .ok source => ⟨console.runScript fuel dump source, 0⟩
  | .error failure => ⟨{ console with reports := console.reports ++ failure.report path }, 1⟩

/-- Runs a line of input; `none` when it is not UTF-8, which ends the session. -/
def step (fuel : Nat) (dump : Bool) (console : Console) (line : ByteArray) : Option Console :=
  match decodeLine line with
  | .ok text => some (console.runLine fuel dump text)
  | .error _ => none

/-- Runs lines of input with a prompt before each, and one more before the end of the input, which
ends the line of the last prompt. -/
def runLines (fuel : Nat) (dump : Bool) (console : Console) : List ByteArray → Finished
  | [] => ⟨console.prompt.print "\n", 0⟩
  | line :: rest =>
    match step fuel dump console.prompt line with
    | some console => runLines fuel dump console rest
    | none =>
      let console := console.prompt
      ⟨{ console with reports := console.reports ++ lineFailureReport }, 1⟩

/-- Runs an interactive session on everything that the standard input holds. -/
def runInput (fuel : Nat) (dump : Bool) (console : Console) (input : ByteArray) : Finished :=
  runLines fuel dump console ((lines input.toList).map fun line => ⟨line.toArray⟩)

end CommandLine

end Script
