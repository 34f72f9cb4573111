import Script.Interpreter.Sink
import Script.Store.Initial

/-!
# The state of a running program

A running program changes its store, writes to its output, and reads the clock. An evaluation ends
with a result or is interrupted; either way it leaves a state.
-/

namespace Script

/-- The readings of the clock that are still to come, numbered from zero. -/
structure Clock where
  readings : Nat → Number

namespace Clock

/-- The next reading, and the clock after it. -/
def tick (clock : Clock) : Number × Clock :=
  (clock.readings 0, ⟨fun i => clock.readings (i + 1)⟩)

end Clock

/-- The state of a running program: what its values refer to, what it has printed, and the clock
that it may read. -/
structure State where
  store : Store
  output : Sink
  clock : Clock

/-- The state before a program runs, with the store that holds the native functions and the root
class. -/
def State.initial (output : Sink) (clock : Clock) : State := ⟨.initial, output, clock⟩

/-- Why an evaluation ends without a result. -/
inductive Interrupt where
  /-- The program fails. -/
  | error (error : RuntimeError)
  /-- The tree is none that the parser builds. -/
  | malformed
  /-- The bound on nested steps was too small; this is no verdict about the program. -/
  | outOfFuel
deriving DecidableEq, Repr

/-- Evaluations: they take a state and end with a result or an interrupt, and with a state in either
case. So what a failing program has done before stays done. -/
abbrev Eval := EStateM Interrupt State

namespace Eval

variable {α : Type}

/-- Ends the evaluation with a runtime error. -/
def fail (error : RuntimeError) : Eval α := fun s => .error (.error error) s

/-- The outcome of a tree that the parser never builds. -/
def malformed : Eval α := fun s => .error .malformed s

/-- The outcome of a bound on nested steps that was too small. -/
def exhausted : Eval α := fun s => .error .outOfFuel s

/-- Looks at the store and leaves it as it is. -/
def read (f : Store → α) : Eval α := fun s => .ok (f s.store) s

/-- Looks at the store, which may hold the answer or a reason to fail. -/
def readOrFail (f : Store → Except RuntimeError α) : Eval α := fun s =>
  match f s.store with
  | .ok a => .ok a s
  | .error error => .error (.error error) s

/-- Changes the store and yields what the change yields, such as a new reference. -/
def allocate (f : Store → α × Store) : Eval α := fun ⟨store, output, clock⟩ =>
  let (a, store) := f store
  .ok a ⟨store, output, clock⟩

/-- Changes the store, or fails and leaves it as it is. -/
@[inline] def update (f : Store → Except RuntimeError Store) : Eval Unit := fun s =>
  match f s.store with
  | .ok store => .ok () { s with store := store }
  | .error error => .error (.error error) s

/-- Writes to the output. If the sink takes only a part of the text, that part is written and the
refusal is a runtime error of the program. -/
def write (text : String) : Eval Unit := fun ⟨store, output, clock⟩ =>
  match output.write text with
  | (output, none) => .ok () ⟨store, output, clock⟩
  | (output, some reason) => .error (.error (.output reason)) ⟨store, output, clock⟩

/-- Reads the clock, which then shows its next reading. -/
def readClock : Eval Number := fun ⟨store, output, clock⟩ =>
  let (reading, clock) := clock.tick
  .ok reading ⟨store, output, clock⟩

/-- The number of bytes that the output has taken. -/
def outputSize : Eval Nat := fun s => .ok s.output.accepted.size s

/-- Runs an evaluation and turns a runtime error into a result. The other interrupts are none of the
program's doing and are passed on. -/
def attempt (x : Eval α) : Eval (Except RuntimeError α) := fun s =>
  match x s with
  | .ok a s => .ok (.ok a) s
  | .error (.error error) s => .ok (.error error) s
  | .error interrupt s => .error interrupt s

end Eval

end Script
