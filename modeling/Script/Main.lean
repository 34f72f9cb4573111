import Script.CommandLine.Execution
import Std.Time.DateTime.Timestamp

/-!
# The program

Reads the arguments, the script or the standard input, and the time, and writes what the console
holds.
-/

namespace Script

namespace CommandLine

/-- More nested steps than any run can take. -/
def unboundedFuel : Nat := Nat.pow 2 62

/-- A clock that starts at the present time and goes on by a microsecond at each reading. -/
def systemClock : IO Clock := do
  let now ← Std.Time.Timestamp.now
  let nanoseconds := now.toNanosecondsSinceUnixEpoch.toInt.toNat
  return ⟨fun i => .ofRatio (nanoseconds + 1000 * i) 1000000000⟩

/-- How much of a console has been written to the standard streams. -/
structure Written where
  output : Nat
  reports : Nat

/-- Writes what the console holds beyond what has been written. -/
def flush (console : Console) (written : Written) : IO Written := do
  let stdout ← IO.getStdout
  stdout.write (console.output.extract written.output console.output.size)
  stdout.flush
  let reports := console.reports.toUTF8
  (← IO.getStderr).write (reports.extract written.reports reports.size)
  return ⟨console.output.size, reports.size⟩

/-- Reads up to and including the next line feed; `buffer` holds what was read before. -/
partial def readLine (stdin : IO.FS.Stream) (buffer : ByteArray) :
    IO (ByteArray × ByteArray) := do
  match buffer.toList.findIdx? (· = 10) with
  | some i => return (buffer.extract 0 (i + 1), buffer.extract (i + 1) buffer.size)
  | none =>
    let chunk ← stdin.read 4096
    if chunk.isEmpty then return (buffer, .empty) else readLine stdin (buffer ++ chunk)

/-- Runs an interactive session on the standard input. -/
partial def interact (dump : Bool) (stdin : IO.FS.Stream) (console : Console) (written : Written)
    (buffer : ByteArray) : IO UInt32 := do
  let written ← flush console.prompt written
  let (line, buffer) ← readLine stdin buffer
  let clock ← systemClock
  let console := { console with state := { console.state with clock := clock } }
  if line.isEmpty then
    let finished := runLines unboundedFuel dump console []
    let _ ← flush finished.console written
    return finished.exitCode
  else
    match step unboundedFuel dump console.prompt line with
    | some console => interact dump stdin console written buffer
    | none =>
      let finished := runLines unboundedFuel dump console [line]
      let _ ← flush finished.console written
      return finished.exitCode

/-- Reads the bytes of a script. The ways in which this may fail are told apart as far as the report
tells them apart. -/
def readScript (path : String) : IO (Except ReadFailure ByteArray) := do
  try
    return .ok (← IO.FS.readBinFile path)
  catch error =>
    match error with
    | .noFileOrDirectory .. => return .error .notFound
    | .inappropriateType .. => return .error .isDirectory
    | _ => return .error (.other (toString error))

end CommandLine

end Script

open Script CommandLine in
/-- Runs what the arguments ask for. Nothing is decided here: the outcome of a run is computed
before, and only written out. -/
def main (arguments : List String) : IO UInt32 := do
  match readArguments arguments with
  | .error error =>
    (← IO.getStderr).putStrLn (error.message ++ "\n\n" ++ helpText)
    return 2
  | .ok .version =>
    (← IO.getStdout).putStrLn versionText
    return 0
  | .ok .help =>
    (← IO.getStdout).putStrLn helpText
    return 0
  | .ok (.run options) =>
    match options.console (← systemClock) with
    | .error finished =>
      let _ ← flush finished.console ⟨0, 0⟩
      return finished.exitCode
    | .ok console =>
      match options.script with
      | none => interact options.dump (← IO.getStdin) console ⟨0, 0⟩ .empty
      | some path =>
        let finished := runContents unboundedFuel options.dump path (← readScript path) console
        let _ ← flush finished.console ⟨0, 0⟩
        return finished.exitCode
