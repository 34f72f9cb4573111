/-!
# Input

Bytes from outside have to be UTF-8 to become a source. Interactive input is cut into lines at
line feeds; a carriage return before a line feed does not belong to the line.
-/

namespace Script

namespace CommandLine

/-- Why a script could not be read. -/
inductive ReadFailure where
  | notFound
  | isDirectory
  | notUtf8
  | other (reason : String)
deriving DecidableEq, Repr

namespace ReadFailure

/-- What the system says of the failure. -/
def reason : ReadFailure → String
  | notFound => "No such file or directory (os error 2)"
  | isDirectory => "Is a directory (os error 21)"
  | notUtf8 => "stream did not contain valid UTF-8"
  | other reason => reason

/-- The report that ends the program when a script could not be read. -/
def report (failure : ReadFailure) (path : String) : String :=
  "Error: could not read script " ++ path ++ "\n\nCaused by:\n    " ++ failure.reason ++ "\n"

end ReadFailure

/-- The report that ends the program when a line is not UTF-8. -/
def lineFailureReport : String := "Error: " ++ ReadFailure.notUtf8.reason ++ "\n"

/-- The source that some bytes encode. A file that is not UTF-8 is no source at all, and nothing of
it is scanned. -/
def decode (bytes : ByteArray) : Except ReadFailure String :=
  match String.fromUTF8? bytes with
  | some source => .ok source
  | none => .error .notUtf8

/-- Cuts bytes into lines that keep their line feeds. -/
def lines (bytes : List UInt8) : List (List UInt8) :=
  match bytes with
  | [] => []
  | first :: rest =>
    if first = 10 then [first] :: lines rest
    else
      match lines rest with
      | [] => [[first]]
      | line :: others => (first :: line) :: others

/-- A line without its line feed and the carriage return before that. A line that ends without a
line feed keeps all its characters. -/
def stripLineEnd (line : List Char) : List Char :=
  match line.reverse with
  | '\n' :: '\r' :: text => text.reverse
  | '\n' :: text => text.reverse
  | _ => line

/-- The text of a line of input. -/
def decodeLine (line : ByteArray) : Except ReadFailure String :=
  match decode line with
  | .ok text => .ok (String.ofList (stripLineEnd text.toList))
  | .error failure => .error failure

end CommandLine

end Script
