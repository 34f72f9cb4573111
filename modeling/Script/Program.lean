import Script.Source.Position
import Script.Syntax.Limits
import Script.Syntax.Parser.Statement
import Script.Token.Scan

/-!
# Programs

A source is accepted when it scans, parses and keeps the size limits. Otherwise it is rejected
with all its errors: those of scanning before those of parsing, and those of the limits when there
are no others.
-/

namespace Script

/-- Why a source is not accepted: by one of the three stages that look at it. -/
inductive SourceFault where
  | scan (error : ScanError)
  | parse (fault : SyntaxFault)
  | limit (error : LimitError)
deriving DecidableEq, Repr

/-- A fault of a source and its place. -/
structure SourceError where
  fault : SourceFault
  span : Span
deriving DecidableEq, Repr

namespace SourceError

/-- The wording of the error, as the stage that found it words it. -/
def message (error : SourceError) : String :=
  match error.fault with
  | .scan e => e.message
  | .parse fault => SyntaxError.message ⟨fault, error.span⟩
  | .limit e => e.message

/-- The error with its position in the source. -/
def report (error : SourceError) (source : String) : String :=
  error.span.report source error.message

def ofScan (error : ScanError × Span) : SourceError := ⟨.scan error.1, error.2⟩

def ofSyntax (error : SyntaxError) : SourceError := ⟨.parse error.fault, error.span⟩

def ofLimit (error : LimitError × Span) : SourceError := ⟨.limit error.1, error.2⟩

end SourceError

/-- The program that a source writes, or all the errors of the source. -/
def readProgram (source : String) : Except (List SourceError) (List Stmt) :=
  let scanFaults := (scanErrors source).map SourceError.ofScan
  match parse (tokens source) with
  | .error syntaxErrors => .error (scanFaults ++ syntaxErrors.map SourceError.ofSyntax)
  | .ok statements =>
    if scanFaults ≠ [] then .error scanFaults
    else
      match Stmt.limitErrorsOfAll statements with
      | [] => .ok statements
      | limitErrors => .error (limitErrors.map SourceError.ofLimit)

end Script
