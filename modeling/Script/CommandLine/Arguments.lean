/-!
# Command-line arguments

One script at most, and options before or after it. Arguments are read from left to right, and the
first one that settles the matter does: a wrong one, or one that asks for the version or for help.
-/

namespace Script

namespace CommandLine

/-- What to do with the program: where it comes from, whether it is run or dumped, and what is
logged. -/
structure Options where
  /-- The script to run; lines of the standard input are run without one. -/
  script : Option String
  /-- Whether to print the syntax tree and run nothing. -/
  dump : Bool
  /-- Which events to log on the standard error. -/
  logLevel : Option String
deriving DecidableEq, Repr

/-- What the arguments ask for: a run of the program, or one of the two texts about it. -/
inductive Request where
  | run (options : Options)
  | version
  | help
deriving DecidableEq, Repr

/-- What is wrong with the arguments. Nothing is run then, and the usage is printed. -/
inductive UsageError where
  | unexpectedArgument (argument : String)
  | unexpectedValue (option : String)
  | missingValue (option : String)
  | repeatedOption (option : String)
  | emptyScript
deriving DecidableEq, Repr

namespace UsageError

/-- The wording of the error, with the argument or the option that it is about. -/
def message : UsageError → String
  | unexpectedArgument argument => "error: unexpected argument '" ++ argument ++ "' found"
  | unexpectedValue option => "error: unexpected value for '" ++ option ++ "' found"
  | missingValue option => "error: a value is required for '" ++ option ++ "' but none was supplied"
  | repeatedOption option => "error: the argument '" ++ option ++ "' cannot be used multiple times"
  | emptyScript => "error: a value is required for '[SCRIPT]' but none was supplied"

end UsageError

/-- An argument as it looks before its meaning is known. -/
inductive Word where
  /-- A long option, with the value that an equals sign attaches to it. -/
  | long (name : String) (value : Option String)
  /-- A group of options of one letter each. -/
  | short (letters : List Char)
  /-- The mark after which there are no options. -/
  | separator
  | plain (text : String)
deriving DecidableEq, Repr

/-- How an argument looks. A lone hyphen is no option. -/
def Word.ofString (argument : String) : Word :=
  match argument.toList with
  | ['-', '-'] => .separator
  | '-' :: '-' :: rest =>
    let name := String.ofList (rest.takeWhile (· ≠ '='))
    match rest.dropWhile (· ≠ '=') with
    | [] => .long name none
    | _ :: value => .long name (some (String.ofList value))
  | '-' :: letter :: letters => .short (letter :: letters)
  | _ => .plain argument

/-- Takes an argument as the script. There may be one script only, and its name must not be
empty. -/
def Options.withScript (options : Options) (path : String) : Except UsageError Options :=
  if options.script.isSome then .error (.unexpectedArgument path)
  else if path = "" then .error .emptyScript
  else .ok { options with script := some path }

/-- Takes a value as the log level. -/
def Options.withLogLevel (options : Options) (level : String) : Except UsageError Options :=
  if options.logLevel.isSome then .error (.repeatedOption "--log-level")
  else .ok { options with logLevel := some level }

/-- Takes the arguments after the separator, none of which is an option. -/
def readPlain (options : Options) : List String → Except UsageError Request
  | [] => .ok (.run options)
  | argument :: rest =>
    match options.withScript argument with
    | .ok options => readPlain options rest
    | .error error => .error error

/-- Takes the arguments; `options` is what was taken before. -/
def readFrom (options : Options) : List String → Except UsageError Request
  | [] => .ok (.run options)
  | argument :: rest =>
    match Word.ofString argument with
    | .separator => readPlain options rest
    | .plain text =>
      match options.withScript text with
      | .ok options => readFrom options rest
      | .error error => .error error
    -- These two answer at once, whatever comes after them.
    | .short ('V' :: _) => .ok .version
    | .short ('h' :: _) => .ok .help
    | .short _ => .error (.unexpectedArgument argument)
    | .long "version" none => .ok .version
    | .long "help" none => .ok .help
    | .long "version" (some _) => .error (.unexpectedValue "--version")
    | .long "help" (some _) => .error (.unexpectedValue "--help")
    | .long "dump-ast" (some _) => .error (.unexpectedValue "--dump-ast")
    | .long "dump-ast" none =>
      if options.dump then .error (.repeatedOption "--dump-ast")
      else readFrom { options with dump := true } rest
    | .long "log-level" (some level) =>
      match options.withLogLevel level with
      | .ok options => readFrom options rest
      | .error error => .error error
    | .long "log-level" none =>
      match rest with
      | [] => .error (.missingValue "--log-level <LEVEL>")
      | level :: rest =>
        -- A word that looks like an option is not taken for the value.
        match Word.ofString level with
        | .plain level =>
          match options.withLogLevel level with
          | .ok options => readFrom options rest
          | .error error => .error error
        | _ => .error (.missingValue "--log-level <LEVEL>")
    | .long _ _ => .error (.unexpectedArgument argument)

/-- What a row of arguments asks for. -/
def readArguments (arguments : List String) : Except UsageError Request :=
  readFrom ⟨none, false, none⟩ arguments

/-- The name and version of the program. -/
def versionText : String := "rox 0.1.0"

/-- A summary of the arguments, as `--help` prints it and as it follows an error. -/
def helpText : String :=
  "Run a Rox script, or start a REPL\n\nUsage: rox [OPTIONS] [SCRIPT]\n\n" ++
  "Arguments:\n  [SCRIPT]  Script to run. Without one, lines are read from stdin\n\n" ++
  "Options:\n      --dump-ast           Print the parsed program instead of running it\n" ++
  "      --log-level <LEVEL>  Tracing filter directive, e.g. \"debug\" or " ++
  "\"rox::interpreter=trace\" (overrides RUST_LOG)\n" ++
  "  -h, --help               Print help\n  -V, --version            Print version"

end CommandLine

end Script
