import Script.CommandLine.Arguments
import Script.CommandLine.Console
import Script.CommandLine.Execution
import Script.CommandLine.Input
import Script.Interpreter.Evaluate
import Script.Interpreter.Operators
import Script.Interpreter.Run
import Script.Interpreter.Sink
import Script.Interpreter.State
import Script.LogFilter.Directive
import Script.LogFilter.Field
import Script.LogFilter.Pattern.Basic
import Script.LogFilter.Pattern.Bracket
import Script.LogFilter.Pattern.Escape
import Script.LogFilter.Pattern.Parser
import Script.LogFilter.Pattern.Reader
import Script.Main
import Script.Number.Basic
import Script.Number.Decimal
import Script.Number.Rounding
import Script.Program
import Script.Proofs.Dump.Faithful
import Script.Proofs.Dump.Nested
import Script.Proofs.Dump.Shown
import Script.Proofs.Dump.Trees
import Script.Proofs.Dump.Undump
import Script.Proofs.Grammar.EndOfInput
import Script.Proofs.Grammar.ExpressionCompleteness
import Script.Proofs.Grammar.ExpressionSoundness
import Script.Proofs.Grammar.Fuel
import Script.Proofs.Grammar.Joining
import Script.Proofs.Grammar.Limits
import Script.Proofs.Grammar.Lockstep
import Script.Proofs.Grammar.Marks
import Script.Proofs.Grammar.Nodes
import Script.Proofs.Grammar.Numbering
import Script.Proofs.Grammar.Parse
import Script.Proofs.Grammar.Places
import Script.Proofs.Grammar.Reading
import Script.Proofs.Grammar.Recasting
import Script.Proofs.Grammar.Recovery
import Script.Proofs.Grammar.Relocation
import Script.Proofs.Grammar.Rules
import Script.Proofs.Grammar.Shape
import Script.Proofs.Grammar.Source
import Script.Proofs.Grammar.StatementCompleteness
import Script.Proofs.Grammar.StatementSoundness
import Script.Proofs.Number.Digits
import Script.Proofs.Number.RoundTrip
import Script.Proofs.Renaming.Actions
import Script.Proofs.Renaming.Disguise
import Script.Proofs.Renaming.Evaluator
import Script.Proofs.Renaming.Programs
import Script.Proofs.Renaming.Sources
import Script.Proofs.Representation.Quotes
import Script.Proofs.Representation.Reading
import Script.Proofs.Representation.Runs
import Script.Proofs.Representation.Stores
import Script.Proofs.Run.Actions
import Script.Proofs.Run.Contract
import Script.Proofs.Run.ForLoops
import Script.Proofs.Run.Formed
import Script.Proofs.Run.Fuel
import Script.Proofs.Run.Hierarchies
import Script.Proofs.Run.Layer
import Script.Proofs.Run.Lockstep
import Script.Proofs.Run.Maintained
import Script.Proofs.Run.Output
import Script.Proofs.Run.Plan
import Script.Proofs.Run.PropertyLog
import Script.Proofs.Run.Receivers
import Script.Proofs.Run.Repertoire
import Script.Proofs.Run.Return
import Script.Proofs.Run.SoundCalls
import Script.Proofs.Run.SoundStatements
import Script.Proofs.Run.SoundStore
import Script.Proofs.Run.Soundness
import Script.Proofs.Run.Stable
import Script.Proofs.Run.Super
import Script.Proofs.Run.Task
import Script.Proofs.Run.Trace
import Script.Proofs.Run.Twins
import Script.Proofs.Run.Uniform
import Script.Proofs.Run.Writes
import Script.Proofs.Scoping.Calls
import Script.Proofs.Scoping.Construction
import Script.Proofs.Scoping.Definitions
import Script.Proofs.Scoping.Forest
import Script.Proofs.Scoping.InTime
import Script.Proofs.Scoping.Lexical
import Script.Proofs.Scoping.Names
import Script.Proofs.Scoping.NestedExpressions
import Script.Proofs.Scoping.NestedPrograms
import Script.Proofs.Scoping.NestedStatements
import Script.Proofs.Scoping.NestedStore
import Script.Proofs.Scoping.Nesting
import Script.Proofs.Scoping.Occurrences
import Script.Proofs.Scoping.QuietPlans
import Script.Proofs.Scoping.Resolution
import Script.Proofs.Scoping.SharedTables
import Script.Proofs.Scoping.SuperDispatch
import Script.Proofs.Session.Alike
import Script.Proofs.Session.Cut
import Script.Proofs.Session.Lines
import Script.Proofs.Session.Mask
import Script.Proofs.Session.Masked
import Script.Proofs.Session.Transcript
import Script.Proofs.Source.Positions
import Script.Proofs.Store.Changes
import Script.Proofs.Store.Consistent
import Script.Proofs.Store.Growth
import Script.Proofs.Store.Hierarchy
import Script.Proofs.Store.Paired
import Script.Proofs.Store.Pairing
import Script.Proofs.Store.Persistence
import Script.Proofs.Store.Resolution
import Script.Proofs.Store.Search
import Script.Proofs.Store.Tables
import Script.Proofs.Store.Writes
import Script.Proofs.Token.Blanking
import Script.Proofs.Token.Breaks
import Script.Proofs.Token.Held
import Script.Proofs.Token.Joining
import Script.Proofs.Token.Lexemes
import Script.Proofs.Token.Places
import Script.Proofs.Token.Spelled
import Script.Proofs.Token.Tiling
import Script.Proofs.Token.Written
import Script.RuntimeError
import Script.Source.Position
import Script.Source.Span
import Script.Store.Arena
import Script.Store.Basic
import Script.Store.Classes
import Script.Store.Display
import Script.Store.Initial
import Script.Store.Inspect
import Script.Store.Properties
import Script.Store.Scopes
import Script.Syntax.Dump
import Script.Syntax.Limits
import Script.Syntax.Parser.Error
import Script.Syntax.Parser.Expression
import Script.Syntax.Parser.State
import Script.Syntax.Parser.Statement
import Script.Syntax.Tree
import Script.Table
import Script.Text.Alphanumeric
import Script.Text.Blank
import Script.Text.Escape
import Script.Text.Invisible
import Script.Text.Letter
import Script.Text.Marks
import Script.Text.Ranges
import Script.Token.Basic
import Script.Token.Scan
import Script.Value
