import ScriptLint.CommandLine.Invocation
import ScriptLint.CommandLine.Output
import ScriptLint.CommandLine.Run
import ScriptLint.Config
import ScriptLint.Diagnostic.Basic
import ScriptLint.Diagnostic.Journal
import ScriptLint.Directive
import ScriptLint.Finding
import ScriptLint.Grammar.Block
import ScriptLint.Grammar.Declaration
import ScriptLint.Grammar.Expression
import ScriptLint.Grammar.Function
import ScriptLint.Grammar.Literal
import ScriptLint.Grammar.Loop
import ScriptLint.Grammar.Member
import ScriptLint.Grammar.Nested
import ScriptLint.Grammar.Pattern
import ScriptLint.Grammar.Primary
import ScriptLint.Grammar.Statement
import ScriptLint.Grammar.StatementList
import ScriptLint.Grammar.Summary
import ScriptLint.Json.Printer
import ScriptLint.Json.Reader
import ScriptLint.Json.Value
import ScriptLint.Lexer.Basic
import ScriptLint.Lexer.Cursor
import ScriptLint.Lexer.Escape
import ScriptLint.Lexer.Literal
import ScriptLint.Lexer.Number
import ScriptLint.Lexer.TokenStream
import ScriptLint.Lexer.Word
import ScriptLint.Lint
import ScriptLint.Main
import ScriptLint.Metrics
import ScriptLint.OrderedMap
import ScriptLint.Parse.Advance
import ScriptLint.Parse.Notice
import ScriptLint.Parse.Session
import ScriptLint.Position
import ScriptLint.Predefined.Environment
import ScriptLint.Predefined.Table
import ScriptLint.Proofs.Balance
import ScriptLint.Proofs.Comments.Blanking
import ScriptLint.Proofs.Comments.Lexing
import ScriptLint.Proofs.Comments.Runs
import ScriptLint.Proofs.Comments.Sessions
import ScriptLint.Proofs.Composition.Basic
import ScriptLint.Proofs.Composition.Program
import ScriptLint.Proofs.Deeds.Basic
import ScriptLint.Proofs.Deeds.Decisions
import ScriptLint.Proofs.Deeds.Errors
import ScriptLint.Proofs.Deeds.Runs
import ScriptLint.Proofs.Deeds.Telling
import ScriptLint.Proofs.Directives.Acceptances
import ScriptLint.Proofs.Directives.Extent
import ScriptLint.Proofs.Directives.Postings
import ScriptLint.Proofs.Directives.Settings
import ScriptLint.Proofs.Division.Divisor
import ScriptLint.Proofs.Division.Lockstep
import ScriptLint.Proofs.Division.Operands
import ScriptLint.Proofs.Division.Operators
import ScriptLint.Proofs.Division.Statement
import ScriptLint.Proofs.Division.Tail
import ScriptLint.Proofs.Division.Twin
import ScriptLint.Proofs.Grammar.Blind
import ScriptLint.Proofs.Grammar.Congruence
import ScriptLint.Proofs.Grammar.Contract
import ScriptLint.Proofs.Grammar.Operands
import ScriptLint.Proofs.Grammar.Lenient
import ScriptLint.Proofs.Grammar.Passing
import ScriptLint.Proofs.Grammar.Statements
import ScriptLint.Proofs.Grammar.Steady
import ScriptLint.Proofs.Heads.Lexing
import ScriptLint.Proofs.Heads.Loops
import ScriptLint.Proofs.Heads.Operands
import ScriptLint.Proofs.Heads.Operators
import ScriptLint.Proofs.Heads.Runs
import ScriptLint.Proofs.Heads.Sessions
import ScriptLint.Proofs.Heads.Walks
import ScriptLint.Proofs.Isolation.Names
import ScriptLint.Proofs.Isolation.Runs
import ScriptLint.Proofs.Isolation.Sessions
import ScriptLint.Proofs.Isolation.Settings
import ScriptLint.Proofs.Isolation.Steps
import ScriptLint.Proofs.Isolation.Streams
import ScriptLint.Proofs.Lexer.Locality
import ScriptLint.Proofs.Lexer.Lookahead
import ScriptLint.Proofs.Lexer.Newline
import ScriptLint.Proofs.Lexer.OctalEscapes
import ScriptLint.Proofs.Lexer.Positions
import ScriptLint.Proofs.Lexer.Stream
import ScriptLint.Proofs.Lexer.Substitutions
import ScriptLint.Proofs.Log.Events
import ScriptLint.Proofs.Log.LongLines
import ScriptLint.Proofs.Log.Operands
import ScriptLint.Proofs.Log.Runs
import ScriptLint.Proofs.Log.Semicolons
import ScriptLint.Proofs.Log.Sessions
import ScriptLint.Proofs.Log.Statements
import ScriptLint.Proofs.Log.Stops
import ScriptLint.Proofs.Log.Strides
import ScriptLint.Proofs.Log.Timely
import ScriptLint.Proofs.Nesting
import ScriptLint.Proofs.OrderedMap
import ScriptLint.Proofs.Progress.Consuming
import ScriptLint.Proofs.Progress.Sessions
import ScriptLint.Proofs.Progress.Termination
import ScriptLint.Proofs.Scope.Accounts
import ScriptLint.Proofs.Scope.Ahead
import ScriptLint.Proofs.Scope.Arena
import ScriptLint.Proofs.Scope.Claims
import ScriptLint.Proofs.Scope.Evolution
import ScriptLint.Proofs.Scope.Frames
import ScriptLint.Proofs.Scope.Gradient
import ScriptLint.Proofs.Scope.LateDeclarations
import ScriptLint.Proofs.Scope.Lines
import ScriptLint.Proofs.Scope.Tally
import ScriptLint.Proofs.Unwinding
import ScriptLint.Proofs.Writes
import ScriptLint.Report.Basic
import ScriptLint.Scope.Close
import ScriptLint.Scope.Declare
import ScriptLint.Scope.Frame
import ScriptLint.Scope.Tracker
import ScriptLint.Scope.Use
import ScriptLint.Setting.Catalogue
import ScriptLint.Setting.Layers
import ScriptLint.Setting.Problem
import ScriptLint.Setting.Value
import ScriptLint.Stack
import ScriptLint.Text.Alphabetic
import ScriptLint.Text.Blank
import ScriptLint.Text.Digit
import ScriptLint.Text.Lowercase
import ScriptLint.Text.Numeric
import ScriptLint.Text.Ranges
import ScriptLint.Text.Shape
import ScriptLint.Token.Basic
import ScriptLint.Token.Keyword
import ScriptLint.Token.Punctuator
import ScriptLint.Proofs.Directives.Acceptances
import ScriptLint.Proofs.Configuration.Overrides
import ScriptLint.Proofs.Configuration.Rejections
import ScriptLint.Proofs.Configuration.Strictness
import ScriptLint.Proofs.Configuration.Values
import ScriptLint.Proofs.Precedence.Grouping
import ScriptLint.Proofs.Precedence.Runs
import ScriptLint.Proofs.LineEndings.Scanning
import ScriptLint.Proofs.LineEndings.Lexing
import ScriptLint.Proofs.LineEndings.Runs
import ScriptLint.Proofs.Predefined
import ScriptLint.Proofs.Scope.DirectiveGlobals
import ScriptLint.Proofs.Lexer.Relexing
import ScriptLint.Proofs.Directives.Layouts
import ScriptLint.Proofs.Reports.TextLines
import ScriptLint.Proofs.Deeds.Limits
