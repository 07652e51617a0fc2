import CelShell.Environment
import CelShell.Eval.Basic
import CelShell.Eval.Builtin
import CelShell.Eval.Error
import CelShell.Eval.Operation
import CelShell.Eval.Program
import CelShell.Eval.Step
import CelShell.Expr.Basic
import CelShell.Expr.Operator
import CelShell.Expr.Parser
import CelShell.Expr.ParserState
import CelShell.Expr.Printer
import CelShell.Format.Basic
import CelShell.Format.Json
import CelShell.Format.Outline
import CelShell.Format.Structured
import CelShell.History.Introspection
import CelShell.History.Ring
import CelShell.History.Session
import CelShell.Main
import CelShell.Number.Decimal
import CelShell.Number.Digits
import CelShell.Number.Double
import CelShell.Shell.Basic
import CelShell.Shell.CommandLine
import CelShell.Shell.Completion
import CelShell.Shell.Config
import CelShell.Shell.Run
import CelShell.Shell.Settings
import CelShell.Source.Issue
import CelShell.Source.Span
import CelShell.Source.Text
import CelShell.Table
import CelShell.Text.Offset
import CelShell.Text.Quoted
import CelShell.Token.Basic
import CelShell.Token.Lexer
import CelShell.Token.Scan
import CelShell.Toml.Basic
import CelShell.Toml.Document
import CelShell.Toml.Number
import CelShell.Toml.Text
import CelShell.Typing.Basic
import CelShell.Typing.Check
import CelShell.Typing.Declaration
import CelShell.Typing.Standard
import CelShell.Unicode.Property
import CelShell.Unicode.Tables
import CelShell.Value.Basic
import CelShell.Value.Equality
import CelShell.Proofs.Grammar.Basic
import CelShell.Proofs.Grammar.Run
import CelShell.Proofs.Grammar.Soundness
import CelShell.Proofs.Grammar.Nesting
import CelShell.Proofs.Grammar.Completeness
import CelShell.Proofs.Grammar.Recognition
import CelShell.Proofs.Grammar.Height
import CelShell.Proofs.Number.Decimal
import CelShell.Proofs.Token.Number
import CelShell.Proofs.Token.Lexing
import CelShell.Proofs.Token.Spelling
import CelShell.Proofs.Source.Place
import CelShell.Proofs.Token.Locality
import CelShell.Proofs.Token.Layout
import CelShell.Proofs.Expr.Text
import CelShell.Proofs.Expr.Nesting
import CelShell.Proofs.Grammar.RoundTrip
import CelShell.Proofs.Expr.Location
import CelShell.Proofs.Grammar.Triple
import CelShell.Proofs.Grammar.Location
import CelShell.Proofs.History.Log
import CelShell.Proofs.History.Window
import CelShell.Proofs.Shell.Log
import CelShell.Proofs.Environment
import CelShell.Proofs.Eval.Yields
import CelShell.Proofs.Eval.Builtin
import CelShell.Proofs.Eval.Safety
import CelShell.Proofs.Eval.Domain
import CelShell.Proofs.Typing.Call
import CelShell.Proofs.Typing.Soundness
import CelShell.Proofs.Typing.CallSafety
import CelShell.Proofs.Typing.Progress
import CelShell.Proofs.Typing.Vaguer
import CelShell.Proofs.Typing.Precision
import CelShell.Proofs.Typing.Blame
import CelShell.Proofs.Source.Issue
import CelShell.Proofs.Grammar.Reprinting
import CelShell.Proofs.Expr.Expansion
import CelShell.Proofs.Grammar.Expansion
import CelShell.Proofs.Expr.Calls
import CelShell.Proofs.Eval.NoQuit
import CelShell.Proofs.Value.Source
import CelShell.Proofs.Eval.Parametric
import CelShell.Proofs.Eval.Trace
import CelShell.Proofs.Typing.Locality
import CelShell.Proofs.Typing.Declared
import CelShell.Proofs.Eval.Dispatch
import CelShell.Proofs.Eval.Valuation
import CelShell.Proofs.History.Introspection
import CelShell.Proofs.Shell.Transcript
import CelShell.Proofs.Shell.Outcome
import CelShell.Proofs.Shell.Noninterference
import CelShell.Proofs.Shell.Library
import CelShell.Proofs.Shell.Quit
import CelShell.Proofs.Shell.Checked
import CelShell.Proofs.Typing.Merging
import CelShell.Proofs.Shell.Recording
import CelShell.Proofs.Eval.Search
import CelShell.Proofs.Eval.Logic
import CelShell.Proofs.Eval.Selection
import CelShell.Proofs.Expr.Renaming
import CelShell.Proofs.Renaming
import CelShell.Proofs.Grammar.Lookahead
import CelShell.Proofs.Grammar.Viability
import CelShell.Proofs.Typing.Joining
import CelShell.Proofs.Format.Number
import CelShell.Proofs.Format.Outline
import CelShell.Proofs.Format.Json
import CelShell.Proofs.Format.Structured
import CelShell.Proofs.Expr.Pieces
import CelShell.Proofs.Grammar.Pieces
import CelShell.Proofs.Grammar.Signs
import CelShell.Proofs.Grammar.Parentheses
import CelShell.Proofs.Shell.Completion
import CelShell.Proofs.Number.Word
import CelShell.Proofs.Eval.Arithmetic
import CelShell.Proofs.Token.Integer
import CelShell.Proofs.Grammar.Negative
import CelShell.Proofs.Number.Exact
import CelShell.Proofs.Value.Equality
import CelShell.Proofs.Grammar.Building
import CelShell.Proofs.Grammar.Numbering
import CelShell.Proofs.Grammar.Counting
import CelShell.Proofs.Grammar.Budget
import CelShell.Proofs.Grammar.Position
import CelShell.Proofs.Token.Quoting
