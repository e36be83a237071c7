import ScriptKinds.CommandLine.Json
import ScriptKinds.CommandLine.Options
import ScriptKinds.CommandLine.Report
import ScriptKinds.CommandLine.Run
import ScriptKinds.Files.Access
import ScriptKinds.Files.Disk
import ScriptKinds.Files.Path
import ScriptKinds.Grammar.Binding
import ScriptKinds.Grammar.Body
import ScriptKinds.Grammar.Expression
import ScriptKinds.Grammar.Reader
import ScriptKinds.Grammar.Script
import ScriptKinds.Grammar.Statement
import ScriptKinds.Grammar.Table
import ScriptKinds.Inference.Basic
import ScriptKinds.Inference.Classification
import ScriptKinds.Inference.Operator
import ScriptKinds.Inference.WriteSite
import ScriptKinds.Kind.Basic
import ScriptKinds.Kind.Set
import ScriptKinds.Launcher.Builder
import ScriptKinds.Launcher.Command
import ScriptKinds.Launcher.Environment
import ScriptKinds.Launcher.Error
import ScriptKinds.Launcher.Host
import ScriptKinds.Launcher.Settings
import ScriptKinds.Launcher.Version
import ScriptKinds.Lexeme.Delimited
import ScriptKinds.Lexeme.Escape
import ScriptKinds.Lexeme.Number
import ScriptKinds.Main
import ScriptKinds.Numeric.Binary64
import ScriptKinds.Numeric.Literal
import ScriptKinds.Piece
import ScriptKinds.Scope.Action
import ScriptKinds.Scope.Basic
import ScriptKinds.Scope.Binding
import ScriptKinds.Scope.Model
import ScriptKinds.Source.Cursor
import ScriptKinds.Source.Diagnostic
import ScriptKinds.Source.Fault
import ScriptKinds.Source.Line
import ScriptKinds.Source.Position
import ScriptKinds.Syntax.Copy
import ScriptKinds.Syntax.Tree
import ScriptKinds.Text.CharClass
import ScriptKinds.Text.DecimalDigit
import ScriptKinds.Text.Quoted
import ScriptKinds.Text.Trim
import ScriptKinds.Text.Unprintable
import ScriptKinds.Text.Utf8
import ScriptKinds.Token.Basic
import ScriptKinds.Token.Kind
import ScriptKinds.Token.OfSource
import ScriptKinds.Token.Stream
import ScriptKinds.Unix.Format
import ScriptKinds.Unix.Program
import ScriptKinds.Unix.Run
import ScriptKinds.Unix.Script
import ScriptKinds.Unix.Shell
import ScriptKinds.Unix.System
import ScriptKinds.Unix.Word
import ScriptKinds.Proofs.Grammar.Carrying
import ScriptKinds.Proofs.Grammar.ScriptNumbers
import ScriptKinds.Proofs.Scope.Site
import ScriptKinds.Proofs.Scope.SiteNames
import ScriptKinds.Proofs.Scope.Step
import ScriptKinds.Proofs.Scope.Walk
import ScriptKinds.Proofs.Scope.TreeWalk
import ScriptKinds.Proofs.Scope.Ready
import ScriptKinds.Proofs.Scope.Account
import ScriptKinds.Proofs.Scope.Frame
import ScriptKinds.Proofs.Scope.Resolution
import ScriptKinds.Proofs.Scope.Hoisting
import ScriptKinds.Proofs.Inference.Widening
import ScriptKinds.Proofs.Inference.Agreement
import ScriptKinds.Proofs.Scope.Table
import ScriptKinds.Proofs.Tree.Node
import ScriptKinds.Proofs.Inference.Effect
import ScriptKinds.Proofs.Inference.Visiting
import ScriptKinds.Proofs.Grammar.Spelling
import ScriptKinds.Proofs.Grammar.SpellingRules
import ScriptKinds.Proofs.Grammar.ExpressionSpelling
import ScriptKinds.Proofs.Grammar.ScriptSpelling
import ScriptKinds.Proofs.Inference.Contribution
import ScriptKinds.Proofs.Token.Layout
import ScriptKinds.Proofs.Inference.Location
import ScriptKinds.Proofs.Inference.Order
import ScriptKinds.Proofs.Inference.Copying
import ScriptKinds.Proofs.Inference.Independence
import ScriptKinds.Proofs.Tree.Relabeling
import ScriptKinds.Proofs.Scope.ActionRenaming
import ScriptKinds.Proofs.Scope.Renaming
import ScriptKinds.Proofs.Inference.Renaming
import ScriptKinds.Proofs.Grammar.Acceptance
import ScriptKinds.Proofs.Grammar.Grouping
import ScriptKinds.Proofs.Grammar.Printing
import ScriptKinds.Proofs.Grammar.PrintedOperands
import ScriptKinds.Proofs.Grammar.PrintedLists
import ScriptKinds.Proofs.Grammar.PrintedForms
import ScriptKinds.Proofs.Grammar.RoundTrip
import ScriptKinds.Proofs.Tree.WellFormed
import ScriptKinds.Proofs.Grammar.Yielding
import ScriptKinds.Proofs.Grammar.ExpressionShape
import ScriptKinds.Proofs.Grammar.ScriptShape
import ScriptKinds.Proofs.Grammar.Advancing
import ScriptKinds.Proofs.Grammar.ExpressionProgress
import ScriptKinds.Proofs.Grammar.ScriptProgress
import ScriptKinds.Proofs.Grammar.Termination
import ScriptKinds.Proofs.Lexeme.Shape
import ScriptKinds.Proofs.Token.Lossless
import ScriptKinds.Proofs.Token.Brackets
import ScriptKinds.Proofs.Launcher.Building
import ScriptKinds.Proofs.Lexeme.Steady
import ScriptKinds.Proofs.Lexeme.Seam
import ScriptKinds.Proofs.Token.Respacing
import ScriptKinds.Proofs.Tree.Nesting
import ScriptKinds.Proofs.Grammar.Ranging
import ScriptKinds.Proofs.Grammar.ExpressionRanges
import ScriptKinds.Proofs.Grammar.ScriptRanges
import ScriptKinds.Proofs.Grammar.SourceRanges
import ScriptKinds.Proofs.Source.Line
import ScriptKinds.Proofs.Scope.Position
import ScriptKinds.Proofs.Scope.Declared
import ScriptKinds.Proofs.CommandLine.Location
import ScriptKinds.Proofs.Token.LineBreaks
import ScriptKinds.Proofs.Lexeme.Continued
import ScriptKinds.Proofs.Token.Joining
import ScriptKinds.Proofs.Inference.Stability
import ScriptKinds.Proofs.Launcher.StreamLines
import ScriptKinds.Proofs.Launcher.Reading
import ScriptKinds.Proofs.Launcher.LifeCycle
import ScriptKinds.Proofs.Grammar.Production
import ScriptKinds.Proofs.Grammar.Derivation
import ScriptKinds.Proofs.Grammar.ExpressionDerivation
import ScriptKinds.Proofs.Grammar.ScriptDerivation
import ScriptKinds.Proofs.Grammar.DerivedNodes
import ScriptKinds.Proofs.Grammar.Restriction
import ScriptKinds.Proofs.Token.Lexed
import ScriptKinds.Proofs.Grammar.MemberNames
import ScriptKinds.Proofs.Token.Division
import ScriptKinds.Proofs.Grammar.OperandEnd
import ScriptKinds.Proofs.Numeric.NumberValue
import ScriptKinds.Proofs.Grammar.Orderly
import ScriptKinds.Proofs.Grammar.NumberFaults
import ScriptKinds.Proofs.Grammar.Convention
import ScriptKinds.Proofs.Grammar.SpreadPlaces
import ScriptKinds.Proofs.Grammar.Session
import ScriptKinds.Proofs.Grammar.ScriptCopy
import ScriptKinds.Proofs.Source.Caret
import ScriptKinds.Proofs.Token.StringLiteral
import ScriptKinds.Proofs.Lexeme.Numeral
import ScriptKinds.Proofs.Token.LongestMatch
import ScriptKinds.Proofs.Lexeme.Truncated
import ScriptKinds.Proofs.Lexeme.Unreadable
import ScriptKinds.Proofs.Token.LexicalFault
import ScriptKinds.Proofs.Grammar.RegexLiteral
import ScriptKinds.Proofs.Launcher.VersionCheck
import ScriptKinds.Proofs.Inference.ValuePosition
import ScriptKinds.Proofs.Kind.Members
import ScriptKinds.Proofs.Kind.Growth
import ScriptKinds.Proofs.Scope.Construct
import ScriptKinds.Proofs.Scope.Bracketing
import ScriptKinds.Proofs.Scope.Permanence
