import CodeTidy.Assistant
import CodeTidy.Command.Arguments
import CodeTidy.Command.Help
import CodeTidy.Command.Layout
import CodeTidy.Command.Run
import CodeTidy.Command.Setting
import CodeTidy.Constant
import CodeTidy.Cpp.Table
import CodeTidy.Diff.Script
import CodeTidy.Diff.Unified
import CodeTidy.Double.Basic
import CodeTidy.Double.Decimal
import CodeTidy.Double.Notation
import CodeTidy.FileTree
import CodeTidy.Generic.Table
import CodeTidy.Http
import CodeTidy.Instruction
import CodeTidy.Java.Declaration
import CodeTidy.Java.Loop
import CodeTidy.Java.Table
import CodeTidy.JavaScript.Basic
import CodeTidy.JavaScript.Declaration
import CodeTidy.JavaScript.Import
import CodeTidy.JavaScript.Loop
import CodeTidy.JavaScript.Statement
import CodeTidy.JavaScript.Table
import CodeTidy.JavaScript.Template
import CodeTidy.Json.Basic
import CodeTidy.Json.Number
import CodeTidy.Json.Reader
import CodeTidy.Json.Writer
import CodeTidy.Language
import CodeTidy.Literal
import CodeTidy.Main
import CodeTidy.Model.Client
import CodeTidy.Model.Error
import CodeTidy.Model.Fence
import CodeTidy.Notebook.Basic
import CodeTidy.Notebook.Duplicate
import CodeTidy.Notebook.Hoist
import CodeTidy.Notebook.Split
import CodeTidy.Pattern.Basic
import CodeTidy.Pattern.Match
import CodeTidy.Pattern.Search
import CodeTidy.Prompt
import CodeTidy.Proofs.Constant.Definitions
import CodeTidy.Proofs.Constant.Exponent
import CodeTidy.Proofs.Constant.Extraction
import CodeTidy.Proofs.Constant.Fresh
import CodeTidy.Proofs.Constant.Substitute
import CodeTidy.Proofs.Cpp.Ownership
import CodeTidy.Proofs.Cpp.Pairing
import CodeTidy.Proofs.Double.Rounding
import CodeTidy.Proofs.Double.Shortest
import CodeTidy.Proofs.Generic.Format
import CodeTidy.Proofs.Generic.Idempotent
import CodeTidy.Proofs.Generic.Literals
import CodeTidy.Proofs.Generic.Margin
import CodeTidy.Proofs.Instruction.Comments
import CodeTidy.Proofs.Instruction.Head
import CodeTidy.Proofs.Java.Header
import CodeTidy.Proofs.JavaScript.Declaration
import CodeTidy.Proofs.JavaScript.Export
import CodeTidy.Proofs.JavaScript.Header
import CodeTidy.Proofs.JavaScript.Logging
import CodeTidy.Proofs.JavaScript.Passes
import CodeTidy.Proofs.JavaScript.Template
import CodeTidy.Proofs.Json.Fits
import CodeTidy.Proofs.Json.Nesting
import CodeTidy.Proofs.Model.Contract
import CodeTidy.Proofs.Model.Fallback
import CodeTidy.Proofs.Model.Fence
import CodeTidy.Proofs.Model.Merge
import CodeTidy.Proofs.Notebook.Calls
import CodeTidy.Proofs.Notebook.Cells
import CodeTidy.Proofs.Notebook.Constants
import CodeTidy.Proofs.Notebook.Constructs
import CodeTidy.Proofs.Notebook.Frame
import CodeTidy.Proofs.Notebook.Globals
import CodeTidy.Proofs.Notebook.Inline
import CodeTidy.Proofs.Notebook.Order
import CodeTidy.Proofs.Notebook.Refactor
import CodeTidy.Proofs.Notebook.Sections
import CodeTidy.Proofs.Notebook.Source
import CodeTidy.Proofs.Notebook.Windows
import CodeTidy.Proofs.Pattern.Cuts
import CodeTidy.Proofs.Pattern.Rewrite
import CodeTidy.Proofs.Pattern.Shapes
import CodeTidy.Proofs.Pattern.Takes
import CodeTidy.Proofs.Python.Annotation
import CodeTidy.Proofs.Python.Comprehension
import CodeTidy.Proofs.Python.FormatFields
import CodeTidy.Proofs.Python.Hints
import CodeTidy.Proofs.Python.Insertion
import CodeTidy.Proofs.Python.TypingImport
import CodeTidy.Proofs.Quality.Finding
import CodeTidy.Proofs.Refactor.Improvement
import CodeTidy.Proofs.Rule.Commas
import CodeTidy.Proofs.Rule.ElementUpdate
import CodeTidy.Proofs.Rule.Header
import CodeTidy.Proofs.Rule.LoopVariable
import CodeTidy.Proofs.Sql.Content
import CodeTidy.Proofs.Sql.Lexer
import CodeTidy.Proofs.Sql.Literals
import CodeTidy.Proofs.Sql.Lockstep
import CodeTidy.Proofs.Text.Marks
import CodeTidy.Proofs.Text.Reader
import CodeTidy.Proofs.Text.Tables
import CodeTidy.Proofs.Text.Tally
import CodeTidy.Python.Docstring
import CodeTidy.Python.FString
import CodeTidy.Python.Header
import CodeTidy.Python.Loop
import CodeTidy.Python.Signature
import CodeTidy.Python.Statement
import CodeTidy.Python.Table
import CodeTidy.Quality.Finding
import CodeTidy.Quality.Metrics
import CodeTidy.Quality.Report
import CodeTidy.Quality.Score
import CodeTidy.Refactor.Engine
import CodeTidy.Refactor.Improvement
import CodeTidy.Rule.Basic
import CodeTidy.Rule.Nesting
import CodeTidy.Rule.Phrase
import CodeTidy.Screen.EmojiTable
import CodeTidy.Screen.Markup
import CodeTidy.Screen.Panel
import CodeTidy.Screen.Width
import CodeTidy.Screen.Wrap
import CodeTidy.Sql.Format
import CodeTidy.Text.Basic
import CodeTidy.Text.Blank
import CodeTidy.Text.Case
import CodeTidy.Text.CaseTable
import CodeTidy.Text.Digit
import CodeTidy.Text.Encoding
import CodeTidy.Text.Printable
import CodeTidy.Text.Ranges
import CodeTidy.Text.Utf8
import CodeTidy.Text.Word
import CodeTidy.Url
