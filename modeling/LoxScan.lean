import LoxScan.Number.Decimal
import LoxScan.Number.Binary64
import LoxScan.Number.Numeral
import LoxScan.Kind
import LoxScan.Token
import LoxScan.Text.Split
import LoxScan.Text.Line
import LoxScan.Text.CharRange
import LoxScan.Text.Combining
import LoxScan.Text.Printable
import LoxScan.Text.Escape
import LoxScan.Text.WhiteSpace
import LoxScan.Text.ClusterBreak
import LoxScan.Text.Cluster
import LoxScan.Text.Backspace
import LoxScan.Text.ControlSequence
import LoxScan.Text.Similarity
import LoxScan.LexicalError
import LoxScan.Diagnostic
import LoxScan.Piece
import LoxScan.Scan
import LoxScan.Session
import LoxScan.Log
import LoxScan.Command.Options
import LoxScan.Command.UsageError
import LoxScan.Command.Arguments
import LoxScan.Command.Reading
import LoxScan.Command.FileTree
import LoxScan.Command.Run
import LoxScan.Main
import LoxScan.Proofs.Boundary
import LoxScan.Proofs.Steps
import LoxScan.Proofs.LongestMatch
import LoxScan.Proofs.Automaton
import LoxScan.Proofs.Image
import LoxScan.Proofs.LineLookup
import LoxScan.Proofs.LineStamps
import LoxScan.Proofs.Concatenation
import LoxScan.Proofs.Spelling
import LoxScan.Proofs.Separation
import LoxScan.Proofs.Gluing
import LoxScan.Proofs.Reconstruction
import LoxScan.Proofs.Rewriting
import LoxScan.Proofs.Erasure
import LoxScan.Proofs.LineEndings
import LoxScan.Proofs.ByteScan
import LoxScan.Proofs.ByteScanRules
import LoxScan.Proofs.ByteScanSafety
import LoxScan.Proofs.ByteScanNotes
import LoxScan.Proofs.Lookahead
import LoxScan.Proofs.Listing
import LoxScan.Proofs.DeliveredLines
import LoxScan.Proofs.LineByLine
import LoxScan.Proofs.NumberText
import LoxScan.Proofs.PromptRun
import LoxScan.Proofs.Reporters
import LoxScan.Proofs.LogOrder
import LoxScan.Proofs.PromptSession
import LoxScan.Proofs.Grid
import LoxScan.Proofs.Rounding
import LoxScan.Proofs.NumberLiterals
import LoxScan.Proofs.SourceLines
import LoxScan.Proofs.EscapeReading
import LoxScan.Proofs.DiagnosticLayout
import LoxScan.Proofs.ShownCharacter
import LoxScan.Proofs.WrittenDecimal
import LoxScan.Proofs.ShortestDecimal
import LoxScan.Proofs.NumberDisplay
import LoxScan.Proofs.TokenEquality
import LoxScan.Proofs.QuotedText
import LoxScan.Proofs.ErrorText
import LoxScan.Proofs.FileReading
import LoxScan.Proofs.UsageReport
