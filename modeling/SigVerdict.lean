import SigVerdict.Checker
import SigVerdict.CommandLine.Arguments
import SigVerdict.CommandLine.Console
import SigVerdict.CommandLine.Grammar
import SigVerdict.CommandLine.Program
import SigVerdict.CommandLine.Reader
import SigVerdict.Fault
import SigVerdict.Format.Document
import SigVerdict.Format.Json.Parser
import SigVerdict.Format.Json.Printer
import SigVerdict.Format.Json.Token
import SigVerdict.Format.Reading
import SigVerdict.Format.Toml
import SigVerdict.Format.Toml.Lexeme
import SigVerdict.Format.Toml.Literal
import SigVerdict.Format.Toml.Parser
import SigVerdict.Format.Yaml.Ambiguity
import SigVerdict.Format.Yaml.Char
import SigVerdict.Format.Yaml.Node
import SigVerdict.Format.Yaml.Parser
import SigVerdict.Format.Yaml.Printer
import SigVerdict.Format.Yaml.Property
import SigVerdict.Format.Yaml.Scalar
import SigVerdict.Format.Yaml.Scanner
import SigVerdict.Format.Yaml.Token
import SigVerdict.Gpg.Run
import SigVerdict.Host.FilePath
import SigVerdict.Host.FileTree
import SigVerdict.Host.SystemFault
import SigVerdict.Host.World
import SigVerdict.Main
import SigVerdict.Proofs.Checker
import SigVerdict.Proofs.Checker.Steps
import SigVerdict.Proofs.Checker.Validation
import SigVerdict.Proofs.CommandLine.Arguments
import SigVerdict.Proofs.CommandLine.Decode
import SigVerdict.Proofs.CommandLine.ExitStatus
import SigVerdict.Proofs.CommandLine.Reading
import SigVerdict.Proofs.CommandLine.Spelling
import SigVerdict.Proofs.Except
import SigVerdict.Proofs.Gpg.Isolation
import SigVerdict.Proofs.Gpg.Run
import SigVerdict.Proofs.Settings.Document
import SigVerdict.Proofs.Settings.Items
import SigVerdict.Proofs.Settings.Layers
import SigVerdict.Proofs.Settings.Load
import SigVerdict.Proofs.Settings.Merge
import SigVerdict.Proofs.Settings.Variables
import SigVerdict.Proofs.Signature.Accounting
import SigVerdict.Proofs.Signature.Classification
import SigVerdict.Proofs.Signature.Commands
import SigVerdict.Proofs.Signature.Ignoring
import SigVerdict.Proofs.Signature.Kinds
import SigVerdict.Proofs.Signature.Monotonicity
import SigVerdict.Proofs.Signature.Order
import SigVerdict.Proofs.Signature.ReasonSet
import SigVerdict.Proofs.Signature.RejectionReport
import SigVerdict.Proofs.Signature.Requirement
import SigVerdict.Proofs.Signature.Survey
import SigVerdict.Proofs.Signature.Verdict
import SigVerdict.Proofs.Status.Append
import SigVerdict.Proofs.Status.Arguments
import SigVerdict.Proofs.Status.Grammar
import SigVerdict.Proofs.Status.Keyword
import SigVerdict.Proofs.Status.Session
import SigVerdict.Proofs.Status.Stream
import SigVerdict.Proofs.Status.Transcript
import SigVerdict.Proofs.Status.Views
import SigVerdict.Proofs.Status.WireForm
import SigVerdict.Proofs.Text.FewestLines
import SigVerdict.Proofs.Text.Integer
import SigVerdict.Proofs.Text.LineFeed
import SigVerdict.Proofs.Text.Pieces
import SigVerdict.Proofs.Text.Utf8
import SigVerdict.Proofs.Text.Wrap
import SigVerdict.Settings.Basic
import SigVerdict.Settings.Load
import SigVerdict.Settings.Read
import SigVerdict.Signature.Check
import SigVerdict.Signature.Rejection
import SigVerdict.Signature.Report
import SigVerdict.Signature.Requirement
import SigVerdict.Status.Field
import SigVerdict.Status.Kind
import SigVerdict.Status.Outcome
import SigVerdict.Status.Stream
import SigVerdict.Text.Integer
import SigVerdict.Text.Numeral
import SigVerdict.Text.Split
import SigVerdict.Text.Utf8
import SigVerdict.Text.Wrap
import SigVerdict.Time.Instant
import SigVerdict.Time.Span
import SigVerdict.Time.Span.Parser
import SigVerdict.Time.Span.Printer
import SigVerdict.Time.Span.Units
