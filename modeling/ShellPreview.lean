import ShellPreview.Main
import ShellPreview.Proofs.Fetch.Attempt
import ShellPreview.Proofs.Classify.Dispatch
import ShellPreview.Proofs.Fetch.Order
import ShellPreview.Proofs.Classify.Requests
import ShellPreview.Proofs.Classify.Agreement
import ShellPreview.Proofs.Classify.WellFormed
import ShellPreview.Proofs.Classify.Vocabulary
import ShellPreview.Proofs.Classify.Warnings
import ShellPreview.Proofs.Analysis.RoundTrip
import ShellPreview.Proofs.Classify.Failure
import ShellPreview.Proofs.Configuration.RoundTrip
import ShellPreview.Proofs.CommandLine.Status
import ShellPreview.Proofs.CommandLine.Files
import ShellPreview.Proofs.Link.Segments
import ShellPreview.Proofs.Pattern.Greedy
import ShellPreview.Proofs.Pattern.Phrase
import ShellPreview.Proofs.Registry.Install
import ShellPreview.Proofs.Pattern.Marked
import ShellPreview.Proofs.Registry.Selection
import ShellPreview.Proofs.Text.Words
import ShellPreview.Proofs.Registry.Usage
import ShellPreview.Proofs.Registry.Builtin
import ShellPreview.Proofs.Registry.Call
import ShellPreview.Proofs.Classify.Package
import ShellPreview.Proofs.Classify.Call
import ShellPreview.Proofs.Json.Grammar
import ShellPreview.Proofs.Fetch.Relay
import ShellPreview.Proofs.Classify.Respelling
import ShellPreview.Proofs.Classify.Piping
import ShellPreview.Proofs.Classify.Plain
import ShellPreview.Proofs.Fetch.Shortcut
import ShellPreview.Proofs.Classify.Counterpart
import ShellPreview.Proofs.Text.Lines
import ShellPreview.Proofs.Fetch.Placeholder
import ShellPreview.Proofs.Number.Rounding
import ShellPreview.Proofs.Payload.Rule
import ShellPreview.Proofs.Classify.Payload
import ShellPreview.Proofs.Language.Lines
import ShellPreview.Proofs.Classify.Script
import ShellPreview.Proofs.Command.Inline
import ShellPreview.Proofs.Classify.InlineCode
import ShellPreview.Proofs.Classify.Reordering
import ShellPreview.Proofs.Url.Percent
import ShellPreview.Proofs.Report.Sections
import ShellPreview.Proofs.Configuration.Partial
import ShellPreview.Proofs.Report.Size
import ShellPreview.Proofs.Command.Argument
import ShellPreview.Proofs.Url.FileName
