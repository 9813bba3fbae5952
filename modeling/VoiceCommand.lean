import VoiceCommand.Action
import VoiceCommand.Binary64.Basic
import VoiceCommand.Binary64.Decimal
import VoiceCommand.Collaborators
import VoiceCommand.Command
import VoiceCommand.CommandError
import VoiceCommand.CommandLine.Arguments
import VoiceCommand.CommandLine.Basic
import VoiceCommand.CommandLine.DryRun
import VoiceCommand.CommandLine.Help
import VoiceCommand.CommandLine.Listing
import VoiceCommand.CommandLine.Recognition
import VoiceCommand.CommandLine.Starter
import VoiceCommand.CommandLine.Toggle
import VoiceCommand.ConfigFile
import VoiceCommand.CustomCommand
import VoiceCommand.Document.ConfigText
import VoiceCommand.Document.Decode
import VoiceCommand.Document.Json.Number
import VoiceCommand.Document.Json.Reader
import VoiceCommand.Document.Json.Writer
import VoiceCommand.Document.Shapes
import VoiceCommand.Document.Toml.Digits
import VoiceCommand.Document.Toml.Key
import VoiceCommand.Document.Toml.Moment
import VoiceCommand.Document.Toml.Reader
import VoiceCommand.Document.Toml.Scalar
import VoiceCommand.Document.Toml.Text
import VoiceCommand.Document.Toml.Tree
import VoiceCommand.Document.Toml.Writer
import VoiceCommand.Document.Value
import VoiceCommand.Executor
import VoiceCommand.Files.Disk
import VoiceCommand.Files.Path
import VoiceCommand.Files.Program
import VoiceCommand.Intent
import VoiceCommand.KeyMap
import VoiceCommand.Main
import VoiceCommand.Offline
import VoiceCommand.Outcome
import VoiceCommand.Parser.Alias
import VoiceCommand.Parser.Basic
import VoiceCommand.Parser.Chain
import VoiceCommand.Parser.Ranking
import VoiceCommand.Parser.Semantic
import VoiceCommand.Pattern.Basic
import VoiceCommand.Pattern.Table
import VoiceCommand.Phase
import VoiceCommand.Power
import VoiceCommand.Proofs.Course
import VoiceCommand.Registry
import VoiceCommand.Session.Basic
import VoiceCommand.Session.Call
import VoiceCommand.Session.Hearing
import VoiceCommand.Session.Queue
import VoiceCommand.Settings
import VoiceCommand.Template
import VoiceCommand.Text.Blank
import VoiceCommand.Text.Case
import VoiceCommand.Text.CaseTable
import VoiceCommand.Text.Distance
import VoiceCommand.Text.Hidden
import VoiceCommand.Text.Normal
import VoiceCommand.Text.Replace
import VoiceCommand.Text.Word
import VoiceCommand.Text.WordTable
import VoiceCommand.Timestamp
import VoiceCommand.WakeWord
import VoiceCommand.Proofs.Executor.Actions
import VoiceCommand.Proofs.Executor.Gates
import VoiceCommand.Proofs.Executor.Steps
import VoiceCommand.Proofs.Parser.Actions
import VoiceCommand.Proofs.Session.State
import VoiceCommand.Proofs.Session.Clearance
import VoiceCommand.Proofs.Session.Coherence
import VoiceCommand.Proofs.Session.Runs
import VoiceCommand.Proofs.Session.Activation
import VoiceCommand.Proofs.Pattern.Captures
import VoiceCommand.Proofs.Parser.Values
import VoiceCommand.Proofs.Parser.Alias
import VoiceCommand.Proofs.Session.Alias
import VoiceCommand.Proofs.Executor.Undo
import VoiceCommand.Proofs.Session.Undo
import VoiceCommand.Proofs.Session.Cancel
import VoiceCommand.Proofs.Text.Normal
import VoiceCommand.Proofs.Executor.Sequence
import VoiceCommand.Proofs.Session.Verdict
import VoiceCommand.Proofs.Session.Events
import VoiceCommand.Proofs.KeyMap
import VoiceCommand.Proofs.Text.Case
import VoiceCommand.Proofs.Intent
import VoiceCommand.Proofs.Registry.Changes
import VoiceCommand.Proofs.Parser.Classified
import VoiceCommand.Proofs.Binary64.Rounding
import VoiceCommand.Proofs.Pattern.Phrases
import VoiceCommand.Proofs.Parser.Ranking
import VoiceCommand.Proofs.Session.Waking
import VoiceCommand.Proofs.Files.Program
import VoiceCommand.Proofs.CommandLine.Recognition
import VoiceCommand.Proofs.Text.Caseless
import VoiceCommand.Proofs.Pattern.Caseless
import VoiceCommand.Proofs.Parser.Caseless
import VoiceCommand.Proofs.Files.Path
import VoiceCommand.Proofs.Files.Disk
import VoiceCommand.Files.Race
import VoiceCommand.Proofs.Registry.Disabled
import VoiceCommand.Proofs.CommandLine.Toggle
import VoiceCommand.Proofs.Files.Race
import VoiceCommand.Proofs.ConfigFile
import VoiceCommand.Proofs.CommandLine.Rivals
import VoiceCommand.Proofs.Executor.Expansion
import VoiceCommand.Proofs.Session.Precedence
import VoiceCommand.Proofs.Session.Usage
import VoiceCommand.Proofs.WakeWord.Cut
import VoiceCommand.Proofs.WakeWord.Cooldown
import VoiceCommand.Proofs.Parser.Splitting
import VoiceCommand.Proofs.Text.Words
import VoiceCommand.Proofs.Text.Distance
import VoiceCommand.Proofs.WakeWord.Folding
import VoiceCommand.Proofs.WakeWord.Likeness
import VoiceCommand.Proofs.WakeWord.Words
import VoiceCommand.Proofs.Executor.Duration
import VoiceCommand.Proofs.Session.Limit
import VoiceCommand.Proofs.Registry.Catalogue
import VoiceCommand.Proofs.CommandLine.Alteration
import VoiceCommand.Proofs.Executor.Credits
import VoiceCommand.Proofs.Session.Begun
import VoiceCommand.Proofs.Session.Tally
import VoiceCommand.Proofs.Text.Canonical
import VoiceCommand.Proofs.Pattern.Language
import VoiceCommand.Proofs.Parser.Conjunctions
import VoiceCommand.Proofs.Text.Ranges
import VoiceCommand.Proofs.Parser.WordEnds
import VoiceCommand.Proofs.Text.Replace
import VoiceCommand.Proofs.Template
import VoiceCommand.Proofs.Executor.Messages
import VoiceCommand.Proofs.Session.Messages
