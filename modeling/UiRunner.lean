import UiRunner.Action.Behavior
import UiRunner.Action.Builtin
import UiRunner.Action.Coercion
import UiRunner.Action.Key
import UiRunner.Action.Parameter
import UiRunner.Action.Polling
import UiRunner.Action.Registry
import UiRunner.Action.Script
import UiRunner.Console.Catalog
import UiRunner.Console.Command
import UiRunner.Console.Doctor
import UiRunner.Console.Footprint
import UiRunner.Console.Grammar
import UiRunner.Console.Help
import UiRunner.Console.Host
import UiRunner.Console.Init
import UiRunner.Console.Invocation
import UiRunner.Console.Program
import UiRunner.Console.RunCase
import UiRunner.Decimal.Binary64
import UiRunner.Decimal.Numeral
import UiRunner.Decimal.Shortest
import UiRunner.Device.Command
import UiRunner.Directories
import UiRunner.Error
import UiRunner.Files.Name
import UiRunner.Files.Path
import UiRunner.Files.Storage
import UiRunner.Http.Exchange
import UiRunner.Http.Host
import UiRunner.Http.Status
import UiRunner.Http.Url
import UiRunner.Json.Reader
import UiRunner.Json.Value
import UiRunner.Json.Writer
import UiRunner.Main
import UiRunner.Proofs.Action.FailFast
import UiRunner.Proofs.Routine
import UiRunner.Proofs.Run.Concourse
import UiRunner.Proofs.Run.Exclusion
import UiRunner.Proofs.Run.Gate
import UiRunner.Proofs.Run.Interpretation
import UiRunner.Proofs.Run.Outline
import UiRunner.Proofs.Run.Protocol
import UiRunner.Proofs.Run.Release
import UiRunner.Proofs.Run.Trace
import UiRunner.Proofs.Run.Verdict
import UiRunner.Rehearsal.Environment
import UiRunner.Rehearsal.Screen
import UiRunner.Routine
import UiRunner.Run.Clients
import UiRunner.Run.Concourse
import UiRunner.Run.Diagnosis
import UiRunner.Run.Interpreter
import UiRunner.Run.Manager
import UiRunner.Run.Orchestrator
import UiRunner.Run.Report
import UiRunner.Run.Stage
import UiRunner.Run.Trace
import UiRunner.Run.World
import UiRunner.Selector.Basic
import UiRunner.Selector.XPath
import UiRunner.Session.Adb
import UiRunner.Session.Check
import UiRunner.Session.Config
import UiRunner.Session.Slot
import UiRunner.Settings
import UiRunner.Span
import UiRunner.TestCase.Basic
import UiRunner.TestCase.Reader
import UiRunner.Text.Base64
import UiRunner.Text.Blank
import UiRunner.Text.Lines
import UiRunner.Text.Quoted
import UiRunner.Text.Style
import UiRunner.Text.Utf8
import UiRunner.Toml.Reader
import UiRunner.Toml.Value
import UiRunner.WebDriver.Client
import UiRunner.WebDriver.Wire
import UiRunner.Yaml.Cursor
import UiRunner.Yaml.Node
import UiRunner.Yaml.Scalar
import UiRunner.Yaml.Token
import UiRunner.Yaml.Value
import UiRunner.Proofs.Run.Failure
import UiRunner.Proofs.Run.Journal
import UiRunner.Proofs.Run.Tour
import UiRunner.Proofs.Run.Limit
import UiRunner.Proofs.Run.Signal
import UiRunner.Proofs.Run.Shape
import UiRunner.Proofs.Json.Fields
import UiRunner.Proofs.TestCase.Sorted
import UiRunner.Proofs.Action.OlderNames
import UiRunner.Proofs.Run.OlderNames
import UiRunner.Proofs.Run.Stopping
import UiRunner.Proofs.Run.Mistake
import UiRunner.Proofs.Console.Agreement
import UiRunner.Proofs.Action.Registry
import UiRunner.Proofs.Json.RoundTrip
import UiRunner.Proofs.Console.Detection
import UiRunner.Proofs.Action.Search
import UiRunner.Proofs.WebDriver.Reply
import UiRunner.Proofs.WebDriver.Session
import UiRunner.Proofs.Action.Halting
import UiRunner.Proofs.Run.Ending
import UiRunner.Proofs.WebDriver.Missing
import UiRunner.Proofs.Console.Dialogue
import UiRunner.Proofs.Action.Coercion
import UiRunner.Proofs.Selector.Quoting
import UiRunner.Proofs.Action.Interaction
import UiRunner.Proofs.Run.Polling
import UiRunner.Proofs.Decimal.Value
import UiRunner.Proofs.Action.Integer
import UiRunner.Proofs.WebDriver.Remote
import UiRunner.Proofs.Run.Marking
import UiRunner.Proofs.Action.Readiness
import UiRunner.Proofs.Run.Monotone
import UiRunner.Proofs.Files.Growth
import UiRunner.Proofs.Files.Name
import UiRunner.Proofs.Action.Reading
import UiRunner.Proofs.Run.Wording
import UiRunner.Proofs.Run.Screenshot
import UiRunner.Proofs.Selector.KindName
import UiRunner.Proofs.Session.Identity
import UiRunner.Proofs.Session.Listing
import UiRunner.Proofs.Console.Initialization
import UiRunner.Proofs.Session.Identity
import UiRunner.Proofs.Session.Listing
import UiRunner.Proofs.Selector.KindName
import UiRunner.Proofs.Console.Initialization
