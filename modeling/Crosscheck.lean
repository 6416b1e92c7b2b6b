import Crosscheck.Artifact
import Crosscheck.Cli.Command
import Crosscheck.Cli.ConfigFile
import Crosscheck.Cli.Flags
import Crosscheck.Cli.Help
import Crosscheck.Cli.Run
import Crosscheck.Config
import Crosscheck.Corpus
import Crosscheck.Decimal.Double
import Crosscheck.Decimal.Shortest
import Crosscheck.Duration
import Crosscheck.Fault
import Crosscheck.FileSystem.Access
import Crosscheck.FileSystem.Basic
import Crosscheck.FileSystem.Errno
import Crosscheck.FileSystem.Remove
import Crosscheck.FileSystem.Walk
import Crosscheck.Json.Reader
import Crosscheck.Log.Level
import Crosscheck.Log.Logger
import Crosscheck.Log.Options
import Crosscheck.Log.Record
import Crosscheck.Main
import Crosscheck.Message.Operand
import Crosscheck.Message.Render
import Crosscheck.Message.Template
import Crosscheck.Path
import Crosscheck.Program
import Crosscheck.Program.Script
import Crosscheck.Proofs.Artifact
import Crosscheck.Proofs.Artifact.Collecting
import Crosscheck.Proofs.Artifact.Failing
import Crosscheck.Proofs.Artifact.Moving
import Crosscheck.Proofs.Cli.Command
import Crosscheck.Proofs.Cli.Compare
import Crosscheck.Proofs.Cli.ConfigFile
import Crosscheck.Proofs.Cli.Status
import Crosscheck.Proofs.Cli.Tools
import Crosscheck.Proofs.Config
import Crosscheck.Proofs.Config.Validity
import Crosscheck.Proofs.Corpus
import Crosscheck.Proofs.Corpus.Exactness
import Crosscheck.Proofs.Decimal.Double
import Crosscheck.Proofs.Delivery
import Crosscheck.Proofs.Duration
import Crosscheck.Proofs.Fault
import Crosscheck.Proofs.FileSystem.Absence
import Crosscheck.Proofs.FileSystem.Access
import Crosscheck.Proofs.FileSystem.Clean
import Crosscheck.Proofs.FileSystem.Clearing
import Crosscheck.Proofs.FileSystem.Frame
import Crosscheck.Proofs.FileSystem.Lead
import Crosscheck.Proofs.FileSystem.Making
import Crosscheck.Proofs.FileSystem.Nodes
import Crosscheck.Proofs.FileSystem.Paving
import Crosscheck.Proofs.FileSystem.Place
import Crosscheck.Proofs.FileSystem.Removal
import Crosscheck.Proofs.FileSystem.Roads
import Crosscheck.Proofs.FileSystem.Straight
import Crosscheck.Proofs.FileSystem.Visits
import Crosscheck.Proofs.Log
import Crosscheck.Proofs.Message
import Crosscheck.Proofs.Path
import Crosscheck.Proofs.Path.Route
import Crosscheck.Proofs.Report
import Crosscheck.Proofs.Runner
import Crosscheck.Proofs.Runner.Causes
import Crosscheck.Proofs.Runner.Endings
import Crosscheck.Proofs.Runner.Failure
import Crosscheck.Proofs.Runner.Leftover
import Crosscheck.Proofs.Session.Addresses
import Crosscheck.Proofs.Session.Aliasing
import Crosscheck.Proofs.Session.Console
import Crosscheck.Proofs.Session.Contents
import Crosscheck.Proofs.Session.History
import Crosscheck.Proofs.Session.Invariant
import Crosscheck.Proofs.Session.Layout
import Crosscheck.Proofs.Session.Outcome
import Crosscheck.Proofs.Session.Sources
import Crosscheck.Proofs.Session.Symmetry
import Crosscheck.Proofs.Session.Verdict
import Crosscheck.Proofs.Settings.Loaded
import Crosscheck.Proofs.Settings.Reload
import Crosscheck.Proofs.Tool
import Crosscheck.Proofs.Watcher
import Crosscheck.Report
import Crosscheck.Runner
import Crosscheck.Session
import Crosscheck.Session.History
import Crosscheck.Session.Standard
import Crosscheck.Settings.Decode
import Crosscheck.Settings.Dump
import Crosscheck.Settings.File
import Crosscheck.Settings.Load
import Crosscheck.Settings.OfJson
import Crosscheck.Settings.Store
import Crosscheck.Settings.Value
import Crosscheck.Text.Base64
import Crosscheck.Text.Blank
import Crosscheck.Text.Columns
import Crosscheck.Text.Digits
import Crosscheck.Text.LowerCase
import Crosscheck.Text.Printable
import Crosscheck.Text.Quoted
import Crosscheck.Text.UpperCase
import Crosscheck.Text.Utf8
import Crosscheck.Tool
import Crosscheck.Watcher
import Crosscheck.World
import Crosscheck.Yaml.Cursor
import Crosscheck.Yaml.Document
import Crosscheck.Yaml.Fault
import Crosscheck.Yaml.Node
import Crosscheck.Yaml.Scalar
import Crosscheck.Yaml.Timestamp
import Crosscheck.Yaml.Token.Basic
import Crosscheck.Yaml.Token.Scalar
import Crosscheck.Yaml.Token.Stream
import Crosscheck.Yaml.Token.Tag
import Crosscheck.Yaml.Writer
import Crosscheck.Proofs.Fault.Remarks
import Crosscheck.Proofs.Log.FanOut
import Crosscheck.Proofs.Log.Level
import Crosscheck.Proofs.Settings.Layers
import Crosscheck.Proofs.Settings.Overrides
