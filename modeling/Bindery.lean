import Bindery.Json.Printer
import Bindery.Json.Reader
import Bindery.Value.Text
import Bindery.FileSystem.Resolve
import Bindery.Yaml.Document
import Bindery.Config.File
import Bindery.Config.Settings
import Bindery.Text.Blank
import Bindery.Shell.Program
import Bindery.Pipeline
import Bindery.CommandLine.Run
import Bindery.Main
import Bindery.Proofs.Pipeline.History
import Bindery.Proofs.Pipeline.Plan
import Bindery.Proofs.Pipeline.DryRun
import Bindery.Proofs.CommandLine.DryRun
import Bindery.Proofs.Pipeline.Codes
import Bindery.Proofs.CommandLine.Exit
import Bindery.Proofs.CommandLine.Unloaded
import Bindery.Proofs.Pipeline.Scope
import Bindery.Proofs.Shell.Ledger
import Bindery.Proofs.CommandLine.Directory
import Bindery.Proofs.Config.Exact
import Bindery.Proofs.CommandLine.LogLines
import Bindery.Proofs.CommandLine.LogSettings
import Bindery.Proofs.CommandLine.UploadPath
import Bindery.Proofs.CommandLine.Environment
import Bindery.Proofs.Pipeline.Summary
import Bindery.Proofs.CommandLine.PinnedVersion
import Bindery.Proofs.Shell.Nested
import Bindery.Proofs.CommandLine.Results
import Bindery.Proofs.Text.Expression
import Bindery.Proofs.Text.Order
import Bindery.Proofs.Config.Pattern
import Bindery.Proofs.Config.Address
import Bindery.Proofs.Config.Keyword
import Bindery.Proofs.Config.Verdict
import Bindery.Proofs.Machine.Ending
import Bindery.Proofs.Machine.Returns
import Bindery.Proofs.Machine.Start
import Bindery.Proofs.Shell.Success
import Bindery.Proofs.Value.Literal
import Bindery.Proofs.Log.LineEnds
import Bindery.Proofs.CommandLine.TextLog
import Bindery.Proofs.Config.Target
import Bindery.Proofs.Config.Layer
import Bindery.Proofs.Config.Source
import Bindery.Proofs.Pipeline.Modules
import Bindery.Proofs.CommandLine.TimeLimit
