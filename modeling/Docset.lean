import Docset.Build.Inclusion
import Docset.Build.Record
import Docset.Build.Run
import Docset.Cli.Arguments
import Docset.Cli.EnvFile
import Docset.Cli.Run
import Docset.Command.Run
import Docset.Config.Basic
import Docset.Config.Record
import Docset.Config.Store
import Docset.Error
import Docset.Files.Folders
import Docset.Files.Path
import Docset.Files.System
import Docset.Host
import Docset.Json.Basic
import Docset.Json.Printer
import Docset.Json.Reader
import Docset.Json.Record
import Docset.Json.Token
import Docset.KeyMap
import Docset.Main
import Docset.Manifest.Basic
import Docset.Manifest.Page
import Docset.Program.Basic
import Docset.Program.Calculate
import Docset.Program.Condition
import Docset.Program.Edit
import Docset.Program.Exit
import Docset.Program.Expression
import Docset.Program.Files
import Docset.Program.Find
import Docset.Program.Grep
import Docset.Program.Image
import Docset.Program.Names
import Docset.Program.Output
import Docset.Program.Quoting
import Docset.Program.Test
import Docset.Program.Text
import Docset.Scan.Braces
import Docset.Scan.Call
import Docset.Scan.Error
import Docset.Scan.Literal
import Docset.Scan.Module
import Docset.Scan.Options
import Docset.Shell.Arithmetic
import Docset.Shell.Builtins
import Docset.Shell.Evaluation
import Docset.Shell.Expansion
import Docset.Shell.Host
import Docset.Shell.Launch
import Docset.Shell.Pattern
import Docset.Shell.Reader
import Docset.Shell.Redirection
import Docset.Shell.Search
import Docset.Shell.State
import Docset.Shell.Tree
import Docset.Story.Address
import Docset.Story.Group
import Docset.Story.Id
import Docset.Story.Metadata
import Docset.Survey.Report
import Docset.Survey.Run
import Docset.Text.Alphanumeric
import Docset.Text.Blank
import Docset.Text.ByteSize
import Docset.Text.Cursor
import Docset.Text.Display
import Docset.Text.LowerCase
import Docset.Text.Utf8
import Docset.Text.Words
import Docset.Proofs.Text.Boundary
import Docset.Proofs.Scan.Call
import Docset.Proofs.Scan.Literal
import Docset.Proofs.Scan.Region
import Docset.Proofs.Scan.InWindow
import Docset.Proofs.Scan.Rounds
import Docset.Proofs.Scan.Segmentation
import Docset.Proofs.Scan.Composition
import Docset.Proofs.Scan.Rendering
import Docset.Proofs.Scan.Crossing
import Docset.Proofs.Scan.Opacity
import Docset.Proofs.Build.Outcome
import Docset.Proofs.Scan.Diagnosis
import Docset.Proofs.Scan.Escaping
import Docset.Proofs.Scan.Stepwise
import Docset.Proofs.Build.Repeat
import Docset.Proofs.Text.Decimal
import Docset.Proofs.Text.Words
import Docset.Proofs.Config.Fields
import Docset.Proofs.Config.Reachable
import Docset.Proofs.Json.Grammar
import Docset.Proofs.Json.RoundTrip
import Docset.Proofs.Json.Records
import Docset.Proofs.Config.Loading
import Docset.Proofs.Cli.ConfigSet
import Docset.Proofs.Files.Canonical
import Docset.Proofs.Files.Spelling
import Docset.Proofs.Build.Agreement
import Docset.Proofs.Build.Documents
import Docset.Proofs.Story.Id
import Docset.Proofs.Files.Admissible
import Docset.Proofs.Survey.Apart
import Docset.Proofs.Build.Damage
import Docset.Proofs.Build.Effect
import Docset.Proofs.Text.ByteOrder
import Docset.Proofs.Text.Markup
import Docset.Proofs.Manifest.Page
import Docset.Proofs.Config.Setting
import Docset.Proofs.Build.SizeLimit
import Docset.Proofs.Story.Metadata
