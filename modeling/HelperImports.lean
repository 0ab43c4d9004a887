import HelperImports.CommandLine.Execute
import HelperImports.CommandLine.Flag
import HelperImports.CommandLine.Help
import HelperImports.EditScript.Chunk
import HelperImports.EditScript.Division
import HelperImports.EditScript.Frontier
import HelperImports.EditScript.LineScript
import HelperImports.EditScript.Overlap
import HelperImports.EditScript.Rendering
import HelperImports.EditScript.Script
import HelperImports.EditScript.Tidy
import HelperImports.FileSystem.Access
import HelperImports.FileSystem.Basic
import HelperImports.FileSystem.Fault
import HelperImports.FileSystem.Making
import HelperImports.FileSystem.Node
import HelperImports.FileSystem.Search
import HelperImports.Import.Line
import HelperImports.Import.Placement
import HelperImports.Import.Scan
import HelperImports.Main
import HelperImports.Number.Binary64
import HelperImports.Path.Lexical
import HelperImports.Path.SourceFile
import HelperImports.Path.Specifier
import HelperImports.Proofs.Addition
import HelperImports.Proofs.Body
import HelperImports.Proofs.Command
import HelperImports.Proofs.Commuting
import HelperImports.Proofs.ConfigSearch
import HelperImports.Proofs.Contents
import HelperImports.Proofs.Counts
import HelperImports.Proofs.Directories
import HelperImports.Proofs.Ensure
import HelperImports.Proofs.Expansion
import HelperImports.Proofs.Faithful
import HelperImports.Proofs.Files
import HelperImports.Proofs.Footprint
import HelperImports.Proofs.Forecast
import HelperImports.Proofs.Groups
import HelperImports.Proofs.Idempotence
import HelperImports.Proofs.LastRegular
import HelperImports.Proofs.Layers
import HelperImports.Proofs.Lines
import HelperImports.Proofs.Moves
import HelperImports.Proofs.Outline
import HelperImports.Proofs.PathBytes
import HelperImports.Proofs.PathNames
import HelperImports.Proofs.Pieces
import HelperImports.Proofs.Placement
import HelperImports.Proofs.Position
import HelperImports.Proofs.Prediction
import HelperImports.Proofs.Preservation
import HelperImports.Proofs.Quoting
import HelperImports.Proofs.Reach
import HelperImports.Proofs.Relative
import HelperImports.Proofs.Relocation
import HelperImports.Proofs.Rendering
import HelperImports.Proofs.Report
import HelperImports.Proofs.Route
import HelperImports.Proofs.Runs
import HelperImports.Proofs.Sources
import HelperImports.Proofs.Stability
import HelperImports.Proofs.Step
import HelperImports.Proofs.Stopping
import HelperImports.Proofs.Way
import HelperImports.Proofs.Writing
import HelperImports.Run.Failure
import HelperImports.Run.Job
import HelperImports.Run.Log
import HelperImports.Run.Paths
import HelperImports.Settings.Basic
import HelperImports.Settings.ConfigFile
import HelperImports.Settings.Convert
import HelperImports.Settings.KeyCase
import HelperImports.Settings.Load
import HelperImports.Sink
import HelperImports.Text.Blank
import HelperImports.Text.Bytes
import HelperImports.Text.Digit
import HelperImports.Text.Identifier
import HelperImports.Text.Letter
import HelperImports.Text.Lines
import HelperImports.Text.Lower
import HelperImports.Text.Printable
import HelperImports.Text.Quoted
import HelperImports.Text.Rune
import HelperImports.Version
import HelperImports.Yaml.Comment
import HelperImports.Yaml.Cursor
import HelperImports.Yaml.Decoder
import HelperImports.Yaml.Lexer
import HelperImports.Yaml.Node
import HelperImports.Yaml.Property
import HelperImports.Yaml.ScalarText
import HelperImports.Yaml.Source
import HelperImports.Yaml.Timestamp
import HelperImports.Yaml.Token
import HelperImports.Yaml.Value
