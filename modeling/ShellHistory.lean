import ShellHistory.Backend
import ShellHistory.Binary64
import ShellHistory.Binary64.Decimal
import ShellHistory.Bridge
import ShellHistory.Bridge.Grammar
import ShellHistory.Buffer
import ShellHistory.Config
import ShellHistory.Config.File
import ShellHistory.Console
import ShellHistory.Diagnostics
import ShellHistory.Dialect
import ShellHistory.Dialect.Script
import ShellHistory.Environment
import ShellHistory.Failure
import ShellHistory.FileTree
import ShellHistory.Hook
import ShellHistory.Host
import ShellHistory.Json
import ShellHistory.Main
import ShellHistory.Moment
import ShellHistory.Move
import ShellHistory.Navigation
import ShellHistory.Options.Grammar
import ShellHistory.Options.Reading
import ShellHistory.Path
import ShellHistory.Proofs.Act
import ShellHistory.Proofs.Capture
import ShellHistory.Proofs.Effect
import ShellHistory.Proofs.Line
import ShellHistory.Proofs.Operations
import ShellHistory.Proofs.Process
import ShellHistory.Proofs.Reader
import ShellHistory.Proofs.Reply
import ShellHistory.Proofs.ScriptMode
import ShellHistory.Proofs.Setup
import ShellHistory.Proofs.Statements
import ShellHistory.Proofs.Walk
import ShellHistory.Repl
import ShellHistory.Search
import ShellHistory.Session
import ShellHistory.Setup
import ShellHistory.Shell
import ShellHistory.Text.Base64
import ShellHistory.Text.Blank
import ShellHistory.Text.Cut
import ShellHistory.Text.Digit
import ShellHistory.Text.Literal
import ShellHistory.Text.Lower
import ShellHistory.Text.Printable
import ShellHistory.Tilde
import ShellHistory.Value
import ShellHistory.Words
import ShellHistory.Words.Quoted
import ShellHistory.Yaml.Document
import ShellHistory.Yaml.Lexeme
import ShellHistory.Yaml.Node
import ShellHistory.Yaml.Scalar
import ShellHistory.Yaml.Source
import ShellHistory.Yaml.Token
import ShellHistory.Yaml.Writer
import ShellHistory.Proofs.Attempts
import ShellHistory.Proofs.Independence
import ShellHistory.Proofs.Arguments
import ShellHistory.Proofs.Preparation
import ShellHistory.Proofs.Started
import ShellHistory.Proofs.BrokenSetup
import ShellHistory.Proofs.Export
import ShellHistory.Proofs.Touched
import ShellHistory.Proofs.Keys
import ShellHistory.Proofs.Frame
import ShellHistory.Proofs.Active
import ShellHistory.Proofs.Prompt
import ShellHistory.Proofs.Decoding
import ShellHistory.Proofs.Pick
import ShellHistory.Proofs.ReadBack
import ShellHistory.Proofs.CommandPaths
import ShellHistory.Proofs.Firing
import ShellHistory.Proofs.ArgumentLists
import ShellHistory.Proofs.Numerals
import ShellHistory.Proofs.Survival
import ShellHistory.Proofs.SearchEndings
import ShellHistory.Proofs.MoveArguments
import ShellHistory.Proofs.Rows
import ShellHistory.Proofs.Arrows
import ShellHistory.Proofs.Layers
import ShellHistory.Proofs.Shapes
import ShellHistory.Proofs.Templates
import ShellHistory.Proofs.OptionWords
import ShellHistory.Proofs.OptionLayers
import ShellHistory.Proofs.Resolution
import ShellHistory.Proofs.PathNames
import ShellHistory.Proofs.Growth
import ShellHistory.Proofs.LogFiles
import ShellHistory.Proofs.LogAgain
import ShellHistory.Proofs.WorkingDirectory
import ShellHistory.Proofs.ShownDirectory
import ShellHistory.Proofs.NewFile
