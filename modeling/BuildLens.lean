import BuildLens.Build.Basic
import BuildLens.Build.Classifier
import BuildLens.Build.FragmentCache
import BuildLens.Build.Mach
import BuildLens.Build.MachEnvironment
import BuildLens.Build.MakeFragment
import BuildLens.Build.Report
import BuildLens.Build.SourceTree
import BuildLens.CommandLine.Arguments
import BuildLens.CommandLine.Command
import BuildLens.CommandLine.Machine
import BuildLens.CommandLine.Program
import BuildLens.CommandLine.Remote
import BuildLens.CommandLine.Root
import BuildLens.Compiler.Basic
import BuildLens.Compiler.Defaults
import BuildLens.Compiler.Dialect
import BuildLens.Compiler.FileConfig
import BuildLens.Compiler.Language
import BuildLens.Compiler.Macro
import BuildLens.Compiler.SourceConfiguration
import BuildLens.Compiler.WindowsSdk
import BuildLens.Folder.Basic
import BuildLens.Folder.Message
import BuildLens.Inquiry.Basic
import BuildLens.Inquiry.Failure
import BuildLens.Inquiry.World
import BuildLens.Json.Access
import BuildLens.Json.Basic
import BuildLens.Json.Limit
import BuildLens.Json.Reader
import BuildLens.Json.Schema
import BuildLens.Json.Writer
import BuildLens.Main
import BuildLens.Path.Extension
import BuildLens.Path.FilePath
import BuildLens.Path.Host
import BuildLens.Path.PathSet
import BuildLens.Path.Percent
import BuildLens.Path.Platform
import BuildLens.Path.Posix
import BuildLens.Path.Uri
import BuildLens.Path.Windows
import BuildLens.Process.Capture
import BuildLens.Process.Error
import BuildLens.Process.Result
import BuildLens.Process.Runner
import BuildLens.Process.Script
import BuildLens.Proofs.Build.Backend
import BuildLens.Proofs.Build.Determinacy
import BuildLens.Proofs.Build.Discovery
import BuildLens.Proofs.Build.MachEnvironment
import BuildLens.Proofs.Build.MakeFragment
import BuildLens.Proofs.Build.MissingFragment
import BuildLens.Proofs.Build.Tidiness
import BuildLens.Proofs.Build.Transparency
import BuildLens.Proofs.CommandLine.Root
import BuildLens.Proofs.Compiler.CommandText
import BuildLens.Proofs.Compiler.Defaults
import BuildLens.Proofs.Compiler.FlagPaths
import BuildLens.Proofs.Compiler.Flags
import BuildLens.Proofs.Compiler.MacroText
import BuildLens.Proofs.Compiler.Macros
import BuildLens.Proofs.Compiler.Merging
import BuildLens.Proofs.Compiler.WindowsSdk
import BuildLens.Proofs.Folder.Message
import BuildLens.Proofs.Folder.Probe
import BuildLens.Proofs.Inquiry.Answered
import BuildLens.Proofs.Inquiry.Direct
import BuildLens.Proofs.Inquiry.Endings
import BuildLens.Proofs.Json.Document
import BuildLens.Proofs.Json.Grammar
import BuildLens.Proofs.Json.Lexeme
import BuildLens.Proofs.Json.Limits
import BuildLens.Proofs.Json.Schema
import BuildLens.Proofs.Occurrence
import BuildLens.Proofs.Path.Ancestry
import BuildLens.Proofs.Path.DriveUri
import BuildLens.Proofs.Path.Nesting
import BuildLens.Proofs.Path.NormalForm
import BuildLens.Proofs.Path.Operations
import BuildLens.Proofs.Path.Parent
import BuildLens.Proofs.Path.PathSet
import BuildLens.Proofs.Path.Percent
import BuildLens.Proofs.Path.Posix
import BuildLens.Proofs.Path.Reading
import BuildLens.Proofs.Path.Rebasing
import BuildLens.Proofs.Path.Spelling
import BuildLens.Proofs.Path.UnixText
import BuildLens.Proofs.Path.Uri
import BuildLens.Proofs.Path.Windows
import BuildLens.Proofs.Process.Capture
import BuildLens.Proofs.Process.Output
import BuildLens.Proofs.Settings.Loading
import BuildLens.Proofs.Settings.Overriding
import BuildLens.Proofs.Shell.Interpretation
import BuildLens.Proofs.Shell.Quoting
import BuildLens.Proofs.Shell.Scanning
import BuildLens.Proofs.Shell.Words
import BuildLens.Proofs.System.FileTree
import BuildLens.Proofs.Table
import BuildLens.Proofs.Text.LetterCase
import BuildLens.Proofs.Text.Line
import BuildLens.Proofs.Text.Replacement
import BuildLens.Proofs.Text.Utf8
import BuildLens.Proofs.Workspace.Announcement
import BuildLens.Proofs.Workspace.Batch
import BuildLens.Proofs.Workspace.BuildCount
import BuildLens.Proofs.Workspace.Changes
import BuildLens.Proofs.Workspace.Effects
import BuildLens.Proofs.Workspace.Exploration
import BuildLens.Proofs.Workspace.Files
import BuildLens.Proofs.Workspace.History
import BuildLens.Proofs.Workspace.Innermost
import BuildLens.Proofs.Workspace.Isolation
import BuildLens.Proofs.Workspace.Lines
import BuildLens.Proofs.Workspace.Looks
import BuildLens.Proofs.Workspace.Messages
import BuildLens.Proofs.Workspace.Moves
import BuildLens.Proofs.Workspace.Newest
import BuildLens.Proofs.Workspace.NewestSettings
import BuildLens.Proofs.Workspace.OneByOne
import BuildLens.Proofs.Workspace.OrderIndependence
import BuildLens.Proofs.Workspace.Ownership
import BuildLens.Proofs.Workspace.Progress
import BuildLens.Proofs.Workspace.Provider
import BuildLens.Proofs.Workspace.Provision
import BuildLens.Proofs.Workspace.Recognition
import BuildLens.Proofs.Workspace.Renumbering
import BuildLens.Proofs.Workspace.Serving
import BuildLens.Proofs.Workspace.Simulation
import BuildLens.Proofs.Workspace.Telling
import BuildLens.Proofs.Workspace.Turns
import BuildLens.Settings.Basic
import BuildLens.Settings.File
import BuildLens.Settings.Folder
import BuildLens.Shell.Argument
import BuildLens.Shell.Quoting
import BuildLens.Shell.Words
import BuildLens.System.FileTree
import BuildLens.System.SystemError
import BuildLens.Table
import BuildLens.Text.Blank
import BuildLens.Text.Control
import BuildLens.Text.LetterCase
import BuildLens.Text.LetterCase.Tables
import BuildLens.Text.Line
import BuildLens.Text.Printable
import BuildLens.Text.Quoted
import BuildLens.Text.Rune
import BuildLens.Text.Split
import BuildLens.Text.Utf8
import BuildLens.Workspace.Basic
import BuildLens.Workspace.Context
import BuildLens.Workspace.Direct
import BuildLens.Workspace.Engine
import BuildLens.Workspace.Registration
import BuildLens.Workspace.Session
import BuildLens.Workspace.Task
