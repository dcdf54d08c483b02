import StorageLayout.ArrayLength
import StorageLayout.Artifacts
import StorageLayout.Assoc
import StorageLayout.Ast.Declarations
import StorageLayout.Ast.Index
import StorageLayout.CommandLine.Arguments
import StorageLayout.CommandLine.Commands
import StorageLayout.CommandLine.Help
import StorageLayout.CommandLine.Parameter
import StorageLayout.CommandLine.Session
import StorageLayout.CommandLine.Similar
import StorageLayout.ContractName
import StorageLayout.Declaration
import StorageLayout.Emitted.Declarations
import StorageLayout.Emitted.Index
import StorageLayout.Error
import StorageLayout.Export
import StorageLayout.FileTree
import StorageLayout.FileTree.Changes
import StorageLayout.Json.Basic
import StorageLayout.Json.Inspect
import StorageLayout.Json.Parser
import StorageLayout.Json.Printer
import StorageLayout.Json.Reading
import StorageLayout.Main
import StorageLayout.Number.Binary64
import StorageLayout.Number.Shortest
import StorageLayout.Path
import StorageLayout.Proofs.Artifacts
import StorageLayout.Proofs.Ast.Acceptance
import StorageLayout.Proofs.Ast.Constants
import StorageLayout.Proofs.Ast.Content
import StorageLayout.Proofs.Ast.Equivariance
import StorageLayout.Proofs.Ast.Extension
import StorageLayout.Proofs.Ast.Faults
import StorageLayout.Proofs.Ast.Inheritance
import StorageLayout.Proofs.Ast.Nodes
import StorageLayout.Proofs.Ast.Persistence
import StorageLayout.Proofs.Ast.Renaming
import StorageLayout.Proofs.Ast.Traversal
import StorageLayout.Proofs.Ast.Types
import StorageLayout.Proofs.BareName
import StorageLayout.Proofs.CommandLine.Printing
import StorageLayout.Proofs.Correspondence
import StorageLayout.Proofs.Declaration
import StorageLayout.Proofs.DepthLimit
import StorageLayout.Proofs.Emitted.Check
import StorageLayout.Proofs.Emitted.Contracts
import StorageLayout.Proofs.Emitted.Existence
import StorageLayout.Proofs.Emitted.Faults
import StorageLayout.Proofs.Emitted.Isolation
import StorageLayout.Proofs.Emitted.Need
import StorageLayout.Proofs.Emitted.Reading
import StorageLayout.Proofs.Emitted.Tables
import StorageLayout.Proofs.Emitted.Types
import StorageLayout.Proofs.Faults
import StorageLayout.Proofs.Listing
import StorageLayout.Proofs.Lockstep
import StorageLayout.Proofs.Occurrence
import StorageLayout.Proofs.Path
import StorageLayout.Proofs.Places
import StorageLayout.Proofs.QualifiedName
import StorageLayout.Proofs.Readback
import StorageLayout.Proofs.Rearrangement
import StorageLayout.Proofs.Selection
import StorageLayout.Proofs.Simulation
import StorageLayout.Proofs.TreeForm
import StorageLayout.Proofs.Uniformity
import StorageLayout.Render
import StorageLayout.Resolver
import StorageLayout.Shell.Arithmetic
import StorageLayout.Shell.Builtin.Control
import StorageLayout.Shell.Builtin.Folder
import StorageLayout.Shell.Builtin.Input
import StorageLayout.Shell.Builtin.Options
import StorageLayout.Shell.Builtin.Output
import StorageLayout.Shell.Builtin.Table
import StorageLayout.Shell.Builtin.Variables
import StorageLayout.Shell.Command
import StorageLayout.Shell.Condition
import StorageLayout.Shell.Escape
import StorageLayout.Shell.Execution
import StorageLayout.Shell.Expansion
import StorageLayout.Shell.Format
import StorageLayout.Shell.Grammar
import StorageLayout.Shell.Lookup
import StorageLayout.Shell.Machine
import StorageLayout.Shell.Octets
import StorageLayout.Shell.Pattern
import StorageLayout.Shell.Reader
import StorageLayout.Shell.Run
import StorageLayout.Shell.Signal
import StorageLayout.Shell.Streams
import StorageLayout.Shell.World
import StorageLayout.Slot
import StorageLayout.Source
import StorageLayout.Text.Ansi
import StorageLayout.Text.Blank
import StorageLayout.Text.DecimalDigit
import StorageLayout.Text.Hex
import StorageLayout.Text.Numeral
import StorageLayout.Text.Printable
import StorageLayout.Text.Quoted
import StorageLayout.TypeReference
import StorageLayout.Utility.Basic
import StorageLayout.Utility.Columns
import StorageLayout.Utility.Comparing
import StorageLayout.Utility.Copy
import StorageLayout.Utility.Editor
import StorageLayout.Utility.Encoding
import StorageLayout.Utility.Expression
import StorageLayout.Utility.Files
import StorageLayout.Utility.Finding
import StorageLayout.Utility.Grep
import StorageLayout.Utility.Listing
import StorageLayout.Utility.Reading
import StorageLayout.Utility.Regex
import StorageLayout.Utility.Running
import StorageLayout.Utility.Script
import StorageLayout.Utility.Sorting
import StorageLayout.Utility.Table
import StorageLayout.Utility.Words
import StorageLayout.Proofs.ArrayLength
import StorageLayout.Proofs.Emitted.Dimensions
import StorageLayout.Proofs.Ast.ArrayBounds
import StorageLayout.Proofs.Candidates
import StorageLayout.Proofs.Presentation
import StorageLayout.Proofs.Outline
import StorageLayout.Proofs.Emitted.Placement
import StorageLayout.Proofs.Relisting
import StorageLayout.Proofs.Discovery
import StorageLayout.Proofs.Word
import StorageLayout.Proofs.Json.Token
import StorageLayout.Proofs.Json.LongInteger
import StorageLayout.Proofs.Unreadable
import StorageLayout.Proofs.CommandLine.Opening
