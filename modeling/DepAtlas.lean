import DepAtlas.Assoc
import DepAtlas.CallGraph.Cycles
import DepAtlas.CallGraph.Json
import DepAtlas.CallGraph.Table
import DepAtlas.Cancellation
import DepAtlas.CommandLine.Arguments
import DepAtlas.CommandLine.Flag
import DepAtlas.CommandLine.Help
import DepAtlas.CommandLine.Program
import DepAtlas.CommandLine.Reader
import DepAtlas.Config.Basic
import DepAtlas.Config.Load
import DepAtlas.Config.Toml
import DepAtlas.Crawl
import DepAtlas.Crawl.Graph
import DepAtlas.Crawl.Json
import DepAtlas.Dependency
import DepAtlas.Dependency.Json
import DepAtlas.Digest.Basic
import DepAtlas.Digest.Words
import DepAtlas.Dispatch.Dispatcher
import DepAtlas.Dispatch.Pool
import DepAtlas.Dispatch.Processor
import DepAtlas.Dispatch.Queue
import DepAtlas.Error
import DepAtlas.Extract
import DepAtlas.Extract.Body
import DepAtlas.Extract.Method
import DepAtlas.Extract.Module
import DepAtlas.Extract.Source
import DepAtlas.Extract.Structure
import DepAtlas.FileCache
import DepAtlas.FileSystem.Basic
import DepAtlas.FileSystem.Edit
import DepAtlas.FileSystem.Stamp
import DepAtlas.Glob
import DepAtlas.Grammar.Basic
import DepAtlas.Grammar.C
import DepAtlas.Grammar.Go
import DepAtlas.Grammar.Java
import DepAtlas.Grammar.JavaScript
import DepAtlas.Grammar.Php
import DepAtlas.Grammar.Python
import DepAtlas.Grammar.Registry
import DepAtlas.Grammar.Ruby
import DepAtlas.Grammar.Rust
import DepAtlas.Grammar.Svelte
import DepAtlas.Incremental.Change
import DepAtlas.Incremental.Coordinator
import DepAtlas.Incremental.Fingerprint
import DepAtlas.Incremental.State
import DepAtlas.IoFailure
import DepAtlas.Json.Basic
import DepAtlas.Json.Decode
import DepAtlas.Json.Magnitude
import DepAtlas.Json.Parser
import DepAtlas.Json.Printer
import DepAtlas.Language
import DepAtlas.Layer
import DepAtlas.Main
import DepAtlas.Path
import DepAtlas.Path.Set
import DepAtlas.Pattern.Basic
import DepAtlas.Pattern.Search
import DepAtlas.PatternStore
import DepAtlas.Proofs.Assoc
import DepAtlas.Proofs.CallGraph.Ledger
import DepAtlas.Proofs.CallGraph.Names
import DepAtlas.Proofs.Path
import DepAtlas.Ratio
import DepAtlas.Report
import DepAtlas.Report.Dot
import DepAtlas.Report.Filter
import DepAtlas.Report.Json
import DepAtlas.Report.Terminal
import DepAtlas.StructureIndex
import DepAtlas.Text.Basic
import DepAtlas.Text.CharClass
import DepAtlas.Text.CharTable
import DepAtlas.Text.Cursor
import DepAtlas.Text.LineIndex
import DepAtlas.Text.Utf8
import DepAtlas.Toml.Basic
import DepAtlas.Toml.Parser
import DepAtlas.Toml.Printer
import DepAtlas.Toml.Scalars
import DepAtlas.Toml.Strings
import DepAtlas.Walk
import DepAtlas.Width
import DepAtlas.Proofs.CallGraph.Standing
import DepAtlas.Proofs.CallGraph.Ownership
import DepAtlas.Proofs.CallGraph.Ingestion
import DepAtlas.Proofs.CallGraph.Refinement
import DepAtlas.Proofs.CallGraph.Agreement
import DepAtlas.Proofs.CallGraph.Fresh
import DepAtlas.Proofs.CallGraph.Contributions
import DepAtlas.Proofs.Dispatch.Session
import DepAtlas.Proofs.Dispatch.Balance
import DepAtlas.Proofs.Dispatch.Delivery
import DepAtlas.Proofs.Json.Scalars
import DepAtlas.Proofs.Text.Utf8
import DepAtlas.Proofs.Json.RoundTrip
import DepAtlas.Proofs.Json.ReadBack
import DepAtlas.Proofs.Incremental.State
import DepAtlas.Proofs.Extract.Spelling
import DepAtlas.Proofs.FileSystem.Spelling
import DepAtlas.Proofs.FileCache
import DepAtlas.Proofs.Incremental.Workspace
import DepAtlas.Proofs.Incremental.Evidence
import DepAtlas.Proofs.Incremental.Memory
import DepAtlas.Proofs.Incremental.Consistency
import DepAtlas.Proofs.Incremental.Transparency
import DepAtlas.Proofs.FileCache.Recency
import DepAtlas.Proofs.Pattern.Confinement
import DepAtlas.Proofs.Text.Lines
import DepAtlas.Proofs.Dispatch.Progress
import DepAtlas.Proofs.Extract.WellFormed
import DepAtlas.Proofs.Dispatch.Simulation
import DepAtlas.Proofs.Dispatch.Outcomes
import DepAtlas.Proofs.Crawl.Sharing
import DepAtlas.Proofs.CallGraph.Reordering
import DepAtlas.Proofs.Crawl.Agreement
import DepAtlas.Proofs.Crawl.Scope
import DepAtlas.Proofs.Path.Sorting
import DepAtlas.Proofs.FileSystem.Tree
import DepAtlas.Proofs.FileSystem.Replacement
import DepAtlas.Proofs.Incremental.StateFile
import DepAtlas.Proofs.Incremental.Analysis
import DepAtlas.Proofs.Incremental.History
import DepAtlas.Proofs.Incremental.Restart
import DepAtlas.Proofs.Incremental.Ownership
import DepAtlas.Proofs.Incremental.Reuse
import DepAtlas.Proofs.FileSystem.Entries
import DepAtlas.Proofs.Incremental.Footprint
import DepAtlas.Proofs.Incremental.Stock
import DepAtlas.Proofs.Walk.Levels
import DepAtlas.Proofs.Walk.Stability
import DepAtlas.Proofs.Crawl.Course
import DepAtlas.Proofs.Crawl.Repetition
import DepAtlas.Proofs.Incremental.Regularity
import DepAtlas.Proofs.Incremental.Bookkeeping
import DepAtlas.Proofs.Incremental.Deletion
import DepAtlas.Proofs.Incremental.Reload
import DepAtlas.Proofs.Incremental.Verification
import DepAtlas.Proofs.Dispatch.Exchange
import DepAtlas.Proofs.FileCache.Transparency
import DepAtlas.Proofs.Path.Below
import DepAtlas.Proofs.Walk.Eligibility
import DepAtlas.Proofs.Walk.Termination
import DepAtlas.Proofs.Config.Validation
import DepAtlas.Proofs.Config.Resolution
import DepAtlas.Proofs.Config.RoundTrip
import DepAtlas.Proofs.Report.Recovery
import DepAtlas.Proofs.CallGraph.Recursion
import DepAtlas.Proofs.Text.Bytes
import DepAtlas.Proofs.Extract.Blocks
import DepAtlas.Proofs.StructureIndex.Mentions
import DepAtlas.Proofs.StructureIndex.Entries
import DepAtlas.Proofs.StructureIndex.Independence
import DepAtlas.Proofs.Incremental.Failure
import DepAtlas.Proofs.Incremental.Change
import DepAtlas.Proofs.Incremental.ChangeLog
import DepAtlas.Proofs.Incremental.Vanished
import DepAtlas.Proofs.Text.Search
import DepAtlas.Proofs.Extract.Indentation
import DepAtlas.Proofs.CallGraph.Algebra
import DepAtlas.Proofs.Incremental.Moves
import DepAtlas.Proofs.Incremental.Origins
import DepAtlas.Proofs.FileSystem.Places
import DepAtlas.Proofs.Incremental.Atomicity
import DepAtlas.Proofs.Pattern.Preference
import DepAtlas.Proofs.Pattern.Reading
import DepAtlas.Proofs.Text.Cutting
import DepAtlas.Proofs.Extract.ReturnType
import DepAtlas.Proofs.Extract.Definitions
import DepAtlas.Proofs.Extract.DefinitionLines
import DepAtlas.Proofs.Extract.Nesting
import DepAtlas.Proofs.Extract.Functions
import DepAtlas.Proofs.Extract.Annotations
import DepAtlas.Proofs.Extract.ImportLines
import DepAtlas.Proofs.Extract.ImportBlocks
import DepAtlas.Proofs.Report.DotReader
import DepAtlas.Proofs.Report.Dot
import DepAtlas.Proofs.Report.Visibility
import DepAtlas.Proofs.Incremental.Sources
import DepAtlas.Proofs.Crawl.Accounting
import DepAtlas.Proofs.Text.Boundary
import DepAtlas.Proofs.Extract.Places
import DepAtlas.Proofs.Extract.Slices
import DepAtlas.Proofs.Extract.LineNumbers
import DepAtlas.Proofs.Digest.Lists
