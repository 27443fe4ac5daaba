import WordGraph.Attributes
import WordGraph.Catalog
import WordGraph.Console.Batch
import WordGraph.Console.Buffer
import WordGraph.Console.Complete
import WordGraph.Console.Disk
import WordGraph.Console.Dot
import WordGraph.Console.Help
import WordGraph.Console.Importer
import WordGraph.Console.Options
import WordGraph.Console.Place
import WordGraph.Console.Printer
import WordGraph.Console.Shell
import WordGraph.Console.Table
import WordGraph.Console.TypedLine
import WordGraph.EdgeList.Import
import WordGraph.EdgeList.Record
import WordGraph.Error
import WordGraph.Graph.Adjacency
import WordGraph.Graph.Basic
import WordGraph.Graph.Chain
import WordGraph.Graph.Entity
import WordGraph.Graph.Path
import WordGraph.Graph.Select
import WordGraph.Main
import WordGraph.Number.Binary64
import WordGraph.Number.Numeral
import WordGraph.OrderedMap
import WordGraph.Proofs.Graph.Adjacency
import WordGraph.Proofs.OrderedMap
import WordGraph.Proofs.Catalog
import WordGraph.Query.Binding
import WordGraph.Query.Command
import WordGraph.Query.Filter
import WordGraph.Query.Group
import WordGraph.Query.Keyword
import WordGraph.Query.Machine
import WordGraph.Query.Outcome
import WordGraph.Query.Rules
import WordGraph.Query.Session
import WordGraph.Query.Statement
import WordGraph.Query.Token
import WordGraph.Snapshot.Block
import WordGraph.Snapshot.Checksum
import WordGraph.Snapshot.Fault
import WordGraph.Snapshot.File
import WordGraph.Snapshot.Image
import WordGraph.Text.Blank
import WordGraph.Text.Cluster
import WordGraph.Text.Column
import WordGraph.Text.Emoji
import WordGraph.Text.Joining
import WordGraph.Text.Json
import WordGraph.Text.Mark
import WordGraph.Text.Quoted
import WordGraph.Text.Ranges
import WordGraph.Text.Unassigned
import WordGraph.Text.Utf8
import WordGraph.Text.Width
import WordGraph.Proofs.Graph.Coherence
import WordGraph.Proofs.Graph.Soundness
import WordGraph.Proofs.Graph.Run
import WordGraph.Proofs.Graph.Select
import WordGraph.Proofs.Distinct
import WordGraph.Proofs.Graph.Chain
import WordGraph.Proofs.Graph.Joins
import WordGraph.Proofs.Graph.Walks
import WordGraph.Proofs.Snapshot.Block
import WordGraph.Proofs.Snapshot.Image
import WordGraph.Proofs.Snapshot.File
import WordGraph.Proofs.Graph.Agreement
import WordGraph.Proofs.Query.Agreement
import WordGraph.Proofs.Query.Reopening
import WordGraph.Proofs.Query.Derivation
import WordGraph.Proofs.Query.Parsing
import WordGraph.Proofs.Query.Acceptance
import WordGraph.Proofs.Snapshot.Checksum
import WordGraph.Proofs.Snapshot.Damage
import WordGraph.Proofs.Snapshot.Trust
import WordGraph.Proofs.Query.Rules
import WordGraph.Proofs.Query.Dispatch
import WordGraph.Proofs.Query.Narrowing
import WordGraph.Proofs.Query.Reachable
import WordGraph.Proofs.Query.Matching
import WordGraph.Proofs.Query.Batch
import WordGraph.Proofs.Query.Effects
import WordGraph.Proofs.Query.Anchoring
import WordGraph.Proofs.Query.Grouping
import WordGraph.Proofs.Query.History
import WordGraph.Proofs.Query.Targets
import WordGraph.Proofs.Graph.Relinking
import WordGraph.Proofs.Query.Repetition
import WordGraph.Proofs.EdgeList.Gains
import WordGraph.Proofs.EdgeList.Importing
import WordGraph.Proofs.EdgeList.Replaying
import WordGraph.Proofs.Query.Identities
import WordGraph.Proofs.Text.Words
import WordGraph.Proofs.Query.Malformed
import WordGraph.Proofs.Console.Lines
import WordGraph.Proofs.Graph.Search
import WordGraph.Proofs.Query.Paths
import WordGraph.Proofs.Query.Deletion
import WordGraph.Proofs.Query.Folding
import WordGraph.Proofs.Graph.Survey
import WordGraph.Proofs.Query.Restoring
import WordGraph.Proofs.Query.Products
import WordGraph.Proofs.Query.Sorting
import WordGraph.Proofs.Query.Locating
import WordGraph.Proofs.Snapshot.Growth
import WordGraph.Proofs.Text.Delimited
import WordGraph.Proofs.Console.Batches
import WordGraph.Proofs.Console.Drawing
import WordGraph.Proofs.Query.Writing
import WordGraph.Proofs.Graph.Links
import WordGraph.Proofs.Query.Terminators
import WordGraph.Proofs.Query.Pairs
import WordGraph.Proofs.Console.Completion
