import Schemata.Text.Split
import Schemata.Text.Digits
import Schemata.Text.Quoted
import Schemata.Number.Shortest
import Schemata.Json.Printer
import Schemata.Json.Reader
import Schemata.Json.Record
import Schemata.Instant
import Schemata.Sha256
import Schemata.Table
import Schemata.Checksum
import Schemata.QualifiedName
import Schemata.Identity
import Schemata.History
import Schemata.Model.Wire
import Schemata.Reflection
import Schemata.Binding
import Schemata.Directory.Wire
import Schemata.Directory.Memory
import Schemata.Directory.Faults
import Schemata.Directory.Store
import Schemata.Registry
import Schemata.Bus
import Schemata.Settings.Value
import Schemata.Toml.Reader
import Schemata.Main
import Schemata.Proofs.Model.Erasure
import Schemata.Proofs.Model.FreeKey
import Schemata.Proofs.Binding
import Schemata.Proofs.Model.Hoisting
import Schemata.Proofs.Model.Grammar
import Schemata.Proofs.Model.Storage
import Schemata.Proofs.Model.Scope
import Schemata.Proofs.Model.Pointers
import Schemata.Proofs.Model.Canonical
import Schemata.Proofs.Model.References
import Schemata.Proofs.Model.Shallow
import Schemata.Proofs.Model.Reordering
import Schemata.Proofs.Order
import Schemata.Proofs.Text.Bytes
import Schemata.Proofs.Version.Order
import Schemata.Proofs.Version.Comparison
import Schemata.Proofs.Version.Successor
import Schemata.Proofs.FileTree
import Schemata.Proofs.Json.Quoting
import Schemata.Proofs.Json.Reading
import Schemata.Proofs.Date
import Schemata.Proofs.Instant
import Schemata.Proofs.Directory.Wire
import Schemata.Proofs.Directory.Folders
import Schemata.Proofs.Directory.Memory
import Schemata.Proofs.Directory.AppendOnly
import Schemata.Proofs.Json.Readable
import Schemata.Proofs.Model.Document
import Schemata.Proofs.Directory.Numbering
import Schemata.Proofs.History
import Schemata.Proofs.Registry.Course
import Schemata.Proofs.Registry.Reading
import Schemata.Proofs.Registry.Coherence
import Schemata.Proofs.Registry.Registration
import Schemata.Proofs.Directory.Report
import Schemata.Proofs.Directory.Ledger
import Schemata.Proofs.Directory.Filed
import Schemata.Proofs.Registry.Recounting
import Schemata.Proofs.Registry.Agreement
import Schemata.Proofs.Registry.Enrolment
import Schemata.Proofs.Registry.Journal
import Schemata.Proofs.Registry.Refusal
import Schemata.Proofs.Registry.Retention
import Schemata.Proofs.Directory.Draining
import Schemata.Proofs.Registry.Gathering
import Schemata.Proofs.Registry.Listing
import Schemata.Proofs.Registry.Failing
import Schemata.Proofs.Registry.Whole
import Schemata.Proofs.Registry.Paging
import Schemata.Proofs.Registry.Sharing
import Schemata.Proofs.Addressing
import Schemata.Proofs.Handle
import Schemata.Proofs.Move
import Schemata.Proofs.Idempotence
import Schemata.Proofs.Identity
import Schemata.Proofs.Json.Record
import Schemata.Proofs.Envelope
import Schemata.Proofs.Publishing
import Schemata.Proofs.Flattening
import Schemata.Proofs.Interchange
import Schemata.Proofs.Evolution
import Schemata.Proofs.Gaps
import Schemata.Proofs.Reachability
import Schemata.Proofs.Directory.Succession
import Schemata.Proofs.Route
import Schemata.Proofs.Directory.Confinement
import Schemata.Proofs.Recall
import Schemata.Proofs.Dispatch
import Schemata.Proofs.Correlation
import Schemata.Proofs.Number.Value
import Schemata.Proofs.Model.Levels
import Schemata.Proofs.Binding.Place
import Schemata.Proofs.Binding.Steps
import Schemata.Proofs.Binding.Preservation
import Schemata.Proofs.Binding.Conformance
import Schemata.Proofs.Binding.Repetition
import Schemata.Proofs.Binding.Coincidence
import Schemata.Proofs.Insertion
import Schemata.Proofs.Receipts
import Schemata.Proofs.Model.Keywords
import Schemata.Proofs.Records
import Schemata.Proofs.Registry.Separation
import Schemata.Proofs.QualifiedName
