import HeapDump.Bytes.Parser
import HeapDump.Bytes.Read
import HeapDump.Bytes.Source
import HeapDump.Bytes.Store
import HeapDump.Diagnostic.Basic
import HeapDump.Diagnostic.Log
import HeapDump.Diagnostic.Noted
import HeapDump.Draft.Basic
import HeapDump.Draft.Naming
import HeapDump.Error
import HeapDump.Graph.ClassName
import HeapDump.Graph.Fields
import HeapDump.Graph.Hierarchy
import HeapDump.Graph.Lookup
import HeapDump.Graph.Object
import HeapDump.Graph.Reference
import HeapDump.Graph.Resolution
import HeapDump.Graph.Stack
import HeapDump.Number.BigEndian
import HeapDump.Number.BigEndian.Lemmas
import HeapDump.Number.Binary
import HeapDump.Number.Code
import HeapDump.Number.Scalar
import HeapDump.Number.Shortest
import HeapDump.Options
import HeapDump.Record.Basic
import HeapDump.Record.Decoder
import HeapDump.Record.Header
import HeapDump.Record.Layout
import HeapDump.Record.Stream
import HeapDump.Record.Tag
import HeapDump.Record.Written
import HeapDump.Shards.Basic
import HeapDump.Shards.Geometry
import HeapDump.Shards.Session
import HeapDump.Snapshot.Basic
import HeapDump.Snapshot.Load
import HeapDump.Text.Hex
import HeapDump.Text.Utf8
import HeapDump.Value.Basic
import HeapDump.Value.BasicType
import HeapDump.Value.Elements
import HeapDump.Proofs.Bytes.Span
import HeapDump.Proofs.Number.Scalar
import HeapDump.Proofs.Shards.Stitching
import HeapDump.Proofs.Record.Marked
import HeapDump.Proofs.Record.Reading
import HeapDump.Proofs.Record.Grammar
import HeapDump.Proofs.Record.Payload
import HeapDump.Proofs.Text.Utf8
import HeapDump.Proofs.Record.Framing
import HeapDump.Proofs.Record.Header
import HeapDump.Proofs.Record.Run
import HeapDump.Proofs.Record.Entries
import HeapDump.Proofs.Record.RoundTrip
import HeapDump.Proofs.Record.Reencoding
import HeapDump.Proofs.Shards.Independence
import HeapDump.Proofs.Diagnostic.Log
import HeapDump.Proofs.Graph.Held
import HeapDump.Proofs.Graph.UnknownReferences
import HeapDump.Proofs.Record.Cut
import HeapDump.Proofs.Record.Blocks
import HeapDump.Proofs.Record.Truncation
import HeapDump.Proofs.Record.Plan
import HeapDump.Proofs.Record.Failure
import HeapDump.Proofs.Record.Checked
import HeapDump.Proofs.Record.Tiling
import HeapDump.Proofs.Record.Shift
import HeapDump.Proofs.Record.Concatenation
import HeapDump.Proofs.Record.Verdicts
import HeapDump.Proofs.Draft.History
import HeapDump.Proofs.Draft.Push
import HeapDump.Proofs.Draft.Objects
import HeapDump.Proofs.Draft.Heaps
import HeapDump.Proofs.Draft.Reordering
import HeapDump.Proofs.Graph.ReadBack
import HeapDump.Proofs.Graph.Links
import HeapDump.Proofs.Graph.ArrayClass
import HeapDump.Proofs.Graph.Settled
import HeapDump.Proofs.Graph.Holders
import HeapDump.Proofs.Graph.View
import HeapDump.Proofs.Graph.Alignment
import HeapDump.Proofs.Graph.Linking
import HeapDump.Proofs.Snapshot.Finish
import HeapDump.Proofs.Snapshot.Definitions
import HeapDump.Proofs.Snapshot.Heaps
import HeapDump.Proofs.Snapshot.References
import HeapDump.Proofs.Snapshot.Views
import HeapDump.Proofs.Snapshot.Reordering
import HeapDump.Proofs.Draft.Interleaving
import HeapDump.Proofs.Snapshot.Interleaving
import HeapDump.Proofs.Diagnostic.Selection
import HeapDump.Proofs.Graph.Undecoded
import HeapDump.Proofs.Snapshot.Undecoded
import HeapDump.Proofs.Graph.Relocation
import HeapDump.Proofs.Draft.Relocation
import HeapDump.Proofs.Snapshot.Relocation
import HeapDump.Proofs.Record.Packing
import HeapDump.Proofs.Snapshot.Segmentation
import HeapDump.Proofs.Bytes.Deletion
import HeapDump.Proofs.Record.Deletion
import HeapDump.Proofs.Snapshot.Leniency
import HeapDump.Proofs.Draft.Warnings
import HeapDump.Proofs.Snapshot.AllOrNothing
import HeapDump.Proofs.Value.Parsing
import HeapDump.Proofs.Graph.Ancestry
import HeapDump.Proofs.Graph.Decoding
import HeapDump.Proofs.Graph.Climbing
import HeapDump.Proofs.Snapshot.Layouts
import HeapDump.Proofs.Snapshot.FieldData
import HeapDump.Proofs.Snapshot.CyclicSuperclasses
import HeapDump.Proofs.Graph.Traversal
import HeapDump.Proofs.Snapshot.Subtree
import HeapDump.Proofs.Bytes.Read
import HeapDump.Proofs.Shards.History
import HeapDump.Proofs.Shards.Mapping
import HeapDump.Proofs.Shards.Borrowing
import HeapDump.Proofs.Snapshot.BackLinks
import HeapDump.Proofs.Graph.Cycles
import HeapDump.Proofs.Graph.Walk
import HeapDump.Proofs.Snapshot.DamagedHierarchy
import HeapDump.Proofs.Value.Elements
import HeapDump.Proofs.Snapshot.PrimitiveArrays
import HeapDump.Proofs.Graph.ClassName
import HeapDump.Proofs.Draft.Tables
import HeapDump.Proofs.Draft.Threads
import HeapDump.Proofs.Snapshot.Threads
import HeapDump.Proofs.Snapshot.Log
import HeapDump.Proofs.Snapshot.ThreadRoots
import HeapDump.Proofs.Snapshot.Names
import HeapDump.Proofs.Snapshot.ClassLookup
import HeapDump.Proofs.Bytes.Atomicity
import HeapDump.Proofs.Shards.ErrorPlaces
import HeapDump.Proofs.Shards.Exactness
import HeapDump.Proofs.Snapshot.Geometries
import HeapDump.Proofs.Record.Cursor
import HeapDump.Proofs.Record.BoundedReads
