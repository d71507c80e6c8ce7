/-
HeapDump/Snapshot/Load.lean

From a draft to a finished snapshot, and from the bytes of a dump to either.

A dump is read as a whole or not at all.  A reading that fails gives its error
together with what had been noted until then, which an attached sink has been
told already.

The steps are the same for every source of bytes: the header, a fold of the
records into a draft, names, references, links.  `ofStore` is the reading, and
what is known of it holds of dumps behind windows through their store.

The notes of a snapshot come in the order in which they arise: while records are
read, while names are put in, while references are looked up.
-/
import HeapDump.Draft.Naming
import HeapDump.Options
import HeapDump.Record.Stream
import HeapDump.Shards.Basic
import HeapDump.Snapshot.Basic

namespace HeapDump

/-- Puts names in, looks all references up and links the classes. -/
def Draft.finish (d : Draft) (resolveFields : Bool) : Snapshot :=
  let named := d.graph
  -- The index needs the names of the classes only, not their references.
  let index := ClassIndex.ofNames (named.classes.toList.map (·.name))
  let resolved := named.resolve d.objects index d.header.idSize resolveFields
  { header := d.header
    heaps := d.heaps.map d.heap
    graph := resolved.value
    objects := d.objects
    strings := d.strings
    classIndex := index
    frames := d.frames.map fun _ f => d.stackFrame f
    traces := d.traces
    threads := d.threads.map d.thread
    diagnostics := (d.diagnostics.pushAll d.namingNotes).pushAll resolved.notes }

/-- A reading that came to nothing. -/
structure LoadFailure where
  error : Error
  /-- What had been noted until then. -/
  diagnostics : Diagnostics

namespace Snapshot

/-- Reads the dump in a store, forwarding diagnostics to a sink if one is attached. -/
def ofStore (store : ByteStore) (options : Options) (attachSink : Bool) :
    Except LoadFailure Snapshot :=
  let diagnostics := Diagnostics.start attachSink
  match RecordStream.ofStore store options.skipUnknownRecords with
  | .error error => .error ⟨error, diagnostics⟩
  | .ok stream =>
    let draft : Draft := { header := stream.header, diagnostics }
    let ending := stream.fold (fun d record _ => d.push record) draft
    match ending.error with
    | some error => .error ⟨error, ending.state.diagnostics⟩
    | none => .ok (ending.state.finish options.resolveFields)

/-- Reads the dump behind windows. -/
def ofShards (shards : Shards) (options : Options) (attachSink : Bool) :
    Except LoadFailure Snapshot :=
  ofStore shards.store options attachSink

/-- Reads the dump in a source with checked options. -/
def ofSource (source : Source) (options : Options) : Except Error Snapshot := do
  options.validate
  let shards ← Shards.ofSource source options.shardSize options.padding
  (ofShards shards options false).mapError (·.error)

end Snapshot

end HeapDump
