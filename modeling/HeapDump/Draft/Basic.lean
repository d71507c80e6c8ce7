/-
HeapDump/Draft/Basic.lean

What the records read so far have defined.

Tables of names, frames, traces and threads keep the last entry of a key.
Objects keep the first: a later definition of the same identifier is noted and
otherwise ignored.  Objects and roots belong to the heap that was named last;
a heap comes into being when it is named or first used.

Nothing is looked up while records are read.  A draft holds identifiers, and the
names and objects behind them may be defined by records still to come; `Naming`
and the graph modules put them in afterwards.  So what a record does depends on
few parts of the draft, and most records can be exchanged.

Objects are kept in two arrays in the order of the file.  The table of objects
and the lists of the heaps hold positions in them.
-/
import HeapDump.Diagnostic.Log
import HeapDump.Graph.Lookup
import HeapDump.Record.Header

namespace HeapDump

/-- What a dump tells of the loading of a class. -/
structure ClassLoad where
  serial : UInt32
  nameId : ObjectId
  deriving DecidableEq, Repr

/-- What a dump has told of a thread so far. -/
structure ThreadDraft where
  id : ObjectId
  stackSerial : UInt32
  /-- The last record of its start, which names it. -/
  start : Option ThreadStart := none
  deriving DecidableEq, Repr

/-- What belongs to a heap so far, by position. -/
structure HeapDraft where
  nameId : Option ObjectId := none
  classes : Array Nat := #[]
  instances : Array Nat := #[]
  roots : Array Nat := #[]
  deriving DecidableEq, Repr

/-- Something with the heap that it belongs to and the place of its record. -/
structure Located (α : Type) where
  value : α
  heap : UInt32
  offset : Nat
  deriving DecidableEq, Repr

/-- What the records read so far have defined. -/
structure Draft where
  header : Header
  /-- The heap that objects and roots belong to at present. -/
  currentHeap : UInt32 := 0
  /-- The number of heap dumps begun. -/
  heapDumps : Nat := 0
  strings : Std.ExtTreeMap ObjectId String := ∅
  /-- The loading of classes by their identifier. -/
  loads : Std.ExtTreeMap ObjectId ClassLoad := ∅
  frames : Std.ExtTreeMap ObjectId StackFrameRecord := ∅
  traces : Std.ExtTreeMap UInt32 StackTrace := ∅
  threads : Std.ExtTreeMap UInt32 ThreadDraft := ∅
  heaps : Std.ExtTreeMap UInt32 HeapDraft := ∅
  objects : ObjectTable := ∅
  classes : Array (Located ClassDump) := #[]
  instances : Array (Located ObjectDump) := #[]
  roots : Array (Located RootRecord) := #[]
  diagnostics : Diagnostics := {}

namespace Draft

/-- Notes a diagnostic. -/
def report (d : Draft) (diagnostic : Diagnostic) : Draft :=
  { d with diagnostics := d.diagnostics.push diagnostic }

/-- Something that belongs to the current heap. -/
def locate (d : Draft) (offset : Nat) (value : α) : Located α := ⟨value, d.currentHeap, offset⟩

/-- Changes the entry of the current heap, which comes into being if need be. -/
def inHeap (d : Draft) (f : HeapDraft → HeapDraft) : Draft :=
  { d with heaps := d.heaps.alter d.currentHeap fun h => some (f (h.getD {})) }

/-- Makes a heap the current one and names it. -/
def enterHeap (d : Draft) (heapId : UInt32) (nameId : ObjectId) : Draft :=
  { d with currentHeap := heapId }.inHeap fun h => { h with nameId := some nameId }

/-- What a root tells of a thread.  A root without a stack trace leaves the known
one in place. -/
def noteThread (d : Draft) (root : RootRecord) : Draft :=
  match root.kind, root.threadSerial with
  | .threadObject, some serial =>
    { d with
      threads := d.threads.alter serial fun t =>
        -- The record that starts the thread may come later, and overwrites all of this.
        let t := t.getD ⟨0, 0, none⟩
        some { t with
          id := root.objectId
          stackSerial := root.stackSerial.getD t.stackSerial } }
  | _, _ => d

/-- Adds a root to the current heap. -/
def addRoot (d : Draft) (root : RootRecord) (offset : Nat) : Draft :=
  -- A root is kept even if another one roots the same object.
  let d := d.noteThread root
  let index := d.roots.size
  let d := d.inHeap fun h => { h with roots := h.roots.push index }
  { d with roots := d.roots.push (d.locate offset root) }

/-- Adds a class to the current heap, unless its identifier is taken. -/
def addClass (d : Draft) (dump : ClassDump) (offset : Nat) : Draft :=
  let id := dump.classId
  -- The identifier may also be that of an instance: there is one table for both.
  if d.objects.contains id then
    d.report { cause := .duplicateClass id, offset := some offset, object := some id }
  else
    let index := d.classes.size
    let d := d.inHeap fun h => { h with classes := h.classes.push index }
    { d with
      objects := d.objects.insert id (.classAt index)
      classes := d.classes.push (d.locate offset dump) }

/-- Adds an object other than a class to the current heap, unless its identifier is
taken. -/
def addObject (d : Draft) (dump : ObjectDump) (offset : Nat) : Draft :=
  let id := dump.objectId
  if d.objects.contains id then
    d.report { cause := .duplicateInstance id, offset := some offset, object := some id }
  else
    let index := d.instances.size
    let d := d.inHeap fun h => { h with instances := h.instances.push index }
    { d with
      objects := d.objects.insert id (.instanceAt index)
      instances := d.instances.push (d.locate offset dump) }

/-- Adds what a sub-record says. -/
def pushHeapRecord (d : Draft) (record : HeapRecord) (offset : Nat) : Draft :=
  match record with
  | .heapInfo heapId nameId => d.enterHeap heapId nameId
  | .root root => d.addRoot root offset
  | .classDump dump => d.addClass dump offset
  | .object dump => d.addObject dump offset

/-- Adds what a record says. -/
def push (d : Draft) (record : Record) : Draft :=
  match record.body with
  | .string id value => { d with strings := d.strings.insert id value }
  | .loadClass serial classId _ nameId =>
    { d with loads := d.loads.insert classId ⟨serial, nameId⟩ }
  | .stackFrame frame => { d with frames := d.frames.insert frame.frameId frame }
  | .stackTrace trace => { d with traces := d.traces.insert trace.serial trace }
  | .startThread start =>
    { d with
      threads := d.threads.insert start.serial ⟨start.threadId, start.stackSerial, some start⟩ }
  | .heapDumpStart .. => { d with heapDumps := d.heapDumps + 1 }
  | .skipped tag length =>
    -- A record with a known tag can be one that readers pass over by design.
    match Tag.ofCode? tag with
    | some _ => d
    | none => d.report { cause := .skippedRecord tag length, offset := some record.offset }
  | .unloadClass _ | .endThread _ | .heapDumpEnd => d
  | .heap heapRecord => d.pushHeapRecord heapRecord record.offset

end Draft

end HeapDump
