/-
HeapDump/Record/Layout.lean

The layouts of all records: which fields follow each other, and how wide each
one is.

A layout is a decoder that takes its fields in the order of the format.  Where
it ends is checked by who runs it: the payload of a top-level record has to be
taken up exactly, while a sub-record ends where its last field does and the next
one begins there.

The records that readers pass over have a layout too, which takes all that is
left.  The payloads of heap dumps are not read through this table but entered
record by record; their entries keep the table total.
-/
import HeapDump.Record.Basic
import HeapDump.Record.Decoder
import HeapDump.Text.Utf8

namespace HeapDump

namespace Layout

open Decoder

/-! ### Top-level records -/

/-- A string: its identifier, then its text up to the end of the record. -/
def string : Decoder Body := do
  let id ← ident
  let data ← bytes (← remaining)
  return .string id (Utf8.decodeLossy data)

/-- The loading of a class. -/
def loadClass : Decoder Body := do
  let serial ← word
  let classId ← ident
  let stackSerial ← word
  let nameId ← ident
  return .loadClass serial classId stackSerial nameId

/-- A stack frame. -/
def stackFrame : Decoder Body := do
  let frameId ← ident
  let methodNameId ← ident
  let signatureId ← ident
  let sourceFileId ← ident
  let classSerial ← word
  let line ← number .int32
  return .stackFrame ⟨frameId, methodNameId, signatureId, sourceFileId, classSerial, line⟩

/-- A stack trace. -/
def stackTrace : Decoder Body := do
  let serial ← word
  let threadSerial ← word
  let count ← word
  let frameIds ← idents count.toNat
  return .stackTrace ⟨serial, threadSerial, frameIds⟩

/-- The start of a thread. -/
def startThread : Decoder Body := do
  let serial ← word
  let threadId ← ident
  let stackSerial ← word
  let nameId ← ident
  let groupNameId ← ident
  let parentGroupNameId ← ident
  return .startThread ⟨serial, threadId, stackSerial, nameId, groupNameId, parentGroupNameId⟩

/-- A record that is passed over. -/
def skipped (tag : UInt8) : Decoder Body := do
  let length ← remaining
  let _ ← take length
  return .skipped tag length

/-- The payload of the records with a tag. -/
def payload : Tag → Decoder Body
  | .string => string
  | .loadClass => loadClass
  | .unloadClass => return .unloadClass (← word)
  | .stackFrame => stackFrame
  | .stackTrace => stackTrace
  | .startThread => startThread
  | .endThread => return .endThread (← word)
  | .heapDumpEnd => return .heapDumpEnd
  | .allocSites => skipped Tag.allocSites.code
  | .heapSummary => skipped Tag.heapSummary.code
  | .cpuSamples => skipped Tag.cpuSamples.code
  | .controlSettings => skipped Tag.controlSettings.code
  | .heapDump => skipped Tag.heapDump.code
  | .heapDumpSegment => skipped Tag.heapDumpSegment.code

/-! ### Heap sub-records -/

/-- What follows the object identifier of a root of a kind. -/
def rootDetails (kind : RootKind) (objectId : ObjectId) : Decoder RootRecord :=
  match kind with
  | .jniGlobal => do
    let jniRef ← ident
    return { kind, objectId, jniRef := some jniRef }
  | .jniLocal | .javaFrame | .jniMonitor => do
    let threadSerial ← word
    let frame ← word
    return { kind, objectId, threadSerial := some threadSerial, frame := some frame }
  | .nativeStack | .threadBlock => do
    let threadSerial ← word
    return { kind, objectId, threadSerial := some threadSerial }
  | .threadObject => do
    let threadSerial ← word
    let stackSerial ← word
    return { kind, objectId, threadSerial := some threadSerial, stackSerial := some stackSerial }
  | .unknown | .systemClass | .busyMonitor | .internedString | .finalizing | .debugger
  | .referenceCleanup | .vmInternal | .unreachable => return { kind, objectId }

/-- A root. -/
def root (kind : RootKind) : Decoder HeapRecord := do
  let objectId ← ident
  return .root (← rootDetails kind objectId)

/-- An entry of a constant pool: index, type and value. -/
def constant : Decoder (UInt16 × Value ObjectId) := do
  let index ← half
  let t ← type
  let v ← value t
  return (index, v)

/-- A static field: name, type and value. -/
def static : Decoder StaticRecord := do
  let nameId ← ident
  let t ← type
  let v ← value t
  return ⟨nameId, v⟩

/-- An instance field: name and type. -/
def field : Decoder FieldRecord := do
  let nameId ← ident
  let t ← type
  return ⟨nameId, t⟩

/-- A class object.  Two identifiers after the protection domain are reserved. -/
def classDump : Decoder HeapRecord := do
  let classId ← ident
  let stackSerial ← word
  let superId ← ident
  let loaderId ← ident
  let signersId ← ident
  let protectionDomainId ← ident
  -- The two reserved identifiers.
  let _ ← ident
  let _ ← ident
  let instanceSize ← word
  let constants ← counted constant
  let statics ← counted static
  let fields ← counted field
  return .classDump
    { classId, stackSerial, superId, loaderId, signersId, protectionDomainId, instanceSize,
      constants, statics, fields }

/-- A plain object. -/
def instanceDump : Decoder HeapRecord := do
  let objectId ← ident
  let stackSerial ← word
  let classId ← ident
  let length ← word
  let data ← bytes length.toNat
  return .object (.plain ⟨objectId, stackSerial, classId, data⟩)

/-- An array of references. -/
def objectArrayDump : Decoder HeapRecord := do
  let objectId ← ident
  let stackSerial ← word
  let count ← word
  let classId ← ident
  let elements ← idents count.toNat
  return .object (.references ⟨objectId, stackSerial, classId, elements⟩)

/-- An array of a primitive type, with or without its elements. -/
def primitiveArrayDump (withData : Bool) : Decoder HeapRecord := do
  let objectId ← ident
  let stackSerial ← word
  let length ← word
  let elementType ← primitiveType
  if withData then
    let data ← bytes (length.toNat * elementType.size (← read).idSize)
    return .object (.primitives ⟨objectId, stackSerial, elementType, length, some data⟩)
  else return .object (.primitives ⟨objectId, stackSerial, elementType, length, none⟩)

/-- The name of the heap that the following sub-records belong to. -/
def heapInfo : Decoder HeapRecord := do
  let heapId ← word
  let nameId ← ident
  return .heapInfo heapId nameId

/-- The fields of the sub-records with a tag. -/
def subPayload : SubTag → Decoder HeapRecord
  | .root kind => root kind
  | .classDump => classDump
  | .instanceDump => instanceDump
  | .objectArrayDump => objectArrayDump
  | .primitiveArrayDump => primitiveArrayDump true
  | .primitiveArrayNoData => primitiveArrayDump false
  | .heapDumpInfo => heapInfo

/-- A whole sub-record: its tag, then its fields. -/
def subRecord : Decoder HeapRecord := do
  let place ← position
  let code ← byte
  match SubTag.ofCode? code with
  | some tag => subPayload tag
  | none => throw (.unknownTag code place)

end Layout

end HeapDump
