/-
HeapDump/Record/Written.lean

The bytes that spell records, as a writer of dumps puts them down.

A writer thinks in whole top-level records: the sub-records of a heap dump are
part of the record that holds them, and so is the payload of a record that
readers pass over.  `Entry.written` gives the bytes of such a record and
`Entry.records` what a reader finds in them.

Nothing is checked here.  Counts and lengths are written in as many bits as the
format gives them, and an entry that does not fit writes bytes that say something
else; that an entry fits is a hypothesis of the theorems that read it back.

The tag codes are those of the tables that readers use, so a round trip does not
show that they are the right ones.  For that reason a sample dump is also spelled
out byte by byte.
-/
import HeapDump.Record.Stream

namespace HeapDump

/-! ### Fields -/

namespace Written

/-- A 16-bit count or index. -/
def half (n : UInt16) : List UInt8 := Scalar.uint16.encode n

/-- A 32-bit number. -/
def word (n : UInt32) : List UInt8 := Scalar.uint32.encode n

/-- A 32-bit number of bytes or items. -/
def count (n : Nat) : List UInt8 := word (UInt32.ofNat n)

/-- An object identifier of `idSize` bytes. -/
def ident (idSize : Nat) (id : ObjectId) : List UInt8 := BigEndian.toList idSize id.toNat

/-- A value, without its type. -/
def value (idSize : Nat) (v : Value ObjectId) : List UInt8 :=
  BigEndian.toList (v.type.size idSize) v.toBits

/-- A value behind the code of its type. -/
def typedValue (idSize : Nat) (v : Value ObjectId) : List UInt8 :=
  v.type.code :: value idSize v

/-- An entry of a constant pool. -/
def constant (idSize : Nat) (c : UInt16 × Value ObjectId) : List UInt8 :=
  half c.1 ++ typedValue idSize c.2

/-- A run of items behind their 16-bit number. -/
def counted (item : α → List UInt8) (items : List α) : List UInt8 :=
  half (UInt16.ofNat items.length) ++ items.flatMap item

end Written

open Written

/-! ### Heap sub-records -/

/-- The written form of what a root tells besides its object. -/
def RootRecord.details (idSize : Nat) (r : RootRecord) : List UInt8 :=
  -- No kind of root has more of these than its own, and each kind has them in this order.
  (r.jniRef.map (ident idSize)).getD [] ++ (r.threadSerial.map word).getD [] ++
    (r.frame.map word).getD [] ++ (r.stackSerial.map word).getD []

/-- The written form of a static field. -/
def StaticRecord.written (idSize : Nat) (s : StaticRecord) : List UInt8 :=
  ident idSize s.nameId ++ typedValue idSize s.value

/-- The written form of the declaration of an instance field. -/
def FieldRecord.written (idSize : Nat) (f : FieldRecord) : List UInt8 :=
  ident idSize f.nameId ++ [f.type.code]

/-- The fields of a class object.  The two reserved identifiers are written as null. -/
def ClassDump.fieldBytes (idSize : Nat) (d : ClassDump) : List UInt8 :=
  ident idSize d.classId ++ word d.stackSerial ++ ident idSize d.superId ++
    ident idSize d.loaderId ++ ident idSize d.signersId ++ ident idSize d.protectionDomainId ++
    ident idSize 0 ++ ident idSize 0 ++ word d.instanceSize ++
    counted (constant idSize) d.constants ++
    counted (StaticRecord.written idSize) d.statics ++
    counted (FieldRecord.written idSize) d.fields

/-- The tag of the sub-records that hold an object. -/
def ObjectDump.tag : ObjectDump → SubTag
  | plain _ => .instanceDump
  | references _ => .objectArrayDump
  | primitives d => if d.data.isSome then .primitiveArrayDump else .primitiveArrayNoData

/-- The fields of an object. -/
def ObjectDump.fieldBytes (idSize : Nat) : ObjectDump → List UInt8
  | plain d =>
    ident idSize d.objectId ++ word d.stackSerial ++ ident idSize d.classId ++
      count d.data.size ++ d.data.data.toList
  | references d =>
    ident idSize d.objectId ++ word d.stackSerial ++ count d.elements.length ++
      ident idSize d.classId ++ d.elements.flatMap (ident idSize)
  | primitives d =>
    ident idSize d.objectId ++ word d.stackSerial ++ word d.length ++ [d.elementType.code] ++
      (d.data.getD ByteArray.empty).data.toList

/-- The tag of a sub-record. -/
def HeapRecord.tag : HeapRecord → SubTag
  | heapInfo .. => .heapDumpInfo
  | root r => .root r.kind
  | classDump _ => .classDump
  | object d => d.tag

/-- The fields of a sub-record. -/
def HeapRecord.fieldBytes (idSize : Nat) : HeapRecord → List UInt8
  | heapInfo heapId nameId => word heapId ++ ident idSize nameId
  | root r => ident idSize r.objectId ++ r.details idSize
  | classDump d => d.fieldBytes idSize
  | object d => d.fieldBytes idSize

/-- The written form of a sub-record. -/
def HeapRecord.written (idSize : Nat) (r : HeapRecord) : List UInt8 :=
  r.tag.code :: r.fieldBytes idSize

/-- Sub-records that are written one after the other from `offset` on, as a reader
finds them. -/
def HeapRecord.recordsFrom (idSize : Nat) : Nat → List HeapRecord → List Record
  | _, [] => []
  | offset, r :: rest =>
    ⟨offset, none, .heap r⟩ :: recordsFrom idSize (offset + (r.written idSize).length) rest

/-! ### Top-level records -/

/-- The tag and the payload of a record that holds its own fields.  The start of a
heap dump, a record that was passed over and a sub-record have none: their bytes
are part of a larger record or are not known. -/
def Body.payload? (idSize : Nat) : Body → Option (Tag × List UInt8)
  | string id value => some (.string, ident idSize id ++ value.toUTF8.data.toList)
  | loadClass serial classId stackSerial nameId =>
    some (.loadClass,
      word serial ++ ident idSize classId ++ word stackSerial ++ ident idSize nameId)
  | unloadClass serial => some (.unloadClass, word serial)
  | stackFrame f =>
    some (.stackFrame,
      ident idSize f.frameId ++ ident idSize f.methodNameId ++ ident idSize f.signatureId ++
        ident idSize f.sourceFileId ++ word f.classSerial ++ Scalar.int32.encode f.line)
  | stackTrace t =>
    some (.stackTrace,
      word t.serial ++ word t.threadSerial ++ count t.frameIds.length ++
        t.frameIds.flatMap (ident idSize))
  | startThread t =>
    some (.startThread,
      word t.serial ++ ident idSize t.threadId ++ word t.stackSerial ++ ident idSize t.nameId ++
        ident idSize t.groupNameId ++ ident idSize t.parentGroupNameId)
  | endThread serial => some (.endThread, word serial)
  | heapDumpEnd => some (.heapDumpEnd, [])
  | heapDumpStart .. | skipped .. | heap _ => none

/-- What a whole top-level record holds. -/
inductive Entry.Content where
  /-- Fields of its own. -/
  | fields (body : Body)
  /-- A payload that readers pass over. -/
  | skipped (tag : UInt8) (payload : List UInt8)
  /-- The sub-records of a heap dump, or of a segment of one. -/
  | heapDump (segment : Bool) (records : List HeapRecord)
  deriving DecidableEq

/-- A whole top-level record. -/
structure Entry where
  /-- Microseconds since the time of the header. -/
  time : UInt32
  content : Entry.Content
  deriving DecidableEq

/-- The tag code and the payload of a top-level record. -/
def Entry.Content.payload? (idSize : Nat) : Entry.Content → Option (UInt8 × List UInt8)
  | fields body => (body.payload? idSize).map fun (tag, payload) => (tag.code, payload)
  | skipped tag payload => some (tag, payload)
  | heapDump segment records =>
    some ((if segment then Tag.heapDumpSegment else Tag.heapDump).code,
      records.flatMap (HeapRecord.written idSize))

namespace Entry

/-- The written form of a top-level record. -/
def written (idSize : Nat) (e : Entry) : List UInt8 :=
  match e.content.payload? idSize with
  | some (tag, payload) => tag :: word e.time ++ count payload.length ++ payload
  | none => []

/-- The records that a reader finds in the written form at `offset`. -/
def records (idSize offset : Nat) (e : Entry) : List Record :=
  match e.content with
  | .fields body =>
    if (body.payload? idSize).isSome then [⟨offset, some e.time, body⟩] else []
  | .skipped tag payload => [⟨offset, some e.time, .skipped tag payload.length⟩]
  | .heapDump segment records =>
    let length := (records.flatMap (HeapRecord.written idSize)).length
    ⟨offset, some e.time, .heapDumpStart segment length⟩ ::
      HeapRecord.recordsFrom idSize (offset + recordHeaderLength) records

/-- The records in the written forms of several top-level records, the first one at
`offset`. -/
def recordsFrom (idSize : Nat) : Nat → List Entry → List Record
  | _, [] => []
  | offset, e :: rest =>
    e.records idSize offset ++ recordsFrom idSize (offset + (e.written idSize).length) rest

end Entry

/-! ### Dumps -/

/-- The written form of a header. -/
def Header.written (h : Header) : List UInt8 :=
  h.format.toUTF8.data.toList ++ 0 :: count h.idSize ++ Scalar.uint64.encode h.timestamp

/-- The written form of a whole dump. -/
def Written.dump (h : Header) (entries : List Entry) : List UInt8 :=
  h.written ++ entries.flatMap (Entry.written h.idSize)

end HeapDump
