/-
HeapDump/Record/Basic.lean

Decoded records.

A record has a place in the file, a time if it is a top-level one, and a body.
The sub-records of a heap dump are records of their own, which follow the start
of the segment that holds them, so a dump is one list of records and readers of
it need not know of nesting.

Bodies hold identifiers and numbers as they stand in the file.  Only the text of
strings has been decoded, since nothing later needs its bytes.  What a dump
reserves and readers ignore is left out.
-/
import HeapDump.Record.Tag
import HeapDump.Value.Basic

namespace HeapDump

/-! ### Top-level records -/

/-- A stack frame; the names are identifiers of strings. -/
structure StackFrameRecord where
  frameId : ObjectId
  methodNameId : ObjectId
  signatureId : ObjectId
  sourceFileId : ObjectId
  classSerial : UInt32
  /-- A line number if positive, otherwise a code for why there is none. -/
  line : Int32
  deriving DecidableEq, Repr

/-- The frames of a thread at one moment, innermost first. -/
structure StackTrace where
  serial : UInt32
  threadSerial : UInt32
  frameIds : List ObjectId
  deriving DecidableEq, Repr

/-- The start of a thread; the names are identifiers of strings. -/
structure ThreadStart where
  serial : UInt32
  threadId : ObjectId
  stackSerial : UInt32
  nameId : ObjectId
  groupNameId : ObjectId
  parentGroupNameId : ObjectId
  deriving DecidableEq, Repr

/-! ### Heap sub-records -/

/-- An object kept alive from outside the heap, with what its kind tells of it. -/
structure RootRecord where
  kind : RootKind
  objectId : ObjectId
  threadSerial : Option UInt32 := none
  /-- A frame of the thread's stack trace, or a depth of monitors. -/
  frame : Option UInt32 := none
  stackSerial : Option UInt32 := none
  jniRef : Option ObjectId := none
  deriving DecidableEq, Repr

/-- The declaration of an instance field. -/
structure FieldRecord where
  nameId : ObjectId
  type : BasicType
  deriving DecidableEq, Repr

/-- A static field with its value. -/
structure StaticRecord where
  nameId : ObjectId
  value : Value ObjectId
  deriving DecidableEq, Repr

/-- A class object. -/
structure ClassDump where
  classId : ObjectId
  stackSerial : UInt32
  superId : ObjectId
  loaderId : ObjectId
  signersId : ObjectId
  protectionDomainId : ObjectId
  instanceSize : UInt32
  /-- Entries of the constant pool by index. -/
  constants : List (UInt16 × Value ObjectId)
  statics : List StaticRecord
  /-- Instance fields in order of declaration. -/
  fields : List FieldRecord
  deriving DecidableEq, Repr

/-- A plain object.  Its data holds the fields of its class, then those of the
superclass, and so on. -/
structure InstanceDump where
  objectId : ObjectId
  stackSerial : UInt32
  classId : ObjectId
  data : ByteArray
  deriving DecidableEq

/-- An array of references. -/
structure ObjectArrayDump where
  objectId : ObjectId
  stackSerial : UInt32
  classId : ObjectId
  elements : List ObjectId
  deriving DecidableEq, Repr

/-- An array of a primitive type, with its packed elements if they were written. -/
structure PrimitiveArrayDump where
  objectId : ObjectId
  stackSerial : UInt32
  elementType : BasicType
  length : UInt32
  data : Option ByteArray
  deriving DecidableEq

/-- An object other than a class. -/
inductive ObjectDump where
  | plain (dump : InstanceDump)
  | references (dump : ObjectArrayDump)
  | primitives (dump : PrimitiveArrayDump)
  deriving DecidableEq

/-- The identifier of an object. -/
def ObjectDump.objectId : ObjectDump → ObjectId
  | plain d => d.objectId
  | references d => d.objectId
  | primitives d => d.objectId

/-- A sub-record of a heap dump. -/
inductive HeapRecord where
  /-- What follows belongs to the heap `heapId`. -/
  | heapInfo (heapId : UInt32) (nameId : ObjectId)
  | root (root : RootRecord)
  | classDump (dump : ClassDump)
  | object (dump : ObjectDump)
  deriving DecidableEq

/-- The identifier of the object that a sub-record defines or roots. -/
def HeapRecord.objectId? : HeapRecord → Option ObjectId
  | heapInfo .. => none
  | root r => some r.objectId
  | classDump d => some d.classId
  | object d => some d.objectId

/-! ### Records -/

/-- What a record says. -/
inductive Body where
  | string (id : ObjectId) (value : String)
  | loadClass (serial : UInt32) (classId : ObjectId) (stackSerial : UInt32) (nameId : ObjectId)
  | unloadClass (serial : UInt32)
  | stackFrame (frame : StackFrameRecord)
  | stackTrace (trace : StackTrace)
  | startThread (start : ThreadStart)
  | endThread (serial : UInt32)
  /-- The next `length` bytes are sub-records; `segment` tells the two tags apart. -/
  | heapDumpStart (segment : Bool) (length : Nat)
  | heapDumpEnd
  /-- A payload that was not looked at. -/
  | skipped (tag : UInt8) (length : Nat)
  | heap (record : HeapRecord)
  deriving DecidableEq

/-- The identifier of the object that a record defines or roots. -/
def Body.objectId? : Body → Option ObjectId
  | heap record => record.objectId?
  | _ => none

/-- Whether a record is a sub-record of a heap dump. -/
def Body.isSubRecord : Body → Bool
  | heap _ => true
  | _ => false

/-- A record at the place `offset` of the file. -/
structure Record where
  offset : Nat
  /-- Microseconds since the time of the header; sub-records have none. -/
  time : Option UInt32
  body : Body
  deriving DecidableEq

end HeapDump
