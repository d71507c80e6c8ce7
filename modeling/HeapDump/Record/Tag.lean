/-
HeapDump/Record/Tag.lean

The tags that open the records of a dump and the sub-records of a heap dump,
with the codes by which a dump names them.

Both tables list each code once, so reading a code finds the one tag that has it.
Top-level and sub-record tags are separate tables: a code means one thing at the
top level and another inside a heap dump.

The kinds of roots have a sub-record tag each.  They are a type of their own, of
which `SubTag.root` makes tags, since a root keeps its kind when its tag is gone.
-/
import HeapDump.Number.Code

namespace HeapDump

/-! ### Records -/

/-- The kinds of top-level records. -/
inductive Tag where
  | string | loadClass | unloadClass | stackFrame | stackTrace | allocSites | heapSummary
  | startThread | endThread | heapDump | cpuSamples | controlSettings | heapDumpSegment
  | heapDumpEnd
  deriving DecidableEq, Repr

namespace Tag

/-- The code of a tag. -/
def code : Tag → UInt8
  | string => 0x01
  | loadClass => 0x02
  | unloadClass => 0x03
  | stackFrame => 0x04
  | stackTrace => 0x05
  | allocSites => 0x06
  | heapSummary => 0x07
  | startThread => 0x0A
  | endThread => 0x0B
  | heapDump => 0x0C
  | cpuSamples => 0x0D
  | controlSettings => 0x0E
  | heapDumpSegment => 0x1C
  | heapDumpEnd => 0x2C

/-- All tags, by code. -/
def all : List Tag :=
  [string, loadClass, unloadClass, stackFrame, stackTrace, allocSites, heapSummary,
   startThread, endThread, heapDump, cpuSamples, controlSettings, heapDumpSegment, heapDumpEnd]

/-- The tag that a code stands for. -/
def ofCode? (c : UInt8) : Option Tag := all.find? (·.code = c)

@[simp] theorem ofCode?_code (t : Tag) : ofCode? t.code = some t := by
  cases t <;> rfl

/-- A code stands for the one tag that has it. -/
theorem ofCode?_eq_some_iff {c : UInt8} {t : Tag} : ofCode? c = some t ↔ t.code = c :=
  find?_code_eq_some_iff ofCode?_code

/-- Whether the payload of a record is a run of heap sub-records. -/
def isHeapDump (t : Tag) : Bool := t = heapDump ∨ t = heapDumpSegment

/-- The format's name of a kind of record. -/
def name : Tag → String
  | string => "STRING IN UTF8"
  | loadClass => "LOAD CLASS"
  | unloadClass => "UNLOAD CLASS"
  | stackFrame => "STACK FRAME"
  | stackTrace => "STACK TRACE"
  | allocSites => "ALLOC SITES"
  | heapSummary => "HEAP SUMMARY"
  | startThread => "START THREAD"
  | endThread => "END THREAD"
  | heapDump => "HEAP DUMP"
  | cpuSamples => "CPU SAMPLES"
  | controlSettings => "CONTROL SETTINGS"
  | heapDumpSegment => "HEAP DUMP SEGMENT"
  | heapDumpEnd => "HEAP DUMP END"

end Tag

/-! ### Roots -/

/-- Why an object is kept alive from outside the heap. -/
inductive RootKind where
  | unknown | jniGlobal | jniLocal | javaFrame | nativeStack | systemClass | threadBlock
  | busyMonitor | threadObject | internedString | finalizing | debugger | referenceCleanup
  | vmInternal | jniMonitor | unreachable
  deriving DecidableEq, Repr

namespace RootKind

/-- The text for readers. -/
def text : RootKind → String
  | unknown => "Unknown"
  | jniGlobal => "JNI Global"
  | jniLocal => "JNI Local"
  | javaFrame => "Java Frame"
  | nativeStack => "Native Stack"
  | systemClass => "System Class"
  | threadBlock => "Thread Block"
  | busyMonitor => "Busy Monitor"
  | threadObject => "Thread Object"
  | internedString => "Interned String"
  | finalizing => "Finalizing"
  | debugger => "Debugger"
  | referenceCleanup => "Reference Cleanup"
  | vmInternal => "VM Internal"
  | jniMonitor => "JNI Monitor"
  | unreachable => "Unreachable"

/-- All kinds of roots. -/
def all : List RootKind :=
  [unknown, jniGlobal, jniLocal, javaFrame, nativeStack, systemClass, threadBlock, busyMonitor,
   threadObject, internedString, finalizing, debugger, referenceCleanup, vmInternal, jniMonitor,
   unreachable]

/-- The kind with a text. -/
def ofText? (s : String) : Option RootKind := all.find? (·.text = s)

/-- The code of the sub-records that hold roots of a kind. -/
def code : RootKind → UInt8
  | jniGlobal => 0x01
  | jniLocal => 0x02
  | javaFrame => 0x03
  | nativeStack => 0x04
  | systemClass => 0x05
  | threadBlock => 0x06
  | busyMonitor => 0x07
  | threadObject => 0x08
  | internedString => 0x89
  | finalizing => 0x8A
  | debugger => 0x8B
  | referenceCleanup => 0x8C
  | vmInternal => 0x8D
  | jniMonitor => 0x8E
  | unreachable => 0x90
  | unknown => 0xFF

/-- The name of the sub-records that hold roots of a kind. -/
def tagName : RootKind → String
  | jniGlobal => "RootJniGlobal"
  | jniLocal => "RootJniLocal"
  | javaFrame => "RootJavaFrame"
  | nativeStack => "RootNativeStack"
  | systemClass => "RootStickyClass"
  | threadBlock => "RootThreadBlock"
  | busyMonitor => "RootMonitorUsed"
  | threadObject => "RootThreadObject"
  | internedString => "RootInternedString"
  | finalizing => "RootFinalizing"
  | debugger => "RootDebugger"
  | referenceCleanup => "RootReferenceCleanup"
  | vmInternal => "RootVmInternal"
  | jniMonitor => "RootJniMonitor"
  | unreachable => "RootUnreachable"
  | unknown => "RootUnknown"

end RootKind

/-! ### Sub-records -/

/-- The kinds of heap sub-records. -/
inductive SubTag where
  | root (kind : RootKind)
  | classDump | instanceDump | objectArrayDump | primitiveArrayDump | primitiveArrayNoData
  | heapDumpInfo
  deriving DecidableEq, Repr

namespace SubTag

/-- The code of a sub-record tag. -/
def code : SubTag → UInt8
  | root kind => kind.code
  | classDump => 0x20
  | instanceDump => 0x21
  | objectArrayDump => 0x22
  | primitiveArrayDump => 0x23
  | primitiveArrayNoData => 0xC3
  | heapDumpInfo => 0xFE

/-- All sub-record tags. -/
def all : List SubTag :=
  RootKind.all.map root ++
    [classDump, instanceDump, objectArrayDump, primitiveArrayDump, primitiveArrayNoData,
     heapDumpInfo]

/-- The sub-record tag that a code stands for. -/
def ofCode? (c : UInt8) : Option SubTag := all.find? (·.code = c)

@[simp] theorem ofCode?_code (t : SubTag) : ofCode? t.code = some t := by
  rcases t with kind | _ | _ | _ | _ | _ | _
  · cases kind <;> rfl
  all_goals rfl

/-- A code stands for the one sub-record tag that has it. -/
theorem ofCode?_eq_some_iff {c : UInt8} {t : SubTag} : ofCode? c = some t ↔ t.code = c :=
  find?_code_eq_some_iff ofCode?_code

/-- The name of a kind of sub-record. -/
def name : SubTag → String
  | root kind => kind.tagName
  | classDump => "ClassDump"
  | instanceDump => "InstanceDump"
  | objectArrayDump => "ObjectArrayDump"
  | primitiveArrayDump => "PrimitiveArrayDump"
  | primitiveArrayNoData => "PrimitiveArrayNoData"
  | heapDumpInfo => "HeapDumpInfo"

end SubTag

end HeapDump
