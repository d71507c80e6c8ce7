/-
HeapDump/Graph/Stack.lean

Threads and the frames of their stacks, with names in place of identifiers.

A frame has a name in each of its places, empty if the dump has none; the names
of a thread are optional, since a thread may be known from a root alone.  The
line of a frame is a signed number, of which two negative ones mark compiled and
native methods; any other number that is not positive is taken as unknown.
-/
import HeapDump.Bytes.Read

namespace HeapDump

/-- Where in its source file a frame stands. -/
inductive LineNumber where
  | line (number : UInt32)
  | unknown
  | compiled
  | native
  deriving DecidableEq, Repr

/-- The meaning of a line number as written: positive numbers are lines, and two
negative ones mark compiled and native methods. -/
def LineNumber.ofInt32 (n : Int32) : LineNumber :=
  if n = -2 then compiled
  else if n = -3 then native
  else if 0 < n then line n.toUInt32
  else unknown

/-- A frame of a stack trace. -/
structure StackFrame where
  id : ObjectId
  method : String
  signature : String
  sourceFile : String
  classSerial : UInt32
  line : LineNumber
  deriving DecidableEq, Repr

/-- The text of a frame. -/
def StackFrame.text (f : StackFrame) : String :=
  let place := match f.line with
    | .line number => s!"{f.sourceFile}:{number.toNat}"
    | .unknown => "Unknown Source"
    | .compiled => "Compiled method"
    | .native => "Native method"
  s!"{f.method}{f.signature} ({place})"

/-- A thread. -/
structure Thread where
  serial : UInt32
  id : ObjectId
  stackSerial : UInt32
  name : Option String
  groupName : Option String
  parentGroupName : Option String
  deriving DecidableEq, Repr

end HeapDump
