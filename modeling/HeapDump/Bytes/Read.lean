/-
HeapDump/Bytes/Read.lean

Reading numbers and object identifiers at a place in a run of bytes.

A read gives the value and the place after it; one that does not fit is refused
with the place, the width asked for and the number of bytes there are.  Places
are natural numbers here: nothing in this module can wrap around, and who calls
it with words has to say that they fit.

Identifiers are as wide as the header of a dump says.  Wherever they are used
they have been widened to 64 bits, so no later module asks for their width again.
-/
import HeapDump.Error
import HeapDump.Number.Scalar

namespace HeapDump

/-- Runs of bytes are compared byte by byte. -/
instance (priority := 2000) instDecidableEqBytes : DecidableEq ByteArray := ByteArray.decEq

/-- An object identifier, widened to 64 bits; zero is the null reference. -/
abbrev ObjectId := UInt64

namespace Bytes

/-- The `length` bytes at `start` and the place after them. -/
def readAt (data : ByteArray) (start length : Nat) : Except Error (ByteArray × Nat) :=
  if start + length ≤ data.size then .ok (data.extract start (start + length), start + length)
  else .error (.outOfBounds start length data.size)

/-- The number of kind `s` at `start` and the place after it. -/
def readNumberAt (s : Scalar) (data : ByteArray) (start : Nat) : Except Error (s.Carrier × Nat) :=
  (readAt data start s.size).map fun (bytes, next) => (s.decode bytes, next)

/-- The identifier of `width` bytes at `start` and the place after it. -/
def readIdAt (data : ByteArray) (start width : Nat) : Except Error (ObjectId × Nat) :=
  match Scalar.ofIdWidth? width with
  | some s => (readAt data start s.size).map fun (bytes, next) =>
      (UInt64.ofNat (BigEndian.ofBytes bytes), next)
  -- The width is judged before the bytes are counted.
  | none => .error (.unsupportedWidth start width)

end Bytes

end HeapDump
