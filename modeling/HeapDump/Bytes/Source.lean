/-
HeapDump/Bytes/Source.lean

The bytes of a dump, held in memory or in a file, and windows on them.

A window is a range that has been checked once: `Source.map` refuses what is not
inside the source, and slices are taken of the result.  The two kinds of backing
differ in how a window describes itself and in nothing else, which is why the
reading of a dump does not depend on them.

Places are 64-bit words as in the system that maps files.  So the sum of a start
and a length can wrap around, and `map` has to ask whether it did.
-/
import HeapDump.Error

namespace HeapDump

/-- Where the bytes of a dump are. -/
inductive Backing where
  | memory
  | file
  deriving DecidableEq, Repr

/-- The bytes of a dump.  Their number is a 64-bit word. -/
structure Source where
  backing : Backing
  bytes : ByteArray
  size_lt : bytes.size < UInt64.size

/-- A range of a source that has been made accessible. -/
structure Window where
  source : Source
  start : UInt64
  length : UInt64

namespace Source

/-- The source over `bytes`, unless they are too many to be counted in a word. -/
def ofBytes? (backing : Backing) (bytes : ByteArray) : Option Source :=
  if h : bytes.size < UInt64.size then some ⟨backing, bytes, h⟩ else none

/-- The file that a path names; `none` says that it names no file. -/
def ofFile (file : Option Source) : Except Error Source :=
  match file with
  | some source => .ok source
  | none => .error .noSuchFile

/-- The number of bytes. -/
def length (s : Source) : UInt64 := UInt64.ofNat s.bytes.size

/-- Whether there are no bytes. -/
def isEmpty (s : Source) : Bool := s.length = 0

/-- The window of `length` bytes at `start`, if it lies inside the source. -/
def map (s : Source) (start length : UInt64) : Except Error Window :=
  -- A sum that wraps around is smaller than what was added to.
  if start ≤ start + length ∧ start + length ≤ s.length then .ok ⟨s, start, length⟩
  else .error (.outOfBounds start.toNat length.toNat s.bytes.size)

end Source

namespace Window

/-- The `length` bytes at `start`, counted from the window's first byte. -/
def slice (w : Window) (start length : UInt64) : ByteArray :=
  w.source.bytes.extract (w.start.toNat + start.toNat)
    (w.start.toNat + start.toNat + length.toNat)

/-- The bytes of a window. -/
def bytes (w : Window) : ByteArray := w.slice 0 w.length

/-- The text that describes a window: how large it is, and where it lies if it
shares the memory of its source. -/
def describe (w : Window) : String :=
  match w.source.backing with
  | .memory => s!"Window::Shared({w.length.toNat} bytes at {w.start.toNat})"
  | .file => s!"Window::Mapped({w.length.toNat} bytes)"

end Window

end HeapDump
