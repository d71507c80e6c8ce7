/-
HeapDump/Shards/Basic.lean

A source behind windows.

A read is put together from the pieces that its windows serve; one that lies
inside a single window needs no copy.  Which pieces these are is decided by the
geometry alone, so the reading itself is one pass over a list.

The range of a read is checked once, before the first window.  A window that is
then refused would be an error of the geometry, and there is none: every piece of
a read that passed lies inside its window, and the window inside the source.

`store` hands the bytes to the decoder, which asks in natural numbers.  Its
requests lie inside the source, so they fit into words.
-/
import HeapDump.Bytes.Source
import HeapDump.Bytes.Store
import HeapDump.Shards.Geometry

namespace HeapDump

/-- A source and its cut into windows. -/
structure Shards where
  source : Source
  geometry : Geometry
  length_eq : geometry.length = source.length

/-- The bytes of a read. -/
structure Chunk where
  bytes : ByteArray
  /-- Whether the bytes were copied together from several windows. -/
  stitched : Bool
  deriving DecidableEq

namespace Shards

/-- The source cut into windows of the given measures, if they go together. -/
def ofSource (source : Source) (shardSize padding : UInt64) : Except Error Shards := do
  let ⟨geometry, length_eq⟩ ← Geometry.ofSizes source.length shardSize padding
  return ⟨source, geometry, length_eq⟩

/-- The number of bytes. -/
def length (s : Shards) : UInt64 := s.geometry.length

/-- The error for a range that is not inside the source. -/
def outOfBounds (s : Shards) (offset length : UInt64) : Error :=
  .outOfBounds offset.toNat length.toNat s.length.toNat

/-- The window with a number. -/
def window (s : Shards) (index : UInt64) : Except Error Window :=
  if index < s.geometry.count then
    s.source.map (s.geometry.windowStart index) (s.geometry.windowLength index)
  else .error (s.outOfBounds (s.geometry.windowStart index) 0)

/-- The bytes of one piece of a read. -/
def serve (s : Shards) (p : Piece) : Except Error ByteArray :=
  (s.window p.index).map fun w => w.slice p.start p.take

/-- The `length` bytes at `offset`. -/
def read (s : Shards) (offset length : UInt64) : Except Error Chunk :=
  match s.geometry.stop? offset length with
  | none => .error (s.outOfBounds offset length)
  -- The parts are copied together even if there is one; `stitched` says whether it had to be.
  | some stop => do
    let parts ← (s.geometry.plan offset stop).mapM s.serve
    return ⟨parts.foldl (· ++ ·) ByteArray.empty, 1 < parts.length⟩

/-- The number of kind `k` at `offset`. -/
def readNumber (s : Shards) (k : Scalar) (offset : UInt64) : Except Error k.Carrier :=
  (s.read offset (UInt64.ofNat k.size)).map fun chunk => k.decode chunk.bytes

/-- The unsigned integer of `width` bytes at `offset`.  A width that no identifier
can have is refused after the bytes have been read, and at place zero of them. -/
def readId (s : Shards) (offset width : UInt64) : Except Error ObjectId := do
  let chunk ← s.read offset width
  let (id, _) ← Bytes.readIdAt chunk.bytes 0 width.toNat
  return id

/-- The bytes behind the windows as a store. -/
def store (s : Shards) : ByteStore where
  size := s.source.bytes.size
  read start length := (s.read (UInt64.ofNat start) (UInt64.ofNat length)).map (·.bytes)

end Shards

end HeapDump
