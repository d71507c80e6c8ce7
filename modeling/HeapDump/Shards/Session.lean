/-
HeapDump/Shards/Session.lean

Reading through windows that are made accessible when they are first needed and
kept from then on.  A session remembers which ones there are and every range
that it asked its source for.  Reads of nothing ask for no window, and neither do
reads that fail, unless the bytes are there and are refused as an identifier.

What a read gives is what its shards give: it does not look at the windows that
are mapped.  The source of a session stays what it is, and the start and the length
of a window depend on the geometry alone, so a window that was kept holds just what
the source would give if the window were asked for once more.  That a read does not
depend on the reads before it is therefore how a session is set up, and no result
about it; whatever a source may do when a range is asked for twice is left out.
What earlier reads decide is which windows a read still asks for, and this is all
that a session keeps.
-/
import HeapDump.Shards.Basic
import Std.Data.ExtTreeSet

namespace HeapDump

/-- Shards, with the windows that have been mapped so far. -/
structure Session where
  shards : Shards
  /-- The numbers of the mapped windows. -/
  mapped : Std.ExtTreeSet UInt64 := ∅
  /-- Start and length of every range that was mapped, oldest first. -/
  requests : Array (UInt64 × UInt64) := #[]

namespace Session

/-- The number of windows mapped so far. -/
def mappedCount (s : Session) : Nat := s.mapped.size

/-- Maps a window unless it is mapped already. -/
def touch (s : Session) (index : UInt64) : Session :=
  if s.mapped.contains index then s
  else
    let g := s.shards.geometry
    { s with
      mapped := s.mapped.insert index
      requests := s.requests.push (g.windowStart index, g.windowLength index) }

/-- The numbers of the windows that a read needs. -/
def needed (shards : Shards) (offset length : UInt64) : List UInt64 :=
  match shards.geometry.stop? offset length with
  | none => []
  | some stop => (shards.geometry.plan offset stop).map (·.index)

/-- Maps the windows that a read needs. -/
def touchAll (s : Session) (offset length : UInt64) : Session :=
  (needed s.shards offset length).foldl touch s

/-- Reads `length` bytes at `offset`. -/
def read (offset length : UInt64) (s : Session) : Except Error Chunk × Session :=
  (s.shards.read offset length, s.touchAll offset length)

/-- Reads the number of kind `k` at `offset`. -/
def readNumber (k : Scalar) (offset : UInt64) (s : Session) : Except Error k.Carrier × Session :=
  (s.shards.readNumber k offset, s.touchAll offset (UInt64.ofNat k.size))

/-- Reads the unsigned integer of `width` bytes at `offset`. -/
def readId (offset width : UInt64) (s : Session) : Except Error ObjectId × Session :=
  (s.shards.readId offset width, s.touchAll offset width)

end Session

end HeapDump
