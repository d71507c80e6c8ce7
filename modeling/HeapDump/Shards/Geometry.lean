/-
HeapDump/Shards/Geometry.lean

How a source of `L` bytes is cut into windows.  Window `i` starts at `i * S` and
has `S + P` bytes, or as many as there are, so its last `P` bytes are also the
first ones of window `i + 1`.  A read begins in the window that its first byte
selects and goes on in the next ones until it is complete.

The overlap is what spares a copy: a read of up to `P + 1` bytes is inside the
window that it begins in, wherever it begins.

All of it is arithmetic on 64-bit words, which wraps around.  A geometry carries
the proofs that keep it from doing so: `P` is smaller than `S`, and `S + P` is a
word.  The third check of `ofSizes`, that of the sum, is not among those that
options are checked for.
-/
import HeapDump.Error

namespace HeapDump

/-- The cut of a source of `length` bytes into windows. -/
structure Geometry where
  length : UInt64
  /-- Distance between the starts of two windows. -/
  shardSize : UInt64
  /-- How far a window reaches into the next one. -/
  padding : UInt64
  padding_lt : padding < shardSize
  window_lt : shardSize.toNat + padding.toNat < UInt64.size

/-- The part of a read that one window serves: `take` bytes at `start`, counted
from the first byte of window `index`. -/
structure Piece where
  index : UInt64
  start : UInt64
  take : UInt64
  deriving DecidableEq, Repr

namespace Geometry

/-- The geometry of the given measures, if they go together. -/
def ofSizes (length shardSize padding : UInt64) :
    Except Error { g : Geometry // g.length = length } :=
  if shardSize = 0 then .error (.invalidOptions .zeroShardSize)
  else if lt : padding < shardSize then
    if sum : shardSize.toNat + padding.toNat < UInt64.size then
      .ok ⟨⟨length, shardSize, padding, lt, sum⟩, rfl⟩
    else .error (.invalidOptions .windowOverflow)
  else .error (.invalidOptions (.paddingTooLarge padding shardSize))

/-- The number of windows. -/
def count (g : Geometry) : UInt64 :=
  -- Rounded up without adding to the length first, which could wrap around.
  g.length / g.shardSize + if g.length % g.shardSize = 0 then 0 else 1

/-- Where a window starts. -/
def windowStart (g : Geometry) (index : UInt64) : UInt64 := index * g.shardSize

/-- How many bytes a window has. -/
def windowLength (g : Geometry) (index : UInt64) : UInt64 :=
  min (g.shardSize + g.padding) (g.length - g.windowStart index)

/-- The end of the range of `length` bytes at `offset`, if the range lies inside
the source. -/
def stop? (g : Geometry) (offset length : UInt64) : Option UInt64 :=
  let stop := offset + length
  if offset ≤ stop ∧ stop ≤ g.length then some stop else none

/-- What the window of `position` contributes to a read up to `stop`. -/
def piece (g : Geometry) (position stop : UInt64) : Piece :=
  let index := position / g.shardSize
  let start := position % g.shardSize
  ⟨index, start, min (stop - position) (g.windowLength index - start)⟩

/-- The pieces of a read from `position` to `stop`, at most `fuel` of them. -/
def pieces (g : Geometry) : Nat → UInt64 → UInt64 → List Piece
  | 0, _, _ => []
  | fuel + 1, position, stop =>
    if position < stop then
      let p := g.piece position stop
      p :: g.pieces fuel (position + p.take) stop
    else []

/-- The pieces of a read from `offset` to `stop`.  Each has at least one byte, so
there are no more pieces than bytes. -/
def plan (g : Geometry) (offset stop : UInt64) : List Piece :=
  g.pieces (stop - offset).toNat offset stop

end Geometry

end HeapDump
