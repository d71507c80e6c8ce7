/-
HeapDump/Options.lean

How a dump is read: the windows through which its bytes are looked at, what
happens to records with an unknown tag, and whether the fields of instances are
decoded.

`validate` checks the sizes against each other.  It does not ask whether their sum
is a word; the geometry made of them does, and refuses them if it is not.  Within
what both accept, the first two options do not change what is read.
-/
import HeapDump.Error

namespace HeapDump

/-- The options of a reading. -/
structure Options where
  /-- Distance between the starts of two windows. -/
  shardSize : UInt64 := 1073741824
  /-- How far a window reaches into the next one. -/
  padding : UInt64 := 1024
  /-- Pass over top-level records with an unknown tag instead of failing. -/
  skipUnknownRecords : Bool := false
  /-- Decode the fields of instances. -/
  resolveFields : Bool := true
  deriving DecidableEq, Repr

namespace Options

/-- The default options, with records of an unknown tag passed over. -/
def lenient : Options := { skipUnknownRecords := true }

/-- The default options with other windows. -/
def sharded (shardSize padding : UInt64) : Options := { shardSize, padding }

/-- Refuses shards of no bytes, and a padding that is not smaller than a shard. -/
def validate (o : Options) : Except Error Unit :=
  if o.shardSize = 0 then .error (.invalidOptions .zeroShardSize)
  else if o.shardSize ≤ o.padding then
    .error (.invalidOptions (.paddingTooLarge o.padding o.shardSize))
  else .ok ()

end Options

end HeapDump
