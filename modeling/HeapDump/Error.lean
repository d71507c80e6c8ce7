/-
HeapDump/Error.lean

Everything that stops the reading of a heap dump.

Each error is a cause with the numbers that belong to it; its wording is the
function `Error.message`.  So a theorem about errors speaks of numbers, and two
errors are equal exactly if they tell the same.

The numbers are naturals, though most of them come from words.  A count that a
word cannot hold would otherwise have to be cut off in every lemma; the places
where a reader over words does cut it off say so.
-/
import HeapDump.Text.Hex

namespace HeapDump

/-- Why the first bytes of a file are no header. -/
inductive HeaderFault where
  /-- The identifier does not begin as the format's does. -/
  | unknownFormat (identifier : String)
  /-- No NUL byte ends the identifier. -/
  | unterminated
  /-- Identifiers of objects are neither four nor eight bytes wide. -/
  | unsupportedIdSize (size : UInt32)
  deriving DecidableEq, Repr

/-- The wording of a header fault. -/
def HeaderFault.message : HeaderFault → String
  | .unknownFormat identifier => s!"unknown format identifier '{identifier}'"
  | .unterminated => "format identifier is not terminated within 64 bytes"
  | .unsupportedIdSize size => s!"unsupported identifier size {size.toNat}"

/-- Why a shard size and a padding do not go together. -/
inductive OptionsFault where
  /-- Shards of no bytes. -/
  | zeroShardSize
  /-- A padding that reaches past the next shard. -/
  | paddingTooLarge (padding shardSize : UInt64)
  /-- A window length that is no 64-bit word. -/
  | windowOverflow
  deriving DecidableEq, Repr

/-- The wording of an options fault. -/
def OptionsFault.message : OptionsFault → String
  | .zeroShardSize => "shard size must be non-zero"
  | .paddingTooLarge padding shardSize =>
    s!"padding ({padding.toNat}) must be smaller than the shard size ({shardSize.toNat})"
  | .windowOverflow => "shard size plus padding overflows"

/-- What stops the reading of a dump. -/
inductive Error where
  /-- The path names no file. -/
  | noSuchFile
  /-- A range of bytes that is not inside the `size` bytes there are. -/
  | outOfBounds (offset length size : Nat)
  /-- The file does not begin with a supported header. -/
  | invalidHeader (fault : HeaderFault)
  /-- A record or sub-record with a tag outside the format. -/
  | unknownTag (tag : UInt8) (offset : Nat)
  /-- A basic type code outside the format. -/
  | unknownType (code : UInt8) (offset : Nat)
  /-- A record whose layout does not take up its declared length. -/
  | lengthMismatch (offset declared consumed : Nat)
  /-- The file ends inside a record. -/
  | truncated (offset needed available : Nat)
  /-- An integer of a width that is not one, two, four or eight bytes. -/
  | unsupportedWidth (offset width : Nat)
  /-- A rejected combination of options. -/
  | invalidOptions (fault : OptionsFault)
  deriving DecidableEq, Repr

namespace Error

/-- The wording of an error. -/
def message : Error → String
  | noSuchFile => "No such file or directory (os error 2)"
  | outOfBounds offset length size =>
    s!"Out of bound read of {length} bytes at offset {offset} (file size {size})"
  | invalidHeader fault => s!"Invalid HPROF header - {fault.message}"
  | unknownTag tag offset =>
    let digits := Hex.padded 2 tag.toNat
    s!"Unknown tag 0x{digits} at offset {offset}"
  | unknownType code offset => s!"Unknown basic type {code.toNat} at offset {offset}"
  | lengthMismatch offset declared consumed =>
    s!"Length mismatch in record at offset {offset}: declared {declared}, consumed {consumed}"
  | truncated offset needed available =>
    s!"Truncated record at offset {offset}: needed {needed} bytes, {available} available"
  | unsupportedWidth offset width =>
    s!"Unsupported integer width - {width} (offset {offset})"
  | invalidOptions fault => s!"Invalid options - {fault.message}"

/-- The place in the file that an error points at, if it points at one. -/
def offset? : Error → Option Nat
  | outOfBounds offset _ _ | unknownTag _ offset | unknownType _ offset
  | lengthMismatch offset _ _ | truncated offset _ _ | unsupportedWidth offset _ => some offset
  -- A header is at the beginning of the file, and the other two are about no bytes.
  | noSuchFile | invalidHeader _ | invalidOptions _ => none

end Error

end HeapDump
