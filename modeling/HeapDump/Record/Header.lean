/-
HeapDump/Record/Header.lean

The header of a dump: a NUL-terminated format identifier, the width of object
identifiers and the time of the dump.

A file that is too short to decide about is truncated; one whose first bytes
differ from the identifier's fixed part is no dump, however short it is.  The
order of the checks in `Header.read` follows from this: what more bytes could
not change is refused first, then what is missing is asked for.

So a verdict on the beginning of a file stays the verdict on the whole of it,
unless it was that bytes are missing.
-/
import HeapDump.Bytes.Store
import HeapDump.Text.Utf8

namespace HeapDump

/-- The header of a dump. -/
structure Header where
  format : String
  /-- Width of object identifiers in bytes. -/
  idSize : Nat
  /-- Milliseconds since the epoch. -/
  timestamp : UInt64
  /-- Number of bytes before the first record. -/
  length : Nat
  deriving DecidableEq, Repr

namespace Header

/-- The bytes that a format identifier begins with. -/
def magic : List UInt8 := "JAVA PROFILE 1.0".toList.map fun c => UInt8.ofNat c.toNat

/-- The number of bytes in which the identifier has to end. -/
def scanLimit : Nat := 64

/-- The number of bytes after the identifier: its NUL, the width of object
identifiers and the time. -/
def tailLength : Nat := 13

/-- The bytes before the first NUL among the first bytes of a file, and whether
there is one. -/
def identifier (scan : List UInt8) : List UInt8 × Bool :=
  (scan.takeWhile (· ≠ 0), scan.contains 0)

/-- Whether two runs of bytes agree as far as both go. -/
def agree (xs ys : List UInt8) : Bool := (xs.zip ys).all fun (x, y) => x = y

/-- The fault of an identifier that is not the format's. -/
def unknownFormat (name : List UInt8) : Error :=
  .invalidHeader (.unknownFormat (Utf8.decodeLossy ⟨name.toArray⟩))

/-- Reads the header of a dump. -/
def read (store : ByteStore) : Except Error Header := do
  let scanLength := min store.size scanLimit
  let scan ← store.read 0 scanLength
  let (name, terminated) := identifier scan.data.toList
  let length := name.length + tailLength
  -- However many bytes follow, these stay the wrong ones.
  if ¬ agree name magic then throw (unknownFormat name)
  else if ¬ terminated then
    -- The NUL may still come, unless the scan has been as long as it may be.
    if scanLength < scanLimit then throw (.truncated 0 (scanLength + tailLength) store.size)
    else throw (.invalidHeader .unterminated)
  -- An identifier that ended too early agrees with the fixed part as far as it goes.
  else if name.length < magic.length then throw (unknownFormat name)
  else if store.size < length then throw (.truncated 0 length store.size)
  else
    let idSize ← store.readNumber .uint32 (name.length + 1)
    if idSize ≠ 4 ∧ idSize ≠ 8 then throw (.invalidHeader (.unsupportedIdSize idSize))
    else
      let timestamp ← store.readNumber .uint64 (name.length + 5)
      return ⟨Utf8.decodeLossy ⟨name.toArray⟩, idSize.toNat, timestamp, length⟩

end Header

end HeapDump
