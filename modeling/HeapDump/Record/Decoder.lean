/-
HeapDump/Record/Decoder.lean

Reading the fields of one record in order.

A decoder stands somewhere between the first byte of a unit (the payload of a
record, or a whole sub-record) and its end, and takes the bytes of a field
before it looks at them.  Taking more than is left is a length mismatch of the
record, so a decoder never sees a byte outside its unit.

The state is the position alone; the unit does not change while it is read.  The
errors of a decoder point at the tag of its record, and only those of a type or
tag code at the byte that holds the code.

Places are natural numbers.  The one number that a decoder over words could not
form is the count in a mismatch, which stops at `wordMax` for that reason.
-/
import HeapDump.Bytes.Store
import HeapDump.Value.Basic

namespace HeapDump

/-- The unit that a decoder reads. -/
structure Extent where
  store : ByteStore
  /-- Width of object identifiers in bytes. -/
  idSize : Nat
  /-- Place of the record's tag, which errors point at. -/
  record : Nat
  start : Nat
  stop : Nat

/-- A reader of fields: a computation that knows its extent, moves a position and
may fail. -/
abbrev Decoder (α : Type) := ReaderT Extent (StateT Nat (Except Error)) α

namespace Decoder

/-- The largest number that counts bytes. -/
def wordMax : Nat := UInt64.size - 1

/-- The error of a unit that would have to have `consumed` bytes. -/
def mismatch (e : Extent) (consumed : Nat) : Error :=
  .lengthMismatch e.record (e.stop - e.start) consumed

/-- Takes the next `length` bytes of the unit and gives the place of the first.
In the error the count of bytes stops at the largest word. -/
def take (length : Nat) : Decoder Nat := fun e position =>
  if position + length ≤ e.stop then .ok (position, position + length)
  else .error (mismatch e (min (position - e.start + length) wordMax))

/-- The place of the next byte. -/
def position : Decoder Nat := get

/-- The number of bytes left in the unit. -/
def remaining : Decoder Nat := do return (← read).stop - (← get)

/-- The next `length` bytes. -/
def bytes (length : Nat) : Decoder ByteArray := do
  let start ← take length
  (← read).store.read start length

/-- The next number of kind `s`. -/
def number (s : Scalar) : Decoder s.Carrier := do
  let start ← take s.size
  (← read).store.readNumber s start

/-- The next byte. -/
def byte : Decoder UInt8 := number .uint8

/-- The next 16-bit count or index. -/
def half : Decoder UInt16 := number .uint16

/-- The next 32-bit number. -/
def word : Decoder UInt32 := number .uint32

/-- The next object identifier. -/
def ident : Decoder ObjectId := do
  let width := (← read).idSize
  let data ← bytes width
  return UInt64.ofNat (BigEndian.ofBytes data)

/-- The next `count` object identifiers, taken all at once. -/
def idents (count : Nat) : Decoder (List ObjectId) := do
  let width := (← read).idSize
  -- One take for all of them: a count that is too large fails as a whole and not at the first
  -- identifier that is missing.
  let data ← bytes (count * width)
  return (List.range count).map fun i =>
    UInt64.ofNat (BigEndian.ofBytes (data.extract (i * width) (i * width + width)))

/-- The next type code. -/
def type : Decoder BasicType := do
  let place ← position
  let code ← byte
  match BasicType.ofCode? code with
  | some t => return t
  | none => throw (.unknownType code place)

/-- The next type code, which must not be that of references. -/
def primitiveType : Decoder BasicType := do
  let place ← position
  let t ← type
  if t = .object then throw (.unknownType t.code place)
  return t

/-- The next value of type `t`. -/
def value (t : BasicType) : Decoder (Value ObjectId) := do
  let data ← bytes (t.size (← read).idSize)
  return .ofBits t (BigEndian.ofBytes data)

/-- The loop of `many`, behind the items read so far. -/
def manyFrom (item : Decoder α) : Nat → Array α → Decoder (Array α)
  | 0, items => pure items
  -- Written with the state in the open, so that the loop stays in constant stack space.
  | count + 1, items => fun e position =>
    match item e position with
    | .ok (a, position) => manyFrom item count (items.push a) e position
    | .error err => .error err

/-- `count` items, one after the other. -/
def many (item : Decoder α) (count : Nat) : Decoder (List α) := do
  return (← manyFrom item count #[]).toList

/-- A run of items behind their 16-bit number. -/
def counted (item : Decoder α) : Decoder (List α) := do
  let count ← half
  many item count.toNat

/-- Refuses a unit of which bytes are left over. -/
def exactly (body : Decoder α) : Decoder α := do
  let a ← body
  let e ← read
  let stop ← position
  if stop ≠ e.stop then throw (mismatch e (stop - e.start))
  return a

/-- Runs a decoder over the bytes from `start` to `stop`, on behalf of the record
at `record`, and gives the position after it. -/
def runOn (d : Decoder α) (store : ByteStore) (idSize record start stop : Nat) :
    Except Error (α × Nat) :=
  d ⟨store, idSize, record, start, stop⟩ start

end Decoder

end HeapDump
