/-
HeapDump/Record/Stream.lean

The records of a dump, one after the other.

A top-level record has a header of nine bytes (tag, time, length) and must lie
inside the file.  The payload of a heap dump is entered: its sub-records follow
as records of their own until its end.  The first error and the end of the file
both finish a stream; from then on it gives nothing.

A stream is a value and a step is a function from streams to streams, so a
reading is the iteration of `next`.  `fold` does it with a bound on the number of
steps, taken from the size of the file, that no reading reaches: it cuts nothing
off and makes the recursion structural.

The step of a whole reading is split by what is read: a sub-record, the header of
a top-level record, its body.  Each of these has its own lemma where steps are
reasoned about.
-/
import HeapDump.Record.Header
import HeapDump.Record.Layout

namespace HeapDump

/-- The number of bytes before the payload of a top-level record. -/
def recordHeaderLength : Nat := 9

/-- A reading of the records of a dump. -/
structure RecordStream where
  store : ByteStore
  header : Header
  /-- Pass over top-level records with an unknown tag instead of failing. -/
  skipUnknown : Bool
  /-- Place of the next record. -/
  position : Nat
  /-- End of the heap dump that is being read. -/
  segmentEnd : Option Nat := none
  /-- Number of records given so far. -/
  count : Nat := 0
  finished : Bool := false

/-- The header of a top-level record, with the places that it determines. -/
structure RecordHeader where
  tag : UInt8
  time : UInt32
  length : Nat
  /-- Place of the first byte of the payload. -/
  payload : Nat
  /-- Place after the record. -/
  stop : Nat

/-- Reads the header of the top-level record at `offset`, which must be inside the
file, and checks that the file holds the whole record. -/
def RecordHeader.read (store : ByteStore) (offset : Nat) : Except Error RecordHeader := do
  let available := store.size - offset
  if available < recordHeaderLength then throw (.truncated offset recordHeaderLength available)
  else
    let tag ← store.readNumber .uint8 offset
    let time ← store.readNumber .uint32 (offset + 1)
    let length ← store.readNumber .uint32 (offset + 5)
    let payload := offset + recordHeaderLength
    if available < recordHeaderLength + length.toNat then
      throw (.truncated offset (recordHeaderLength + length.toNat) available)
    else return ⟨tag, time, length.toNat, payload, payload + length.toNat⟩

namespace RecordStream

/-- Begins to read a dump: the header, and a stream that stands behind it. -/
def ofStore (store : ByteStore) (skipUnknown : Bool) : Except Error RecordStream := do
  let header ← Header.read store
  return { store, header, skipUnknown, position := header.length }

/-- Reads the sub-record at the position of a heap dump that ends at `stop`. -/
def nextSubRecord (s : RecordStream) (stop : Nat) : Except Error (Option Record) × RecordStream :=
  match Layout.subRecord.runOn s.store s.header.idSize s.position s.position stop with
  | .ok (record, position) => (.ok (some ⟨s.position, none, .heap record⟩), { s with position })
  | .error e => (.error e, s)

/-- Reads the top-level record whose header is `h`.  Once the tag of a record that
is no heap dump is known, the stream stands behind it, even if its payload is
then refused. -/
def nextBody (s : RecordStream) (h : RecordHeader) :
    Except Error (Option Record) × RecordStream :=
  let record (body : Body) : Option Record := some ⟨s.position, some h.time, body⟩
  match Tag.ofCode? h.tag with
  | some tag =>
    -- The payload of a heap dump is not taken up here: the position goes to its first byte.
    if tag.isHeapDump then
      (.ok (record (.heapDumpStart (tag = .heapDumpSegment) h.length)),
        { s with position := h.payload, segmentEnd := some h.stop })
    else
      let body := (Layout.payload tag).exactly.runOn s.store s.header.idSize s.position h.payload
        h.stop
      (body.map fun (body, _) => record body, { s with position := h.stop })
  | none =>
    if s.skipUnknown then
      (.ok (record (.skipped h.tag h.length)), { s with position := h.stop })
    else (.error (.unknownTag h.tag s.position), s)

/-- Reads the top-level record at the position, if the file goes on there. -/
def nextTopLevel (s : RecordStream) : Except Error (Option Record) × RecordStream :=
  if s.store.size ≤ s.position then (.ok none, s)
  else
    match RecordHeader.read s.store s.position with
    | .ok h => s.nextBody h
    | .error e => (.error e, s)

/-- Reads the next record, inside the open heap dump as long as it goes on. -/
def advance (s : RecordStream) : Except Error (Option Record) × RecordStream :=
  match s.segmentEnd with
  | some stop =>
    -- The end of a heap dump is no record. The record after it is read in the same step.
    if s.position < stop then s.nextSubRecord stop else { s with segmentEnd := none }.nextTopLevel
  | none => s.nextTopLevel

/-- The next record, `none` at the end of the file and after it. -/
def next (s : RecordStream) : Except Error (Option Record) × RecordStream :=
  if s.finished then (.ok none, s)
  else
    match s.advance with
    | (.ok (some record), s) => (.ok (some record), { s with count := s.count + 1 })
    | (.ok none, s) => (.ok none, { s with finished := true })
    | (.error e, s) => (.error e, { s with finished := true })

/-! ### Whole readings -/

/-- The end of a reading. -/
structure Ending (σ : Type) where
  /-- What was made of the records. -/
  state : σ
  /-- The error that ended the reading, unless it was the end of the file. -/
  error : Option Error
  /-- The stream afterwards. -/
  stream : RecordStream

/-- The loop of `fold`, which ends after `fuel` records at the latest. -/
def foldFrom (f : σ → Record → RecordStream → σ) : Nat → σ → RecordStream → Ending σ
  | 0, state, s => ⟨state, none, s⟩
  | fuel + 1, state, s =>
    match s.next with
    | (.ok (some record), s) => foldFrom f fuel (f state record s) s
    | (.ok none, s) => ⟨state, none, s⟩
    | (.error e, s) => ⟨state, some e, s⟩

/-- Reads all records and folds `f` over them; `f` also sees the stream behind each
record.  Every record has at least one byte, so there are fewer steps than bytes
left plus two. -/
def fold (f : σ → Record → RecordStream → σ) (state : σ) (s : RecordStream) : Ending σ :=
  foldFrom f (s.store.size - s.position + 2) state s

/-- All records, each with the place behind it. -/
def readAll (s : RecordStream) : Ending (Array (Record × Nat)) :=
  s.fold (fun records record s => records.push (record, s.position)) #[]

end RecordStream

end HeapDump
