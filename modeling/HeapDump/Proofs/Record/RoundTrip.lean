/-
HeapDump/Proofs/Record/RoundTrip.lean

What is written is read back.

The written form of a well-formed top-level record is a frame whose payload
spells it (`Entry.WellFormed.at_written`), so the written forms of several are
entries one after the other (`entries_of_written`), and a written header is a
header (`Header.WellFormed.headed`).  Since entries are read as what they spell,
reading a written dump gives the records that were written, each at the place
where its bytes begin, and ends without an error behind the last one.

Main statement: `read_dump`, for any windows over the bytes of a written dump and
in both modes.  The writer and the reader share the tables of codes, so the
statement alone would hold of any table without repetitions; the bytes of a small
dump are therefore given in full at the end.
-/
import HeapDump.Proofs.Record.Entries
import HeapDump.Proofs.Shards.Stitching
import HeapDump.Proofs.Text.Utf8

namespace HeapDump

open Written

variable {data : ByteArray} {idSize : Nat}

/-! ### Top-level records -/

/-- A well-formed record is spelled by its payload. -/
theorem Body.WellFormed.exists_payload {b : Body} (h : b.WellFormed idSize) :
    ∃ tag payload, b.payload? idSize = some (tag, payload) ∧ b.Spells idSize tag payload := by
  cases b with
  | string id value =>
    refine ⟨_, _, rfl, rfl, h, value.toUTF8.data.toList, ?_, rfl⟩
    exact (Utf8.decodeLossy_toUTF8 value).symm
  | heapDumpStart | skipped | heap => exact h.elim
  | _ => exact ⟨_, _, rfl, h, rfl⟩

/-- What a well-formed top-level record holds is spelled by its payload. -/
theorem Entry.Content.WellFormed.exists_payload {c : Entry.Content} (h : c.WellFormed idSize) :
    ∃ code payload, c.payload? idSize = some (code, payload)
      ∧ c.Spells idSize code payload := by
  rcases c with body | ⟨code, bytes⟩ | ⟨segment, records⟩
  · obtain ⟨tag, payload, hpayload, hspells⟩ := Body.WellFormed.exists_payload h
    refine ⟨tag.code, payload, ?_, ?_, tag, rfl, hspells⟩
    · rw [payload?, hpayload]
      rfl
    · rw [hpayload]
      rfl
  -- a payload that is passed over spells its length, whatever its bytes
  · obtain ⟨tag, htag, hpassed⟩ := h
    exact ⟨code, bytes, rfl, rfl, rfl, tag, (Tag.ofCode?_eq_some_iff.mp htag).symm, hpassed⟩
  · refine ⟨_, _, rfl, ?_, h, ?_⟩
    · cases segment <;> rfl
    · rw [← HeapRecord.map_byte_flatMap_marks]
      exact spelled_map_byte _

/-- The written form of a well-formed top-level record is read as that record. -/
theorem Entry.WellFormed.at_written {e : Entry} (h : e.WellFormed idSize) {p q : Nat}
    (hspan : Span data p q (e.written idSize)) : e.At data idSize p q := by
  obtain ⟨code, payload, hpayload, hspells⟩ := h.content.exists_payload
  have hwritten : e.written idSize = code :: word e.time ++ count payload.length ++ payload := by
    rw [written, hpayload]
  rw [hwritten] at hspan
  -- the length in front says how far the record goes
  have hq : q = p + recordHeaderLength + payload.length := by
    have hlen := hspan.length_eq
    rw [List.length_append] at hlen
    rw [← hlen, ← Nat.add_assoc]
    rfl
  subst hq
  exact ⟨code, payload, ⟨h.payload_lt _ hpayload, hspan⟩, rfl, hspells⟩

/-- **Well-formed top-level records are found where they are written.** -/
theorem entries_of_written {es : List Entry} (h : ∀ e ∈ es, e.WellFormed idSize) {p : Nat}
    (hspan : Span data p data.size (es.flatMap (Entry.written idSize))) :
    Entries data idSize p es (Entry.recordsFrom idSize p es) := by
  induction es generalizing p with
  | nil =>
    rw [(span_nil_iff.mp hspan).1]
    exact .nil
  | cons e es ih =>
    obtain ⟨he, hes⟩ := List.forall_mem_cons.mp h
    rw [List.flatMap_cons] at hspan
    obtain ⟨q, hspan1, hspan2⟩ := span_append_iff.mp hspan
    rw [Entry.recordsFrom, hspan1.length_eq]
    exact .cons (he.at_written hspan1) (ih hes hspan2)

/-! ### Headers -/

/-- A written header is read as that header. -/
theorem Header.WellFormed.headed {h : Header} (hwf : h.WellFormed) {q : Nat}
    (hspan : Span data 0 q h.written) : Headed data h.name h.idSize h.timestamp := by
  have hq : q = h.name.length + tailLength := by
    rw [← hspan.length_eq, Nat.zero_add, written, List.length_append, List.length_append,
      List.length_cons, Nat.add_assoc]
    rfl
  subst hq
  exact ⟨hwf.magic_prefix, hwf.zero_notMem, hwf.name_lt, hwf.idSize_eq, hspan⟩

theorem Header.WellFormed.read_eq {h : Header} (hwf : h.WellFormed) {store : ByteStore}
    (hs : store.Serves data) {q : Nat} (hspan : Span data 0 q h.written) :
    Header.read store = .ok h :=
  (Header.read_eq_ok_iff hs).mpr
    ⟨h.name, hwf.headed hspan, (Utf8.decodeLossy_toUTF8 h.format).symm, hwf.length_eq⟩

/-! ### Dumps -/

/-- The header of a small dump. -/
def sampleHeader : Header := ⟨"JAVA PROFILE 1.0.2", 4, 1700000000000, 31⟩

/-- The records of a small dump: a string, a stack trace, a record that is passed over,
a segment with a class, its instance, an array and a root, and the end of the dump. -/
def sampleEntries : List Entry :=
  [⟨0, .fields (.string 1 "größe")⟩,
   ⟨5, .fields (.stackTrace ⟨1, 2, [3, 4]⟩)⟩,
   ⟨7, .skipped Tag.cpuSamples.code [1, 2, 3]⟩,
   ⟨9, .heapDump true
      [.heapInfo 1 1,
       .root { kind := .javaFrame, objectId := 16, threadSerial := some 1, frame := some 0 },
       .classDump ⟨32, 0, 0, 0, 0, 0, 4, [(0, .object 16)], [⟨1, .boolean true⟩], [⟨1, .int⟩]⟩,
       .object (.plain ⟨16, 0, 32, ⟨#[0, 0, 0, 1]⟩⟩),
       .object (.primitives ⟨17, 0, .short, 2, some ⟨#[1, 2, 3, 4]⟩⟩)]⟩,
   ⟨9, .fields .heapDumpEnd⟩]

/-- The bytes of a small dump. -/
def sampleBytes : ByteArray := ⟨(dump sampleHeader sampleEntries).toArray⟩

/-- **Reading a written dump gives its header and its records and ends behind the
last one.** -/
theorem read_dump {h : Header} (hwf : h.WellFormed) {es : List Entry}
    (hes : ∀ e ∈ es, e.WellFormed h.idSize) {source : Source} {shardSize padding : UInt64}
    {shards : Shards} (skipUnknown : Bool)
    (hsource : Source.ofBytes? .memory ⟨(dump h es).toArray⟩ = some source)
    (hshards : Shards.ofSource source shardSize padding = .ok shards) :
    ∃ stream, RecordStream.ofStore shards.store skipUnknown = .ok stream
      ∧ stream.header = h
      ∧ stream.readAll.state.toList.map Prod.fst = Entry.recordsFrom h.idSize h.length es
      ∧ stream.readAll.error = none
      ∧ stream.readAll.stream = { stream with
          position := (dump h es).length
          count := (Entry.recordsFrom h.idSize h.length es).length
          finished := true } := by
  have hbytes : shards.source.bytes = ⟨(dump h es).toArray⟩ :=
    (congrArg Source.bytes (Shards.source_of_ofSource hshards)).trans
      (Source.bytes_of_ofBytes? hsource)
  have hs := shards.store_serves
  rw [hbytes] at hs
  have hwhole : Span ⟨(dump h es).toArray⟩ 0 (dump h es).length (dump h es) :=
    span_whole ⟨(dump h es).toArray⟩
  obtain ⟨q, hspan1, hspan2⟩ := span_append_iff.mp hwhole
  -- the records begin where the header ends
  have hq : q = h.length := by
    rw [hwf.length_eq, ← (hwf.headed hspan1).span.length_eq, ← hspan1.length_eq]
    rfl
  subst hq
  have hread := hwf.read_eq hs hspan1
  have hstream : RecordStream.ofStore shards.store skipUnknown
      = .ok { store := shards.store, header := h, skipUnknown, position := h.length } :=
    RecordStream.ofStore_eq_ok_iff.mpr ⟨h, hread, rfl⟩
  obtain ⟨hrecords, herror, hend⟩ :=
    RecordStream.readAll_of_entries (RecordStream.valid_of_ofStore hs hstream) rfl
      (RecordStream.atTopLevel_of_none rfl) (entries_of_written hes hspan2)
  refine ⟨_, hstream, rfl, hrecords, herror, ?_⟩
  rw [hend, Nat.zero_add]
  rfl

theorem read_dump_sample :
    sampleHeader.WellFormed ∧ (∀ e ∈ sampleEntries, e.WellFormed sampleHeader.idSize)
      ∧ ∃ source shards,
          Source.ofBytes? .memory sampleBytes = some source
            ∧ Shards.ofSource source 7 3 = .ok shards
            ∧ ∃ stream, RecordStream.ofStore shards.store false = .ok stream
              ∧ stream.header = sampleHeader
              ∧ stream.readAll.state.toList.map Prod.fst
                  = Entry.recordsFrom sampleHeader.idSize sampleHeader.length sampleEntries
              ∧ stream.readAll.error = none
              ∧ stream.readAll.stream = { stream with
                  position := (dump sampleHeader sampleEntries).length
                  count := (Entry.recordsFrom sampleHeader.idSize sampleHeader.length
                    sampleEntries).length
                  finished := true } := by
  have hwf : sampleHeader.WellFormed := by decide +kernel
  have hes : ∀ e ∈ sampleEntries, e.WellFormed sampleHeader.idSize := by decide +kernel
  have hlt : sampleBytes.size < UInt64.size := by decide +kernel
  have hsource := Source.ofBytes?_of_lt .memory hlt
  have hshards := Shards.ofSource_of_lt ⟨.memory, sampleBytes, hlt⟩
    (show (3 : UInt64) < 7 by decide) (by decide)
  exact ⟨hwf, hes, _, _, hsource, hshards, read_dump hwf hes false hsource hshards⟩

/-- The small dump byte by byte, with the codes that stand for its records and types. -/
example : sampleBytes.data.toList =
    -- the text of the format, the width of identifiers, the time
    [0x4A, 0x41, 0x56, 0x41, 0x20, 0x50, 0x52, 0x4F, 0x46, 0x49, 0x4C, 0x45, 0x20, 0x31, 0x2E,
      0x30, 0x2E, 0x32, 0x00, 0, 0, 0, 4, 0x00, 0x00, 0x01, 0x8B, 0xCF, 0xE5, 0x68, 0x00]
    -- a string, a stack trace, a record that is passed over
    ++ [0x01, 0, 0, 0, 0, 0, 0, 0, 11, 0, 0, 0, 1, 0x67, 0x72, 0xC3, 0xB6, 0xC3, 0x9F, 0x65]
    ++ [0x05, 0, 0, 0, 5, 0, 0, 0, 20, 0, 0, 0, 1, 0, 0, 0, 2, 0, 0, 0, 2, 0, 0, 0, 3, 0, 0, 0, 4]
    ++ [0x0D, 0, 0, 0, 7, 0, 0, 0, 3, 1, 2, 3]
    -- the header of the segment, the name of a heap, a root
    ++ [0x1C, 0, 0, 0, 9, 0, 0, 0, 122]
    ++ [0xFE, 0, 0, 0, 1, 0, 0, 0, 1]
    ++ [0x03, 0, 0, 0, 16, 0, 0, 0, 1, 0, 0, 0, 0]
    -- a class with a constant of type 2, a static field of type 4 and a field of type 10
    ++ [0x20, 0, 0, 0, 32, 0, 0, 0, 0, 0, 0, 0, 0, 0, 0, 0, 0, 0, 0, 0, 0, 0, 0, 0, 0,
      0, 0, 0, 0, 0, 0, 0, 0, 0, 0, 0, 4, 0, 1, 0, 0, 2, 0, 0, 0, 16, 0, 1, 0, 0, 0, 1, 4, 1,
      0, 1, 0, 0, 0, 1, 10]
    -- an instance, an array of type 9, the end of the dump
    ++ [0x21, 0, 0, 0, 16, 0, 0, 0, 0, 0, 0, 0, 32, 0, 0, 0, 4, 0, 0, 0, 1]
    ++ [0x23, 0, 0, 0, 17, 0, 0, 0, 0, 0, 0, 0, 2, 9, 1, 2, 3, 4]
    ++ [0x2C, 0, 0, 0, 9, 0, 0, 0, 0] := by
  decide +kernel

end HeapDump
