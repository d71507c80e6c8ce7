/-
HeapDump/Proofs/Record/Packing.lean

The sub-records of a heap dump, packed into top-level records.

A writer may put sub-records into one heap dump or cut them into several segments at any
places, with empty segments among them and ends of heap dumps behind them.  `Packs` says
that a list of top-level records is such a packing: only heap dumps and their ends, with
the given sub-records in the given order.

What a reader is told of a dump is its records without their places (`ByteStore.told`).
Besides the sub-records themselves it is told where heap dumps begin and end, and these
marks change nothing but the heap that is current; without them every packing gives the
same list (`Entry.filter_track_recordsFrom`).  A packing behind a dump that is read to its
end is read to its end too (`ByteStore.reading_entries`).
-/
import HeapDump.Proofs.Draft.Interleaving
import HeapDump.Proofs.Draft.Relocation
import HeapDump.Proofs.Record.Concatenation

namespace HeapDump

/-! ### Records without places -/

/-- A record without its place. -/
def Record.unplaced (r : Record) : Record := r.relocate fun _ => 0

/-- What a reading tells, apart from places. -/
def ByteStore.told (store : ByteStore) (skipUnknown : Bool) : List Record :=
  (store.reading skipUnknown).1.map fun x => x.1.unplaced

/-- A sub-record without a place. -/
def HeapRecord.unplaced (r : HeapRecord) : Record := ⟨0, none, .heap r⟩

theorem HeapRecord.map_unplaced_recordsFrom (idSize p : Nat) (records : List HeapRecord) :
    (recordsFrom idSize p records).map Record.unplaced = records.map HeapRecord.unplaced := by
  induction records generalizing p with
  | nil => rfl
  | cons r records ih => rw [recordsFrom, List.map_cons, ih, List.map_cons]; rfl

/-- **Of records behind records, a reading tells both.** -/
theorem ByteStore.told_concat {front mid back : ByteArray} {store storeMid storeBack : ByteStore}
    (hs : store.Serves (front ++ mid ++ back)) (hsMid : storeMid.Serves (front ++ mid))
    (hsBack : storeBack.Serves (front ++ back)) (hsizeBack : (front ++ back).size < UInt64.size)
    {header : Header} (hheader : Header.read (.ofBytes front) = .ok header)
    (hlength : header.length = front.size) {skipUnknown : Bool}
    (hmid : (storeMid.reading skipUnknown).2 = none)
    (hback : (storeBack.reading skipUnknown).2 = none) :
    (store.reading skipUnknown).2 = none
      ∧ store.told skipUnknown = storeMid.told skipUnknown ++ storeBack.told skipUnknown := by
  have hread := reading_concat hs hsMid hsBack hsizeBack hheader hlength
    (Prod.ext rfl hmid : storeMid.reading skipUnknown = (_, none))
  rw [told, hread, hback, List.map_append, List.map_map]
  exact ⟨rfl, rfl⟩

/-! ### Packings -/

namespace Entry

/-- The sub-records that a top-level record holds. -/
def subRecords (e : Entry) : List HeapRecord :=
  match e.content with
  | .heapDump _ records => records
  | _ => []

/-- Whether a top-level record is a heap dump or a segment of one. -/
def isHeapDump (e : Entry) : Bool :=
  match e.content with
  | .heapDump .. => true
  | _ => false

end Entry

/-- Top-level records that hold just the sub-records `records`: one or more heap dumps or
segments, any of them empty, and ends of heap dumps. -/
@[mk_iff] structure Packs (idSize : Nat) (records : List HeapRecord) (packing : List Entry) :
    Prop where
  wellFormed : ∀ e ∈ packing, e.WellFormed idSize
  isHeapDump_or_end : ∀ e ∈ packing, e.isHeapDump ∨ e.content = .fields .heapDumpEnd
  exists_isHeapDump : ∃ e ∈ packing, e.isHeapDump
  flatMap_subRecords : packing.flatMap Entry.subRecords = records

instance (idSize : Nat) (records : List HeapRecord) (packing : List Entry) :
    Decidable (Packs idSize records packing) :=
  decidable_of_iff' _ (packs_iff idSize records packing)

/-- The bytes of top-level records. -/
def Entry.bytes (idSize : Nat) (es : List Entry) : ByteArray :=
  ⟨(es.flatMap (Entry.written idSize)).toArray⟩

namespace Entry

/-- A heap dump has its sub-records and a mark for its start, the end of one is a mark. -/
theorem filter_track_records {e : Entry}
    (h : e.isHeapDump ∨ e.content = .fields .heapDumpEnd) (idSize p : Nat) {t : Track}
    (ht : t ≠ .idle) :
    ((e.records idSize p).map Record.unplaced).filter (·.body.track = t)
      = (e.subRecords.map HeapRecord.unplaced).filter (·.body.track = t) := by
  have hmark : ¬ decide (Track.idle = t) = true := by simpa using ht.symm
  obtain ⟨time, content⟩ := e
  rcases h with hdump | hend
  · cases content with
    | heapDump segment subs =>
      rw [Entry.records, List.map_cons, HeapRecord.map_unplaced_recordsFrom]
      exact List.filter_cons_of_neg hmark
    | _ => cases hdump
  · obtain rfl : content = .fields .heapDumpEnd := hend
    exact List.filter_cons_of_neg hmark

theorem exists_isHeapDumpStart {e : Entry} (h : e.isHeapDump) (idSize p : Nat) :
    ∃ r ∈ e.records idSize p, r.body.isHeapDumpStart := by
  obtain ⟨time, content⟩ := e
  cases content with
  | heapDump segment subs => exact ⟨_, List.mem_cons_self, rfl⟩
  | _ => cases h

theorem filter_track_recordsFrom {es : List Entry}
    (h : ∀ e ∈ es, e.isHeapDump ∨ e.content = .fields .heapDumpEnd) (idSize p : Nat) {t : Track}
    (ht : t ≠ .idle) :
    ((recordsFrom idSize p es).map Record.unplaced).filter (·.body.track = t)
      = ((es.flatMap subRecords).map HeapRecord.unplaced).filter (·.body.track = t) := by
  induction es generalizing p with
  | nil => rfl
  | cons e es ih =>
    obtain ⟨he, hes⟩ := List.forall_mem_cons.mp h
    rw [recordsFrom, List.flatMap_cons, List.map_append, List.map_append, List.filter_append,
      List.filter_append, filter_track_records he idSize p ht, ih hes]

theorem exists_isHeapDumpStart_recordsFrom {es : List Entry} (h : ∃ e ∈ es, e.isHeapDump)
    (idSize p : Nat) : ∃ r ∈ recordsFrom idSize p es, r.body.isHeapDumpStart := by
  induction es generalizing p with
  | nil =>
    obtain ⟨e, he, -⟩ := h
    cases he
  | cons e es ih =>
    rw [recordsFrom]
    by_cases he : e.isHeapDump
    · obtain ⟨r, hr, hstart⟩ := exists_isHeapDumpStart he idSize p
      exact ⟨r, List.mem_append_left _ hr, hstart⟩
    · obtain ⟨e', he', hdump⟩ := h
      rcases List.mem_cons.mp he' with rfl | he'
      · exact absurd hdump he
      · obtain ⟨r, hr, hstart⟩ := ih ⟨e', he', hdump⟩ (p + (e.written idSize).length)
        exact ⟨r, List.mem_append_right _ hr, hstart⟩

end Entry

/-! ### Readings of packings -/

/-- What is put behind other bytes stands from their end on. -/
theorem span_append_back (front back : ByteArray) :
    Span (front ++ back) front.size (front ++ back).size back.data.toList := by
  have hwhole := span_whole (front ++ back)
  rw [ByteArray.data_append, Array.toList_append] at hwhole
  obtain ⟨mid, hfront, hback⟩ := span_append_iff.mp hwhole
  have hmid : front.size = mid := by
    rw [← hfront.length_eq, Nat.zero_add]
    rfl
  rwa [hmid]

/-- Written top-level records behind a header are read to the end. -/
theorem ByteStore.reading_entries {front : ByteArray} {store : ByteStore} {header : Header}
    {es : List Entry} (hheader : Header.read (.ofBytes front) = .ok header)
    (hlength : header.length = front.size) (hes : ∀ e ∈ es, e.WellFormed header.idSize)
    (hs : store.Serves (front ++ Entry.bytes header.idSize es)) (skipUnknown : Bool) :
    (store.reading skipUnknown).2 = none
      ∧ store.told skipUnknown
        = (Entry.recordsFrom header.idSize header.length es).map Record.unplaced := by
  -- the header of the front is the header of the whole
  have hread := Header.read_append (ByteStore.serves_ofBytes front) hs hheader
  have hstream : RecordStream.ofStore store skipUnknown
      = .ok { store, header, skipUnknown, position := header.length } :=
    RecordStream.ofStore_eq_ok_iff.mpr ⟨header, hread, rfl⟩
  -- the entries stand behind it, up to the end
  have hspan : Span (front ++ Entry.bytes header.idSize es) header.length
      (front ++ Entry.bytes header.idSize es).size
      (es.flatMap (Entry.written header.idSize)) :=
    hlength ▸ span_append_back front (Entry.bytes header.idSize es)
  obtain ⟨hrecords, herror, -⟩ :=
    RecordStream.readAll_of_entries (RecordStream.valid_of_ofStore hs hstream) rfl
      (RecordStream.atTopLevel_of_none rfl) (entries_of_written hes hspan)
  rw [told, reading, hstream]
  refine ⟨herror, ?_⟩
  rw [← hrecords, List.map_map]
  rfl

end HeapDump
