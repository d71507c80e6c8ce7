/-
HeapDump/Proofs/Snapshot/Segmentation.lean

How sub-records are packed into heap dumps does not matter.

Two dumps that hold the same sub-records between the same other records, packed into
segments in different ways, give the same snapshot but for places in the file.

A dump is made of a header, the records in front, the packing and the records behind.  What
is read of it is read of its three parts one after the other, each behind the header alone
(`Shards.told_packing`).  Then readings of both dumps tell the same on every track: on the
first and the last part since these are equal, on the packings since besides the sub-records
there are only marks of where heap dumps begin and end.  Of these only that there is a heap
dump at all is asked for, and every packing has one.

Main statement: `segmentation_irrelevant`.
-/
import HeapDump.Proofs.Record.Packing
import HeapDump.Proofs.Snapshot.Interleaving
import HeapDump.Proofs.Snapshot.Relocation

namespace HeapDump

/-- A snapshot without the places of its records. -/
def Snapshot.unplaced (s : Snapshot) : Snapshot := s.relocate fun _ => 0

/-- A dump with packed sub-records between other records is read to its end, and tells what
the other records tell and what the packing does. -/
theorem Shards.told_packing {front before after : ByteArray} {header : Header}
    {skipUnknown : Bool} {packing : List Entry} {shards : Shards}
    (hheader : Header.read (.ofBytes front) = .ok header) (hlength : header.length = front.size)
    (hbefore : ((ByteStore.ofBytes (front ++ before)).reading skipUnknown).2 = none)
    (hafter : ((ByteStore.ofBytes (front ++ after)).reading skipUnknown).2 = none)
    (hpacking : ∀ e ∈ packing, e.WellFormed header.idSize)
    (hbytes : shards.source.bytes
      = front ++ before ++ Entry.bytes header.idSize packing ++ after) :
    Header.read shards.store = .ok header
      ∧ (shards.store.reading skipUnknown).2 = none
      ∧ shards.store.told skipUnknown = (ByteStore.ofBytes (front ++ before)).told skipUnknown
        ++ (Entry.recordsFrom header.idSize header.length packing).map Record.unplaced
        ++ (ByteStore.ofBytes (front ++ after)).told skipUnknown := by
  let packed := Entry.bytes header.idSize packing
  have hs := shards.store_serves
  have hsize := shards.source.size_lt
  rw [hbytes] at hs hsize
  have hparts : front.size + before.size + packed.size + after.size < UInt64.size := by
    simpa only [ByteArray.size_append] using hsize
  -- the packing behind the records in front
  obtain ⟨hpacked, htold⟩ := ByteStore.reading_entries hheader hlength hpacking
    (ByteStore.serves_ofBytes (front ++ packed)) skipUnknown
  obtain ⟨hfront, htold'⟩ := ByteStore.told_concat
    (ByteStore.serves_ofBytes (front ++ before ++ packed))
    (ByteStore.serves_ofBytes _) (ByteStore.serves_ofBytes _)
    (by rw [ByteArray.size_append]; omega) hheader hlength hbefore hpacked
  -- and the other records behind both
  have hassoc : front ++ before ++ packed = front ++ (before ++ packed) := ByteArray.append_assoc
  rw [hassoc] at hs hfront htold'
  obtain ⟨hwhole, htold''⟩ := ByteStore.told_concat hs (ByteStore.serves_ofBytes _)
    (ByteStore.serves_ofBytes _) (by rw [ByteArray.size_append]; omega) hheader hlength hfront
    hafter
  have hread := Header.read_append (ByteStore.serves_ofBytes front)
    (ByteArray.append_assoc ▸ hs) hheader
  refine ⟨hread, hwhole, ?_⟩
  rw [htold'', htold', htold]

/-- Behind a packing a draft has begun a heap dump. -/
theorem Draft.heapDumps_packing_ne_zero {idSize : Nat} {records : List HeapRecord}
    {packing : List Entry} (h : Packs idSize records packing) (d : Draft)
    (front back : List Record) (p : Nat) :
    ((front ++ (Entry.recordsFrom idSize p packing).map Record.unplaced ++ back).foldl push
      d).heapDumps ≠ 0 := by
  obtain ⟨r, hr, hstart⟩ :=
    Entry.exists_isHeapDumpStart_recordsFrom h.exists_isHeapDump idSize p
  have hmem : r.unplaced ∈ front ++ (Entry.recordsFrom idSize p packing).map Record.unplaced
      ++ back :=
    List.mem_append_left _ (List.mem_append_right _ (List.mem_map_of_mem hr))
  have hpos := List.countP_pos_iff (p := fun r => r.body.isHeapDumpStart)
    |>.mpr ⟨r.unplaced, hmem, hstart⟩
  rw [heapDumps_foldl_push]
  omega

/-- **How sub-records are packed does not matter.**  Put into any heap dumps and segments,
cut anywhere between two sub-records, with empty segments and ends of heap dumps in between,
they give the same snapshot, apart from the places of objects, roots and diagnostics. -/
theorem segmentation_irrelevant {front before after : ByteArray} {header : Header}
    {options : Options} {records : List HeapRecord} {packing packing' : List Entry}
    {shards shards' : Shards} (attachSink : Bool)
    (hheader : Header.read (.ofBytes front) = .ok header) (hlength : header.length = front.size)
    (hbefore : ((ByteStore.ofBytes (front ++ before)).reading options.skipUnknownRecords).2 = none)
    (hafter : ((ByteStore.ofBytes (front ++ after)).reading options.skipUnknownRecords).2 = none)
    (hpacks : Packs header.idSize records packing)
    (hpacks' : Packs header.idSize records packing')
    (hbytes : shards.source.bytes
      = front ++ before ++ Entry.bytes header.idSize packing ++ after)
    (hbytes' : shards'.source.bytes
      = front ++ before ++ Entry.bytes header.idSize packing' ++ after) :
    ∃ s s', Snapshot.ofShards shards options attachSink = .ok s
      ∧ Snapshot.ofShards shards' options attachSink = .ok s'
      ∧ s.unplaced = s'.unplaced := by
  obtain ⟨hread, hend, htold⟩ := Shards.told_packing hheader hlength hbefore hafter
    hpacks.wellFormed hbytes
  obtain ⟨hread', hend', htold'⟩ := Shards.told_packing hheader hlength hbefore hafter
    hpacks'.wellFormed hbytes'
  refine ⟨_, _, Snapshot.ofStore_of_reading shards.store_serves hread hend attachSink,
    Snapshot.ofStore_of_reading shards'.store_serves hread' hend' attachSink, ?_⟩
  rw [Snapshot.unplaced, Snapshot.unplaced, Draft.relocate_finish_foldl_push,
    Draft.relocate_finish_foldl_push, List.map_map, List.map_map]
  -- without places, the records of a reading are what it tells
  have hsame {store : ByteStore} : (store.reading options.skipUnknownRecords).1.map
      (Record.relocate (fun _ => 0) ∘ Prod.fst) = store.told options.skipUnknownRecords := rfl
  rw [hsame, hsame, htold, htold']
  refine Draft.finish_eq_of_agree (fun t => ?_) ?_ options.resolveFields
  · by_cases hidle : t = .idle
    · exact hidle ▸ trivial
    · refine Draft.agree_foldl_push (.refl t _) ?_
      simp only [List.filter_append, Entry.filter_track_recordsFrom hpacks.isHeapDump_or_end _ _ hidle,
        Entry.filter_track_recordsFrom hpacks'.isHeapDump_or_end _ _ hidle,
        hpacks.flatMap_subRecords, hpacks'.flatMap_subRecords]
  · exact iff_of_false (Draft.heapDumps_packing_ne_zero hpacks _ _ _ _)
      (Draft.heapDumps_packing_ne_zero hpacks' _ _ _ _)

/-! ### A heap dump in one piece and in segments -/

/-- The name of a heap, a class, its instance and a root. -/
def sampleSubRecords : List HeapRecord :=
  [.heapInfo 1 1,
   .classDump ⟨32, 0, 0, 0, 0, 0, 4, [], [⟨1, .boolean true⟩], [⟨1, .int⟩]⟩,
   .object (.plain ⟨16, 0, 32, ⟨#[0, 0, 0, 1]⟩⟩),
   .root { kind := .javaFrame, objectId := 99, threadSerial := some 1, frame := some 0 }]

/-- All in one heap dump. -/
def samplePacking : List Entry := [⟨9, .heapDump false sampleSubRecords⟩]

/-- A heap in one segment, its objects in another, with an empty one and ends in between. -/
def sampleSegments : List Entry :=
  [⟨3, .heapDump true (sampleSubRecords.take 1)⟩, ⟨3, .fields .heapDumpEnd⟩,
   ⟨4, .heapDump true []⟩, ⟨5, .heapDump true (sampleSubRecords.drop 1)⟩,
   ⟨6, .fields .heapDumpEnd⟩]

/-- A string record. -/
def sampleTail : ByteArray := ⟨#[0x01, 0, 0, 0, 5, 0, 0, 0, 5, 0, 0, 0, 2, 0x78]⟩

theorem segmentation_irrelevant_sample :
    Header.read (.ofBytes sampleFront) = .ok sampleHeader
      ∧ sampleHeader.length = sampleFront.size
      ∧ ((ByteStore.ofBytes (sampleFront ++ sampleMid)).reading false).2 = none
      ∧ ((ByteStore.ofBytes (sampleFront ++ sampleTail)).reading false).2 = none
      ∧ Packs sampleHeader.idSize sampleSubRecords samplePacking
      ∧ Packs sampleHeader.idSize sampleSubRecords sampleSegments
      ∧ ∃ shards shards' : Shards,
          shards.source.bytes = sampleFront ++ sampleMid
              ++ Entry.bytes sampleHeader.idSize samplePacking ++ sampleTail
            ∧ shards'.source.bytes = sampleFront ++ sampleMid
              ++ Entry.bytes sampleHeader.idSize sampleSegments ++ sampleTail
            ∧ ∃ s s', Snapshot.ofShards shards {} true = .ok s
              ∧ Snapshot.ofShards shards' {} true = .ok s'
              ∧ s.unplaced = s'.unplaced := by
  have hheader : Header.read (.ofBytes sampleFront) = .ok sampleHeader := by decide +kernel
  have hlength : sampleHeader.length = sampleFront.size := by decide +kernel
  have hbefore : ((ByteStore.ofBytes (sampleFront ++ sampleMid)).reading false).2 = none := by
    decide +kernel
  have hafter : ((ByteStore.ofBytes (sampleFront ++ sampleTail)).reading false).2 = none := by
    decide +kernel
  have hpacks : Packs sampleHeader.idSize sampleSubRecords samplePacking := by decide +kernel
  have hpacks' : Packs sampleHeader.idSize sampleSubRecords sampleSegments := by decide +kernel
  let shards := inMemory (sampleFront ++ sampleMid
    ++ Entry.bytes sampleHeader.idSize samplePacking ++ sampleTail) (by decide +kernel)
  let shards' := inMemory (sampleFront ++ sampleMid
    ++ Entry.bytes sampleHeader.idSize sampleSegments ++ sampleTail) (by decide +kernel)
  exact ⟨hheader, hlength, hbefore, hafter, hpacks, hpacks', shards, shards', rfl, rfl,
    segmentation_irrelevant true hheader hlength hbefore hafter hpacks hpacks' rfl rfl⟩

end HeapDump
