/-
HeapDump/Proofs/Snapshot/Leniency.lean

Lenient reading is strict reading without the unknown records.

A record of an unknown tag that is passed over leaves a diagnostic of its own category
and nothing else (`Draft.withoutRecordNotes_push_of_isUnknown`), and nothing else leaves
one (`Draft.withoutRecordNotes_push`).  So a snapshot without these diagnostics is that of
the records which are known.

Deleting the unknown records from the bytes of a dump gives a dump that is read strictly,
with the same records further in front: `placeWithoutUnknown` says where.  The snapshot of
a lenient reading is therefore that of a strict reading of what is left, but for places and
for the diagnostics about the unknown records, which are one for each, in order.

Where there are no unknown records the two readings are equal, and where there are, the
strict one fails at the first.  Main statement: `lenient_reading`.
-/
import HeapDump.Proofs.Diagnostic.Selection
import HeapDump.Proofs.Record.Concatenation
import HeapDump.Proofs.Record.Deletion
import HeapDump.Proofs.Record.Truncation
import HeapDump.Proofs.Snapshot.Relocation

namespace HeapDump

/-- Diagnostics without those about records. -/
def Diagnostics.withoutRecordNotes (log : Diagnostics) : Diagnostics :=
  log.select (·.category ≠ .records)

/-- A snapshot without the diagnostics about records. -/
def Snapshot.withoutRecordNotes (s : Snapshot) : Snapshot :=
  { s with diagnostics := s.diagnostics.withoutRecordNotes }

theorem ResolvingCause.category_ne {cause : Cause} (h : ResolvingCause cause) :
    cause.category ≠ .records := by
  cases h <;> simp [Cause.category]

namespace Draft

theorem NamingCause.category_ne_records {cause : Cause} (h : NamingCause cause) :
    cause.category ≠ .records := by
  cases h <;> simp [Cause.category]

/-- A draft without the diagnostics about records. -/
def withoutRecordNotes (d : Draft) : Draft :=
  { d with diagnostics := d.diagnostics.withoutRecordNotes }

variable (d : Draft)

/-! ### One record -/

theorem withoutRecordNotes_report {diagnostic : Diagnostic} (h : diagnostic.category ≠ .records) :
    (d.report diagnostic).withoutRecordNotes = d.withoutRecordNotes.report diagnostic := by
  rw [report, withoutRecordNotes, Diagnostics.withoutRecordNotes, Diagnostics.select_push,
    if_pos (decide_eq_true h)]
  rfl

theorem withoutRecordNotes_pushHeapRecord (record : HeapRecord) (offset : Nat) :
    (d.pushHeapRecord record offset).withoutRecordNotes
      = d.withoutRecordNotes.pushHeapRecord record offset := by
  refine d.map_pushHeapRecord (F := withoutRecordNotes) rfl ?_ fun id =>
    d.withoutRecordNotes_report (category_duplicate_ne record id offset)
  cases record with
  | root root =>
    rw [take, take, addRoot, addRoot, noteThread, noteThread]
    split <;> rfl
  | _ => rfl

theorem push_of_isUnknown {r : Record} (h : r.isUnknown) :
    ∃ tag length, d.push r
      = d.report { cause := .skippedRecord tag length, offset := some r.offset } := by
  obtain ⟨offset, time, body⟩ := r
  cases body with
  | skipped tag length =>
    refine ⟨tag, length, ?_⟩
    rw [push]
    simp only [Option.isNone_iff_eq_none.mp h]
  | _ => cases h

/-- An unknown record leaves a diagnostic about records and nothing else. -/
theorem withoutRecordNotes_push_of_isUnknown {r : Record} (h : r.isUnknown) :
    (d.push r).withoutRecordNotes = d.withoutRecordNotes := by
  obtain ⟨tag, length, hpush⟩ := d.push_of_isUnknown h
  rw [hpush, report, withoutRecordNotes, Diagnostics.withoutRecordNotes, Diagnostics.select_push,
    if_neg (by simp [Diagnostic.category, Cause.category])]
  rfl

/-- **No other record does.** -/
theorem withoutRecordNotes_push {r : Record} (h : r.isUnknown = false) :
    (d.push r).withoutRecordNotes = d.withoutRecordNotes.push r := by
  obtain ⟨offset, time, body⟩ := r
  cases body with
  | heap record => exact d.withoutRecordNotes_pushHeapRecord record offset
  | skipped tag length =>
    obtain ⟨known, hknown⟩ := Option.isSome_iff_exists.mp (Option.isNone_eq_false_iff.mp h)
    rw [push, push]
    simp only [hknown]
  | _ => rfl

/-! ### All records -/

theorem withoutRecordNotes_foldl_push (records : List Record) :
    (records.foldl push d).withoutRecordNotes
      = (records.filter fun r => !r.isUnknown).foldl push d.withoutRecordNotes := by
  induction records generalizing d with
  | nil => rfl
  | cons r records ih =>
    rw [List.foldl_cons, ih]
    cases h : r.isUnknown with
    | true =>
      rw [withoutRecordNotes_push_of_isUnknown d h, List.filter_cons_of_neg (by simp [h])]
    | false =>
      rw [withoutRecordNotes_push d h, List.filter_cons_of_pos (by simp [h]), List.foldl_cons]

theorem byCategory_records_push_of_isUnknown {r : Record} (h : r.isUnknown) :
    ∃ tag length, (d.push r).diagnostics.byCategory .records
      = d.diagnostics.byCategory .records
        ++ [{ cause := .skippedRecord tag length, offset := some r.offset }] := by
  obtain ⟨tag, length, hpush⟩ := d.push_of_isUnknown h
  refine ⟨tag, length, ?_⟩
  rw [hpush, report, Diagnostics.byCategory_push,
    List.filter_cons_of_pos (by simp [Diagnostic.category, Cause.category]), List.filter_nil]

theorem byCategory_records_push {r : Record} (h : r.isUnknown = false) :
    (d.push r).diagnostics.byCategory .records = d.diagnostics.byCategory .records := by
  obtain ⟨offset, time, body⟩ := r
  cases body with
  | heap record =>
    show (d.pushHeapRecord record offset).diagnostics.byCategory .records = _
    rcases d.pushHeapRecord_cases record offset with htake | ⟨id, hreport⟩
    · rw [htake, diagnostics_take]
    · have hother := category_duplicate_ne record id offset
      rw [hreport, report, Diagnostics.byCategory_push,
        List.filter_cons_of_neg (by rwa [decide_eq_true_iff]), List.filter_nil, List.append_nil]
  | skipped tag length =>
    obtain ⟨known, hknown⟩ := Option.isSome_iff_exists.mp (Option.isNone_eq_false_iff.mp h)
    rw [push]
    simp only [hknown]
  | _ => rfl

/-- What is reported about records are the unknown ones, in their order. -/
theorem byCategory_records_foldl_push (records : List Record) :
    ((records.foldl push d).diagnostics.byCategory .records).map (fun d => (d.severity, d.offset))
      = (d.diagnostics.byCategory .records).map (fun d => (d.severity, d.offset))
        ++ (records.filter Record.isUnknown).map fun r => (Severity.warning, some r.offset) := by
  induction records generalizing d with
  | nil => exact (List.append_nil _).symm
  | cons r records ih =>
    rw [List.foldl_cons, ih]
    cases h : r.isUnknown with
    | true =>
      obtain ⟨tag, length, hpush⟩ := d.byCategory_records_push_of_isUnknown h
      rw [hpush, List.filter_cons_of_pos h, List.map_append, List.append_assoc]
      rfl
    | false => rw [d.byCategory_records_push h, List.filter_cons_of_neg (by simp [h])]

/-! ### Finishing -/

/-- What is found missing and what is noted while references are resolved is not about
records. -/
theorem forall_mem_finish_category_ne (resolveFields : Bool) :
    (∀ n ∈ d.namingNotes, n.cause.category ≠ .records)
      ∧ ∀ n ∈ (d.graph.resolve d.objects
          (ClassIndex.ofNames (d.graph.classes.toList.map (·.name))) d.header.idSize
          resolveFields).notes, n.cause.category ≠ .records :=
  ⟨fun _ hn => (namingCause_of_mem hn).category_ne_records,
    fun n hn => ((Graph.resolving_resolve ..).of_mem n hn).category_ne⟩

theorem withoutRecordNotes_finish (resolveFields : Bool) :
    (d.finish resolveFields).withoutRecordNotes = d.withoutRecordNotes.finish resolveFields := by
  obtain ⟨hnaming, hresolve⟩ := d.forall_mem_finish_category_ne resolveFields
  have hkeep {notes : List Diagnostic} (h : ∀ n ∈ notes, n.cause.category ≠ .records) :
      notes.filter (·.category ≠ .records) = notes :=
    List.filter_eq_self.mpr fun n hn => decide_eq_true (h n hn)
  rw [finish, finish, Snapshot.withoutRecordNotes, Diagnostics.withoutRecordNotes]
  dsimp only
  rw [Diagnostics.select_pushAll, Diagnostics.select_pushAll, hkeep hnaming, hkeep hresolve]
  rfl

theorem byCategory_records_finish (resolveFields : Bool) :
    (d.finish resolveFields).diagnostics.byCategory .records
      = d.diagnostics.byCategory .records := by
  obtain ⟨hnaming, hresolve⟩ := d.forall_mem_finish_category_ne resolveFields
  rw [finish]
  dsimp only
  rw [Diagnostics.byCategory_pushAll, Diagnostics.byCategory_pushAll,
    Diagnostics.filter_category_eq_nil hnaming, Diagnostics.filter_category_eq_nil hresolve,
    List.append_nil, List.append_nil]

end Draft

/-! ### Snapshots -/

/-- The snapshot of a lenient reading warns once of each unknown record. -/
theorem Draft.byCategory_records_snapshot (header : Header) (attachSink : Bool)
    (records : List Record) (resolveFields : Bool) :
    (((records.foldl push { header, diagnostics := .start attachSink }).finish
        resolveFields).diagnostics.byCategory .records).map (fun d => (d.severity, d.offset))
      = (records.filter Record.isUnknown).map fun r => (Severity.warning, some r.offset) := by
  rw [byCategory_records_finish, byCategory_records_foldl_push]
  cases attachSink <;> rfl

/-- Apart from that it is the snapshot of the other records. -/
theorem Draft.withoutRecordNotes_snapshot (header : Header) (attachSink : Bool)
    (records : List Record) (resolveFields : Bool) :
    ((records.foldl push { header, diagnostics := .start attachSink }).finish
        resolveFields).withoutRecordNotes
      = ((records.filter fun r => !r.isUnknown).foldl push
          { header, diagnostics := .start attachSink }).finish resolveFields := by
  have hstart : withoutRecordNotes { header, diagnostics := .start attachSink }
      = { header, diagnostics := .start attachSink } := by
    rw [withoutRecordNotes, Diagnostics.withoutRecordNotes, Diagnostics.select_start]
  rw [withoutRecordNotes_finish, withoutRecordNotes_foldl_push, hstart]

/-! ### The main statement -/

/-- **Lenient reading is strict reading without the unknown records.**  If a lenient reading of
some bytes comes upon no record of an unknown tag, a strict reading is the same, with the same
error if it ends with one; and if it comes upon one, a strict reading gives the records in front
of the first and fails there.  If the lenient reading ends without an error, a strict reading
accepts what is left when the bytes of all unknown records are deleted, and gives all other
records, at places reduced by the number of deleted bytes in front.  The lenient snapshot warns
once of each unknown record, and is otherwise the strict snapshot of what is left. -/
theorem lenient_reading (shards : Shards) :
    let lenient := shards.store.reading true
    ((∀ x ∈ lenient.1, x.1.isUnknown = false) → shards.store.reading false = lenient)
    ∧ (∀ front x back, lenient.1 = front ++ x :: back → (∀ y ∈ front, y.1.isUnknown = false) →
        x.1.isUnknown → ∃ tag length, x.1.body = .skipped tag length
          ∧ shards.store.reading false = (front, some (.unknownTag tag x.1.offset)))
    ∧ (lenient.2 = none → ∀ left : Shards,
        left.source.bytes = withoutUnknown shards.source.bytes lenient.1 →
        left.store.reading false
            = ((lenient.1.filter fun x => !x.1.isUnknown).map fun x =>
                (x.1.relocate (placeWithoutUnknown lenient.1),
                  placeWithoutUnknown lenient.1 x.2), none)
        ∧ ∀ (options : Options) (attachSink : Bool), ∃ s s',
          Snapshot.ofShards shards { options with skipUnknownRecords := true } attachSink = .ok s
          ∧ Snapshot.ofShards left { options with skipUnknownRecords := false } attachSink = .ok s'
          ∧ (s.diagnostics.byCategory .records).map (fun d => (d.severity, d.offset))
            = ((lenient.1.filter fun x => x.1.isUnknown).map fun x =>
                (Severity.warning, some x.1.offset))
          ∧ s.withoutRecordNotes.relocate (placeWithoutUnknown lenient.1) = s') := by
  intro lenient
  have hs := shards.store_serves
  refine ⟨ByteStore.reading_strict hs, fun front x back h hknown hunknown =>
    ByteStore.reading_strict_of_isUnknown hs h hknown hunknown, fun hend left hleft => ?_⟩
  cases hheader : Header.read shards.store with
  | error e =>
    -- a dump without a header is not read to its end
    have hfails : lenient = ([], some e) := ByteStore.reading_of_header_error hheader true
    rw [hfails] at hend
    cases hend
  | ok header =>
    have hs' := left.store_serves
    rw [hleft] at hs'
    have hread : shards.store.reading true = (lenient.1, none) := Prod.ext rfl hend
    obtain ⟨hheader', hstrict⟩ := ByteStore.reading_withoutUnknown hs hheader hread hs'
    refine ⟨hstrict, fun options attachSink => ?_⟩
    -- both snapshots come from the records: all of them, and the known ones at other places
    refine ⟨_, _, Snapshot.ofStore_of_reading hs hheader hend attachSink,
      Snapshot.ofStore_of_reading hs' hheader' (congrArg Prod.snd hstrict) attachSink, ?_, ?_⟩
    · rw [Draft.byCategory_records_snapshot, List.filter_map, List.map_map]
      rfl
    · rw [Draft.withoutRecordNotes_snapshot, Draft.relocate_finish_foldl_push]
      simp only [hstrict, List.filter_map, List.map_map]
      rfl

/-! ### Unknown records between and behind others -/

/-- A record of an unknown tag. -/
def sampleUnknown : ByteArray := ⟨#[0x42, 0, 0, 0, 5, 0, 0, 0, 3, 0x1C, 0, 0]⟩

/-- A heap dump segment with a root. -/
def sampleSegment : ByteArray := ⟨#[0x1C, 0, 0, 0, 5, 0, 0, 0, 5, 0xFF, 0, 0, 0, 9]⟩

theorem lenient_reading_sample :
    ∃ shards left : Shards,
      shards.source.bytes
          = sampleFront ++ sampleMid ++ sampleUnknown ++ sampleSegment ++ sampleUnknown
        ∧ left.source.bytes = sampleFront ++ sampleMid ++ sampleSegment
        ∧ left.source.bytes = withoutUnknown shards.source.bytes (shards.store.reading true).1
        ∧ (shards.store.reading true).2 = none
        ∧ shards.store.reading false
          = ((shards.store.reading true).1.take 2, some (.unknownTag 0x42 55))
        ∧ left.store.reading false = left.store.reading true
        ∧ ∃ s s', Snapshot.ofShards shards .lenient true = .ok s
          ∧ Snapshot.ofShards left {} true = .ok s'
          ∧ (s.diagnostics.byCategory .records).map (fun d => (d.severity, d.offset))
            = [(.warning, some 55), (.warning, some 81)]
          ∧ s.withoutRecordNotes.relocate (placeWithoutUnknown (shards.store.reading true).1)
            = s' := by
  let shards := inMemory
    (sampleFront ++ sampleMid ++ sampleUnknown ++ sampleSegment ++ sampleUnknown)
    (by decide +kernel)
  let left := inMemory (sampleFront ++ sampleMid ++ sampleSegment) (by decide +kernel)
  have hleft : left.source.bytes
      = withoutUnknown shards.source.bytes (shards.store.reading true).1 := by decide +kernel
  have hend : (shards.store.reading true).2 = none := by decide +kernel
  have hknown : ∀ x ∈ (left.store.reading true).1, x.1.isUnknown = false := by decide +kernel
  have hsplit : (shards.store.reading true).1 = (shards.store.reading true).1.take 2
      ++ (⟨55, some 5, .skipped 0x42 3⟩, 67) :: (shards.store.reading true).1.drop 3 := by
    decide +kernel
  have hfront : ∀ x ∈ (shards.store.reading true).1.take 2, x.1.isUnknown = false := by
    decide +kernel
  have hwarned : (((shards.store.reading true).1.filter fun x => x.1.isUnknown).map fun x =>
      (Severity.warning, some x.1.offset)) = [(.warning, some 55), (.warning, some 81)] := by
    decide +kernel
  obtain ⟨_, hstrict, hsnapshots⟩ := lenient_reading shards
  obtain ⟨tag, length, hbody, hfails⟩ := hstrict _ _ _ hsplit hfront (by decide)
  obtain ⟨rfl, rfl⟩ := Body.skipped.inj hbody
  obtain ⟨-, hsame⟩ := hsnapshots hend left hleft
  obtain ⟨s, s', hs, hs', hrecords, hrest⟩ := hsame {} true
  exact ⟨shards, left, rfl, rfl, hleft, hend, hfails, (lenient_reading left).1 hknown, s, s', hs,
    hs', hrecords.trans hwarned, hrest⟩

end HeapDump
