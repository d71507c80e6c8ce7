/-
HeapDump/Proofs/Snapshot/AllOrNothing.lean

A dump is read as a whole or not at all, and a sink misses nothing.

A reading that ends with an error gives that error and no snapshot; until then the records in
front of it have been reported, and nothing else.  A reading to the end gives a snapshot with
a log of all that the sink has been told.

What a sink is told in the course of a reading is part of the log: `Diagnostics.told` is the log
of a list of diagnostics with a sink that was told each of them.  Both halves are then equations
on logs.  In front of an error the log is that of the warnings of the records that were read, and
at the end it is that of its own list, which begins with these warnings.

Main statement: `all_or_nothing`; `all_or_nothing_sampleTwice` is a reading that fails behind a
record which is reported.
-/
import HeapDump.Proofs.Draft.Warnings
import HeapDump.Proofs.Record.Concatenation

namespace HeapDump

/-- What is made of a dump, given its records and the way their reading ends. -/
theorem Snapshot.ofStore_eq {data : ByteArray} {store : ByteStore} (hs : store.Serves data)
    {options : Options} {stream : RecordStream}
    (hstream : RecordStream.ofStore store options.skipUnknownRecords = .ok stream)
    (attachSink : Bool) :
    let reading := store.reading options.skipUnknownRecords
    let draft := (reading.1.map Prod.fst).foldl Draft.push
      { header := stream.header, diagnostics := .start attachSink }
    Snapshot.ofStore store options attachSink
      = match reading.2 with
        | some e => .error ⟨e, draft.diagnostics⟩
        | none => .ok (draft.finish options.resolveFields) := by
  have hv := RecordStream.valid_of_ofStore hs hstream
  obtain ⟨header, -, rfl⟩ := RecordStream.ofStore_eq_ok_iff.mp hstream
  obtain ⟨trace, error, t, hcompletes⟩ := RecordStream.exists_completes hv rfl
  rw [hcompletes.reading_eq hstream hv rfl, Snapshot.ofStore, hstream]
  simp only [hcompletes.fold_eq hv rfl, List.map_map, List.foldl_map]
  cases error <;> rfl

/-- A snapshot is made of the records of a reading that comes to its end. -/
theorem Snapshot.exists_of_ofStore_eq_ok {data : ByteArray} {store : ByteStore}
    (hs : store.Serves data) {options : Options} {attachSink : Bool} {s : Snapshot}
    (h : Snapshot.ofStore store options attachSink = .ok s) :
    ∃ stream records, RecordStream.ofStore store options.skipUnknownRecords = .ok stream
      ∧ store.reading options.skipUnknownRecords = (records, none)
      ∧ s = ((records.map Prod.fst).foldl Draft.push
        { header := stream.header, diagnostics := .start attachSink }).finish
          options.resolveFields := by
  cases hstream : RecordStream.ofStore store options.skipUnknownRecords with
  | error e =>
    rw [ofStore, hstream] at h
    cases h
  | ok stream =>
    rw [ofStore_eq hs hstream] at h
    rcases hreading : store.reading options.skipUnknownRecords with ⟨records, error⟩
    rw [hreading] at h
    cases error with
    | some e => cases h
    | none => exact ⟨stream, records, rfl, rfl, (Except.ok.inj h).symm⟩

/-- Finishing a draft reports to the log that it has. -/
theorem Draft.exists_diagnostics_finish (d : Draft) (resolveFields : Bool) :
    ∃ later, (d.finish resolveFields).diagnostics = d.diagnostics.pushAll later :=
  ⟨_, (Diagnostics.pushAll_append _ _ _).symm⟩

/-- All that a finished snapshot has logged has been told to the sink, first of all what is
reported of the records. -/
theorem Draft.told_finish (header : Header) (attachSink : Bool) (records : List Record)
    (resolveFields : Bool) :
    let snapshot := (records.foldl push
      { header, diagnostics := .start attachSink }).finish resolveFields
    snapshot.diagnostics = .told attachSink snapshot.diagnostics.toList
      ∧ warnings records <+: snapshot.diagnostics.toList := by
  intro snapshot
  obtain ⟨later, hlater⟩ := Draft.exists_diagnostics_finish
    (records.foldl push { header, diagnostics := .start attachSink }) resolveFields
  have hlog : snapshot.diagnostics = .told attachSink (warnings records ++ later) := by
    rw [hlater, diagnostics_foldl_push, ← Diagnostics.pushAll_append, Diagnostics.pushAll_start]
  rw [hlog]
  exact ⟨rfl, later, rfl⟩

/-- **A dump is read as a whole or not at all, and the sink misses nothing.**  If the reading of
the records fails, at its beginning or behind some records, there is no snapshot but the error,
and the sink has been told of these records with an unknown tag or a second definition, in their
order, and of nothing else.  Otherwise there is a snapshot, and the sink has been told all that
its log holds, entry by entry, beginning with the same warnings. -/
theorem all_or_nothing (shards : Shards) (options : Options) (attachSink : Bool) :
    (∀ records, ∀ diagnostic ∈ warnings records, diagnostic.severity = .warning)
    ∧ match shards.store.reading options.skipUnknownRecords with
      | (records, some e) => Snapshot.ofShards shards options attachSink
          = .error ⟨e, .told attachSink (warnings (records.map Prod.fst))⟩
      | (records, none) => ∃ s, Snapshot.ofShards shards options attachSink = .ok s
          ∧ s.diagnostics = .told attachSink s.diagnostics.toList
          ∧ warnings (records.map Prod.fst) <+: s.diagnostics.toList := by
  refine ⟨fun records _ => severity_of_mem_warnings, ?_⟩
  rw [Snapshot.ofShards]
  cases hstream : RecordStream.ofStore shards.store options.skipUnknownRecords with
  | error e =>
    -- there are no records yet
    rw [ByteStore.reading, hstream, Snapshot.ofStore, hstream]
    cases attachSink <;> rfl
  | ok stream =>
    rw [Snapshot.ofStore_eq shards.store_serves hstream]
    obtain ⟨records, error⟩ := shards.store.reading options.skipUnknownRecords
    cases error with
    | some e => simp only [Draft.diagnostics_foldl_push, Diagnostics.pushAll_start]
    | none => exact ⟨_, rfl, Draft.told_finish stream.header attachSink _ _⟩

/-- A heap dump segment that defines an object twice, and a record of an unknown tag. -/
def sampleTwice : ByteArray :=
  ⟨#[0x1C, 0, 0, 0, 5, 0, 0, 0, 28, 0xC3, 0, 0, 0, 9, 0, 0, 0, 0, 0, 0, 0, 2, 10,
    0xC3, 0, 0, 0, 9, 0, 0, 0, 0, 0, 0, 0, 7, 8, 0x42, 0, 0, 0, 5, 0, 0, 0, 0]⟩

/-- Read strictly there is no snapshot, and the sink has been told of the second definition. -/
theorem all_or_nothing_sampleTwice :
    ∃ shards : Shards, shards.source.bytes = sampleFront ++ sampleTwice
      ∧ (shards.store.reading false).2 = some (.unknownTag 0x42 68)
      ∧ Snapshot.ofShards shards {} true = .error ⟨.unknownTag 0x42 68, .told true
          [{ cause := .duplicateInstance 9, offset := some 54, object := some 9 }]⟩ := by
  let shards := inMemory (sampleFront ++ sampleTwice) (by decide +kernel)
  have herror : (shards.store.reading false).2 = some (.unknownTag 0x42 68) := by decide +kernel
  have hwarnings : warnings ((shards.store.reading false).1.map Prod.fst)
      = [{ cause := .duplicateInstance 9, offset := some 54, object := some 9 }] := by
    decide +kernel
  have hread : shards.store.reading false
      = ((shards.store.reading false).1, some (.unknownTag 0x42 68)) := Prod.ext rfl herror
  refine ⟨shards, rfl, herror, ?_⟩
  have hfails := (all_or_nothing shards {} true).2
  rw [show ({} : Options).skipUnknownRecords = false from rfl, hread] at hfails
  rw [← hwarnings]
  exact hfails

end HeapDump
