/-
HeapDump/Proofs/Shards/Independence.lean

What is read does not depend on the windows.

A reader knows the windows through a store only, that is, by the size of the source and by a
function from ranges to bytes or errors.  Windows over the same bytes serve the same store, equal as
functions (`Shards.store_congr`), whatever the sizes of shards and paddings and whether the bytes
lie in memory or in a file.  So the header, the records and the snapshot are the same, and so is
every error; there is nothing to be proved about single records.

That the readings come to an end is said too, since two readings that both run out of fuel would
also be equal.  Main statement: `windows_irrelevant`.
-/
import HeapDump.Proofs.Record.RoundTrip
import HeapDump.Snapshot.Load

namespace HeapDump

/-- The options of a reading through other windows. -/
def Options.withWindows (options : Options) (shardSize padding : UInt64) : Options :=
  { options with shardSize, padding }

/-- A reading comes to an end, with the end of the dump or with an error. -/
theorem RecordStream.finished_readAll {data : ByteArray} {s : RecordStream} (hv : s.Valid data)
    (hf : s.finished = false) : s.readAll.stream.finished = true := by
  obtain ⟨trace, error, t, hcompletes⟩ := exists_completes hv hf
  rw [hcompletes.readAll_eq hv hf]
  obtain ⟨last, hruns, hlast⟩ := hcompletes.exists_last
  -- what ends a run is an error or the end of the dump, not a record
  refine next_finished (hruns.frame.2.2.2.1.trans hf) hlast fun r h => ?_
  cases error with
  | none => cases h
  | some e => cases h

/-- The store behind windows depends on nothing but the bytes that they are over. -/
theorem Shards.store_eq_of_ofSource {bytes : ByteArray} {backing₁ backing₂ : Backing}
    {source₁ source₂ : Source} {shardSize₁ padding₁ shardSize₂ padding₂ : UInt64}
    {shards₁ shards₂ : Shards}
    (hsource₁ : Source.ofBytes? backing₁ bytes = some source₁)
    (hsource₂ : Source.ofBytes? backing₂ bytes = some source₂)
    (hshards₁ : Shards.ofSource source₁ shardSize₁ padding₁ = .ok shards₁)
    (hshards₂ : Shards.ofSource source₂ shardSize₂ padding₂ = .ok shards₂) :
    shards₁.store = shards₂.store := by
  apply store_congr
  rw [source_of_ofSource hshards₁, source_of_ofSource hshards₂,
    Source.bytes_of_ofBytes? hsource₁, Source.bytes_of_ofBytes? hsource₂]

/-- **Two ways to look at the same bytes give the same header, the same records and the
same snapshot**, or the same error where there is one. -/
theorem windows_irrelevant {bytes : ByteArray} {backing₁ backing₂ : Backing}
    {source₁ source₂ : Source} {shardSize₁ padding₁ shardSize₂ padding₂ : UInt64}
    {shards₁ shards₂ : Shards}
    (hsource₁ : Source.ofBytes? backing₁ bytes = some source₁)
    (hsource₂ : Source.ofBytes? backing₂ bytes = some source₂)
    (hshards₁ : Shards.ofSource source₁ shardSize₁ padding₁ = .ok shards₁)
    (hshards₂ : Shards.ofSource source₂ shardSize₂ padding₂ = .ok shards₂) :
    Header.read shards₁.store = Header.read shards₂.store
      ∧ (∀ skipUnknown,
          (RecordStream.ofStore shards₁.store skipUnknown).map RecordStream.readAll
            = (RecordStream.ofStore shards₂.store skipUnknown).map RecordStream.readAll)
      ∧ (∀ skipUnknown stream, RecordStream.ofStore shards₁.store skipUnknown = .ok stream →
          stream.readAll.stream.finished = true)
      ∧ ∀ (options : Options) (attachSink : Bool),
          Snapshot.ofShards shards₁ (options.withWindows shardSize₁ padding₁) attachSink
            = Snapshot.ofShards shards₂ (options.withWindows shardSize₂ padding₂) attachSink := by
  have hstore := Shards.store_eq_of_ofSource hsource₁ hsource₂ hshards₁ hshards₂
  refine ⟨by rw [hstore], fun skipUnknown => by rw [hstore], ?_, ?_⟩
  · intro skipUnknown stream hstream
    have hv := RecordStream.valid_of_ofStore shards₁.store_serves hstream
    obtain ⟨header, -, rfl⟩ := RecordStream.ofStore_eq_ok_iff.mp hstream
    exact RecordStream.finished_readAll hv rfl
  · intro options attachSink
    show Snapshot.ofStore shards₁.store options attachSink
      = Snapshot.ofStore shards₂.store options attachSink
    rw [hstore]

/-- The sample dump in memory behind windows of ten bytes and in a file behind windows of
one. -/
theorem windows_irrelevant_sample :
    ∃ source₁ source₂ shards₁ shards₂, Source.ofBytes? .memory sampleBytes = some source₁
      ∧ Source.ofBytes? .file sampleBytes = some source₂
      ∧ Shards.ofSource source₁ 7 3 = .ok shards₁ ∧ Shards.ofSource source₂ 1 0 = .ok shards₂
      ∧ Header.read shards₁.store = Header.read shards₂.store
      ∧ (∀ skipUnknown,
          (RecordStream.ofStore shards₁.store skipUnknown).map RecordStream.readAll
            = (RecordStream.ofStore shards₂.store skipUnknown).map RecordStream.readAll)
      ∧ (∀ skipUnknown stream, RecordStream.ofStore shards₁.store skipUnknown = .ok stream →
          stream.readAll.stream.finished = true)
      ∧ ∀ (options : Options) (attachSink : Bool),
          Snapshot.ofShards shards₁ (options.withWindows 7 3) attachSink
            = Snapshot.ofShards shards₂ (options.withWindows 1 0) attachSink := by
  have hlt : sampleBytes.size < UInt64.size := by decide +kernel
  have hsource₁ := Source.ofBytes?_of_lt .memory hlt
  have hsource₂ := Source.ofBytes?_of_lt .file hlt
  have hshards₁ := Shards.ofSource_of_lt ⟨.memory, sampleBytes, hlt⟩
    (show (3 : UInt64) < 7 by decide) (by decide)
  have hshards₂ := Shards.ofSource_of_lt ⟨.file, sampleBytes, hlt⟩
    (show (0 : UInt64) < 1 by decide) (by decide)
  exact ⟨_, _, _, _, hsource₁, hsource₂, hshards₁, hshards₂,
    windows_irrelevant hsource₁ hsource₂ hshards₁ hshards₂⟩

end HeapDump
