/-
HeapDump/Proofs/Record/Truncation.lean

Dumps that end too early.

The first bytes of a dump are read like the whole dump up to the last unit that they
hold, a top-level record with its sub-records.  If they end there, so does the reading;
everywhere else the cut is inside a header or inside a unit, and the reading fails with
a truncation instead of giving the part that is there.

A cut falls into exactly one block of the run, or on its start
(`Blocks.readAll_front`).  The blocks in front of it are read as before, since a stream
reads no byte behind its block; at the start of the block the reading is over, and inside
it the frame of its top-level record is longer than what is left.  That even a sub-record
is not given is because the length in the frame is checked before the payload is entered.

Which cuts are which can be told from the records of the whole dump: `StartsAt cut records`
says that a top-level record begins there, and `endedBy cut records` are the records of the
units that end in front of it.  Main statement: `truncation_detected`.
-/
import HeapDump.Proofs.Record.Blocks
import HeapDump.Proofs.Record.Cut
import HeapDump.Proofs.Record.RoundTrip
import HeapDump.Snapshot.Load

namespace HeapDump

/-! ### Readings -/

/-- The records that a store gives, each with the place behind it, and the error that
ends the reading, unless it is the end of the bytes. -/
def ByteStore.reading (store : ByteStore) (skipUnknown : Bool) :
    List (Record × Nat) × Option Error :=
  match RecordStream.ofStore store skipUnknown with
  | .error e => ([], some e)
  | .ok s => (s.readAll.state.toList, s.readAll.error)

/-- A top-level record starts at a place. -/
def StartsAt (cut : Nat) (records : List (Record × Nat)) : Prop :=
  ∃ x ∈ records, x.1.offset = cut ∧ x.1.body.isSubRecord = false

instance (cut : Nat) (records : List (Record × Nat)) : Decidable (StartsAt cut records) :=
  inferInstanceAs (Decidable (∃ x ∈ records, x.1.offset = cut ∧ x.1.body.isSubRecord = false))

/-- The top-level record of a unit ends at a place or in front of it. -/
def endsBy (cut : Nat) (unit : List (Record × Nat)) : Bool :=
  unit.head?.any fun x => x.1.stop x.2 ≤ cut

/-- The records of the units that end at a place or in front of it. -/
def endedBy (cut : Nat) (records : List (Record × Nat)) : List (Record × Nat) :=
  ((units records).filter (endsBy cut)).flatten

variable {data : ByteArray} {store store' : ByteStore} {cut : Nat}

/-! ### Units on the two sides of a cut -/

namespace RecordStream

variable {s mid t last : RecordStream} {block : List (Record × RecordStream)}
  {front back blocks : List (List (Record × RecordStream))}

/-- Where a block ends is told by its first record. -/
theorem Block.endsBy_iff (h : Block data s block t) :
    endsBy cut (block.map place) = true ↔ t.position ≤ cut := by
  obtain ⟨head, subRecords, rfl, -, hstop, -⟩ := h.exists_head
  show decide (head.1.stop head.2.position ≤ cut) = true ↔ _
  rw [decide_eq_true_iff, hstop]

/-- Where a block starts is told by its first record. -/
theorem Block.startsAt_iff (h : Block data s block t) :
    StartsAt cut (block.map place) ↔ s.position = cut := by
  obtain ⟨head, subRecords, rfl, hoffset, -, htop, hsub⟩ := h.exists_head
  constructor
  · rintro ⟨x, hx, hcut, hbody⟩
    obtain ⟨y, hy, rfl⟩ := List.mem_map.mp hx
    rcases List.mem_cons.mp hy with rfl | hy
    · exact hoffset.symm.trans hcut
    · exact absurd (hsub y hy) (Bool.eq_false_iff.mp hbody)
  · rintro rfl
    exact ⟨place head, List.mem_cons_self, hoffset, htop⟩

namespace Blocks

/-- All blocks of a run that ends in front of the cut end there. -/
theorem filter_eq_self (h : Blocks data s blocks t) (hle : t.position ≤ cut) :
    (blocks.map (List.map place)).filter (endsBy cut) = blocks.map (List.map place) := by
  refine List.filter_eq_self.mpr fun unit hunit => ?_
  obtain ⟨block, hmem, rfl⟩ := List.mem_map.mp hunit
  obtain ⟨mid, u, hblock, -, hu⟩ := h.bounds hmem
  exact hblock.endsBy_iff.mpr (hu.trans hle)

/-- No block of a run behind the cut ends in front of it. -/
theorem filter_eq_nil (h : Blocks data s blocks t) (hle : cut ≤ s.position) :
    (blocks.map (List.map place)).filter (endsBy cut) = [] := by
  refine List.filter_eq_nil_iff.mpr fun unit hunit hends => ?_
  obtain ⟨block, hmem, rfl⟩ := List.mem_map.mp hunit
  obtain ⟨mid, u, hblock, hmid, -⟩ := h.bounds hmem
  have hstop := hblock.endsBy_iff.mp hends
  have hlt := hblock.position_lt
  omega

/-- Nothing of a run behind the cut ends in front of it. -/
theorem endedBy_eq_nil (h : Blocks data s blocks t) (hle : cut ≤ s.position) :
    endedBy cut (blocks.flatten.map place) = [] := by
  rw [endedBy, h.units_map_place, h.filter_eq_nil hle, List.flatten_nil]

/-- The blocks up to the one that the cut falls into are those that end in front of it. -/
theorem endedBy_eq (h : Blocks data s (front ++ block :: back) last)
    (hfront : Blocks data s front mid) (hblock : Block data mid block t)
    (hback : Blocks data t back last) (hle : mid.position ≤ cut) (hlt : cut < t.position) :
    endedBy cut ((front ++ block :: back).flatten.map place) = front.flatten.map place := by
  have hends : endsBy cut (block.map place) ≠ true := fun hends =>
    absurd (hblock.endsBy_iff.mp hends) (Nat.not_le.mpr hlt)
  rw [endedBy, h.units_map_place, List.map_append, List.map_cons, List.filter_append,
    hfront.filter_eq_self hle, List.filter_cons_of_neg hends, hback.filter_eq_nil hlt.le,
    List.append_nil, List.map_flatten]

/-- If the cut falls on the start of a block, the records in front of it are those of the
blocks in front of it. -/
theorem filter_offset_eq (hfront : Blocks data s front mid) (hback : Blocks data mid back last)
    (heq : mid.position = cut) :
    ((front ++ back).flatten.map place).filter (fun x => x.1.offset < cut)
      = front.flatten.map place := by
  rw [List.flatten_append, List.map_append, List.filter_append, List.filter_eq_self.mpr,
    List.filter_eq_nil_iff.mpr, List.append_nil]
  · intro x hx hlt
    obtain ⟨y, hy, rfl⟩ := List.mem_map.mp hx
    have hbounds := hback.runs.offset_bounds hy
    exact absurd (of_decide_eq_true hlt) (Nat.not_lt.mpr (heq ▸ hbounds.1))
  · intro x hx
    obtain ⟨y, hy, rfl⟩ := List.mem_map.mp hx
    exact decide_eq_true (heq ▸ (hfront.runs.offset_bounds hy).2)

/-- The cut falls on the start of a top-level record if it does on the start of the
block that it falls into. -/
theorem startsAt_iff (hfront : Blocks data s front mid) (hblock : Block data mid block t)
    (hback : Blocks data t back last) (hle : mid.position ≤ cut) (hlt : cut < t.position) :
    StartsAt cut ((front ++ block :: back).flatten.map place) ↔ mid.position = cut := by
  rw [← hblock.startsAt_iff]
  constructor
  -- a record that begins at the cut is one of the block: those before it begin in front of the cut,
  -- and those after it behind
  · rintro ⟨x, hx, hcut, hbody⟩
    refine ⟨x, ?_, hcut, hbody⟩
    rw [List.flatten_append, List.flatten_cons, List.map_append, List.map_append] at hx
    rcases List.mem_append.mp hx with hx | hx
    · obtain ⟨y, hy, rfl⟩ := List.mem_map.mp hx
      have hbounds := hfront.runs.offset_bounds hy
      have hoffset : y.1.offset = cut := hcut
      omega
    · rcases List.mem_append.mp hx with hx | hx
      · exact hx
      · obtain ⟨y, hy, rfl⟩ := List.mem_map.mp hx
        have hbounds := hback.runs.offset_bounds hy
        have hoffset : y.1.offset = cut := hcut
        omega
  · rintro ⟨x, hx, hstarts⟩
    refine ⟨x, ?_, hstarts⟩
    rw [List.flatten_append, List.flatten_cons, List.map_append, List.map_append]
    exact List.mem_append_right _ (List.mem_append_left _ hx)

end Blocks

/-! ### Reading up to the cut -/

/-- A reading of the first bytes gives the records of a run up to the place where it
ends, if that is in front of the cut. -/
theorem Runs.readAll_front {trace : List (Record × RecordStream)} (h : Runs data s trace mid)
    (hmid : mid.AtTopLevel) (hle : mid.position ≤ cut) (hcut : cut ≤ data.size)
    (hv : (s.on store').Valid (data.extract 0 cut)) (hf : s.finished = false)
    (error : Option Error)
    (hnext : (mid.on store').next
      = (match error with | none => .ok none | some e => .error e, t)) :
    (s.on store').readAll.state.toList = trace.map place
      ∧ (s.on store').readAll.error = error := by
  have hcompletes : Completes (data.extract 0 cut) (s.on store') _ error t :=
    ⟨mid.on store', h.front hmid hle hcut, hnext⟩
  rw [hcompletes.readAll_eq hv hf]
  refine ⟨?_, rfl⟩
  rw [List.map_map]
  rfl

/-- A reading of the first bytes gives the blocks in front of the one that the cut falls
into.  It comes to its end if the cut is where that block starts, and else it is found to
be truncated. -/
theorem Blocks.readAll_front (hfront : Blocks data s front mid) (hblock : Block data mid block t)
    (hle : mid.position ≤ cut) (hlt : cut < t.position) (hcut : cut ≤ data.size)
    (htop : s.AtTopLevel) (hv : (s.on store').Valid (data.extract 0 cut))
    (hf : s.finished = false) :
    (s.on store').readAll.state.toList = front.flatten.map place
      ∧ (mid.position = cut → (s.on store').readAll.error = none)
      ∧ (mid.position ≠ cut → ∃ offset needed available,
          (s.on store').readAll.error = some (.truncated offset needed available)) := by
  -- the blocks in front of the cut are read from the front of the data as they are
  have hmid := hfront.atTopLevel htop
  have hvmid := (hfront.runs.front hmid hle hcut).valid hv
  have hfmid : (mid.on store').finished = false := hfront.runs.frame.2.2.2.1.trans hf
  by_cases hstart : mid.position = cut
  · have hnext := next_of_position_eq hvmid hcut hfmid hmid hstart
    obtain ⟨hstate, herror⟩ := hfront.runs.readAll_front hmid hle hcut hv hf none hnext
    exact ⟨hstate, fun _ => herror, fun h => absurd hstart h⟩
  · obtain ⟨code, time, payload, hframe, hstop⟩ := hblock.exists_framed
    obtain ⟨offset, needed, available, u, hnext⟩ := next_of_cut hvmid hcut hfmid hmid
      (Nat.lt_of_le_of_ne hle hstart) hframe (hstop ▸ hlt)
    obtain ⟨hstate, herror⟩ := hfront.runs.readAll_front hmid hle hcut hv hf (some _) hnext
    exact ⟨hstate, fun h => absurd h hstart, fun _ => ⟨offset, needed, available, herror⟩⟩

end RecordStream

/-! ### Snapshots -/

/-- A reading that fails makes no snapshot. -/
theorem Snapshot.ofStore_of_error (hs : store.Serves data) {options : Options} {e : Error}
    (h : (store.reading options.skipUnknownRecords).2 = some e) (attachSink : Bool) :
    ∃ diagnostics, Snapshot.ofStore store options attachSink = .error ⟨e, diagnostics⟩ := by
  rw [ByteStore.reading] at h
  rw [Snapshot.ofStore]
  rcases hstream : RecordStream.ofStore store options.skipUnknownRecords with e' | s
  · rw [hstream] at h
    cases h
    exact ⟨_, rfl⟩
  · rw [hstream] at h
    have hv := RecordStream.valid_of_ofStore hs hstream
    obtain ⟨header, -, rfl⟩ := RecordStream.ofStore_eq_ok_iff.mp hstream
    obtain ⟨trace, error, t, hcompletes⟩ := RecordStream.exists_completes hv rfl
    simp only [hcompletes.readAll_eq hv rfl] at h
    subst h
    simp only [hcompletes.fold_eq hv rfl]
    exact ⟨_, rfl⟩

/-- A reading to the end makes the snapshot of its records. -/
theorem Snapshot.ofStore_of_reading (hs : store.Serves data) {header : Header}
    (hheader : Header.read store = .ok header) {options : Options}
    (h : (store.reading options.skipUnknownRecords).2 = none) (attachSink : Bool) :
    Snapshot.ofStore store options attachSink
      = .ok ((((store.reading options.skipUnknownRecords).1.map Prod.fst).foldl Draft.push
          { header, diagnostics := .start attachSink }).finish options.resolveFields) := by
  have hstream : RecordStream.ofStore store options.skipUnknownRecords
      = .ok { store, header, skipUnknown := options.skipUnknownRecords
              position := header.length } :=
    RecordStream.ofStore_eq_ok_iff.mpr ⟨header, hheader, rfl⟩
  have hv := RecordStream.valid_of_ofStore hs hstream
  obtain ⟨trace, error, t, hcompletes⟩ := RecordStream.exists_completes hv rfl
  rw [ByteStore.reading, hstream] at h ⊢
  simp only [hcompletes.readAll_eq hv rfl] at h ⊢
  subst h
  rw [Snapshot.ofStore, hstream]
  simp only [hcompletes.fold_eq hv rfl, List.map_map, List.foldl_map]
  rfl

/-- Windows that go together come from options that are accepted. -/
theorem Options.validate_of_ofSource {source : Source} {options : Options} {shards : Shards}
    (h : Shards.ofSource source options.shardSize options.padding = .ok shards) :
    options.validate = .ok () := by
  rw [Shards.ofSource, Geometry.ofSizes] at h
  rw [Options.validate]
  split at h
  · cases h
  · rename_i hzero
    rw [if_neg hzero]
    split at h
    · rename_i hlt
      rw [if_neg (UInt64.not_le.mpr hlt)]
    · cases h

/-! ### The main statement -/

/-- **The first bytes of a dump are read to their end or found to be truncated.** -/
theorem reading_extract (hs : store.Serves data) (hs' : store'.Serves (data.extract 0 cut))
    (hcut : cut < data.size) {header : Header} (hheader : Header.read store = .ok header)
    {skipUnknown : Bool} {records : List (Record × Nat)}
    (hread : store.reading skipUnknown = (records, none)) :
    (header.length ≤ cut ∧ StartsAt cut records →
      store'.reading skipUnknown = (records.filter fun x => x.1.offset < cut, none))
    ∧ (¬(header.length ≤ cut ∧ StartsAt cut records) → ∃ offset needed available,
      store'.reading skipUnknown
        = (endedBy cut records, some (.truncated offset needed available))) := by
  let s : RecordStream := { store, header, skipUnknown, position := header.length }
  have hstream : RecordStream.ofStore store skipUnknown = .ok s :=
    RecordStream.ofStore_eq_ok_iff.mpr ⟨header, hheader, rfl⟩
  have hv := RecordStream.valid_of_ofStore hs hstream
  have htop : s.AtTopLevel := RecordStream.atTopLevel_of_none rfl
  -- the whole reading is a run in blocks
  rw [ByteStore.reading, hstream] at hread
  obtain ⟨hrecords, herror⟩ := Prod.mk.inj hread
  obtain ⟨trace, last, hruns, hlast, hend, hstate⟩ := RecordStream.runs_of_readAll hv rfl herror
  obtain ⟨blocks, rfl, hblocks⟩ := RecordStream.exists_blocks hv htop hruns hlast
  obtain rfl : blocks.flatten.map RecordStream.place = records := by
    rw [← hrecords, hstate]
    rfl
  by_cases hlength : header.length ≤ cut
  · -- the header is there, and the cut falls into a block or on its start
    have hheader' := Header.read_of_le hs hs' hcut.le hheader hlength
    have hstream' : RecordStream.ofStore store' skipUnknown = .ok (s.on store') :=
      RecordStream.ofStore_eq_ok_iff.mpr ⟨header, hheader', rfl⟩
    have hv' := RecordStream.valid_of_ofStore hs' hstream'
    obtain ⟨front, mid, block, t, back, rfl, hfront, hblock, hback, hle, hlt⟩ :=
      hblocks.exists_split hlength (hend ▸ hcut)
    obtain ⟨hstate', hboundary, hinside⟩ :=
      hfront.readAll_front hblock hle hlt hcut.le htop hv' rfl
    rw [hfront.startsAt_iff hblock hback hle hlt, ByteStore.reading, hstream']
    constructor
    · rintro ⟨-, hstart⟩
      rw [hfront.filter_offset_eq (.cons hblock hback) hstart]
      exact Prod.ext hstate' (hboundary hstart)
    · intro hnot
      obtain ⟨offset, needed, available, herror'⟩ :=
        hinside fun hstart => hnot ⟨hlength, hstart⟩
      rw [hblocks.endedBy_eq hfront hblock hback hle hlt]
      exact ⟨offset, needed, available, Prod.ext hstate' herror'⟩
  · -- the cut falls into the header
    obtain ⟨offset, needed, available, hheader'⟩ :=
      Header.read_of_cut hs hs' hheader (Nat.not_le.mp hlength)
    refine ⟨fun h => absurd h.1 hlength, fun _ => ⟨offset, needed, available, ?_⟩⟩
    rw [hblocks.endedBy_eq_nil (Nat.not_le.mp hlength).le, ByteStore.reading,
      RecordStream.ofStore, hheader']
    rfl

/-- **Truncation is detected.**  If a dump can be read, its first bytes give the records in
front of the cut when a top-level record starts there.  Every other cut is reported after
the records of the units that are whole, and no snapshot is made. -/
theorem truncation_detected {bytes : ByteArray} {backing backing' : Backing}
    {source source' : Source} {shardSize padding : UInt64} {options : Options}
    {shards shards' : Shards} {header : Header} {records : List (Record × Nat)} {cut : Nat}
    (hsource : Source.ofBytes? backing bytes = some source)
    (hshards : Shards.ofSource source shardSize padding = .ok shards)
    (hheader : Header.read shards.store = .ok header)
    (hread : shards.store.reading options.skipUnknownRecords = (records, none))
    (hcut : cut < bytes.size)
    (hsource' : Source.ofBytes? backing' (bytes.extract 0 cut) = some source')
    (hshards' : Shards.ofSource source' options.shardSize options.padding = .ok shards') :
    (header.length ≤ cut ∧ StartsAt cut records →
      shards'.store.reading options.skipUnknownRecords
        = (records.filter fun x => x.1.offset < cut, none))
    ∧ (¬(header.length ≤ cut ∧ StartsAt cut records) → ∃ offset needed available,
      shards'.store.reading options.skipUnknownRecords
          = (endedBy cut records, some (.truncated offset needed available))
        ∧ Snapshot.ofSource source' options = .error (.truncated offset needed available)) := by
  have hs := shards.store_serves
  rw [Shards.source_of_ofSource hshards, Source.bytes_of_ofBytes? hsource] at hs
  have hs' := shards'.store_serves
  rw [Shards.source_of_ofSource hshards', Source.bytes_of_ofBytes? hsource'] at hs'
  obtain ⟨hwhole, hpart⟩ := reading_extract hs hs' hcut hheader hread
  refine ⟨hwhole, fun hnot => ?_⟩
  obtain ⟨offset, needed, available, hreading⟩ := hpart hnot
  refine ⟨offset, needed, available, hreading, ?_⟩
  obtain ⟨diagnostics, hload⟩ :=
    Snapshot.ofStore_of_error hs' (congrArg Prod.snd hreading) false
  rw [Snapshot.ofSource, Options.validate_of_ofSource hshards', hshards']
  simp only [bind, Except.bind, Snapshot.ofShards, hload, Except.mapError]

/-- The sample dump behind windows of twenty bytes. -/
def sampleShards : Shards where
  source := ⟨.memory, sampleBytes, by decide +kernel⟩
  geometry := ⟨UInt64.ofNat sampleBytes.size, 16, 4, by decide, by decide⟩
  length_eq := rfl

/-- The sample dump, cut in front of its heap dump and inside it. -/
theorem truncation_detected_sample :
    ∃ records, Source.ofBytes? .memory sampleBytes = some sampleShards.source
      ∧ Shards.ofSource sampleShards.source 16 4 = .ok sampleShards
      ∧ Header.read sampleShards.store = .ok sampleHeader
      ∧ sampleShards.store.reading Options.lenient.skipUnknownRecords = (records, none)
      ∧ (∃ source shards, Source.ofBytes? .file (sampleBytes.extract 0 92) = some source
          ∧ Shards.ofSource source Options.lenient.shardSize Options.lenient.padding = .ok shards
          ∧ shards.store.reading Options.lenient.skipUnknownRecords
              = (records.filter fun x => x.1.offset < 92, none))
      ∧ ∃ source shards, Source.ofBytes? .file (sampleBytes.extract 0 150) = some source
          ∧ Shards.ofSource source Options.lenient.shardSize Options.lenient.padding = .ok shards
          ∧ ∃ offset needed available,
              shards.store.reading Options.lenient.skipUnknownRecords
                = (endedBy 150 records, some (.truncated offset needed available))
              ∧ Snapshot.ofSource source Options.lenient
                = .error (.truncated offset needed available) := by
  have hsource := Source.ofBytes?_of_lt .memory sampleShards.source.size_lt
  have hshards := Shards.ofSource_of_lt sampleShards.source (show (4 : UInt64) < 16 by decide)
    (by decide)
  have hheader : Header.read sampleShards.store = .ok sampleHeader := by decide +kernel
  have herror : (sampleShards.store.reading Options.lenient.skipUnknownRecords).2 = none := by
    decide +kernel
  have hpair (p : List (Record × Nat) × Option Error) (h : p.2 = none) : p = (p.1, none) :=
    Prod.ext rfl h
  have hread := hpair _ herror
  have hwindow : Options.lenient.padding < Options.lenient.shardSize := by decide
  have hlt₁ : (sampleBytes.extract 0 92).size < UInt64.size := by decide +kernel
  have hlt₂ : (sampleBytes.extract 0 150).size < UInt64.size := by decide +kernel
  have hshards₁ := Shards.ofSource_of_lt ⟨.file, _, hlt₁⟩ hwindow (by decide)
  have hshards₂ := Shards.ofSource_of_lt ⟨.file, _, hlt₂⟩ hwindow (by decide)
  refine ⟨_, hsource, hshards, hheader, hread,
    ⟨_, _, Source.ofBytes?_of_lt .file hlt₁, hshards₁, ?_⟩,
    _, _, Source.ofBytes?_of_lt .file hlt₂, hshards₂, ?_⟩
  · exact (truncation_detected hsource hshards hheader hread (by decide +kernel)
      (Source.ofBytes?_of_lt .file hlt₁) hshards₁).1 (by decide +kernel)
  · exact (truncation_detected hsource hshards hheader hread (by decide +kernel)
      (Source.ofBytes?_of_lt .file hlt₂) hshards₂).2 (by decide +kernel)

end HeapDump
