/-
HeapDump/Proofs/Record/Verdicts.lean

What reading a header says, and what it still says when the file grows.

There are three verdicts: the header is read, the file is no dump, or the file is too short.
The first two are final: bytes that are appended do not change them.  The third one is that of
every file that ends inside the header of a dump.

A header that stands in a file stands in every longer one, so the first verdict is kept
because reading is local (`Header.read_append`).  For the second, suppose that the longer file
gets another verdict.  If a header were read of it, the shorter file would give the same header
or be cut by its end; if it were too short, so would be its beginning.

The verdict does not depend on the windows through which the file is read: `Shards.Over` says
only what bytes the windows are over.  Main statement: `header_verdicts`.
-/
import HeapDump.Proofs.Record.Concatenation
import HeapDump.Proofs.Record.RoundTrip
import HeapDump.Proofs.Shards.History

namespace HeapDump

/-- Windows over some bytes, of measures that go together. -/
def Shards.Over (shards : Shards) (bytes : ByteArray) : Prop :=
  ∃ backing source shardSize padding, Source.ofBytes? backing bytes = some source
    ∧ Shards.ofSource source shardSize padding = .ok shards

theorem Shards.Over.serves {shards : Shards} {bytes : ByteArray} (h : shards.Over bytes) :
    shards.store.Serves bytes := by
  obtain ⟨backing, source, shardSize, padding, hsource, hshards⟩ := h
  rw [← Source.bytes_of_ofBytes? hsource, ← source_of_ofSource hshards]
  exact shards.store_serves

/-- Bytes that are counted in a word can be looked at through windows. -/
theorem Shards.over_of_lt (backing : Backing) {bytes : ByteArray} (h : bytes.size < UInt64.size)
    {shardSize padding : UInt64} (lt : padding < shardSize)
    (sum : shardSize.toNat + padding.toNat < UInt64.size) :
    Shards.Over ⟨⟨backing, bytes, h⟩, ⟨_, shardSize, padding, lt, sum⟩, rfl⟩ bytes :=
  ⟨backing, _, shardSize, padding, Source.ofBytes?_of_lt backing h, ofSource_of_lt _ lt sum⟩

namespace Header

variable {data tail : ByteArray} {store store' : ByteStore}

/-- A file that is no dump does not become one when bytes are appended. -/
theorem read_append_of_invalidHeader (hs : store.Serves data)
    (hs' : store'.Serves (data ++ tail)) {fault : HeaderFault}
    (h : Header.read store = .error (.invalidHeader fault)) :
    ∃ fault', Header.read store' = .error (.invalidHeader fault') := by
  have hfront : (data ++ tail).extract 0 data.size = data := by
    rw [ByteArray.extract_append, ByteArray.extract_zero_size, Nat.zero_sub, Nat.sub_self,
      ByteArray.extract_same, ByteArray.append_empty]
  have hs₀ : store.Serves ((data ++ tail).extract 0 data.size) := hfront.symm ▸ hs
  cases hread : Header.read store' with
  | ok header =>
    -- a header would be read of the front too, or be cut by its end
    by_cases hle : header.length ≤ data.size
    · rw [read_of_le hs' hs₀ (by rw [ByteArray.size_append]; omega) hread hle] at h
      cases h
    · obtain ⟨_, _, _, hcut⟩ := read_of_cut hs' hs₀ hread (Nat.not_le.mp hle)
      rw [hcut] at h
      cases h
  | error err =>
    rcases read_eq_error hs' hread with ⟨fault', rfl⟩ | ⟨needed, rfl, -⟩
    · exact ⟨fault', rfl⟩
    · have hunfinished := (read_eq_truncated_iff hs').mp ⟨needed, hread⟩
      rw [ByteArray.data_append, Array.toList_append] at hunfinished
      obtain ⟨needed', hshort⟩ := (read_eq_truncated_iff hs).mpr hunfinished.of_append
      rw [hshort] at h
      cases h

end Header

/-! ### The main statement -/

/-- **The verdict on a header**, whatever the windows.  It is read exactly if it stands at the start
of the file, and is what stands there.  Otherwise the file is no dump or is too short.  It is too
short wherever it ends inside a header, and that a header stands there, or that the file is no dump,
holds for all files that begin with its bytes. -/
theorem header_verdicts {bytes : ByteArray} {shards : Shards} (hshards : shards.Over bytes) :
    (∀ header, Header.read shards.store = .ok header
      ↔ ∃ n, Header.Begins bytes n ∧ header = .endingAt bytes n)
    ∧ (∀ err, Header.read shards.store = .error err → (∃ fault, err = .invalidHeader fault)
      ∨ ∃ offset needed available, err = .truncated offset needed available)
    ∧ (∀ n, Header.Begins bytes n → ∀ cut < n + 13, ∀ front : Shards,
      front.Over (bytes.extract 0 cut) → ∃ offset needed available,
        Header.read front.store = .error (.truncated offset needed available))
    ∧ ∀ (tail : ByteArray) (longer : Shards), longer.Over (bytes ++ tail) →
      (∀ header, Header.read shards.store = .ok header → Header.read longer.store = .ok header)
      ∧ ∀ fault, Header.read shards.store = .error (.invalidHeader fault) →
        ∃ fault', Header.read longer.store = .error (.invalidHeader fault') := by
  have hs := hshards.serves
  refine ⟨fun header => Header.read_eq_ok_iff_begins hs, fun err herr => ?_,
    fun n hn cut hcut front hfront => ?_, fun tail longer hlonger => ⟨fun header hread => ?_,
      fun fault hread => ?_⟩⟩
  · exact (Header.read_eq_error hs herr).imp_right fun ⟨needed, heq, _⟩ => ⟨_, needed, _, heq⟩
  -- a header that is cut is too short, whatever the windows over the front
  · have hread := (Header.read_eq_ok_iff_begins hs).mpr ⟨n, hn, rfl⟩
    exact Header.read_of_cut hs hfront.serves hread hcut
  · exact Header.read_append hs hlonger.serves hread
  · exact Header.read_append_of_invalidHeader hs hlonger.serves hread

/-- The sample dump, cut inside its header; and a file that is no dump, with the sample dump behind
it. -/
theorem header_verdicts_sample :
    ∃ shards front other longer : Shards, shards.Over sampleBytes
      ∧ front.Over (sampleBytes.extract 0 20) ∧ other.Over tenBytes
      ∧ longer.Over (tenBytes ++ sampleBytes)
      ∧ (∃ n, Header.Begins sampleBytes n ∧ 20 < n + 13)
      ∧ Header.read shards.store = .ok sampleHeader
      ∧ (∃ offset needed available,
        Header.read front.store = .error (.truncated offset needed available))
      ∧ (∃ fault, Header.read other.store = .error (.invalidHeader fault))
      ∧ ∃ fault, Header.read longer.store = .error (.invalidHeader fault) := by
  have hwindow : (1 : UInt64) < 4 := by decide
  have hshards := Shards.over_of_lt .memory (show sampleBytes.size < UInt64.size by decide +kernel)
    hwindow (by decide)
  have hfront := Shards.over_of_lt .file
    (show (sampleBytes.extract 0 20).size < UInt64.size by decide +kernel) hwindow (by decide)
  let other : Shards := ⟨⟨.memory, tenBytes, by decide⟩, ⟨_, 4, 1, by decide, by decide⟩, rfl⟩
  have hother : other.Over tenBytes := Shards.over_of_lt .memory (by decide) hwindow (by decide)
  have hlonger := Shards.over_of_lt .file
    (show (tenBytes ++ sampleBytes).size < UInt64.size by decide +kernel) hwindow (by decide)
  have hbegins : Header.Begins sampleBytes 18 :=
    ⟨by decide +kernel, by decide +kernel, by decide, by decide, by decide +kernel,
      by decide +kernel⟩
  obtain ⟨hread, -, hcut, -⟩ := header_verdicts hshards
  obtain ⟨-, -, -, hfinal⟩ := header_verdicts hother
  have hfault : Header.read other.store = .error (.invalidHeader (.unknownFormat "")) := by decide +kernel
  exact ⟨_, _, _, _, hshards, hfront, hother, hlonger, ⟨18, hbegins, by decide⟩,
    (hread _).mpr ⟨18, hbegins, by decide +kernel⟩, hcut 18 hbegins 20 (by decide) _ hfront,
    ⟨_, hfault⟩, (hfinal _ _ hlonger).2 _ hfault⟩

end HeapDump
