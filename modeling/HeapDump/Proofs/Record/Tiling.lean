/-
HeapDump/Proofs/Record/Tiling.lean

The records of a dump lie side by side.

`Tiles p records q` says that records follow each other from `p` to `q` without a gap:
each begins where the one before it ends.  It holds at three levels:

* the records of a run tile the bytes between the ends of the run (`Runs.tiles`);
* the sub-records of a heap dump tile its payload from the start, and all of it if the run
  goes on behind them (`Runs.tiles_subRecords`, `Runs.tiles_heapDump`);
* the records of a reading tile the dump from the end of its header (`records_tile_the_dump`).

Each level is an induction on the run whose step is a fact about one record: a record begins
where the stream stands (`Step.offset_eq`), and it has a least length (`Step.add_least_le`),
which bounds the number of records.

A reading is made of calls, and the statement about a dump is about what its calls give.  The
call of number `i` gives the record of number `i` (`Runs.next_after`), the call behind the
last record gives the end or the error (`Runs.after_length`), and behind a call that gives no
record no call does anything (`after_of_finished`).
-/
import HeapDump.Proofs.Record.Failure
import HeapDump.Proofs.Record.Truncation

namespace HeapDump

/-- Records that follow each other from one place to another: each begins where the one
before it ends. -/
def Tiles : Nat → List (Record × Nat) → Nat → Prop
  | p, [], q => p = q
  | p, x :: rest, q => x.1.offset = p ∧ p ≤ x.2 ∧ Tiles x.2 rest q

/-- The least number of bytes of a record: a sub-record has a tag and an identifier, and a
top-level record has a header. -/
def Record.least (idSize : Nat) (r : Record) : Nat :=
  if r.body.isSubRecord then 1 + idSize else recordHeaderLength

/-- Every sub-record has an identifier behind its tag. -/
theorem HeapRecord.add_idSize_le_length_written (idSize : Nat) (r : HeapRecord) :
    1 + idSize ≤ (r.written idSize).length := by
  have hident : ∀ id, (Written.ident idSize id).length = idSize := fun id =>
    BigEndian.length_toList ..
  rw [written, List.length_cons]
  cases r with
  | heapInfo heapId nameId =>
    simp only [fieldBytes, List.length_append, hident]
    omega
  | root root =>
    simp only [fieldBytes, List.length_append, hident]
    omega
  | classDump d =>
    simp only [fieldBytes, ClassDump.fieldBytes, List.length_append, hident]
    omega
  | object d =>
    cases d <;> simp only [fieldBytes, ObjectDump.fieldBytes, List.length_append, hident] <;> omega

namespace RecordStream

variable {data : ByteArray} {s t last : RecordStream} {r : Record}
  {trace : List (Record × RecordStream)}

/-! ### Single records -/

/-- What a payload spells is no sub-record. -/
theorem isSubRecord_of_spells {idSize : Nat} {tag : Tag} {b : Body} {bs : List UInt8}
    (h : b.Spells idSize tag bs) : b.isSubRecord = false :=
  (single_of_spells h : _ ∧ Record.stop ⟨0, none, b⟩ 0 = 0).1

/-- A record is a sub-record exactly if it has no time. -/
theorem Step.time_eq_none_iff (h : Step data s r t) :
    r.time = none ↔ r.body.isSubRecord = true := by
  cases h with
  | subRecord => exact iff_of_true rfl rfl
  | heapDump | unknown => exact iff_of_false (Option.some_ne_none _) Bool.false_ne_true
  | topLevel htop htag hframe hbody =>
    have hsub := isSubRecord_of_spells hbody
    exact iff_of_false (Option.some_ne_none _) (Bool.eq_false_iff.mp hsub)

/-- A step moves on by as many bytes as a record of the kind has at least. -/
theorem Step.add_least_le (h : Step data s r t) :
    s.position + r.least s.header.idSize ≤ t.position := by
  cases h with
  -- the bytes of a sub-record are the written ones up to what is not read, so as many
  | @subRecord stop q record bs hopen hlt hq hwf hbs hspan =>
    have hlen := hspan.length_eq
    have hmarks := hbs.length_eq
    have hleast := record.add_idSize_le_length_written s.header.idSize
    rw [← HeapRecord.map_byte_marks, List.length_map, hmarks] at hleast
    show s.position + (1 + s.header.idSize) ≤ q
    omega
  -- the start of a heap dump is a header and nothing else; its payload comes afterwards
  | heapDump htop hframe => exact Nat.le_refl _
  | unknown htop hskip htag hframe => exact Nat.le_add_right _ _
  | topLevel htop htag hframe hbody =>
    have hsub := isSubRecord_of_spells hbody
    rw [Record.least, if_neg (Bool.eq_false_iff.mp hsub)]
    exact Nat.le_add_right _ _

/-! ### Runs -/

/-- The records of a run lie side by side between its ends. -/
theorem Runs.tiles (h : Runs data s trace t) : Tiles s.position (trace.map place) t.position := by
  induction h with
  | done s => exact rfl
  | step h rest ih => exact ⟨h.offset_eq, Nat.le_of_lt h.position_lt, ih⟩

/-- A run moves on by five bytes at least for each record. -/
theorem Runs.five_mul_length_le (h : Runs data s trace t) (hwidth : 4 ≤ s.header.idSize) :
    s.position + 5 * trace.length ≤ t.position := by
  induction h with
  | done s => exact Nat.le_refl _
  | @step s u t r trace hstep rest ih =>
    have hleast := hstep.add_least_le
    have hrest := ih (hstep.frame.2.1 ▸ hwidth)
    -- a tag and an identifier, which four bytes have at least, or the nine bytes of a header
    have hfive : 5 ≤ r.least s.header.idSize := by
      rw [Record.least]
      split
      · omega
      · decide
    rw [List.length_cons]
    omega

/-- Each record of a run has the least length of its kind, and a time unless it is a
sub-record. -/
theorem Runs.forall_mem (h : Runs data s trace t) : ∀ x ∈ trace,
    (x.1.time = none ↔ x.1.body.isSubRecord = true)
      ∧ x.1.offset + x.1.least s.header.idSize ≤ x.2.position := by
  induction h with
  | done s => exact fun x hx => by cases hx
  | @step s u t r trace hstep rest ih =>
    intro x hx
    rcases List.mem_cons.mp hx with rfl | hx
    · exact ⟨hstep.time_eq_none_iff, hstep.offset_eq ▸ hstep.add_least_le⟩
    · rw [← hstep.frame.2.1]
      exact ih x hx

/-- **The first sub-records of a run inside a heap dump lie side by side**, and they go up to
its end if the run goes on behind them or ends at the top level. -/
theorem Runs.tiles_subRecords (h : Runs data s trace t) (hv : s.Valid data) {stop : Nat}
    (hopen : s.segmentEnd = some stop) :
    ∃ q ≤ stop, Tiles s.position ((trace.map place).takeWhile (·.1.body.isSubRecord)) q
      ∧ ((∃ x ∈ trace, x.1.body.isSubRecord = false) ∨ t.AtTopLevel → q = stop) := by
  induction h with
  | done s =>
    -- nothing is read: the run ends inside the heap dump or exactly at its end
    obtain ⟨hle, -⟩ := hv.segment_le stop hopen
    refine ⟨s.position, hle, rfl, ?_⟩
    rintro (⟨x, hx, -⟩ | htop)
    · cases hx
    · exact Nat.le_antisymm hle (htop stop hopen)
  | @step s u t r trace hstep rest ih =>
    have hvalid := hstep.valid hv
    have hoffset := hstep.offset_eq
    have hlt := hstep.position_lt
    by_cases hsub : r.body.isSubRecord = true
    -- behind a sub-record the heap dump is still open, and the rest of the run goes on in it
    · have hopen' : u.segmentEnd = some stop := by
        cases hstep with
        | subRecord => exact hopen
        | heapDump | unknown => cases hsub
        | topLevel _ _ _ hbody =>
          rw [isSubRecord_of_spells hbody] at hsub
          cases hsub
      obtain ⟨q, hq, htiles, hend⟩ := ih hvalid hopen'
      refine ⟨q, hq, ?_, fun hon => hend (hon.imp_left ?_)⟩
      · rw [List.map_cons, List.takeWhile_cons_of_pos (a := place (r, u)) hsub]
        exact ⟨hoffset, Nat.le_of_lt hlt, htiles⟩
      · rintro ⟨x, hx, hx'⟩
        rcases List.mem_cons.mp hx with rfl | hx
        · rw [hsub] at hx'
          cases hx'
        · exact ⟨x, hx, hx'⟩
    · -- a top-level record comes when the heap dump is over
      have htop : s.AtTopLevel := by
        cases hstep with
        | subRecord => exact absurd rfl hsub
        | heapDump htop | unknown htop | topLevel htop => exact htop
      obtain ⟨hle, -⟩ := hv.segment_le stop hopen
      have heq := Nat.le_antisymm hle (htop stop hopen)
      refine ⟨s.position, hle, ?_, fun _ => heq⟩
      rw [List.map_cons, List.takeWhile_cons_of_neg (a := place (r, u)) hsub]
      exact rfl

/-! ### Calls -/

/-- The calls of a stream give the records of a run, one after the other. -/
theorem Runs.after_append {front back : List (Record × RecordStream)}
    (h : Runs data s (front ++ back) t) (hv : s.Valid data) (hf : s.finished = false) :
    Runs data (s.after front.length) back t ∧ (s.after front.length).Valid data
      ∧ (s.after front.length).finished = false := by
  induction front generalizing s with
  | nil => exact ⟨h, hv, hf⟩
  -- the first call gives the first record, and the other calls are those of the stream behind it
  | cons x front ih =>
    cases h with
    | @step s u t r trace hstep rest =>
      have hnext : s.next.2 = u := by rw [(next_eq_some_iff hv hf).mpr hstep]
      have hafter : s.after (front.length + 1) = u.after front.length := by
        rw [after, Function.iterate_succ_apply, hnext, after]
      rw [List.length_cons, hafter]
      exact ih rest (hstep.valid hv) (hstep.frame.2.2.2.1.trans hf)

/-- The sub-records behind the start of a heap dump lie side by side in its payload. -/
theorem Runs.tiles_heapDump (h : Runs data s trace t) (hv : s.Valid data)
    (hf : s.finished = false) {front back : List (Record × Nat)} {offset length p : Nat}
    {time : Option UInt32} {segment : Bool} {ended : Prop}
    (hrecords : trace.map place
      = front ++ (⟨offset, time, .heapDumpStart segment length⟩, p) :: back)
    (hended : ended → t.AtTopLevel) :
    p = offset + recordHeaderLength
      ∧ ∃ q ≤ p + length, Tiles p (back.takeWhile (·.1.body.isSubRecord)) q
        ∧ ((∃ x ∈ back, x.1.body.isSubRecord = false) ∨ ended → q = p + length) := by
  -- the run that is left behind the records before the heap dump begins with its start
  obtain ⟨front, rest, rfl, rfl, hback⟩ := List.map_eq_append_iff.mp hrecords
  obtain ⟨x, back, rfl, hx, rfl⟩ := List.map_eq_cons_iff.mp hback
  obtain ⟨hruns, hv', -⟩ := h.after_append hv hf
  cases hruns with
  | @step s u t r trace hstep rest =>
    obtain ⟨rfl, rfl⟩ := Prod.mk.inj hx
    have hvalid := hstep.valid hv'
    cases hstep with
    | topLevel htop htag hframe hbody => cases hbody.1
    | heapDump htop hframe =>
      obtain ⟨q, hq, htiles, hend⟩ := rest.tiles_subRecords hvalid rfl
      refine ⟨rfl, q, hq, htiles, ?_⟩
      rintro (⟨x, hmem, hx⟩ | hended')
      · obtain ⟨y, hy, rfl⟩ := List.mem_map.mp hmem
        exact hend (.inl ⟨y, hy, hx⟩)
      · exact hend (.inr (hended hended'))

/-- The record at a place of a run is what the call of that number gives. -/
theorem Runs.next_after {steps : List (Record × RecordStream)} (h : Runs data s steps t)
    (hv : s.Valid data) (hf : s.finished = false) {i : Nat} {x : Record × RecordStream}
    (hx : steps[i]? = some x) : (s.after i).next = (.ok (some x.1), x.2) := by
  obtain ⟨hi, hget⟩ := List.getElem?_eq_some_iff.mp hx
  rw [← List.take_append_drop i steps, List.drop_eq_getElem_cons hi, hget] at h
  obtain ⟨hruns, hv', hf'⟩ := h.after_append hv hf
  rw [List.length_take_of_le (Nat.le_of_lt hi)] at hruns hv' hf'
  rw [next_eq_some_iff hv' hf']
  cases hruns with
  | step hstep rest => exact hstep

/-- Behind all records of a run stands the stream that it comes to. -/
theorem Runs.after_length (h : Runs data s trace t) (hv : s.Valid data)
    (hf : s.finished = false) : s.after trace.length = t := by
  have hall := h
  rw [← List.append_nil trace] at hall
  have hruns := (hall.after_append hv hf).1
  generalize s.after trace.length = u at hruns
  cases hruns
  rfl

/-- A stream that gives nothing does so for ever, and it stays as it is. -/
theorem after_of_finished (hf : s.finished = true) (m : Nat) : s.after m = s := by
  induction m with
  | zero => rfl
  | succ m ih => rw [after_succ, ih, next_of_finished hf]

theorem after_add (n m : Nat) (s : RecordStream) : s.after (n + m) = (s.after n).after m := by
  rw [after, after, after, Nat.add_comm, Function.iterate_add_apply]

/-- A call that gives no record finishes the stream. -/
theorem finished_next (h : ∀ r, s.next.1 ≠ .ok (some r)) : s.next.2.finished = true := by
  rcases hf : s.finished with _ | _
  · exact next_finished hf rfl h
  · rw [next_of_finished hf]
    exact hf

/-- A reading gives the records of a complete run. -/
theorem Completes.reading_eq {store : ByteStore} {skipUnknown : Bool} {error : Option Error}
    (h : Completes data s trace error t) (hstream : ofStore store skipUnknown = .ok s)
    (hv : s.Valid data) (hf : s.finished = false) :
    store.reading skipUnknown = (trace.map place, error) := by
  rw [ByteStore.reading, hstream]
  show (s.readAll.state.toList, s.readAll.error) = _
  rw [h.readAll_eq hv hf, List.toList_toArray]
  rfl

end RecordStream

/-! ### Dumps -/

section Dumps

open RecordStream

/-- **The records of a dump tile it.**  Every call of a reading leaves a stream inside the
dump and inside the heap dump that it has open.  The records are what the calls give; they
lie side by side from the end of the header to where the reading ends, which is the end of
the dump if there is no error.  The sub-records behind the start of a heap dump lie side by
side in its payload and fill it before the next top-level record.  A record has a time unless
it is a sub-record, and a least length, so there are no more than one for five bytes.  Behind
a call that gives no record, all calls give none and change nothing. -/
theorem records_tile_the_dump {backing : Backing} {bytes : ByteArray} {source : Source}
    {shardSize padding : UInt64} {shards : Shards} {skipUnknown : Bool} {s : RecordStream}
    (hsource : Source.ofBytes? backing bytes = some source)
    (hshards : Shards.ofSource source shardSize padding = .ok shards)
    (hstream : RecordStream.ofStore shards.store skipUnknown = .ok s) :
    ∃ records error q, shards.store.reading skipUnknown = (records, error)
      ∧ (∀ n, s.header.length ≤ (s.after n).position ∧ (s.after n).position ≤ bytes.size
          ∧ ∀ stop ∈ (s.after n).segmentEnd, (s.after n).position ≤ stop ∧ stop ≤ bytes.size)
      ∧ (∀ i x, records[i]? = some x →
          (s.after i).next.1 = .ok (some x.1) ∧ (s.after (i + 1)).position = x.2)
      ∧ (s.after records.length).next.1 = (match error with
          | none => .ok none
          | some e => .error e)
      ∧ Tiles s.header.length records q ∧ q ≤ bytes.size ∧ (error = none → q = bytes.size)
      ∧ (∀ front back offset time segment length p,
          records = front ++ (⟨offset, time, .heapDumpStart segment length⟩, p) :: back →
          p = offset + recordHeaderLength
            ∧ ∃ q ≤ p + length, Tiles p (back.takeWhile (·.1.body.isSubRecord)) q
              ∧ ((∃ x ∈ back, x.1.body.isSubRecord = false) ∨ error = none → q = p + length))
      ∧ (∀ x ∈ records, (x.1.time = none ↔ x.1.body.isSubRecord = true)
          ∧ x.1.offset + x.1.least s.header.idSize ≤ x.2)
      ∧ records.length ≤ (bytes.size - s.header.length) / 5
      ∧ ∀ n, (∀ r, (s.after n).next.1 ≠ .ok (some r)) →
          ∀ m, (s.after (n + 1 + m)).next = (.ok none, s.after (n + 1)) := by
  -- The stream serves the bytes of the dump and stands behind the header.
  have hs := shards.store_serves
  have hsize := source.size_lt
  rw [Shards.source_of_ofSource hshards, Source.bytes_of_ofBytes? hsource] at hs
  rw [Source.bytes_of_ofBytes? hsource] at hsize
  have hreached := reached_of_ofStore hs hsize hstream
  have hv := hreached.valid
  have hf : s.finished = false := by
    obtain ⟨header, -, rfl⟩ := ofStore_eq_ok_iff.mp hstream
    rfl
  have hposition : s.position = s.header.length := by
    obtain ⟨header, -, rfl⟩ := ofStore_eq_ok_iff.mp hstream
    rfl
  -- The reading is a complete run; without an error it ends at the top level, at the end.
  obtain ⟨trace, error, t, hcompletes⟩ := exists_completes hv hf
  obtain ⟨last, hruns, hlast⟩ := hcompletes.exists_last
  have hnone : error = none → last.AtTopLevel ∧ last.position = bytes.size := by
    rintro rfl
    have hend := (next_eq_none_iff (hruns.valid hv) (hruns.frame.2.2.2.1.trans hf)).mp hlast
    exact ⟨hend.1, hend.2.1⟩
  refine ⟨_, error, last.position, hcompletes.reading_eq hstream hv hf, fun n => ?_,
    fun i x hx => ?_, ?_, ?_, (hruns.valid hv).position_le, fun h => (hnone h).2, ?_, ?_, ?_,
    fun n hn m => ?_⟩
  -- every call leaves a stream inside the dump: reached streams are kept by calls
  · obtain ⟨hn, hheader⟩ := hreached.after n
    have hcount := hn.count_le
    rw [hheader] at hcount
    exact ⟨(Nat.le_add_right _ _).trans hcount, hn.valid.position_le, hn.valid.segment_le⟩
  -- the call of number `i` gives the record of number `i`
  · rw [List.getElem?_map, Option.map_eq_some_iff] at hx
    obtain ⟨y, hy, rfl⟩ := hx
    have hnext := hruns.next_after hv hf hy
    rw [after_succ, hnext]
    exact ⟨rfl, rfl⟩
  -- the call behind the last record gives the end or the error
  · rewrite [List.length_map, hruns.after_length hv hf, hlast]
    cases error <;> rfl
  -- the records lie side by side
  · rw [← hposition]
    exact hruns.tiles
  -- so do the sub-records of each heap dump
  · intro front back offset time segment length p hrecords
    exact hruns.tiles_heapDump hv hf hrecords fun h => (hnone h).1
  · intro x hx
    obtain ⟨y, hy, rfl⟩ := List.mem_map.mp hx
    exact hruns.forall_mem y hy
  -- five bytes at least for each record
  · rw [List.length_map, Nat.le_div_iff_mul_le (by decide)]
    have hwidth := hreached.idSize_eq
    have hlen := hruns.five_mul_length_le (by omega)
    have hle := (hruns.valid hv).position_le
    omega
  -- a finished stream stays as it is
  · have hfinished := finished_next hn
    rw [after_add, after_succ, after_of_finished hfinished, next_of_finished hfinished]

/-- The stream that begins to read the sample dump. -/
def sampleStream : RecordStream where
  store := sampleShards.store
  header := sampleHeader
  skipUnknown := false
  position := sampleHeader.length

theorem records_tile_sampleBytes :
    Source.ofBytes? .memory sampleBytes = some sampleShards.source
      ∧ Shards.ofSource sampleShards.source 16 4 = .ok sampleShards
      ∧ RecordStream.ofStore sampleShards.store false = .ok sampleStream
      ∧ ∃ records, sampleShards.store.reading false = (records, none)
        ∧ Tiles sampleStream.header.length records sampleBytes.size
        ∧ records.length ≤ (sampleBytes.size - sampleStream.header.length) / 5 := by
  have hsource : Source.ofBytes? .memory sampleBytes = some sampleShards.source :=
    Source.ofBytes?_of_lt .memory sampleShards.source.size_lt
  have hshards := Shards.ofSource_of_lt sampleShards.source (show (4 : UInt64) < 16 by decide)
    (by decide)
  have hstream : RecordStream.ofStore sampleShards.store false = .ok sampleStream :=
    RecordStream.ofStore_eq_ok_iff.mpr ⟨sampleHeader, by decide +kernel, rfl⟩
  obtain ⟨records, error, q, hreading, -, -, -, htiles, -, hend, -, -, hlen, -⟩ :=
    records_tile_the_dump hsource hshards hstream
  -- the sample dump is read without an error
  obtain rfl : error = none := by
    have herror : (sampleShards.store.reading false).2 = none := by decide +kernel
    exact (congrArg Prod.snd hreading).symm.trans herror
  rw [hend rfl] at htiles
  exact ⟨hsource, hshards, hstream, records, hreading, htiles, hlen⟩

end Dumps

end HeapDump
