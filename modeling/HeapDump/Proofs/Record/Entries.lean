/-
HeapDump/Proofs/Record/Entries.lean

Runs of a stream against what a writer thinks of.

A stream gives single records, a writer has whole top-level records.
`Entry.At data idSize p q e` says that bytes that are read as the top-level record
`e` stand from `p` to `q`, and `Entries data idSize p es records` that such bytes
stand one after the other from `p` to the end of `data`, `records` being what a
reader finds.

The two views are compared in both directions.  A stream runs through everything that is
spelled (`runs_of_entries`, induction on the entries, with the sub-records of a heap dump
swept up by an induction of their own).  What a strict stream runs through to the end is
spelled, by the entries that are put together from its records (`entries_of_runs`,
`Entry.ofRecords`): here the induction is on the number of records, as a heap dump takes
all its sub-records away at once.

Round trips in either direction are instances: writing and reading back
(`read_dump`), and reading and writing again (`reencode`).
-/
import HeapDump.Proofs.Record.Run

namespace HeapDump

open Written

/-! ### Spellings of top-level records -/

/-- The tag code and the payload say what a top-level record holds. -/
def Entry.Content.Spells (idSize : Nat) (code : UInt8) (c : Entry.Content)
    (payload : List UInt8) : Prop :=
  match c with
  | fields body =>
    (body.payload? idSize).isSome = true
      ∧ ∃ tag : Tag, code = tag.code ∧ body.Spells idSize tag payload
  | skipped code' bytes =>
    code = code' ∧ bytes.length = payload.length
      ∧ ∃ tag : Tag, code = tag.code ∧ tag.isPassedOver = true
  | heapDump segment records =>
    code = (RecordStream.heapDumpTag segment).code ∧ (∀ r ∈ records, r.WellFormed idSize)
      ∧ Spelled (records.flatMap (HeapRecord.marks idSize)) payload

/-- Sub-records stand one after the other between two places. -/
structure SubRecords (data : ByteArray) (idSize p q : Nat) (records : List HeapRecord) : Prop where
  wellFormed : ∀ r ∈ records, r.WellFormed idSize
  exists_spelling : ∃ bs, Spelled (records.flatMap (HeapRecord.marks idSize)) bs ∧ Span data p q bs

section SubRecords

variable {data : ByteArray} {idSize p q : Nat} {r : HeapRecord} {records : List HeapRecord}

theorem SubRecords.start_le (h : SubRecords data idSize p q records) : p ≤ q := by
  obtain ⟨bs, -, hspan⟩ := h.exists_spelling
  exact hspan.start_le

theorem subRecords_nil_iff : SubRecords data idSize p q [] ↔ p = q ∧ q ≤ data.size := by
  constructor
  · rintro ⟨-, bs, hbs, hspan⟩
    obtain rfl := spelled_nil_iff.mp hbs
    exact span_nil_iff.mp hspan
  · intro h
    exact ⟨by simp, [], spelled_nil_iff.mpr rfl, span_nil_iff.mpr h⟩

theorem subRecords_cons_iff :
    SubRecords data idSize p q (r :: records) ↔ ∃ mid bs, r.WellFormed idSize
      ∧ Spelled (r.marks idSize) bs ∧ Span data p mid bs
      ∧ SubRecords data idSize mid q records := by
  constructor
  · rintro ⟨hwf, bs, hbs, hspan⟩
    obtain ⟨hr, hwf⟩ := List.forall_mem_cons.mp hwf
    rw [List.flatMap_cons] at hbs
    obtain ⟨xs, ys, rfl, hxs, hys⟩ := spelled_append_iff.mp hbs
    obtain ⟨mid, hspan1, hspan2⟩ := span_append_iff.mp hspan
    exact ⟨mid, xs, hr, hxs, hspan1, hwf, ys, hys, hspan2⟩
  · rintro ⟨mid, xs, hr, hxs, hspan1, hwf, ys, hys, hspan2⟩
    refine ⟨List.forall_mem_cons.mpr ⟨hr, hwf⟩, xs ++ ys, ?_, hspan1.append hspan2⟩
    rw [List.flatMap_cons]
    exact hxs.append hys

/-- Spelling sub-records takes as many bytes as writing them. -/
theorem HeapRecord.length_of_spelled {bs : List UInt8}
    (h : Spelled (records.flatMap (HeapRecord.marks idSize)) bs) :
    (records.flatMap (HeapRecord.written idSize)).length = bs.length := by
  rw [← h.length_eq, ← HeapRecord.map_byte_flatMap_marks, List.length_map]

end SubRecords

/-- A top-level record and its spelling stand at a place. -/
structure Entry.At (data : ByteArray) (idSize : Nat) (p q : Nat) (e : Entry) : Prop where
  intro ::
  exists_frame : ∃ code payload, Framed data p code e.time payload
    ∧ q = p + recordHeaderLength + payload.length ∧ e.content.Spells idSize code payload

/-- Top-level records stand one after the other from a place to the end. -/
inductive Entries (data : ByteArray) (idSize : Nat) : Nat → List Entry → List Record → Prop where
  | nil : Entries data idSize data.size [] []
  | cons {p q : Nat} {e : Entry} {es : List Entry} {records : List Record}
      (h : e.At data idSize p q) (rest : Entries data idSize q es records) :
      Entries data idSize p (e :: es) (e.records idSize p ++ records)

/-- No record that spells something is a heap dump. -/
theorem Body.Spells.isHeapDump_eq_false {idSize : Nat} {tag : Tag} {b : Body} {bs : List UInt8}
    (h : b.Spells idSize tag bs) : tag.isHeapDump = false := by
  cases b with
  | string => rw [h.1]; rfl
  | skipped =>
    obtain ⟨hpassed, -⟩ := h
    cases tag with
    | heapDump | heapDumpSegment => cases hpassed
    | _ => rfl
  | _ => cases h.2 <;> rfl

namespace RecordStream

variable {data : ByteArray} {s t last : RecordStream} {trace : List (Record × RecordStream)}

/-! ### From spellings to runs -/

/-- A run through the sub-records of the open heap dump, up to its end. -/
structure Sweeps (data : ByteArray) (s : RecordStream) (stop : Nat) (records : List HeapRecord)
    (trace : List (Record × RecordStream)) (t : RecordStream) : Prop where
  runs : Runs data s trace t
  segmentEnd_eq : t.segmentEnd = some stop
  position_eq : t.position = stop
  map_eq : trace.map Prod.fst = HeapRecord.recordsFrom s.header.idSize s.position records

theorem Sweeps.atTopLevel {stop : Nat} {records : List HeapRecord}
    (h : Sweeps data s stop records trace t) : t.AtTopLevel := by
  intro stop' hstop
  rw [h.segmentEnd_eq] at hstop
  cases hstop
  exact Nat.le_of_eq h.position_eq.symm

theorem Sweeps.nil (h : s.segmentEnd = some s.position) : Sweeps data s s.position [] [] s :=
  ⟨.done s, h, rfl, rfl⟩

theorem Sweeps.cons {stop q : Nat} {r : HeapRecord} {records : List HeapRecord} {bs : List UInt8}
    (hopen : s.segmentEnd = some stop) (hq : q ≤ stop) (hwf : r.WellFormed s.header.idSize)
    (hbs : Spelled (r.marks s.header.idSize) bs) (hspan : Span data s.position q bs)
    (h : Sweeps data { s with position := q, count := s.count + 1 } stop records trace t) :
    Sweeps data s stop (r :: records)
      ((⟨s.position, none, .heap r⟩, { s with position := q, count := s.count + 1 }) :: trace)
      t := by
  have hlen : bs.length = (r.written s.header.idSize).length := by
    rw [← hbs.length_eq, ← r.map_byte_marks, List.length_map]
  have hpos : 0 < (r.written s.header.idSize).length := Nat.succ_pos _
  have hend := hspan.length_eq
  refine ⟨.step (.subRecord hopen (by omega) hq hwf hbs hspan) h.runs, h.segmentEnd_eq,
    h.position_eq, ?_⟩
  rw [List.map_cons, h.map_eq, HeapRecord.recordsFrom, ← hlen, hend]

/-- A stream in an open heap dump gives all sub-records that stand up to its end. -/
theorem sweeps_of_subRecords {records : List HeapRecord} {stop : Nat}
    (hopen : s.segmentEnd = some stop)
    (h : SubRecords data s.header.idSize s.position stop records) :
    ∃ trace t, Sweeps data s stop records trace t := by
  induction records generalizing s with
  | nil =>
    obtain rfl := subRecords_nil_iff.mp h |>.1
    exact ⟨[], s, .nil hopen⟩
  | cons r records ih =>
    obtain ⟨q, bs, hwf, hbs, hspan, hrest⟩ := subRecords_cons_iff.mp h
    obtain ⟨trace, t, hsweeps⟩ := ih (s := { s with position := q, count := s.count + 1 })
      hopen hrest
    exact ⟨_, t, .cons hopen hrest.start_le hwf hbs hspan hsweeps⟩

/-- A stream at a top-level record gives what it holds. -/
theorem runs_of_entry {e : Entry} {q : Nat} (htop : s.AtTopLevel)
    (he : e.At data s.header.idSize s.position q) :
    ∃ trace t, Runs data s trace t ∧ t.AtTopLevel ∧ t.position = q
      ∧ trace.map Prod.fst = e.records s.header.idSize s.position := by
  obtain ⟨code, payload, hframe, rfl, hspells⟩ := he.exists_frame
  obtain ⟨time, body | ⟨code', bytes⟩ | ⟨segment, records⟩⟩ := e
  -- a record with fields
  · obtain ⟨hsome, tag, rfl, hbody⟩ := hspells
    refine ⟨_, _, .step (.topLevel htop hbody.isHeapDump_eq_false hframe hbody) (.done _),
      atTopLevel_of_none rfl, rfl, ?_⟩
    exact (if_pos hsome).symm
  -- a record that is passed over
  · obtain ⟨rfl, hlen, tag, rfl, hpassed⟩ := hspells
    have hbody : (Body.skipped tag.code payload.length).Spells s.header.idSize tag payload :=
      ⟨hpassed, rfl, rfl⟩
    refine ⟨_, _, .step (.topLevel htop hbody.isHeapDump_eq_false hframe hbody) (.done _),
      atTopLevel_of_none rfl, rfl, ?_⟩
    rw [Entry.records]
    simp only [hlen]
    rfl
  -- the start of a heap dump, then its sub-records
  · obtain ⟨rfl, hwf, hbs⟩ := hspells
    have hlen := HeapRecord.length_of_spelled hbs
    obtain ⟨trace, t, hsweeps⟩ := sweeps_of_subRecords
      (s := { s with
        position := s.position + recordHeaderLength
        segmentEnd := some (s.position + recordHeaderLength + payload.length)
        count := s.count + 1 }) rfl ⟨hwf, payload, hbs, hframe.payload_span⟩
    refine ⟨_, t, .step (.heapDump htop hframe) hsweeps.runs, hsweeps.atTopLevel,
      hsweeps.position_eq, ?_⟩
    rw [List.map_cons, hsweeps.map_eq, Entry.records]
    simp only [hlen]

/-- **A stream runs through top-level records that stand one after the other.** -/
theorem runs_of_entries {es : List Entry} {records : List Record} (htop : s.AtTopLevel)
    (h : Entries data s.header.idSize s.position es records) :
    ∃ trace t, Runs data s trace t ∧ t.AtTopLevel ∧ t.position = data.size
      ∧ trace.map Prod.fst = records := by
  generalize hp : s.position = p at h
  generalize hw : s.header.idSize = idSize at h
  induction h generalizing s with
  | nil => exact ⟨[], s, .done s, htop, hp, rfl⟩
  | @cons p q e es records he rest ih =>
    subst hp hw
    obtain ⟨trace, t, hruns, htop', hq, hmap⟩ := runs_of_entry htop he
    obtain ⟨trace', u, hruns', hend, hsize, hmap'⟩ :=
      ih htop' hq (by rw [hruns.frame.2.1])
    exact ⟨trace ++ trace', u, hruns.append hruns', hend, hsize,
      by rw [List.map_append, hmap, hmap']⟩

end RecordStream

/-! ### Records put together again -/

/-- The top-level record with a body of its own.  A payload that was passed over is
taken to be zeroes. -/
def Entry.ofBody (time : UInt32) : Body → Entry
  | .skipped code length => ⟨time, .skipped code (List.replicate length 0)⟩
  | body => ⟨time, .fields body⟩

/-- The sub-records that stand in front of the first top-level record, and the
top-level records with the sub-records that follow each. -/
def Entry.group : List Record → List HeapRecord × List Entry
  | [] => ([], [])
  | r :: rest =>
    match r.body with
    | .heap h => (h :: (group rest).1, (group rest).2)
    | .heapDumpStart segment _ =>
      ([], ⟨r.time.getD 0, .heapDump segment (group rest).1⟩ :: (group rest).2)
    | body => ([], ofBody (r.time.getD 0) body :: (group rest).2)

/-- The top-level records that a reader has found the given records in. -/
def Entry.ofRecords (records : List Record) : List Entry := (group records).2

theorem Entry.group_recordsFrom (idSize p : Nat) (records : List HeapRecord)
    (rest : List Record) :
    group (HeapRecord.recordsFrom idSize p records ++ rest)
      = (records ++ (group rest).1, (group rest).2) := by
  induction records generalizing p with
  | nil => rfl
  | cons r records ih =>
    rw [HeapRecord.recordsFrom, List.cons_append, group]
    simp only [ih, List.cons_append]

/-- A heap dump takes the sub-records that follow it, if they are all that does. -/
theorem Entry.group_heapDumpStart (idSize p q n : Nat) (time : UInt32) {segment : Bool}
    (records : List HeapRecord) {rest : List Record} (hrest : (group rest).1 = []) :
    group (⟨p, some time, .heapDumpStart segment n⟩ ::
        (HeapRecord.recordsFrom idSize q records ++ rest))
      = ([], ⟨time, .heapDump segment records⟩ :: (group rest).2) := by
  rw [group]
  simp only [group_recordsFrom, hrest, List.append_nil]
  rfl

/-- Sub-records that fill the payload of a heap dump are what it holds. -/
theorem SubRecords.at_heapDump {data : ByteArray} {idSize p : Nat} {segment : Bool} {time : UInt32}
    {payload : List UInt8} {records : List HeapRecord}
    (hsub : SubRecords data idSize (p + recordHeaderLength)
      (p + recordHeaderLength + payload.length) records)
    (hframe : Framed data p (RecordStream.heapDumpTag segment).code time payload) :
    (Entry.mk time (.heapDump segment records)).At data idSize p
        (p + recordHeaderLength + payload.length)
      ∧ (Entry.mk time (.heapDump segment records)).records idSize p
        = ⟨p, some time, .heapDumpStart segment payload.length⟩ ::
          HeapRecord.recordsFrom idSize (p + recordHeaderLength) records := by
  have hbs : Spelled (records.flatMap (HeapRecord.marks idSize)) payload := by
    obtain ⟨bs, hbs, hspan⟩ := hsub.exists_spelling
    rwa [hspan.unique hframe.payload_span] at hbs
  refine ⟨⟨_, payload, hframe, rfl, rfl, hsub.wellFormed, hbs⟩, ?_⟩
  simp only [Entry.records, HeapRecord.length_of_spelled hbs]

/-- What is spelled by a payload has a top-level record that holds it. -/
theorem Body.Spells.ofBody {idSize : Nat} {tag : Tag} {b : Body} {bs : List UInt8}
    (h : b.Spells idSize tag bs) (time : UInt32) (p : Nat) (rest : List Record) :
    (Entry.ofBody time b).content.Spells idSize tag.code bs
      ∧ (Entry.ofBody time b).time = time
      ∧ (Entry.ofBody time b).records idSize p = [⟨p, some time, b⟩]
      ∧ Entry.group (⟨p, some time, b⟩ :: rest)
          = ([], Entry.ofBody time b :: (Entry.group rest).2) := by
  have hfields : (b.payload? idSize).isSome = true →
      (Entry.Content.fields b).Spells idSize tag.code bs := fun hsome => ⟨hsome, tag, rfl, h⟩
  cases b with
  | skipped code length =>
    obtain ⟨hpassed, rfl, rfl⟩ := h
    refine ⟨⟨rfl, List.length_replicate, tag, rfl, hpassed⟩, rfl, ?_, rfl⟩
    show [Record.mk p (some time) (.skipped tag.code (List.replicate bs.length 0).length)] = _
    rw [List.length_replicate]
  | heapDumpStart | heap => cases h.1
  | _ => exact ⟨hfields rfl, rfl, rfl, rfl⟩

namespace RecordStream

variable {data : ByteArray} {s t last : RecordStream} {trace : List (Record × RecordStream)}

/-! ### From runs to spellings -/

/-- A stream that comes out of a heap dump has run through sub-records up to its end. -/
theorem exists_sweeps_of_runs {stop : Nat} (hv : s.Valid data) (hopen : s.segmentEnd = some stop)
    (h : Runs data s trace last) (hlast : last.AtTopLevel) :
    ∃ records front mid back, trace = front ++ back
      ∧ SubRecords data s.header.idSize s.position stop records
      ∧ Sweeps data s stop records front mid ∧ Runs data mid back last := by
  induction h with
  | done s =>
    -- the run ends at the top level, so the heap dump is over
    obtain ⟨hle, hsize⟩ := hv.segment_le stop hopen
    obtain rfl := Nat.le_antisymm (hlast stop hopen) hle
    exact ⟨[], [], s, [], rfl, subRecords_nil_iff.mpr ⟨rfl, hsize⟩, .nil hopen, .done s⟩
  | @step s t u r trace hstep rest ih =>
    obtain ⟨hle, hsize⟩ := hv.segment_le stop hopen
    by_cases hlt : s.position < stop
    · have hv' := hstep.valid hv
      cases hstep with
      | @subRecord stop' q h bs hopen' hlt' hq hwf hbs hspan =>
        obtain rfl : stop' = stop := Option.some.inj (hopen'.symm.trans hopen)
        obtain ⟨records, front, mid, back, rfl, hsub, hsweeps, hback⟩ := ih hv' hopen hlast
        exact ⟨h :: records, _ :: front, mid, back, rfl,
          subRecords_cons_iff.mpr ⟨q, bs, hwf, hbs, hspan, hsub⟩,
          .cons hopen hq hwf hbs hspan hsweeps, hback⟩
      -- no other record begins inside an open heap dump
      | heapDump htop | topLevel htop | unknown htop =>
        exact absurd (htop stop hopen) (Nat.not_le.mpr hlt)
    · -- at the end of the heap dump nothing of it is left
      obtain rfl : stop = s.position := by omega
      exact ⟨[], [], s, _, rfl, subRecords_nil_iff.mpr ⟨rfl, hsize⟩, .nil hopen, .step hstep rest⟩

/-- **What a strict stream runs through to the end are top-level records one after the
other**, and they are found again in the records that it gives. -/
theorem entries_of_runs (hv : s.Valid data) (htop : s.AtTopLevel) (hstrict : s.skipUnknown = false)
    (h : Runs data s trace last) (hlast : last.AtTopLevel) (hend : last.position = data.size) :
    Entries data s.header.idSize s.position (Entry.ofRecords (trace.map Prod.fst))
        (trace.map Prod.fst)
      ∧ (Entry.group (trace.map Prod.fst)).1 = [] := by
  -- a heap dump is left further behind than by one step
  induction hn : trace.length using Nat.strong_induction_on generalizing s trace with
  | _ n ih =>
    subst hn
    cases h with
    | done s =>
      rw [hend]
      exact ⟨.nil, rfl⟩
    | @step _ t _ r trace hstep rest =>
      have hv' := hstep.valid hv
      cases hstep with
      | subRecord hopen hlt => exact absurd (htop _ hopen) (Nat.not_le.mpr hlt)
      | unknown _ hskip => exact absurd hskip (by rw [hstrict]; exact Bool.false_ne_true)
      -- a record of its own is one entry
      | @topLevel tag time payload body _ htag hframe hbody =>
        obtain ⟨hrest, hgroup⟩ := ih trace.length (Nat.lt_succ_self _) hv'
          (atTopLevel_of_none rfl) hstrict rest rfl
        obtain ⟨hspells, htime, hrecords, hof⟩ :=
          hbody.ofBody time s.position (trace.map Prod.fst)
        rw [List.map_cons, Entry.ofRecords, hof]
        refine ⟨?_, rfl⟩
        have he : (Entry.ofBody time body).At data s.header.idSize s.position _ :=
          ⟨tag.code, payload, htime.symm ▸ hframe, rfl, hspells⟩
        have hcons := Entries.cons he hrest
        rw [hrecords] at hcons
        exact hcons
      | @heapDump segment time payload _ hframe =>
        obtain ⟨records, front, mid, back, rfl, hsub, hsweeps, hback⟩ :=
          exists_sweeps_of_runs hv' rfl rest hlast
        obtain ⟨hstore, hheader, hskip, -, -⟩ := hsweeps.runs.frame
        have hshort : back.length < (front ++ back).length + 1 := by
          rw [List.length_append]
          omega
        -- what follows the heap dump is shorter by its sub-records as well
        obtain ⟨hrest, hgroup⟩ := ih back.length hshort (hsweeps.runs.valid hv')
          hsweeps.atTopLevel (hskip.trans hstrict) hback rfl
        rw [hheader, hsweeps.position_eq] at hrest
        obtain ⟨he, hrecords⟩ := hsub.at_heapDump hframe
        have hcons := Entries.cons he hrest
        rw [hrecords] at hcons
        rw [List.map_cons, List.map_append, hsweeps.map_eq, Entry.ofRecords,
          Entry.group_heapDumpStart _ _ _ _ _ _ hgroup]
        exact ⟨hcons, rfl⟩

/-! ### Whole readings -/

/-- **Top-level records one after the other are all read, and nothing else.** -/
theorem readAll_of_entries {es : List Entry} {records : List Record} (hv : s.Valid data)
    (hf : s.finished = false) (htop : s.AtTopLevel)
    (h : Entries data s.header.idSize s.position es records) :
    s.readAll.state.toList.map Prod.fst = records ∧ s.readAll.error = none
      ∧ s.readAll.stream = { s with
          position := data.size
          segmentEnd := none
          count := s.count + records.length
          finished := true } := by
  obtain ⟨trace, last, hruns, hlast, hend, rfl⟩ := runs_of_entries htop h
  have hnext := (next_eq_none_iff (hruns.valid hv) (hruns.frame.2.2.2.1.trans hf)).mpr
    ⟨hlast, hend, rfl⟩
  have hcompletes : Completes data s trace none _ := ⟨last, hruns, hnext⟩
  rw [hcompletes.readAll_eq hv hf]
  obtain ⟨hstore, hheader, hskip, -, hcount⟩ := hruns.frame
  refine ⟨?_, rfl, ?_⟩
  · rw [List.map_map]
    rfl
  · rw [hstore, hheader, hskip, hcount, hend, List.length_map]

/-- A reading without an error is a run to the end. -/
theorem runs_of_readAll (hv : s.Valid data) (hf : s.finished = false)
    (h : s.readAll.error = none) :
    ∃ trace last, Runs data s trace last ∧ last.AtTopLevel ∧ last.position = data.size
      ∧ s.readAll.state = (trace.map fun x => (x.1, x.2.position)).toArray := by
  obtain ⟨trace, error, t, hcompletes⟩ := exists_completes hv hf
  have hread := hcompletes.readAll_eq hv hf
  rw [hread] at h
  obtain rfl : error = none := h
  obtain ⟨last, hruns, hnext⟩ := hcompletes.exists_last
  obtain ⟨hlast, hend, -⟩ :=
    (next_eq_none_iff (hruns.valid hv) (hruns.frame.2.2.2.1.trans hf)).mp hnext
  exact ⟨trace, last, hruns, hlast, hend, by rw [hread]⟩

end RecordStream

end HeapDump
