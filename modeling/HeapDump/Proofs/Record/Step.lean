/-
HeapDump/Proofs/Record/Step.lean

Everything that one step of a stream can do.

A stream over `data` stays inside `data`, and inside the heap dump that it has
open (`RecordStream.Valid`).  `Step data s r t` lists the ways in which such a
stream gives a record:

* the next sub-record of an open heap dump,
* the start of a heap dump, which is entered,
* a top-level record with fields,
* a record with an unknown tag, where these are passed over.

Each constructor says which bytes stand at the position of the stream, by `Span`,
`Framed` and the spellings, and what the stream is afterwards.  Giving a record is
such a step and nothing else:

    s.next = (.ok (some r), t) ↔ Step data s r t

(`next_eq_some_iff`), and a stream comes to its end exactly at the top level and at
the end of its data (`next_eq_none_iff`).  No later proof opens the reader: what
holds of the records of a stream is proved by cases over `Step`.
-/
import HeapDump.Proofs.Record.Framing
import HeapDump.Proofs.Record.Payload
import HeapDump.Record.Stream

namespace HeapDump

namespace RecordStream

open Written

/-! ### Streams over data -/

/-- The stream reads `data` and stands inside it. -/
structure Valid (data : ByteArray) (s : RecordStream) : Prop where
  serves : s.store.Serves data
  idSize_le : s.header.idSize ≤ 8
  position_le : s.position ≤ data.size
  segment_le : ∀ stop ∈ s.segmentEnd, s.position ≤ stop ∧ stop ≤ data.size

/-- No heap dump is open, or its end has been reached. -/
def AtTopLevel (s : RecordStream) : Prop := ∀ stop ∈ s.segmentEnd, stop ≤ s.position

variable {data : ByteArray} {s t : RecordStream} {r : Record}

theorem atTopLevel_of_none (h : s.segmentEnd = none) : s.AtTopLevel := by
  intro stop hstop
  rw [h] at hstop
  cases hstop

/-- A reading begins behind a header. -/
theorem ofStore_eq_ok_iff {store : ByteStore} {skipUnknown : Bool} :
    ofStore store skipUnknown = .ok s ↔ ∃ header, Header.read store = .ok header
      ∧ s = { store, header, skipUnknown, position := header.length } := by
  rw [ofStore]
  cases Header.read store with
  | error e => simp [bind, Except.bind]
  | ok header => simp [bind, Except.bind, pure, Except.pure, eq_comm]

theorem valid_of_ofStore {store : ByteStore} {skipUnknown : Bool} (hs : store.Serves data)
    (h : ofStore store skipUnknown = .ok s) : s.Valid data := by
  obtain ⟨header, hread, rfl⟩ := ofStore_eq_ok_iff.mp h
  obtain ⟨name, hhead, -, hlength⟩ := (Header.read_eq_ok_iff hs).mp hread
  refine ⟨hs, ?_, ?_, fun stop hstop => by cases hstop⟩
  · show header.idSize ≤ 8
    have := hhead.idSize_eq
    omega
  · show header.length ≤ data.size
    rw [hlength]
    exact hhead.span.stop_le

/-- A stream stands inside a heap dump or at the place of a top-level record. -/
theorem open_or_atTopLevel (s : RecordStream) :
    (∃ stop, s.segmentEnd = some stop ∧ s.position < stop) ∨ s.AtTopLevel := by
  cases h : s.segmentEnd with
  | none => exact Or.inr (atTopLevel_of_none h)
  | some stop =>
    by_cases hlt : s.position < stop
    · exact Or.inl ⟨stop, rfl, hlt⟩
    · right
      intro stop' hstop
      rw [h] at hstop
      cases hstop
      exact Nat.not_lt.mp hlt

/-- The tags of heap dumps and of their segments. -/
def heapDumpTag (segment : Bool) : Tag := if segment then .heapDumpSegment else .heapDump

/-- The ways in which a stream over `data` gives a record. -/
inductive Step (data : ByteArray) (s : RecordStream) : Record → RecordStream → Prop where
  /-- The next sub-record of the open heap dump. -/
  | subRecord {stop q : Nat} {h : HeapRecord} {bs : List UInt8} (hopen : s.segmentEnd = some stop)
      (hlt : s.position < stop) (hq : q ≤ stop) (hwf : h.WellFormed s.header.idSize)
      (hbs : Spelled (h.marks s.header.idSize) bs) (hspan : Span data s.position q bs) :
      Step data s ⟨s.position, none, .heap h⟩ { s with position := q, count := s.count + 1 }
  /-- The start of a heap dump, which is entered. -/
  | heapDump {segment : Bool} {time : UInt32} {payload : List UInt8} (htop : s.AtTopLevel)
      (hframe : Framed data s.position (heapDumpTag segment).code time payload) :
      Step data s ⟨s.position, some time, .heapDumpStart segment payload.length⟩
        { s with
          position := s.position + recordHeaderLength
          segmentEnd := some (s.position + recordHeaderLength + payload.length)
          count := s.count + 1 }
  /-- A record that is known and no heap dump. -/
  | topLevel {tag : Tag} {time : UInt32} {payload : List UInt8} {body : Body}
      (htop : s.AtTopLevel) (htag : tag.isHeapDump = false)
      (hframe : Framed data s.position tag.code time payload)
      (hbody : body.Spells s.header.idSize tag payload) :
      Step data s ⟨s.position, some time, body⟩
        { s with
          position := s.position + recordHeaderLength + payload.length
          segmentEnd := none
          count := s.count + 1 }
  /-- A record with an unknown tag, which is passed over if that is allowed. -/
  | unknown {code : UInt8} {time : UInt32} {payload : List UInt8} (htop : s.AtTopLevel)
      (hskip : s.skipUnknown = true) (htag : Tag.ofCode? code = none)
      (hframe : Framed data s.position code time payload) :
      Step data s ⟨s.position, some time, .skipped code payload.length⟩
        { s with
          position := s.position + recordHeaderLength + payload.length
          segmentEnd := none
          count := s.count + 1 }

/-! ### Unfolding a step -/

theorem next_eq_some_iff_advance (hf : s.finished = false) :
    s.next = (.ok (some r), t) ↔
      ∃ u, s.advance = (.ok (some r), u) ∧ t = { u with count := u.count + 1 } := by
  rw [next, hf, if_neg Bool.false_ne_true]
  rcases s.advance with ⟨_ | _ | r', u⟩
  · simp
  · simp
  · simp only [Prod.mk.injEq, Except.ok.injEq, Option.some.injEq]
    constructor
    · rintro ⟨rfl, rfl⟩
      exact ⟨u, ⟨rfl, rfl⟩, rfl⟩
    · rintro ⟨_, ⟨rfl, rfl⟩, rfl⟩
      exact ⟨rfl, rfl⟩

theorem advance_of_open {stop : Nat} (h : s.segmentEnd = some stop) (hlt : s.position < stop) :
    s.advance = s.nextSubRecord stop := by
  rw [advance, h]
  exact if_pos hlt

theorem advance_of_atTopLevel (h : s.AtTopLevel) :
    s.advance = { s with segmentEnd := none }.nextTopLevel := by
  obtain ⟨store, header, skipUnknown, position, segmentEnd, count, finished⟩ := s
  cases segmentEnd with
  | none => rfl
  | some stop => exact if_neg (Nat.not_lt.mpr (h stop rfl))

theorem nextSubRecord_eq_some_iff (hv : s.Valid data) {stop : Nat} (h : s.segmentEnd = some stop) :
    s.nextSubRecord stop = (.ok (some r), t) ↔ ∃ q record bs, q ≤ stop
      ∧ record.WellFormed s.header.idSize ∧ Spelled (record.marks s.header.idSize) bs
      ∧ Span data s.position q bs ∧ r = ⟨s.position, none, .heap record⟩
      ∧ t = { s with position := q } := by
  obtain ⟨hle, hstop⟩ := hv.segment_le stop h
  have hread := fun q record => (Layout.reads_subRecord hv.idSize_le).ok_iff
    (e := ⟨s.store, s.header.idSize, s.position, s.position, stop⟩) hv.serves rfl hstop hle
    (q := q) (a := record)
  rw [nextSubRecord, Decoder.runOn]
  -- what the decoder gives is what stands there, and an error if nothing does
  rcases hsub : Layout.subRecord ⟨s.store, s.header.idSize, s.position, s.position, stop⟩
    s.position with err | ⟨record, q⟩
  · constructor
    · intro heq
      cases heq
    · rintro ⟨q, record, bs, hq, hwf, hbs, hspan, -⟩
      rw [(hread q record).mpr ⟨hq, bs, ⟨hwf, hbs⟩, hspan⟩] at hsub
      cases hsub
  · constructor
    · intro heq
      obtain ⟨hq, bs, ⟨hwf, hbs⟩, hspan⟩ := (hread q record).mp hsub
      cases heq
      exact ⟨q, record, bs, hq, hwf, hbs, hspan, rfl, rfl⟩
    · rintro ⟨q', record', bs, hq, hwf, hbs, hspan, rfl, rfl⟩
      rw [(hread q' record').mpr ⟨hq, bs, ⟨hwf, hbs⟩, hspan⟩] at hsub
      cases hsub
      rfl

/-- A top-level record that is no heap dump gives what its payload spells. -/
theorem exactly_payload_eq_ok_iff (hv : s.Valid data) {tag : Tag} (htag : tag.isHeapDump = false)
    (record : Nat) {time : UInt32} {payload : List UInt8}
    (hframe : Framed data s.position tag.code time payload) {body : Body} {q : Nat} :
    (Layout.payload tag).exactly.runOn s.store s.header.idSize record
        (s.position + recordHeaderLength) (s.position + recordHeaderLength + payload.length)
        = .ok (body, q)
      ↔ body.Spells s.header.idSize tag payload
        ∧ q = s.position + recordHeaderLength + payload.length := by
  have hspan := hframe.payload_span
  rw [Decoder.runOn, Decoder.exactly_eq_ok_iff]
  refine and_congr_left ?_
  rintro rfl
  rw [(Layout.readsAll_payload hv.idSize_le htag).ok_iff hv.serves rfl hspan.stop_le
    (Nat.le_add_right _ _)]
  constructor
  · rintro ⟨bs, hbs, hspan'⟩
    rwa [hspan.unique hspan']
  · intro hbs
    exact ⟨payload, hbs, hspan⟩

theorem nextTopLevel_of_framed (hv : s.Valid data) {code : UInt8} {time : UInt32}
    {payload : List UInt8} (hframe : Framed data s.position code time payload) :
    s.nextTopLevel = s.nextBody ⟨code, time, payload.length, s.position + recordHeaderLength,
      s.position + recordHeaderLength + payload.length⟩ := by
  have hstop := hframe.span.stop_le
  have hsize := hv.serves.size_eq
  have hlt : ¬ s.store.size ≤ s.position := by
    rw [recordHeaderLength] at hstop
    omega
  have hread := (RecordHeader.read_eq_ok_iff hv.serves
    (h := ⟨code, time, payload.length, s.position + recordHeaderLength,
      s.position + recordHeaderLength + payload.length⟩)).mpr ⟨payload, hframe, rfl⟩
  rw [nextTopLevel, if_neg hlt, hread]

/-- At the top level a record comes from a whole frame or not at all. -/
theorem exists_framed_of_nextTopLevel (hv : s.Valid data)
    (h : s.nextTopLevel = (.ok (some r), t)) :
    ∃ code time payload, Framed data s.position code time payload := by
  rw [nextTopLevel] at h
  by_cases hlt : s.store.size ≤ s.position
  · rw [if_pos hlt] at h
    cases h
  · rw [if_neg hlt] at h
    rcases hread : RecordHeader.read s.store s.position with err | header
    · rw [hread] at h
      cases h
    · obtain ⟨payload, hframe, -⟩ := (RecordHeader.read_eq_ok_iff hv.serves).mp hread
      exact ⟨_, _, payload, hframe⟩

/-! ### A step -/

theorem isHeapDump_iff {tag : Tag} :
    tag.isHeapDump = true ↔ ∃ segment, tag = heapDumpTag segment := by
  constructor
  · intro h
    cases tag with
    | heapDump => exact ⟨false, rfl⟩
    | heapDumpSegment => exact ⟨true, rfl⟩
    | _ => cases h
  · rintro ⟨segment, rfl⟩
    cases segment <;> rfl

/-- A valid stream stays valid when it leaves a heap dump. -/
theorem Valid.close (hv : s.Valid data) :
    ({ s with segmentEnd := none } : RecordStream).Valid data :=
  ⟨hv.serves, hv.idSize_le, hv.position_le, fun stop hstop => by cases hstop⟩

/-- What is read at the top level is a heap dump, a record of its own or an unknown one. -/
theorem step_of_nextTopLevel (hv : s.Valid data) (htop : s.AtTopLevel)
    (h : { s with segmentEnd := none }.nextTopLevel = (.ok (some r), t)) :
    Step data s r { t with count := t.count + 1 } := by
  obtain ⟨code, time, payload, hframe⟩ := exists_framed_of_nextTopLevel hv.close h
  rw [nextTopLevel_of_framed hv.close hframe, nextBody] at h
  rcases htag : Tag.ofCode? code with _ | tag
  · rw [htag] at h
    by_cases hskip : s.skipUnknown = true
    · simp only [if_pos hskip] at h
      cases h
      exact .unknown htop hskip htag hframe
    · simp only [if_neg hskip] at h
      cases h
  · rw [htag] at h
    obtain rfl := Tag.ofCode?_eq_some_iff.mp htag
    by_cases hdump : tag.isHeapDump = true
    · obtain ⟨segment, rfl⟩ := isHeapDump_iff.mp hdump
      simp only [if_pos hdump] at h
      cases h
      -- the reader compares tags where the step has a flag
      cases segment with
      | false => exact @Step.heapDump data s false _ _ htop hframe
      | true => exact @Step.heapDump data s true _ _ htop hframe
    · simp only [if_neg hdump] at h
      have hdump := Bool.eq_false_iff.mpr hdump
      generalize hrun : Decoder.runOn _ _ _ _ _ _ = result at h
      rcases result with err | ⟨body, q⟩
      · cases h
      · obtain ⟨hbody, -⟩ := (exactly_payload_eq_ok_iff hv.close hdump _ hframe).mp hrun
        cases h
        exact .topLevel htop hdump hframe hbody

/-- What stands at the position of a stream is read. -/
theorem Step.exists_advance (hv : s.Valid data) (h : Step data s r t) :
    ∃ u, s.advance = (.ok (some r), u) ∧ t = { u with count := u.count + 1 } := by
  cases h with
  | @subRecord stop q h bs hopen hlt hq hwf hbs hspan =>
    refine ⟨{ s with position := q }, ?_, rfl⟩
    rw [advance_of_open hopen hlt, nextSubRecord_eq_some_iff hv hopen]
    exact ⟨q, h, bs, hq, hwf, hbs, hspan, rfl, rfl⟩
  | @heapDump segment time payload htop hframe =>
    refine ⟨{ s with
      position := s.position + recordHeaderLength
      segmentEnd := some (s.position + recordHeaderLength + payload.length) }, ?_, rfl⟩
    rw [advance_of_atTopLevel htop, nextTopLevel_of_framed hv.close hframe, nextBody]
    simp only [Tag.ofCode?_code]
    cases segment <;> rfl
  | @topLevel tag time payload body htop htag hframe hbody =>
    refine ⟨{ s with
      position := s.position + recordHeaderLength + payload.length
      segmentEnd := none }, ?_, rfl⟩
    have hrun := (exactly_payload_eq_ok_iff hv.close htag s.position hframe).mpr ⟨hbody, rfl⟩
    rw [advance_of_atTopLevel htop, nextTopLevel_of_framed hv.close hframe, nextBody]
    simp only [Tag.ofCode?_code, htag, Bool.false_eq_true, if_false]
    rw [hrun]
    rfl
  | @unknown code time payload htop hskip htag hframe =>
    refine ⟨{ s with
      position := s.position + recordHeaderLength + payload.length
      segmentEnd := none }, ?_, rfl⟩
    rw [advance_of_atTopLevel htop, nextTopLevel_of_framed hv.close hframe, nextBody]
    simp only [htag, if_pos hskip]

/-- **A stream over `data` gives a record in one of the listed ways and in no other.** -/
theorem next_eq_some_iff (hv : s.Valid data) (hf : s.finished = false) :
    s.next = (.ok (some r), t) ↔ Step data s r t := by
  rw [next_eq_some_iff_advance hf]
  constructor
  · rintro ⟨u, hadvance, rfl⟩
    rcases s.open_or_atTopLevel with ⟨stop, hopen, hlt⟩ | htop
    · rw [advance_of_open hopen hlt, nextSubRecord_eq_some_iff hv hopen] at hadvance
      obtain ⟨q, record, bs, hq, hwf, hbs, hspan, rfl, rfl⟩ := hadvance
      exact .subRecord hopen hlt hq hwf hbs hspan
    · rw [advance_of_atTopLevel htop] at hadvance
      exact step_of_nextTopLevel hv htop hadvance
  · intro hstep
    exact hstep.exists_advance hv

/-! ### The end -/

theorem nextSubRecord_ne_none (s : RecordStream) (stop : Nat) :
    s.nextSubRecord stop ≠ (.ok none, t) := by
  intro h
  rw [nextSubRecord] at h
  split at h <;> cases h

theorem nextBody_ne_none (s : RecordStream) (h : RecordHeader) : s.nextBody h ≠ (.ok none, t) := by
  intro heq
  rw [nextBody] at heq
  rcases htag : Tag.ofCode? h.tag with _ | tag
  · rw [htag] at heq
    simp only at heq
    split at heq <;> cases heq
  · rw [htag] at heq
    simp only at heq
    split at heq
    · cases heq
    · generalize Decoder.runOn _ _ _ _ _ _ = result at heq
      cases result <;> cases heq

/-- **A stream over `data` gives no record and no error exactly at the end of it.** -/
theorem next_eq_none_iff (hv : s.Valid data) (hf : s.finished = false) :
    s.next = (.ok none, t) ↔ s.AtTopLevel ∧ s.position = data.size
      ∧ t = { s with segmentEnd := none, finished := true } := by
  have hadvance : s.next = (.ok none, t) ↔
      ∃ u, s.advance = (.ok none, u) ∧ t = { u with finished := true } := by
    rw [next, hf, if_neg Bool.false_ne_true]
    rcases s.advance with ⟨_ | _ | r', u⟩
    · simp
    · simp [eq_comm]
    · simp
  -- only the top level comes to an end
  have hle := hv.position_le
  have hsize := hv.serves.size_eq
  rw [hadvance]
  constructor
  · rintro ⟨u, hu, rfl⟩
    rcases s.open_or_atTopLevel with ⟨stop, hopen, hlt⟩ | htop
    · rw [advance_of_open hopen hlt] at hu
      exact absurd hu (nextSubRecord_ne_none s stop)
    · rw [advance_of_atTopLevel htop, nextTopLevel] at hu
      by_cases hend : s.store.size ≤ s.position
      · rw [if_pos hend] at hu
        cases hu
        exact ⟨htop, by omega, rfl⟩
      · rw [if_neg hend] at hu
        split at hu
        · exact absurd hu (nextBody_ne_none _ _)
        · cases hu
  · rintro ⟨htop, hend, rfl⟩
    refine ⟨{ s with segmentEnd := none }, ?_, rfl⟩
    have hend : s.store.size ≤ s.position := by omega
    rw [advance_of_atTopLevel htop, nextTopLevel, if_pos hend]

/-! ### What steps keep -/

/-- A step moves on and stays inside. -/
theorem Step.valid (h : Step data s r t) (hv : s.Valid data) : t.Valid data := by
  cases h with
  | @subRecord stop q h bs hopen hlt hq hwf hbs hspan =>
    refine ⟨hv.serves, hv.idSize_le, hspan.stop_le, fun stop' hstop' => ?_⟩
    obtain rfl : stop = stop' := Option.some.inj (hopen.symm.trans hstop')
    exact ⟨hq, (hv.segment_le stop hopen).2⟩
  | heapDump htop hframe =>
    have hspan := hframe.payload_span
    refine ⟨hv.serves, hv.idSize_le, Nat.le_trans hspan.start_le hspan.stop_le,
      fun stop hstop => ?_⟩
    cases hstop
    exact ⟨hspan.start_le, hspan.stop_le⟩
  | topLevel htop htag hframe hbody =>
    exact ⟨hv.serves, hv.idSize_le, hframe.span.stop_le, fun stop hstop => by cases hstop⟩
  | unknown htop hskip htag hframe =>
    exact ⟨hv.serves, hv.idSize_le, hframe.span.stop_le, fun stop hstop => by cases hstop⟩

theorem Step.position_lt (h : Step data s r t) : s.position < t.position := by
  cases h with
  | @subRecord stop q h bs hopen hlt hq hwf hbs hspan =>
    -- a sub-record has at least its tag
    have hlen := hspan.length_eq
    have hmarks := hbs.length_eq
    rw [HeapRecord.marks, List.length_append] at hmarks
    show s.position < q
    simp only [fixed, List.length_map, List.length_singleton] at hmarks
    omega
  | heapDump htop hframe => exact Nat.lt_add_of_pos_right (by decide)
  | topLevel htop htag hframe hbody =>
    exact Nat.lt_of_lt_of_le (Nat.lt_add_of_pos_right (by decide)) (Nat.le_add_right ..)
  | unknown htop hskip htag hframe =>
    exact Nat.lt_of_lt_of_le (Nat.lt_add_of_pos_right (by decide)) (Nat.le_add_right ..)

/-- Where a stream reads and how does not change. -/
theorem Step.frame (h : Step data s r t) :
    t.store = s.store ∧ t.header = s.header ∧ t.skipUnknown = s.skipUnknown
      ∧ t.finished = s.finished ∧ t.count = s.count + 1 := by
  cases h <;> exact ⟨rfl, rfl, rfl, rfl, rfl⟩

end RecordStream

end HeapDump
