/-
HeapDump/Proofs/Record/Failure.lean

Everything that makes a stream fail.

`Failure data s err t` lists the ways in which a stream over `data` ends with an error, as
`Step` lists those in which it gives a record:

* a sub-record without a tag, or with fields that do not fit into the heap dump;
* a record that the file is too short for;
* a payload that does not fit, or is not used up;
* a record with an unknown tag, where these are not passed over.

An error comes from one of them and from nothing else (`failure_of_next`): the reader is
followed check by check, and each check that fails is one constructor.  So what holds of the
errors of a stream is proved by cases over `Failure`, without opening the reader again; the
first use is `Failure.blames`, that an error points at the record that fails.

Whatever a call gives, the stream behind it stands inside its data, behind the header and
behind as many bytes as it has given records.  These are the fields of `Reached`; a stream
begins with them (`reached_of_ofStore`) and every call keeps them (`Reached.next`).  They are
what the units that a stream opens need to stand inside the file, so that no place that a
decoder computes can leave the numbers of the machine.
-/
import HeapDump.Proofs.Record.Plan
import HeapDump.Proofs.Record.Step

namespace HeapDump

variable {data : ByteArray}

/-! ### Failing to read a header -/

/-- Only a record that the file is too short for has no header. -/
theorem RecordHeader.read_eq_error {store : ByteStore} (hs : store.Serves data) {p : Nat}
    {err : Error} (h : RecordHeader.read store p = .error err) :
    ∃ needed, err = .truncated p needed (data.size - p) ∧ data.size - p < needed := by
  by_cases hshort : data.size - p < recordHeaderLength
  · rw [read_of_short hs hshort] at h
    cases h
    exact ⟨_, rfl, hshort⟩
  · have hnine : p + recordHeaderLength ≤ data.size := by
      rw [recordHeaderLength] at hshort ⊢
      omega
    obtain ⟨tag, time, length, htag, htime, hlength⟩ := exists_numbers hs hnine
    rw [read_of_numbers hs hnine htag htime hlength] at h
    split at h
    · next hlong =>
      cases h
      exact ⟨_, rfl, hlong⟩
    · cases h

/-- Only a file that does not begin as a dump does, or ends too early, has no header. -/
theorem Header.read_eq_error {store : ByteStore} (hs : store.Serves data) {err : Error}
    (h : Header.read store = .error err) :
    (∃ fault, err = .invalidHeader fault)
      ∨ ∃ needed, err = .truncated 0 needed data.size ∧ data.size < needed := by
  obtain ⟨scan, hscan, -⟩ := exists_scan hs
  unfold Header.read at h
  rcases hid : identifier scan.data.toList with ⟨name, terminated⟩
  simp only [hscan, hid, bind, Except.bind] at h
  rw [hs.size_eq] at h
  -- every check that fails says so, and behind all of them the numbers are there
  split at h
  · cases h
    exact .inl ⟨_, rfl⟩
  split at h
  · split at h
    · next hshort =>
      cases h
      refine .inr ⟨_, rfl, ?_⟩
      rw [tailLength]
      omega
    · cases h
      exact .inl ⟨_, rfl⟩
  split at h
  · cases h
    exact .inl ⟨_, rfl⟩
  split at h
  · next hshort =>
    cases h
    exact .inr ⟨_, rfl, hshort⟩
  next hfull =>
  rw [tailLength] at hfull
  obtain ⟨idSize, hidSize, -⟩ :=
    hs.exists_readNumber .uint32 (show name.length + 1 + 4 ≤ data.size by omega)
  obtain ⟨time, htime, -⟩ :=
    hs.exists_readNumber .uint64 (show name.length + 5 + 8 ≤ data.size by omega)
  simp only [hidSize, htime] at h
  split at h
  · cases h
    exact .inl ⟨_, rfl⟩
  · cases h

namespace RecordStream

variable {s t : RecordStream} {err : Error}

/-! ### Streams that are reached -/

/-- A stream that a reading can come to. -/
structure Reached (data : ByteArray) (s : RecordStream) : Prop where
  valid : s.Valid data
  size_lt : data.size < UInt64.size
  idSize_eq : s.header.idSize = 4 ∨ s.header.idSize = 8
  header_pos : 0 < s.header.length
  /-- Every record has a byte at least. -/
  count_le : s.header.length + s.count ≤ s.position

theorem Reached.position_pos (h : s.Reached data) : 0 < s.position := by
  have h1 := h.header_pos
  have h2 := h.count_le
  omega

/-- The unit between two places that a stream hands to a decoder. -/
def unit (s : RecordStream) (start stop : Nat) : Extent :=
  ⟨s.store, s.header.idSize, s.position, start, stop⟩

theorem Reached.unit_inside (h : s.Reached data) {start stop : Nat} (hpos : 0 < start)
    (hle : start ≤ stop) (hstop : stop ≤ data.size) : (s.unit start stop).Inside data :=
  ⟨h.valid.serves, h.idSize_eq, hpos, hle, hstop, h.size_lt⟩

/-- A sub-record is read from its unit. -/
theorem nextSubRecord_eq (s : RecordStream) (stop : Nat) : s.nextSubRecord stop =
    (match Layout.subRecord (s.unit s.position stop) s.position with
      | .ok (record, q) => (.ok (some ⟨s.position, none, .heap record⟩), { s with position := q })
      | .error e => (.error e, s)) := rfl

/-- A record that is no heap dump is read from its payload. -/
theorem nextBody_eq (s : RecordStream) {tag : Tag} (htag : tag.isHeapDump = false)
    (time : UInt32) (length payload stop : Nat) :
    s.nextBody ⟨tag.code, time, length, payload, stop⟩ =
      (((Layout.payload tag).exactly (s.unit payload stop) payload).map
        fun x => some ⟨s.position, some time, x.1⟩, { s with position := stop }) := by
  rw [nextBody]
  simp only [Tag.ofCode?_code, htag, Bool.false_eq_true, if_false]
  rfl

/-! ### Failures -/

/-- The ways in which a stream over `data` fails. -/
inductive Failure (data : ByteArray) (s : RecordStream) : Error → RecordStream → Prop where
  /-- A heap dump goes on with a byte that is no tag. -/
  | unknownSubTag {stop : Nat} {code : UInt8} (hopen : s.segmentEnd = some stop)
      (hlt : s.position < stop) (hcode : Span data s.position (s.position + 1) [code])
      (htag : SubTag.ofCode? code = none) :
      Failure data s (.unknownTag code s.position) { s with finished := true }
  /-- Something is wrong with the fields of a sub-record. -/
  | subRecord {stop : Nat} {tag : SubTag} {err : Error} (hopen : s.segmentEnd = some stop)
      (hlt : s.position < stop) (hcode : Span data s.position (s.position + 1) [tag.code])
      (hfault : (s.unit s.position stop).Fault data (Layout.RefusedType tag) (s.position + 1) err) :
      Failure data s err { s with finished := true }
  /-- The file ends inside a top-level record. -/
  | truncated {needed : Nat} (htop : s.AtTopLevel) (h : data.size - s.position < needed) :
      Failure data s (.truncated s.position needed (data.size - s.position))
        { s with segmentEnd := none, finished := true }
  /-- Something is wrong with the payload of a record that is known. -/
  | payload {tag : Tag} {time : UInt32} {payload : List UInt8} {err : Error}
      (htop : s.AtTopLevel) (hframe : Framed data s.position tag.code time payload)
      (hfault : (s.unit (s.position + recordHeaderLength)
        (s.position + recordHeaderLength + payload.length)).Fault data (fun _ => False)
          (s.position + recordHeaderLength) err) :
      Failure data s err
        { s with
          position := s.position + recordHeaderLength + payload.length
          segmentEnd := none
          finished := true }
  /-- A record has an unknown tag, and these are not passed over. -/
  | unknownTag {code : UInt8} {time : UInt32} {payload : List UInt8} (htop : s.AtTopLevel)
      (hskip : s.skipUnknown = false) (htag : Tag.ofCode? code = none)
      (hframe : Framed data s.position code time payload) :
      Failure data s (.unknownTag code s.position)
        { s with segmentEnd := none, finished := true }

theorem next_eq_error_iff_advance (hf : s.finished = false) :
    s.next = (.error err, t) ↔
      ∃ u, s.advance = (.error err, u) ∧ t = { u with finished := true } := by
  rw [next, hf, if_neg Bool.false_ne_true]
  rcases s.advance with ⟨_ | _ | r', u⟩
  · simp [eq_comm]
  · simp
  · simp

/-- A sub-record has no tag, or something is wrong with its fields. -/
theorem failure_of_nextSubRecord (hr : s.Reached data) {stop : Nat}
    (hopen : s.segmentEnd = some stop) (hlt : s.position < stop)
    (h : s.nextSubRecord stop = (.error err, t)) :
    Failure data s err { t with finished := true } := by
  have hinside := hr.unit_inside hr.position_pos (Nat.le_of_lt hlt)
    (hr.valid.segment_le stop hopen).2
  -- the tag is there since the heap dump has not ended; either it is unknown or its fields fail
  obtain ⟨code, hbyte, hspan⟩ := Decoder.byte_eq_ok hinside hlt
  rw [nextSubRecord_eq, Layout.subRecord_eq, hbyte] at h
  rcases htag : SubTag.ofCode? code with _ | tag
  · simp only [htag] at h
    cases h
    exact .unknownSubTag hopen hlt hspan htag
  · obtain rfl := SubTag.ofCode?_eq_some_iff.mp htag
    have hfault := (Layout.planSubPayload tag).outcome (p := s.position + 1) hinside
      (Nat.le_succ _) hlt
    simp only [htag] at h
    rcases hsub : Layout.subPayload tag (s.unit s.position stop) (s.position + 1)
      with err' | ⟨record, q⟩
    · rw [hsub] at hfault h
      cases h
      exact .subRecord hopen hlt hspan hfault
    · rw [hsub] at h
      cases h

/-- A record that is framed has an unknown tag, or something is wrong with its payload. -/
theorem failure_of_nextBody (hr : s.Reached data) (htop : s.AtTopLevel) {code : UInt8}
    {time : UInt32} {payload : List UInt8} (hframe : Framed data s.position code time payload)
    (h : { s with segmentEnd := none }.nextBody ⟨code, time, payload.length,
        s.position + recordHeaderLength, s.position + recordHeaderLength + payload.length⟩
      = (.error err, t)) :
    Failure data s err { t with finished := true } := by
  rcases htag : Tag.ofCode? code with _ | tag
  · rw [nextBody] at h
    simp only [htag] at h
    split at h
    · cases h
    · next hskip =>
      cases h
      exact .unknownTag htop (Bool.eq_false_iff.mpr hskip) htag hframe
  · obtain rfl := Tag.ofCode?_eq_some_iff.mp htag
    rcases hdump : tag.isHeapDump with _ | _
    · have hspan := hframe.payload_span
      have hfault := (Decoder.Plan.exactly (Layout.planPayload tag)).outcome
        (p := s.position + recordHeaderLength)
        (hr.unit_inside (Nat.lt_add_right _ hr.position_pos) hspan.start_le hspan.stop_le)
        (Nat.le_refl _) hspan.start_le
      rw [nextBody_eq _ hdump] at h
      change (Except.map _ ((Layout.payload tag).exactly (s.unit _ _) _), _) = _ at h
      rcases hbody : (Layout.payload tag).exactly (s.unit (s.position + recordHeaderLength)
        (s.position + recordHeaderLength + payload.length)) (s.position + recordHeaderLength)
        with err' | ⟨body, q⟩
      · rw [hbody] at h hfault
        cases h
        exact .payload htop hframe hfault
      · rw [hbody] at h
        cases h
    · rw [nextBody] at h
      simp only [Tag.ofCode?_code, hdump, if_true] at h
      cases h

/-- At the top level the file is too short, or the record that is framed fails. -/
theorem failure_of_nextTopLevel (hr : s.Reached data) (htop : s.AtTopLevel)
    (h : { s with segmentEnd := none }.nextTopLevel = (.error err, t)) :
    Failure data s err { t with finished := true } := by
  rcases hread : RecordHeader.read s.store s.position with err' | header
  · obtain ⟨needed, rfl, hneeded⟩ := RecordHeader.read_eq_error hr.valid.serves hread
    rw [nextTopLevel] at h
    split at h
    · cases h
    · rw [hread] at h
      cases h
      exact .truncated htop hneeded
  -- the record is framed, so the fault is in what stands behind its header
  · obtain ⟨payload, hframe, -⟩ := (RecordHeader.read_eq_ok_iff hr.valid.serves).mp hread
    rw [nextTopLevel_of_framed hr.valid.close hframe] at h
    exact failure_of_nextBody hr htop hframe h

/-- **A stream over `data` fails in one of the listed ways.** -/
theorem failure_of_next (hr : s.Reached data) (hf : s.finished = false)
    (h : s.next = (.error err, t)) : Failure data s err t := by
  obtain ⟨u, hu, rfl⟩ := (next_eq_error_iff_advance hf).mp h
  rcases s.open_or_atTopLevel with ⟨stop, hopen, hlt⟩ | htop
  · rw [advance_of_open hopen hlt] at hu
    have hfailure := failure_of_nextSubRecord hr hopen hlt hu
    exact hfailure
  · rw [advance_of_atTopLevel htop] at hu
    exact failure_of_nextTopLevel hr htop hu

/-! ### What the errors say -/

/-- What an error says of the place where a stream over `data` stands: the file is too
short for the record there, the record has another length, its tag is unknown, or it is a
sub-record and the type of one of its values is refused. -/
def Blames (data : ByteArray) (s : RecordStream) : Error → Prop
  | .truncated offset needed available =>
    offset = s.position ∧ available = data.size - offset ∧ available < needed
  | .lengthMismatch offset declared consumed => offset = s.position ∧ declared ≠ consumed
  | .unknownTag tag offset =>
    offset = s.position ∧ Span data offset (offset + 1) [tag]
      ∧ (s.AtTopLevel → Tag.ofCode? tag = none) ∧ (¬ s.AtTopLevel → SubTag.ofCode? tag = none)
  | .unknownType code offset =>
    ∃ stop ∈ s.segmentEnd, s.position < offset ∧ offset < stop
      ∧ Span data offset (offset + 1) [code]
      ∧ ∃ tag : SubTag, Span data s.position (s.position + 1) [tag.code]
        ∧ Layout.RefusedType tag code
  | _ => False

/-- **Every error of a stream points at the record that fails.** -/
theorem Failure.blames (h : Failure data s err t) : s.Blames data err := by
  cases h with
  | unknownSubTag hopen hlt hcode htag =>
    exact ⟨rfl, hcode, fun htop => absurd hlt (Nat.not_lt.mpr (htop _ hopen)), fun _ => htag⟩
  | @subRecord stop tag err hopen hlt hcode hfault =>
    cases err with
    | lengthMismatch offset declared consumed => exact hfault
    -- a unit has two faults: fields left over or missing, and a type that its tag refuses
    | unknownType code offset =>
      obtain ⟨hoffset, hstop, hspan, hrefused⟩ := hfault
      exact ⟨stop, hopen, hoffset, hstop, hspan, tag, hcode, hrefused⟩
    | _ => exact hfault.elim
  | truncated htop h => exact ⟨rfl, rfl, h⟩
  | @payload tag time payload err htop hframe hfault =>
    cases err with
    | lengthMismatch offset declared consumed => exact hfault
    | unknownType code offset => exact hfault.2.2.2.elim
    | _ => exact hfault.elim
  | unknownTag htop hskip htag hframe =>
    have hcode := (framed_iff.mp hframe).2.1
    rw [Scalar.encode_uint8] at hcode
    exact ⟨rfl, hcode, fun _ => htag, fun hopen => absurd htop hopen⟩

/-! ### What every call keeps -/

/-- A stream that has failed still stands inside its data. -/
theorem Failure.valid (h : Failure data s err t) (hv : s.Valid data) : t.Valid data := by
  cases h with
  | unknownSubTag | subRecord => exact { hv with }
  | truncated | unknownTag => exact { hv.close with }
  | payload htop hframe hfault =>
    exact { hv.close with position_le := hframe.span.stop_le, segment_le := fun _ h => by cases h }

/-- A failure does not move backwards, and it gives no record. -/
theorem Failure.frame (h : Failure data s err t) :
    t.header = s.header ∧ s.position ≤ t.position ∧ t.count = s.count := by
  cases h with
  | payload => exact ⟨rfl, (Nat.le_add_right ..).trans (Nat.le_add_right ..), rfl⟩
  | _ => exact ⟨rfl, Nat.le_refl _, rfl⟩

theorem next_of_finished (hf : s.finished = true) : s.next = (.ok none, s) := by
  rw [next, if_pos hf]

theorem reached_of_ofStore {store : ByteStore} {skipUnknown : Bool} (hs : store.Serves data)
    (hsize : data.size < UInt64.size) (h : ofStore store skipUnknown = .ok s) :
    s.Reached data := by
  have hv := valid_of_ofStore hs h
  obtain ⟨header, hread, rfl⟩ := ofStore_eq_ok_iff.mp h
  obtain ⟨name, hhead, -, hlength⟩ := (Header.read_eq_ok_iff hs).mp hread
  refine ⟨hv, hsize, hhead.idSize_eq, ?_, Nat.le_refl _⟩
  show 0 < header.length
  rw [hlength]
  exact Nat.lt_add_left _ (by decide)

/-- **Every call leaves a stream that a reading can come to.** -/
theorem Reached.next (hr : s.Reached data) : s.next.2.Reached data := by
  rcases hf : s.finished with _ | _
  · rcases hnext : s.next with ⟨err | _ | r, t⟩
    · have hfailure := failure_of_next hr hf hnext
      obtain ⟨hheader, hposition, hcount⟩ := hfailure.frame
      refine ⟨hfailure.valid hr.valid, hr.size_lt, hheader ▸ hr.idSize_eq,
        hheader ▸ hr.header_pos, ?_⟩
      show t.header.length + t.count ≤ t.position
      rw [hheader, hcount]
      exact hr.count_le.trans hposition
    · obtain ⟨-, -, rfl⟩ := (next_eq_none_iff hr.valid hf).mp hnext
      exact { hr with valid := { hr.valid.close with } }
    · have hstep := (next_eq_some_iff hr.valid hf).mp hnext
      obtain ⟨-, hheader, -, -, hcount⟩ := hstep.frame
      have hlt := hstep.position_lt
      have hle := hr.count_le
      refine ⟨hstep.valid hr.valid, hr.size_lt, hheader ▸ hr.idSize_eq, hheader ▸ hr.header_pos,
        ?_⟩
      show t.header.length + t.count ≤ t.position
      rw [hheader, hcount]
      omega
  · rw [next_of_finished hf]
    exact hr

/-- No call changes the header. -/
theorem Reached.header_next (hr : s.Reached data) : s.next.2.header = s.header := by
  rcases hf : s.finished with _ | _
  · rcases hnext : s.next with ⟨err | _ | r, t⟩
    · exact (failure_of_next hr hf hnext).frame.1
    · obtain ⟨-, -, rfl⟩ := (next_eq_none_iff hr.valid hf).mp hnext
      rfl
    · exact ((next_eq_some_iff hr.valid hf).mp hnext).frame.2.1
  · rw [next_of_finished hf]

/-- The stream after some number of calls, whatever they give. -/
def after (n : Nat) (s : RecordStream) : RecordStream := (fun s => s.next.2)^[n] s

theorem after_succ (n : Nat) (s : RecordStream) : s.after (n + 1) = (s.after n).next.2 :=
  Function.iterate_succ_apply' ..

theorem Reached.after (hr : s.Reached data) (n : Nat) :
    (s.after n).Reached data ∧ (s.after n).header = s.header := by
  induction n with
  | zero => exact ⟨hr, rfl⟩
  | succ n ih =>
    rw [after_succ]
    exact ⟨ih.1.next, ih.1.header_next.trans ih.2⟩

end RecordStream

end HeapDump
