/-
HeapDump/Proofs/Record/Shift.lean

Reading the same bytes further behind.

If the bytes of one dump stand in another one, `k` places further behind
(`StandsIn data data' start k`), a decoder reads the same there (`Decoder.Plan.shift`): its
answer is the same, and all places in it and in its errors are `k` further behind.  The
induction is on the plan of the decoder; that no place is read outside of the bytes that
both dumps share is what `Plan.outcome` says, since a decoder never leaves its unit.

So does a stream.  `RecordStream.shift` moves a stream to the other dump, and then

    (s.shift k store count).next = shiftNext k store count s.next

(`RecordStream.next_shift`), whatever it has read before: the number of records that it has
given is free, because nothing else that it keeps has a part in a call.  By induction a run
further behind gives the same records (`Runs.shift`), and a complete one ends in the same way
(`Completes.shift`).
-/
import HeapDump.Proofs.Record.Failure
import HeapDump.Proofs.Record.Run

namespace HeapDump

/-! ### Places further behind -/

/-- An error `k` places further behind. -/
def Error.shift (k : Nat) : Error → Error
  | .outOfBounds offset length size => .outOfBounds (offset + k) length size
  | .unknownTag tag offset => .unknownTag tag (offset + k)
  | .unknownType code offset => .unknownType code (offset + k)
  | .lengthMismatch offset declared consumed => .lengthMismatch (offset + k) declared consumed
  | .truncated offset needed available => .truncated (offset + k) needed available
  | .unsupportedWidth offset width => .unsupportedWidth (offset + k) width
  | .noSuchFile => .noSuchFile
  | .invalidHeader fault => .invalidHeader fault
  | .invalidOptions fault => .invalidOptions fault

/-- A record `k` places further behind. -/
def Record.shift (k : Nat) (r : Record) : Record := { r with offset := r.offset + k }

/-- From `start` on, the bytes of `data` are those of `data'` that stand `k` places further
behind, and both end there. -/
structure StandsIn (data data' : ByteArray) (start k : Nat) : Prop where
  size_eq : data'.size = data.size + k
  extract_eq : ∀ {i j : Nat}, start ≤ i → j ≤ data.size →
    data'.extract (i + k) (j + k) = data.extract i j

variable {data data' : ByteArray} {start k : Nat}

/-- A read of the same bytes gives the same. -/
theorem StandsIn.read_eq (h : StandsIn data data' start k) {store store' : ByteStore}
    (hs : store.Serves data) (hs' : store'.Serves data') {p n : Nat} (hp : start ≤ p)
    (hn : p + n ≤ data.size) : store'.read (p + k) n = store.read p n := by
  have hsize := h.size_eq
  rw [hs.read_eq hn, hs'.read_eq (by omega), Nat.add_right_comm, h.extract_eq hp hn]

theorem StandsIn.readNumber_eq (h : StandsIn data data' start k) {store store' : ByteStore}
    (hs : store.Serves data) (hs' : store'.Serves data') {p : Nat} {s : Scalar} (hp : start ≤ p)
    (hn : p + s.size ≤ data.size) : store'.readNumber s (p + k) = store.readNumber s p := by
  rw [ByteStore.readNumber, ByteStore.readNumber, h.read_eq hs hs' hp hn]

/-! ### Decoders -/

/-- The same unit `k` places further behind, in another dump. -/
def Extent.shift (k : Nat) (store : ByteStore) (e : Extent) : Extent :=
  ⟨store, e.idSize, e.record + k, e.start + k, e.stop + k⟩

namespace Decoder

variable {refused : UInt8 → Prop} {α : Type} {store : ByteStore} {e : Extent} {p : Nat}

/-- What a decoder gives, `k` places further behind. -/
def shiftResult (k : Nat) : Except Error (α × Nat) → Except Error (α × Nat)
  | .ok (a, q) => .ok (a, q + k)
  | .error err => .error (err.shift k)

theorem mismatch_shift (k : Nat) (store : ByteStore) (e : Extent) (consumed : Nat) :
    mismatch (e.shift k store) consumed = (mismatch e consumed).shift k := by
  show Error.lengthMismatch (e.record + k) (e.stop + k - (e.start + k)) consumed = _
  rw [Nat.add_sub_add_right]
  rfl

/-- A unit has no room for bytes exactly if it has none further behind. -/
theorem not_le_shift_iff (k : Nat) (store : ByteStore) (e : Extent) (p n : Nat) :
    p + k + n ≤ (e.shift k store).stop ↔ p + n ≤ e.stop := by
  show p + k + n ≤ e.stop + k ↔ _
  omega

/-- As much of a unit is read as is further behind. -/
theorem sub_start_shift (k : Nat) (store : ByteStore) (e : Extent) (p : Nat) :
    p + k - (e.shift k store).start = p - e.start := Nat.add_sub_add_right p k e.start

/-- The error of bytes that are not there. -/
theorem mismatch_take_shift (k : Nat) (store : ByteStore) (e : Extent) (p n : Nat) :
    mismatch (e.shift k store) (min (p + k - (e.shift k store).start + n) wordMax)
      = (mismatch e (min (p - e.start + n) wordMax)).shift k := by
  rw [sub_start_shift, mismatch_shift]

variable (h : StandsIn data data' start k) (he : e.Inside data) (hs : store.Serves data')
include h he hs

theorem bytes_shift (hp : start ≤ p) (n : Nat) :
    bytes n (e.shift k store) (p + k) = shiftResult k (bytes n e p) := by
  by_cases hn : p + n ≤ e.stop
  · rw [bytes_eq hn, bytes_eq ((not_le_shift_iff k store e p n).mpr hn)]
    show (store.read (p + k) n).map _ = _
    rw [h.read_eq he.serves hs hp (hn.trans he.stop_le),
      he.serves.read_eq (hn.trans he.stop_le), Nat.add_right_comm]
    rfl
  · rw [bytes_eq_error hn, bytes_eq_error (mt (not_le_shift_iff k store e p n).mp hn),
      mismatch_take_shift]
    rfl

theorem byte_shift (hp : start ≤ p) :
    byte (e.shift k store) (p + k) = shiftResult k (byte e p) := by
  have hbytes := bytes_shift h he hs hp Scalar.uint8.size
  rw [byte, number_eq]
  rcases hread : bytes Scalar.uint8.size e p with err | ⟨b, q⟩
  · rw [hread] at hbytes
    rw [bind_eq_of_error hread, bind_eq_of_error hbytes]
    rfl
  · rw [hread] at hbytes
    rw [bind_eq_of_ok hread, bind_eq_of_ok hbytes]
    rfl

theorem type_shift (hp : start ≤ p) :
    type (e.shift k store) (p + k) = shiftResult k (type e p) := by
  rw [type_eq, type_eq, byte_shift h he hs hp]
  rcases byte e p with err | ⟨code, q⟩
  · rfl
  · simp only [shiftResult]
    cases BasicType.ofCode? code <;> rfl

/-- **A decoder with a plan reads the same further behind.** -/
theorem Plan.shift {d : Decoder α} (plan : Plan refused d) (hstart : start ≤ e.start)
    (hp : e.start ≤ p) (hq : p ≤ e.stop) :
    d (e.shift k store) (p + k) = shiftResult k (d e p) := by
  induction plan generalizing p with
  | pure a => rfl
  | @bind α β d f first rest ihd ihf =>
    -- the second decoder begins inside the unit, so the induction goes on from there
    have hfirst := first.outcome he hp hq
    have hshift := ihd hp hq
    rcases hd : d e p with err | ⟨a, mid⟩
    · rw [hd] at hshift
      rw [bind_eq_of_error hd, bind_eq_of_error hshift]
      rfl
    · rw [hd] at hfirst hshift
      rw [bind_eq_of_ok hd, bind_eq_of_ok hshift]
      exact ihf a (hp.trans hfirst.1) hfirst.2
  | width f rest ih => exact ih e.idSize he.idSize_eq hp hq
  | remaining =>
    show Except.ok (e.stop + k - (p + k), p + k) = Except.ok (e.stop - p, p + k)
    rw [Nat.add_sub_add_right]
  | @skip α d n rest ih =>
    by_cases hn : p + n ≤ e.stop
    · rw [bind_eq_of_ok (take_eq_of_le hn),
        bind_eq_of_ok (take_eq_of_le ((not_le_shift_iff k store e p n).mpr hn)),
        Nat.add_right_comm]
      exact ih (Nat.le_add_right_of_le hp) hn
    · rw [bind_eq_of_error (take_eq_of_lt hn),
        bind_eq_of_error (take_eq_of_lt (mt (not_le_shift_iff k store e p n).mp hn)),
        mismatch_take_shift]
      rfl
  | bytes n => exact bytes_shift h he hs (hstart.trans hp) n
  | @block count size hcount hsize => exact bytes_shift h he hs (hstart.trans hp) (count * size)
  | type _ => exact type_shift h he hs (hstart.trans hp)
  | primitiveType _ _ =>
    rw [primitiveType_eq, primitiveType_eq, type_shift h he hs (hstart.trans hp)]
    rcases Decoder.type e p with err | ⟨t, q⟩
    · rfl
    · simp only [shiftResult]
      by_cases ht : t = .object
      · simp only [if_pos ht]
        rfl
      · simp only [if_neg ht]
  | @exactly α d body ih =>
    have hbody := ih hp hq
    rw [exactly_eq, exactly_eq, hbody]
    rcases d e p with err | ⟨a, stop⟩
    · rfl
    · have hstop : stop + k ≠ (e.shift k store).stop ↔ stop ≠ e.stop := by
        show stop + k ≠ e.stop + k ↔ _
        omega
      simp only [shiftResult]
      by_cases hne : stop ≠ e.stop
      · simp only [if_pos hne, if_pos (hstop.mpr hne), sub_start_shift, mismatch_shift]
      · simp only [if_neg hne, if_neg (mt hstop.mp hne)]

end Decoder

/-! ### Streams -/

/-- The header of a record `k` places further behind. -/
def RecordHeader.shift (k : Nat) (h : RecordHeader) : RecordHeader :=
  { h with payload := h.payload + k, stop := h.stop + k }

theorem RecordHeader.read_shift (h : StandsIn data data' start k) {store store' : ByteStore}
    (hs : store.Serves data) (hs' : store'.Serves data') {p : Nat} (hp : start ≤ p) :
    RecordHeader.read store' (p + k)
      = (match RecordHeader.read store p with
          | .ok header => .ok (header.shift k)
          | .error err => .error (err.shift k)) := by
  have hsize := h.size_eq
  -- as many bytes are left further behind, so both checks of the length go the same way
  have hrest : data'.size - (p + k) = data.size - p := by omega
  by_cases hshort : data.size - p < recordHeaderLength
  · rw [read_of_short hs hshort, read_of_short hs' (hrest ▸ hshort), hrest]
    rfl
  · rw [recordHeaderLength] at hshort
    have hnine : p + 9 ≤ data.size := by omega
    obtain ⟨tag, time, length, htag, htime, hlength⟩ := exists_numbers hs hnine
    -- the numbers are the same further behind
    have htag' := h.readNumber_eq (s := .uint8) hs hs' hp (show p + 1 ≤ data.size by omega)
    have htime' := h.readNumber_eq (s := .uint32) hs hs' (show start ≤ p + 1 by omega)
      (show p + 1 + 4 ≤ data.size by omega)
    have hlength' := h.readNumber_eq (s := .uint32) hs hs' (show start ≤ p + 5 by omega)
      (show p + 5 + 4 ≤ data.size by omega)
    rw [Nat.add_right_comm] at htime' hlength'
    rw [read_of_numbers hs hnine htag htime hlength,
      read_of_numbers hs' (show p + k + 9 ≤ data'.size by omega) (htag'.trans htag)
        (htime'.trans htime) (hlength'.trans hlength), hrest]
    by_cases hlong : data.size - p < recordHeaderLength + length.toNat
    · rw [if_pos hlong, if_pos hlong]
      rfl
    · rw [if_neg hlong, if_neg hlong]
      simp only [shift, Nat.add_right_comm _ k]

namespace RecordStream

/-- A stream `k` places further behind in another dump, which has given `count` records more. -/
def shift (k : Nat) (store : ByteStore) (count : Nat) (s : RecordStream) : RecordStream :=
  { s with
    store
    position := s.position + k
    segmentEnd := s.segmentEnd.map (· + k)
    count := s.count + count }

/-- What a call gives, `k` places further behind. -/
def shiftNext (k : Nat) (store : ByteStore) (count : Nat) :
    Except Error (Option Record) × RecordStream → Except Error (Option Record) × RecordStream
  | (.ok r, s) => (.ok (r.map (Record.shift k)), s.shift k store count)
  | (.error err, s) => (.error (err.shift k), s.shift k store count)

variable {s : RecordStream} {store : ByteStore}

theorem unit_shift (k : Nat) (store : ByteStore) (count : Nat) (s : RecordStream)
    (first last : Nat) :
    (s.shift k store count).unit (first + k) (last + k) = (s.unit first last).shift k store := rfl

section

variable (h : StandsIn data data' start k) (hr : s.Reached data) (hs : store.Serves data')
  (hstart : start ≤ s.position) (count : Nat)
include h hr hs hstart

theorem nextSubRecord_shift {stop : Nat} (hopen : s.segmentEnd = some stop)
    (hlt : s.position < stop) :
    (s.shift k store count).nextSubRecord (stop + k)
      = shiftNext k store count (s.nextSubRecord stop) := by
  have hinside := hr.unit_inside hr.position_pos (Nat.le_of_lt hlt)
    (hr.valid.segment_le stop hopen).2
  obtain ⟨code, hbyte, -⟩ := Decoder.byte_eq_ok hinside hlt
  have hread : Layout.subRecord
        ((s.shift k store count).unit (s.shift k store count).position (stop + k))
        (s.shift k store count).position
      = Decoder.shiftResult k (Layout.subRecord (s.unit s.position stop) s.position) := by
    show Layout.subRecord ((s.unit s.position stop).shift k store) (s.position + k) = _
    rw [Layout.subRecord_eq, Layout.subRecord_eq, Decoder.byte_shift h hinside hs hstart, hbyte]
    simp only [Decoder.shiftResult]
    rcases SubTag.ofCode? code with _ | tag
    · rfl
    · exact (Layout.planSubPayload tag).shift (p := s.position + 1) h hinside hs hstart
        (Nat.le_succ _) hlt
  rw [nextSubRecord_eq, nextSubRecord_eq, hread]
  rcases Layout.subRecord (s.unit s.position stop) s.position with err | ⟨record, q⟩ <;> rfl

theorem nextBody_shift {header : RecordHeader} (hpos : s.position ≤ header.payload)
    (hle : header.payload ≤ header.stop) (hstop : header.stop ≤ data.size) :
    (s.shift k store count).nextBody (header.shift k)
      = shiftNext k store count (s.nextBody header) := by
  obtain ⟨code, time, length, payload, stop⟩ := header
  rcases htag : Tag.ofCode? code with _ | tag
  · rw [nextBody, nextBody]
    simp only [RecordHeader.shift, htag]
    show (if s.skipUnknown = true then _ else _) = _
    by_cases hskip : s.skipUnknown = true
    · rw [if_pos hskip, if_pos hskip]
      rfl
    · rw [if_neg hskip, if_neg hskip]
      rfl
  · obtain rfl := Tag.ofCode?_eq_some_iff.mp htag
    rcases hdump : tag.isHeapDump with _ | _
    · have hinside := hr.unit_inside (Nat.lt_of_lt_of_le hr.position_pos hpos) hle hstop
      have hshift := (Decoder.Plan.exactly (Layout.planPayload tag)).shift (p := payload) h hinside
        hs (hstart.trans hpos) (Nat.le_refl _) hle
      rw [RecordHeader.shift, nextBody_eq _ hdump, nextBody_eq _ hdump, unit_shift, hshift]
      rcases (Layout.payload tag).exactly (s.unit payload stop) payload with err | ⟨body, q⟩ <;> rfl
    · rw [nextBody, nextBody]
      simp only [RecordHeader.shift, Tag.ofCode?_code, hdump, if_true]
      rfl

theorem nextTopLevel_shift :
    (s.shift k store count).nextTopLevel = shiftNext k store count s.nextTopLevel := by
  have hsize := h.size_eq
  have hend : (s.shift k store count).store.size ≤ (s.shift k store count).position
      ↔ s.store.size ≤ s.position := by
    show store.size ≤ s.position + k ↔ _
    rw [hs.size_eq, hr.valid.serves.size_eq]
    omega
  rw [nextTopLevel, nextTopLevel]
  by_cases hover : s.store.size ≤ s.position
  · rw [if_pos hover, if_pos (hend.mpr hover)]
    rfl
  · rw [if_neg hover, if_neg (mt hend.mp hover)]
    have hread := RecordHeader.read_shift h hr.valid.serves hs hstart
    change (match RecordHeader.read store (s.position + k) with
      | .ok h => (s.shift k store count).nextBody h
      | .error e => _) = _
    rw [hread]
    rcases hheader : RecordHeader.read s.store s.position with err | header
    · rfl
    · obtain ⟨payload, hframe, heq⟩ := (RecordHeader.read_eq_ok_iff hr.valid.serves).mp hheader
      have hspan := hframe.payload_span
      rw [heq]
      exact nextBody_shift h hr hs hstart count (Nat.le_add_right _ _) hspan.start_le hspan.stop_le

/-- **A stream further behind gives the same**, as far as it stands on the same bytes. -/
theorem next_shift : (s.shift k store count).next = shiftNext k store count s.next := by
  have hadvance : (s.shift k store count).advance = shiftNext k store count s.advance := by
    rcases s.open_or_atTopLevel with ⟨stop, hopen, hlt⟩ | htop
    · have hopen' : (s.shift k store count).segmentEnd = some (stop + k) := by
        show s.segmentEnd.map (· + k) = _
        rw [hopen]
        rfl
      rw [advance_of_open hopen hlt, advance_of_open hopen' (Nat.add_lt_add_right hlt k),
        nextSubRecord_shift h hr hs hstart count hopen hlt]
    · have htop' : (s.shift k store count).AtTopLevel := by
        intro stop' hstop'
        obtain ⟨stop, hstop, rfl⟩ := Option.map_eq_some_iff.mp hstop'
        exact Nat.add_le_add_right (htop stop hstop) k
      rw [advance_of_atTopLevel htop, advance_of_atTopLevel htop']
      exact nextTopLevel_shift h { hr with valid := hr.valid.close } hs hstart count
  rw [next, next, hadvance]
  show (if s.finished = true then _ else _) = _
  by_cases hf : s.finished = true
  · rw [if_pos hf, if_pos hf]
    rfl
  · rw [if_neg hf, if_neg hf]
    rcases s.advance with ⟨err | _ | r, t⟩
    · rfl
    · rfl
    · simp only [shiftNext, Option.map_some, shift, Nat.add_right_comm _ _ 1]

end

/-! ### Runs -/

section Runs

variable (h : StandsIn data data' start k) (hs : store.Serves data') (count : Nat)
  {t : RecordStream} {trace : List (Record × RecordStream)}
include h hs

theorem Valid.shift (hv : s.Valid data) : (s.shift k store count).Valid data' := by
  have hsize := h.size_eq
  refine ⟨hs, hv.idSize_le, ?_, fun stop hstop => ?_⟩
  · show s.position + k ≤ data'.size
    have hle := hv.position_le
    omega
  · obtain ⟨stop, hstop', rfl⟩ := Option.map_eq_some_iff.mp hstop
    obtain ⟨h1, h2⟩ := hv.segment_le stop hstop'
    exact ⟨Nat.add_le_add_right h1 k, by omega⟩

/-- **A run further behind gives the same records**, further behind. -/
theorem Runs.shift (hruns : Runs data s trace t) (hr : s.Reached data)
    (hf : s.finished = false) (hstart : start ≤ s.position) :
    Runs data' (s.shift k store count)
        (trace.map fun x => (x.1.shift k, x.2.shift k store count)) (t.shift k store count)
      ∧ t.Reached data ∧ start ≤ t.position := by
  induction hruns with
  | done s => exact ⟨.done _, hr, hstart⟩
  | @step s u t r trace hstep rest ih =>
    -- the call that makes the step is shifted, and a shifted call that gives a record is a step
    have hnext := (next_eq_some_iff hr.valid hf).mpr hstep
    have hreached := hr.next
    have hshift := next_shift h hr hs hstart count
    rw [hnext] at hreached hshift
    obtain ⟨hrest, hlast⟩ := ih hreached (hstep.frame.2.2.2.1.trans hf)
      (hstart.trans (Nat.le_of_lt hstep.position_lt))
    refine ⟨.step ((next_eq_some_iff (hr.valid.shift h hs count) ?_).mp hshift) hrest, hlast⟩
    exact hf

/-- **A complete run further behind** gives the same records and ends in the same way. -/
theorem Completes.shift {error : Option Error} (hc : Completes data s trace error t)
    (hr : s.Reached data) (hf : s.finished = false) (hstart : start ≤ s.position) :
    Completes data' (s.shift k store count)
      (trace.map fun x => (x.1.shift k, x.2.shift k store count)) (error.map (Error.shift k))
      (t.shift k store count) := by
  obtain ⟨last, hruns, hlast⟩ := hc.exists_last
  obtain ⟨hruns', hreached, hposition⟩ := hruns.shift h hs count hr hf hstart
  refine ⟨_, hruns', ?_⟩
  rw [next_shift h hreached hs hposition, hlast]
  cases error <;> rfl

end Runs

end RecordStream

end HeapDump
