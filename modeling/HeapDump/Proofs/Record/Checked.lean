/-
HeapDump/Proofs/Record/Checked.lean

Reading with 64-bit words.

Places and lengths are natural numbers here, and in a program they are words.  A
`Checked` computation has no result at all as soon as a sum or a product in it is no
word, a difference is negative, a byte outside of the unit is read, or identifiers have a
width that no number has.  Every plan of a decoder runs in this way
(`Decoder.Plan.checked`), and so does the reading of headers and of streams.

Nothing ever goes wrong: the checked reading of a dump is the reading of it.  This is
proved layer by layer, each from the one below:

* bytes and numbers of a store (`Checked.readBytes_eq`, `Checked.readNumber_eq`);
* decoders, by induction on their plans (`Decoder.Plan.checked_eq`);
* headers of dumps and of records (`Header.checkedRead_eq`,
  `RecordHeader.checkedRead_eq`);
* calls of a stream (`RecordStream.checkedNext_eq`).

What carries all of it is that the file is counted in a word and that a stream stays
inside: a sum is formed of small numbers, or when it is known to lead to a place in the
file.  So no sum wraps around and every error is one that points at the record that fails
(`errors_blame_the_record`).
-/
import HeapDump.Proofs.Record.Failure
import HeapDump.Proofs.Record.RoundTrip
import HeapDump.Proofs.Shards.Stitching

namespace HeapDump

/-! ### Computations on words -/

/-- A computation that may fail, and that has no result if a number in it is no word. -/
abbrev Checked := ExceptT Error Option

namespace Checked

variable {α β : Type} {data : ByteArray}

/-- What is found out with words only. -/
def of (x : Except Error α) : Checked α := ExceptT.mk (some x)

/-- What has no result. -/
def overflow : Checked α := ExceptT.mk none

/-- A number that must be a word. -/
def word (n : Nat) : Checked Nat := if n < UInt64.size then pure n else overflow

/-- A difference that must not be negative. -/
def sub (a b : Nat) : Checked Nat := if b ≤ a then pure (a - b) else overflow

/-- The bytes from a place on, all of which must lie between `first` and `last`. -/
def readBytes (store : ByteStore) (first last place length : Nat) : Checked ByteArray := do
  let stop ← word (place + length)
  if first ≤ place ∧ stop ≤ last then of (store.read place length) else overflow

/-- The number of kind `k` at a place of a store. -/
def readNumber (store : ByteStore) (k : Scalar) (place : Nat) : Checked k.Carrier := do
  return k.decode (← readBytes store 0 store.size place k.size)

@[simp] theorem of_ok_bind (a : α) (f : α → Checked β) : (of (.ok a) >>= f) = f a := rfl

@[simp] theorem of_error_bind (err : Error) (f : α → Checked β) :
    (of (.error err) >>= f) = of (.error err) := rfl

theorem ok_bind (a : α) (f : α → Except Error β) : (Except.ok a >>= f) = f a := rfl

theorem word_eq {n : Nat} (h : n < UInt64.size) : word n = of (.ok n) := if_pos h

theorem sub_eq {a b : Nat} (h : b ≤ a) : sub a b = of (.ok (a - b)) := if_pos h

/-- Bytes that lie where they may are read. -/
theorem readBytes_eq {store : ByteStore} (hs : store.Serves data) (hsize : data.size < UInt64.size)
    {first last place length : Nat} (hfirst : first ≤ place) (hlast : place + length ≤ last)
    (hle : last ≤ data.size) :
    readBytes store first last place length = of (.ok (data.extract place (place + length))) := by
  have hword : place + length < UInt64.size := (hlast.trans hle).trans_lt hsize
  rw [readBytes, word_eq hword, of_ok_bind, if_pos ⟨hfirst, hlast⟩,
    hs.read_eq (hlast.trans hle)]

theorem readNumber_eq {store : ByteStore} (hs : store.Serves data)
    (hsize : data.size < UInt64.size) {k : Scalar} {place : Nat}
    (h : place + k.size ≤ data.size) : readNumber store k place = of (store.readNumber k place) := by
  rw [readNumber, readBytes_eq hs hsize (Nat.zero_le _) (hs.size_eq ▸ h) (Nat.le_of_eq hs.size_eq),
    of_ok_bind, ByteStore.readNumber, hs.read_eq h]
  rfl

end Checked

/-! ### Decoders -/

namespace Decoder

open Checked

variable {refused : UInt8 → Prop} {α β : Type} {data : ByteArray} {e : Extent} {p q : Nat}

/-- Takes bytes of a unit.  The sum with which the end is found is the one that a program
checks: if it is no word, it is behind every unit. -/
def checkedTake (n : Nat) (e : Extent) (p : Nat) : Checked (Nat × Nat) :=
  if p + n ≤ e.stop then return (p, p + n)
  else do
    let declared ← sub e.stop e.start
    let consumed ← sub p e.start
    throw (.lengthMismatch e.record declared (min (consumed + n) wordMax))

/-- Reads bytes of a unit, none of them outside. -/
def checkedBytes (n : Nat) (e : Extent) (p : Nat) : Checked (ByteArray × Nat) := do
  let (place, q) ← checkedTake n e p
  let data ← readBytes e.store e.start e.stop place n
  return (data, q)

def checkedByte (e : Extent) (p : Nat) : Checked (UInt8 × Nat) := do
  let (data, q) ← checkedBytes 1 e p
  return (Scalar.uint8.decode data, q)

def checkedType (e : Extent) (p : Nat) : Checked (BasicType × Nat) := do
  let (code, q) ← checkedByte e p
  match BasicType.ofCode? code with
  | some t => return (t, q)
  | none => throw (.unknownType code p)

/-- A decoder that runs on words, by its plan. -/
def Plan.checked : {α : Type} → {d : Decoder α} → Plan refused d → Extent → Nat → Checked (α × Nat)
  | _, _, .pure a, _, p => return (a, p)
  | _, _, .bind first rest, e, p => do
    let (a, q) ← first.checked e p
    (rest a).checked e q
  | _, _, .width _ rest, e, p =>
    if h : e.idSize = 4 ∨ e.idSize = 8 then (rest e.idSize h).checked e p else overflow
  | _, _, .remaining, e, p => do return (← sub e.stop p, p)
  | _, _, .skip n rest, e, p => do
    let (_, q) ← checkedTake n e p
    rest.checked e q
  | _, _, .bytes n, e, p => checkedBytes n e p
  | _, _, @block _ count size _ _, e, p => do checkedBytes (← Checked.word (count * size)) e p
  | _, _, .type _, e, p => checkedType e p
  | _, _, .primitiveType _ _, e, p => do
    let (t, q) ← checkedType e p
    if t = .object then throw (.unknownType t.code p) else return (t, q)
  | _, _, .exactly body, e, p => do
    let (a, q) ← body.checked e p
    if q = e.stop then return (a, q)
    else
      let declared ← sub e.stop e.start
      let consumed ← sub q e.start
      throw (.lengthMismatch e.record declared consumed)

theorem checkedTake_eq (h : e.Inside data) (hp : e.start ≤ p) (n : Nat) :
    checkedTake n e p = of (take n e p) := by
  rw [checkedTake, take]
  by_cases hn : p + n ≤ e.stop
  · rw [if_pos hn, if_pos hn]
    rfl
  · rw [if_neg hn, if_neg hn, sub_eq h.start_le, of_ok_bind, sub_eq hp]
    rfl

theorem checkedBytes_eq (h : e.Inside data) (hp : e.start ≤ p) (n : Nat) :
    checkedBytes n e p = of (bytes n e p) := by
  rw [checkedBytes, checkedTake_eq h hp, take]
  by_cases hn : p + n ≤ e.stop
  · simp only [if_pos hn, bytes_eq_ok h hn, of_ok_bind,
      readBytes_eq h.serves h.size_lt hp hn h.stop_le]
    rfl
  · rw [if_neg hn, bytes_eq_error hn]
    rfl

theorem checkedByte_eq (h : e.Inside data) (hp : e.start ≤ p) :
    checkedByte e p = of (byte e p) := by
  rw [checkedByte, checkedBytes_eq h hp, byte, number_eq]
  change (of (bytes Scalar.uint8.size e p) >>= fun x => _) = _
  rcases hbytes : bytes Scalar.uint8.size e p with err | ⟨b, q⟩
  · rw [bind_eq_of_error hbytes]
    rfl
  · rw [bind_eq_of_ok hbytes]
    rfl

theorem checkedType_eq (h : e.Inside data) (hp : e.start ≤ p) :
    checkedType e p = of (type e p) := by
  rw [checkedType, checkedByte_eq h hp, type_eq]
  rcases byte e p with err | ⟨code, q⟩
  · rfl
  · simp only [of_ok_bind]
    cases BasicType.ofCode? code <;> rfl

/-- **A decoder with a plan runs on words**, and reads no byte outside of its unit. -/
theorem Plan.checked_eq {d : Decoder α} (plan : Plan refused d) (h : e.Inside data)
    (hp : e.start ≤ p) (hq : p ≤ e.stop) : plan.checked e p = of (d e p) := by
  induction plan generalizing p with
  | pure a => rfl
  -- one after the other: the first decoder leaves its place inside the unit, where the rest begins
  | @bind α β d f first rest ihd ihf =>
    have hfirst := first.outcome h hp hq
    rw [Plan.checked, ihd hp hq]
    rcases hd : d e p with err | ⟨a, mid⟩
    · rw [bind_eq_of_error hd]
      rfl
    · rw [hd] at hfirst
      rw [bind_eq_of_ok hd, of_ok_bind]
      exact ihf a (hp.trans hfirst.1) hfirst.2
  -- identifiers have four or eight bytes, so a product with their number is a word
  | width f rest ih =>
    rw [Plan.checked, dif_pos h.idSize_eq]
    exact ih e.idSize h.idSize_eq hp hq
  | remaining =>
    rw [Plan.checked, sub_eq hq]
    rfl
  | @skip α d n rest ih =>
    rw [Plan.checked, checkedTake_eq h hp]
    by_cases hn : p + n ≤ e.stop
    · rw [take_eq_of_le hn, bind_eq_of_ok (take_eq_of_le hn)]
      exact ih (Nat.le_add_right_of_le hp) hn
    · rw [take_eq_of_lt hn, bind_eq_of_error (take_eq_of_lt hn)]
      rfl
  | bytes n => exact checkedBytes_eq h hp n
  -- identifiers in a row: at most a 32-bit number of at most eight bytes each
  | @block count size hcount hsize =>
    have hword : count * size < UInt64.size :=
      calc count * size ≤ count * 8 := Nat.mul_le_mul_left count hsize
        _ < UInt32.size * 8 := Nat.mul_lt_mul_of_pos_right hcount (by decide)
        _ ≤ UInt64.size := by decide
    rw [Plan.checked, word_eq hword, of_ok_bind]
    exact checkedBytes_eq h hp (count * size)
  | type _ => exact checkedType_eq h hp
  | primitiveType _ _ =>
    rw [Plan.checked, checkedType_eq h hp, primitiveType_eq]
    rcases Decoder.type e p with err | ⟨t, q⟩
    · rfl
    · by_cases ht : t = .object
      · simp only [of_ok_bind, if_pos ht]
        rfl
      · simp only [of_ok_bind, if_neg ht]
        rfl
  | @exactly α d body ih =>
    have hbody := body.outcome h hp hq
    rw [Plan.checked, ih hp hq, exactly_eq]
    rcases hd : d e p with err | ⟨a, stop⟩
    · rfl
    · rw [hd] at hbody
      by_cases hstop : stop = e.stop
      · simp only [of_ok_bind, if_pos hstop, if_neg (not_not_intro hstop)]
        rfl
      · simp only [of_ok_bind, if_neg hstop, if_pos hstop, sub_eq h.start_le,
          sub_eq (hp.trans hbody.1)]
        rfl

end Decoder

/-! ### Headers -/

section Headers

open Checked

variable {data : ByteArray} {store : ByteStore}

/-- Reads the header of a dump with words only. -/
def Header.checkedRead (store : ByteStore) : Checked Header := do
  let scanLength := min store.size scanLimit
  let scan ← readBytes store 0 store.size 0 scanLength
  let (name, terminated) := identifier scan.data.toList
  if ¬ agree name magic then throw (unknownFormat name)
  else if ¬ terminated then
    if scanLength < scanLimit then
      let needed ← word (scanLength + tailLength)
      throw (.truncated 0 needed store.size)
    else throw (.invalidHeader .unterminated)
  else if name.length < magic.length then throw (unknownFormat name)
  else
    let body ← word (name.length + 1)
    let length ← word (body + 12)
    if store.size < length then throw (.truncated 0 length store.size)
    else
      let idSize ← readNumber store .uint32 body
      if idSize ≠ 4 ∧ idSize ≠ 8 then throw (.invalidHeader (.unsupportedIdSize idSize))
      else
        let timePlace ← word (body + 4)
        let timestamp ← readNumber store .uint64 timePlace
        return ⟨Utf8.decodeLossy ⟨name.toArray⟩, idSize.toNat, timestamp, length⟩

/-- Reads the header of the top-level record at `offset` with words only. -/
def RecordHeader.checkedRead (store : ByteStore) (offset : Nat) : Checked RecordHeader := do
  let available ← sub store.size offset
  if available < recordHeaderLength then throw (.truncated offset recordHeaderLength available)
  else
    let tag ← readNumber store .uint8 offset
    let timePlace ← word (offset + 1)
    let time ← readNumber store .uint32 timePlace
    let lengthPlace ← word (offset + 5)
    let length ← readNumber store .uint32 lengthPlace
    let payload ← word (offset + recordHeaderLength)
    let needed ← word (recordHeaderLength + length.toNat)
    if available < needed then throw (.truncated offset needed available)
    else
      let stop ← word (payload + length.toNat)
      return ⟨tag, time, length.toNat, payload, stop⟩

theorem Header.checkedRead_eq (hs : store.Serves data) (hsize : data.size < UInt64.size) :
    checkedRead store = of (Header.read store) := by
  obtain ⟨scan, hscan, hspan⟩ := exists_scan hs
  have hlimit : min data.size scanLimit ≤ 64 := Nat.min_le_right _ _
  rw [hs.size_eq] at hscan hspan
  have hlen := hspan.length_eq
  have hread : readBytes store 0 data.size 0 (min data.size scanLimit) = of (.ok scan) := by
    rw [readBytes_eq hs hsize (Nat.zero_le _) (by omega) (Nat.le_refl _), ← hscan,
      hs.read_eq (by omega)]
  unfold checkedRead Header.read
  rw [hs.size_eq]
  rcases hid : identifier scan.data.toList with ⟨name, terminated⟩
  simp only [hread, hscan, of_ok_bind, ok_bind, hid]
  -- the text of the format is inside of what has been scanned, so all sums are small
  have hname : name.length ≤ 64 := by
    have hle := (List.takeWhile_prefix (fun b : UInt8 => decide (b ≠ 0)) (l := scan.data.toList)).length_le
    rw [identifier, Prod.mk.injEq] at hid
    rw [hid.1] at hle
    omega
  have hsmall : 64 + 13 < UInt64.size := by decide
  -- the cases of the reading itself, in its order: other text, no end of the text, text too short,
  -- too few bytes, identifiers of another width
  by_cases hagree : agree name magic = true
  swap
  · rw [if_pos hagree, if_pos hagree]
    rfl
  rw [if_neg (not_not_intro hagree), if_neg (not_not_intro hagree)]
  cases terminated with
  | false =>
    rw [if_pos Bool.false_ne_true, if_pos Bool.false_ne_true]
    by_cases hshort : min data.size scanLimit < scanLimit
    · rw [if_pos hshort, if_pos hshort, word_eq (by rw [tailLength]; omega)]
      rfl
    · rw [if_neg hshort, if_neg hshort]
      rfl
  | true =>
    rw [if_neg (not_not_intro rfl), if_neg (not_not_intro rfl)]
    by_cases hlong : name.length < magic.length
    · rw [if_pos hlong, if_pos hlong]
      rfl
    rw [if_neg hlong, if_neg hlong, word_eq (by omega), of_ok_bind, word_eq (by omega), of_ok_bind,
      show name.length + 1 + 12 = name.length + tailLength from rfl]
    by_cases hfull : data.size < name.length + tailLength
    · rw [if_pos hfull, if_pos hfull]
      rfl
    rw [if_neg hfull, if_neg hfull]
    rw [tailLength] at hfull
    obtain ⟨idSize, hidSize, -⟩ :=
      hs.exists_readNumber .uint32 (show name.length + 1 + 4 ≤ data.size by omega)
    obtain ⟨time, htime, -⟩ :=
      hs.exists_readNumber .uint64 (show name.length + 5 + 8 ≤ data.size by omega)
    rw [readNumber_eq hs hsize (show name.length + 1 + 4 ≤ data.size by omega), hidSize, of_ok_bind]
    show _ = of (if _ then _ else _)
    by_cases hwidth : idSize ≠ 4 ∧ idSize ≠ 8
    · rw [if_pos hwidth, if_pos hwidth]
      rfl
    · rw [if_neg hwidth, if_neg hwidth, word_eq (by omega), of_ok_bind,
        readNumber_eq hs hsize (show name.length + 5 + 8 ≤ data.size by omega), htime, of_ok_bind]
      rfl

theorem RecordHeader.checkedRead_eq (hs : store.Serves data) (hsize : data.size < UInt64.size)
    {p : Nat} (hp : p ≤ data.size) : checkedRead store p = of (RecordHeader.read store p) := by
  rw [checkedRead, hs.size_eq, sub_eq hp, of_ok_bind]
  by_cases hshort : data.size - p < recordHeaderLength
  · rw [if_pos hshort, RecordHeader.read_of_short hs hshort]
    rfl
  rw [if_neg hshort]
  -- nine bytes are there, so each field of the record header lies inside the file
  have hnine : p + 9 ≤ data.size := by
    rw [recordHeaderLength] at hshort
    omega
  obtain ⟨tag, time, length, htag, htime, hlength⟩ := RecordHeader.exists_numbers hs hnine
  have hlt := length.toNat_lt
  rw [RecordHeader.read_of_numbers hs hnine htag htime hlength,
    readNumber_eq hs hsize (show p + 1 ≤ data.size by omega), htag, of_ok_bind,
    word_eq (by omega), of_ok_bind,
    readNumber_eq hs hsize (show p + 1 + 4 ≤ data.size by omega), htime, of_ok_bind,
    word_eq (by omega), of_ok_bind,
    readNumber_eq hs hsize (show p + 5 + 4 ≤ data.size by omega), hlength, of_ok_bind,
    word_eq (by rw [recordHeaderLength]; omega), of_ok_bind,
    word_eq (by rw [recordHeaderLength, UInt64.size]; omega), of_ok_bind]
  by_cases hlong : data.size - p < recordHeaderLength + length.toNat
  · rw [if_pos hlong, if_pos hlong]
    rfl
  · rw [if_neg hlong, if_neg hlong, word_eq (by rw [recordHeaderLength] at hlong ⊢; omega)]
    rfl

end Headers

/-! ### Streams -/

/-- Reads a whole sub-record with words only. -/
def Layout.checkedSubRecord (e : Extent) (p : Nat) : Checked (HeapRecord × Nat) := do
  let (code, q) ← Decoder.checkedByte e p
  match SubTag.ofCode? code with
  | some tag => (planSubPayload tag).checked e q
  | none => throw (.unknownTag code p)

namespace RecordStream

open Checked

variable {data : ByteArray} {s : RecordStream}

/-- Begins to read a dump with words only. -/
def checkedOfStore (store : ByteStore) (skipUnknown : Bool) : Checked RecordStream := do
  let header ← Header.checkedRead store
  return { store, header, skipUnknown, position := header.length }

/-- Reads a sub-record with words only. -/
def checkedNextSubRecord (s : RecordStream) (stop : Nat) :
    Option (Except Error (Option Record) × RecordStream) :=
  (Layout.checkedSubRecord (s.unit s.position stop) s.position).run.map fun
    | .ok (record, q) => (.ok (some ⟨s.position, none, .heap record⟩), { s with position := q })
    | .error e => (.error e, s)

/-- Reads the top-level record whose header is `h` with words only.  Numbers are worked with
in the payload alone. -/
def checkedNextBody (s : RecordStream) (h : RecordHeader) :
    Option (Except Error (Option Record) × RecordStream) :=
  match Tag.ofCode? h.tag with
  | some tag =>
    if tag.isHeapDump then some (s.nextBody h)
    else
      ((Layout.planPayload tag).exactly.checked (s.unit h.payload h.stop) h.payload).run.map
        fun body =>
          (body.map fun x => some ⟨s.position, some h.time, x.1⟩, { s with position := h.stop })
  | none => some (s.nextBody h)

/-- Reads a top-level record with words only. -/
def checkedNextTopLevel (s : RecordStream) :
    Option (Except Error (Option Record) × RecordStream) :=
  if s.store.size ≤ s.position then some (.ok none, s)
  else
    match (RecordHeader.checkedRead s.store s.position).run with
    | some (.ok h) => s.checkedNextBody h
    | some (.error e) => some (.error e, s)
    | none => none

def checkedAdvance (s : RecordStream) : Option (Except Error (Option Record) × RecordStream) :=
  match s.segmentEnd with
  | some stop =>
    if s.position < stop then s.checkedNextSubRecord stop
    else { s with segmentEnd := none }.checkedNextTopLevel
  | none => s.checkedNextTopLevel

/-- The next record, read with words only; the number of records must be a word, too. -/
def checkedNext (s : RecordStream) : Option (Except Error (Option Record) × RecordStream) :=
  if s.finished then some (.ok none, s)
  else
    match s.checkedAdvance with
    | some (.ok (some record), s) =>
      if s.count + 1 < UInt64.size then some (.ok (some record), { s with count := s.count + 1 })
      else none
    | some (.ok none, s) => some (.ok none, { s with finished := true })
    | some (.error e, s) => some (.error e, { s with finished := true })
    | none => none

theorem checkedOfStore_eq {store : ByteStore} (hs : store.Serves data)
    (hsize : data.size < UInt64.size) (skipUnknown : Bool) :
    checkedOfStore store skipUnknown = of (ofStore store skipUnknown) := by
  rw [checkedOfStore, Header.checkedRead_eq hs hsize, ofStore]
  cases Header.read store <;> rfl

theorem checkedNextSubRecord_eq (hr : s.Reached data) {stop : Nat}
    (hopen : s.segmentEnd = some stop) (hlt : s.position < stop) :
    s.checkedNextSubRecord stop = some (s.nextSubRecord stop) := by
  -- the unit of a sub-record reaches to the end of its heap dump
  have hinside := hr.unit_inside hr.position_pos (Nat.le_of_lt hlt)
    (hr.valid.segment_le stop hopen).2
  obtain ⟨code, hbyte, -⟩ := Decoder.byte_eq_ok hinside hlt
  have hread : Layout.checkedSubRecord (s.unit s.position stop) s.position
      = of (Layout.subRecord (s.unit s.position stop) s.position) := by
    rw [Layout.checkedSubRecord,
      Decoder.checkedByte_eq (p := s.position) hinside (Nat.le_refl _), Layout.subRecord_eq, hbyte]
    simp only [of_ok_bind]
    cases SubTag.ofCode? code with
    | none => rfl
    | some tag =>
      exact (Layout.planSubPayload tag).checked_eq (p := s.position + 1) hinside (Nat.le_succ _) hlt
  rw [checkedNextSubRecord, nextSubRecord_eq, hread]
  cases Layout.subRecord (s.unit s.position stop) s.position <;> rfl

theorem checkedNextBody_eq (hr : s.Reached data) {h : RecordHeader}
    (hpos : 0 < h.payload) (hle : h.payload ≤ h.stop) (hstop : h.stop ≤ data.size) :
    s.checkedNextBody h = some (s.nextBody h) := by
  rw [checkedNextBody]
  rcases htag : Tag.ofCode? h.tag with _ | tag
  · rfl
  · by_cases hdump : tag.isHeapDump = true
    · exact if_pos hdump
    · have hchecked := (Decoder.Plan.exactly (Layout.planPayload tag)).checked_eq (p := h.payload)
        (hr.unit_inside hpos hle hstop) (Nat.le_refl _) hle
      rw [nextBody]
      simp only [htag, if_neg hdump, hchecked]
      rfl

theorem checkedNextTopLevel_eq (hr : s.Reached data) :
    s.checkedNextTopLevel = some s.nextTopLevel := by
  have hs := hr.valid.serves
  rw [checkedNextTopLevel, nextTopLevel]
  by_cases hend : s.store.size ≤ s.position
  · rw [if_pos hend, if_pos hend]
  · rw [if_neg hend, if_neg hend, RecordHeader.checkedRead_eq hs hr.size_lt hr.valid.position_le]
    rcases hread : RecordHeader.read s.store s.position with e | h
    · rfl
    · obtain ⟨payload, hframe, hh⟩ := (RecordHeader.read_eq_ok_iff hs).mp hread
      have hspan := hframe.payload_span
      rw [hh] at hread ⊢
      exact checkedNextBody_eq hr (Nat.lt_add_right _ hr.position_pos) hspan.start_le hspan.stop_le

theorem checkedAdvance_eq (hr : s.Reached data) : s.checkedAdvance = some s.advance := by
  rw [checkedAdvance, advance]
  rcases hopen : s.segmentEnd with _ | stop
  · exact checkedNextTopLevel_eq hr
  · by_cases hlt : s.position < stop
    · simp only [if_pos hlt]
      exact checkedNextSubRecord_eq hr hopen hlt
    · simp only [if_neg hlt]
      exact checkedNextTopLevel_eq { hr with valid := hr.valid.close }

/-- **No call of a stream works with a number that is no word**, and none reads a byte outside
of the unit that it is in. -/
theorem checkedNext_eq (hr : s.Reached data) : s.checkedNext = some s.next := by
  have hnext := hr.next
  rw [checkedNext, checkedAdvance_eq hr]
  rw [next] at hnext ⊢
  by_cases hf : s.finished = true
  · rw [if_pos hf, if_pos hf]
  · rw [if_neg hf] at hnext ⊢
    rw [if_neg hf]
    rcases hadvance : s.advance with ⟨e | _ | record, t⟩
    · rfl
    · rfl
    · -- there are fewer records than bytes
      rw [hadvance] at hnext
      have hcount : t.header.length + (t.count + 1) ≤ t.position := hnext.count_le
      have hposition : t.position ≤ data.size := hnext.valid.position_le
      have hsize := hr.size_lt
      exact if_pos (by omega)

end RecordStream

/-! ### Reading a dump -/

/-- **Reading a dump is safe, and its errors point at what is wrong**: to begin a reading and
each call of it work with words only and read no byte outside of their unit.  A reading does
not begin only if the header is wrong or cut off, and every error of a call says something
true about the record at which the stream stands. -/
theorem errors_blame_the_record {bytes : ByteArray} {source : Source} {shardSize padding : UInt64}
    {shards : Shards} (hsource : Source.ofBytes? .memory bytes = some source)
    (hshards : Shards.ofSource source shardSize padding = .ok shards) (skipUnknown : Bool) :
    RecordStream.checkedOfStore shards.store skipUnknown
        = Checked.of (RecordStream.ofStore shards.store skipUnknown)
      ∧ (∀ err, RecordStream.ofStore shards.store skipUnknown = .error err →
          (∃ fault, err = .invalidHeader fault)
            ∨ ∃ needed, err = .truncated 0 needed bytes.size ∧ bytes.size < needed)
      ∧ ∀ s, RecordStream.ofStore shards.store skipUnknown = .ok s → ∀ n,
          (s.after n).checkedNext = some (s.after n).next
            ∧ ∀ err t, (s.after n).next = (.error err, t) → (s.after n).Blames bytes err := by
  have hs := shards.store_serves
  have hsize := source.size_lt
  rw [Shards.source_of_ofSource hshards, Source.bytes_of_ofBytes? hsource] at hs
  rw [Source.bytes_of_ofBytes? hsource] at hsize
  refine ⟨RecordStream.checkedOfStore_eq hs hsize skipUnknown, fun err herr => ?_,
    fun s hstream n => ?_⟩
  -- to begin a reading fails only if the header cannot be read
  · refine Header.read_eq_error hs ?_
    rw [RecordStream.ofStore] at herr
    rcases hread : Header.read shards.store with e | header
    · rw [hread] at herr
      cases herr
      rfl
    · rw [hread] at herr
      cases herr
  -- all calls go on from a stream that the calls before have kept inside the file
  · have hreached := ((RecordStream.reached_of_ofStore hs hsize hstream).after n).1
    refine ⟨RecordStream.checkedNext_eq hreached, fun err t herr => ?_⟩
    rcases hf : (s.after n).finished with _ | _
    · exact (RecordStream.failure_of_next hreached hf herr).blames
    · rw [RecordStream.next_of_finished hf] at herr
      cases herr

/-- A dump with an array of values whose type is that of references. -/
def mistypedDump : List UInt8 :=
  sampleHeader.written ++
    [0x1C, 0, 0, 0, 0, 0, 0, 0, 14, 0x23, 0, 0, 0, 16, 0, 0, 0, 0, 0, 0, 0, 1, 2]

/-- The mistyped dump behind windows of seven bytes that overlap by two. -/
def mistypedShards : Shards where
  source := ⟨.memory, ⟨mistypedDump.toArray⟩, by decide +kernel⟩
  geometry := ⟨UInt64.ofNat mistypedDump.length, 5, 2, by decide, by decide⟩
  length_eq := rfl

/-- The stream that begins to read the mistyped dump. -/
def mistypedStream : RecordStream where
  store := mistypedShards.store
  header := sampleHeader
  skipUnknown := false
  position := sampleHeader.length

theorem errors_blame_the_record_mistypedDump :
    Source.ofBytes? .memory ⟨mistypedDump.toArray⟩ = some mistypedShards.source
      ∧ Shards.ofSource mistypedShards.source 5 2 = .ok mistypedShards
      ∧ RecordStream.ofStore mistypedShards.store false = .ok mistypedStream
      ∧ (mistypedStream.after 1).checkedNext = some (mistypedStream.after 1).next
      ∧ ∃ t, (mistypedStream.after 1).next = (.error (.unknownType 2 53), t)
        ∧ (mistypedStream.after 1).Blames ⟨mistypedDump.toArray⟩ (.unknownType 2 53) := by
  have hsource := Source.ofBytes?_of_lt .memory mistypedShards.source.size_lt
  have hshards := Shards.ofSource_of_lt mistypedShards.source (show (2 : UInt64) < 5 by decide)
    (by decide)
  have hstream : RecordStream.ofStore mistypedShards.store false = .ok mistypedStream :=
    RecordStream.ofStore_eq_ok_iff.mpr ⟨sampleHeader, by decide +kernel, rfl⟩
  obtain ⟨-, -, hcalls⟩ := errors_blame_the_record hsource hshards false
  obtain ⟨hchecked, hblames⟩ := hcalls mistypedStream hstream 1
  have herror : (mistypedStream.after 1).next.1 = .error (.unknownType 2 53) := by decide +kernel
  have hnext : (mistypedStream.after 1).next
      = (.error (.unknownType 2 53), (mistypedStream.after 1).next.2) := Prod.ext herror rfl
  exact ⟨hsource, hshards, hstream, hchecked, _, hnext, hblames _ _ hnext⟩

end HeapDump
