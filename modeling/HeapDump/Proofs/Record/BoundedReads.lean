/-
HeapDump/Proofs/Record/BoundedReads.lean

Reading a unit of a file, and reading a copy of its bytes.

A cursor reads through windows over the whole file, and only what it may take keeps it in its unit.
A parser of the bytes of the unit has nothing else to read.  After any reads, met or refused, the
two stand at one place (`Tracks`), and a read gives the same by both (`Tracks.run_fst`): one that
the parser refuses is a length mismatch of the record for the cursor.

Design.  All kinds of reads are values of one type (`TypedRead`), with three functions that carry
them out: by a cursor, by a parser and by a decoder.  For each of the three there is one equation
for all kinds of reads, in terms of how many bytes the read takes and what these spell
(`TypedRead.run_eq`, `TypedRead.parse_eq`, `TypedRead.decoder_eq`).  After that no kind of read is
looked at again: one read keeps `Tracks` (`Tracks.after`), and so do any (`Tracks.afterAll`).

No byte outside of the unit matters to a cursor, whatever windows there are: two cursors that keep
up with one parser read the same (`Tracks.run_congr`).  Main statement: `cursor_reads_unit`.
-/
import HeapDump.Proofs.Record.Cursor
import HeapDump.Proofs.Record.Plan

namespace HeapDump

/-- A typed read. -/
inductive TypedRead where
  | number (s : Scalar)
  | ident
  | value (t : BasicType)
  | bytes (length : UInt64)
  | idents (count : UInt32)

namespace TypedRead

/-- What a read gives. -/
abbrev Answer : TypedRead → Type
  | number s => s.Carrier
  | ident => ObjectId
  | value _ => Value ObjectId
  | bytes _ => ByteArray
  | idents _ => List ObjectId

/-- Reads with a cursor. -/
def run : (r : TypedRead) → Cursor → Except Error r.Answer × Cursor
  | number s, c => c.readNumber s
  | ident, c => c.readId
  | value t, c => c.readValue t
  | bytes length, c => c.readBytes length
  | idents count, c => c.readIds count

/-- Reads with a parser.  Identifiers in a row are read one by one, all or none. -/
def parse (idSize : Nat) : (r : TypedRead) → Parser → Except Error r.Answer × Parser
  | number s, p => p.readNumber s
  | ident, p => p.readId idSize
  | value t, p => Value.parse t idSize p
  | bytes length, p => p.readBytes length.toNat
  | idents count, p => p.transaction (Parser.readIds idSize count.toNat)

/-- The decoder that reads. -/
def decoder : (r : TypedRead) → Decoder r.Answer
  | number s => Decoder.number s
  | ident => Decoder.ident
  | value t => Decoder.value t
  | bytes length => Decoder.bytes length.toNat
  | idents count => Decoder.idents count.toNat

/-- The number of bytes that a read takes. -/
def length (idSize : Nat) : TypedRead → Nat
  | number s => s.size
  | ident => idSize
  | value t => t.size idSize
  | bytes length => length.toNat
  | idents count => count.toNat * idSize

/-- What the bytes of a read spell. -/
def spelled (idSize : Nat) : (r : TypedRead) → ByteArray → r.Answer
  | number s, data => s.decode data
  | ident, data => UInt64.ofNat (BigEndian.ofBytes data)
  | value t, data => .ofBits t (BigEndian.ofBytes data)
  | bytes _, data => data
  | idents count, data => Decoder.cutIdents idSize count.toNat data.data.toList

variable {c : Cursor} {p : Parser} {idSize : Nat}

/-! ### One read -/

theorem run_eq (h : c.Inside) (r : TypedRead) :
    r.run c = c.reading (r.length c.idSize.toNat) (r.spelled c.idSize.toNat) := by
  cases r with
  | number s => exact h.readNumber_eq s
  | ident => exact h.readId_eq
  | value t => exact h.readValue_eq t
  | bytes length => exact h.readBytes_eq length
  | idents count => exact h.readIds_eq count

/-- A parser takes the bytes and gives what they spell, or stays. -/
theorem parse_eq (hid : idSize ∈ [1, 2, 4, 8]) (r : TypedRead) (p : Parser) :
    (r.length idSize ≤ p.remaining ∧ r.parse idSize p
        = (.ok (r.spelled idSize (p.ahead (r.length idSize))), p.behind (r.length idSize)))
      ∨ (p.remaining < r.length idSize ∧ ∃ e, r.parse idSize p = (.error e, p)) := by
  -- the guard is the same for all kinds of reads, so the cases are split by it first
  rcases Nat.lt_or_ge p.remaining (r.length idSize) with hlt | hle
  · refine .inr ⟨hlt, ?_⟩
    have hnot := Nat.not_le_of_lt hlt
    cases r with
    | number s => exact ⟨_, (p.readNumber_eq s).trans (if_neg hnot)⟩
    | ident => exact ⟨_, (p.readId_eq hid).trans (if_neg hnot)⟩
    | value t => exact ⟨_, (Value.parse_eq (fun _ => hid) p).trans (if_neg hnot)⟩
    | bytes length => exact ⟨_, if_neg hnot⟩
    | idents count =>
      -- the identifiers that fit have been read, and are taken back
      rcases p.readIds_eq hid count.toNat with ⟨hfits, -⟩ | ⟨-, k, herror⟩
      · exact absurd hfits hnot
      · refine ⟨(p.behind (k * idSize)).outOfBounds idSize, ?_⟩
        rw [parse, Parser.transaction, herror]
        rfl
  · refine .inl ⟨hle, ?_⟩
    cases r with
    | number s => exact (p.readNumber_eq s).trans (if_pos hle)
    | ident => exact (p.readId_eq hid).trans (if_pos hle)
    | value t => exact (Value.parse_eq (fun _ => hid) p).trans (if_pos hle)
    | bytes length => exact if_pos hle
    | idents count =>
      rcases p.readIds_eq hid count.toNat with ⟨-, hok⟩ | ⟨hlt, -⟩
      · rw [parse, Parser.transaction, hok]
        rfl
      · exact absurd hle (Nat.not_le_of_lt hlt)

/-- A decoder that makes something of bytes does as a cursor that takes them. -/
theorem bytes_bind_eq {α : Type} (h : c.Inside) (length : Nat) (make : ByteArray → α) :
    (Decoder.bytes length >>= fun data => pure (make data)) c.extent c.position.toNat
      = (c.reading length make).1.map (·, (c.reading length make).2.position.toNat) := by
  have hserves := c.shards.store_serves
  rw [Cursor.reading]
  by_cases hfits : c.position.toNat + length ≤ c.stop.toNat
  · have hbytes : Decoder.bytes length c.extent c.position.toNat
        = .ok (c.ahead length, c.position.toNat + length) := by
      rw [Decoder.bytes_eq hfits]
      exact congrArg _ (hserves.read_eq (hfits.trans h.stop_le))
    rw [Decoder.bind_eq_of_ok hbytes, if_pos hfits]
    show _ = Except.ok (_, (c.behind length).position.toNat)
    rw [Cursor.position_behind hfits]
    rfl
  · rw [Decoder.bind_eq_of_error (Decoder.bytes_eq_error hfits), if_neg hfits]
    rfl

/-- **Decoders read as cursors do.** -/
theorem decoder_eq (h : c.Inside) (r : TypedRead) :
    r.decoder c.extent c.position.toNat
      = (r.run c).1.map (·, (r.run c).2.position.toNat) := by
  rw [run_eq h, ← bytes_bind_eq h]
  cases r with
  | number s => exact congrFun (congrFun (Decoder.number_eq s) _) _
  | ident => rfl
  | value t => rfl
  | bytes length => exact congrFun (congrFun (bind_pure _).symm _) _
  | idents count =>
    have hcut : spelled c.idSize.toNat (idents count) = fun data =>
        (List.range count.toNat).map fun i => UInt64.ofNat (BigEndian.ofBytes
          (data.extract (i * c.idSize.toNat) (i * c.idSize.toNat + c.idSize.toNat))) :=
      funext fun data => (Decoder.map_extract_eq_cutIdents _ _ data).symm
    rw [hcut]
    rfl

end TypedRead

/-! ### Reads one after the other -/

/-- The cursor after some reads, each of which is tried whether or not those in front of it
failed. -/
def Cursor.afterAll (reads : List TypedRead) (c : Cursor) : Cursor :=
  reads.foldl (fun c r => (r.run c).2) c

/-- The parser after some reads. -/
def Parser.afterReads (idSize : Nat) (reads : List TypedRead) (p : Parser) : Parser :=
  reads.foldl (fun p r => (r.parse idSize p).2) p

/-- The cursor `c` stands in the unit `e` where `p` stands in the bytes of that unit. -/
structure Tracks (e : Extent) (c : Cursor) (p : Parser) : Prop where
  extent_eq : c.extent = e
  inside : c.Inside
  data_eq : p.data = c.shards.source.bytes.extract e.start e.stop
  position_eq : c.position.toNat = e.start + p.position

namespace Tracks

variable {e : Extent} {c : Cursor} {p : Parser} (h : Tracks e c p)
include h

/-- What is left of the unit is what is left of its bytes. -/
theorem add_le_iff (length : Nat) :
    c.position.toNat + length ≤ e.stop ↔ length ≤ p.remaining := by
  obtain ⟨rfl, hinside, hdata, hposition⟩ := h
  have hle := UInt64.le_iff_toNat_le.mp hinside.position_le
  have hstop := hinside.stop_le
  rw [Parser.remaining, Parser.length, hdata, ByteArray.size_extract]
  show _ ≤ c.stop.toNat ↔ _ ≤ min c.stop.toNat _ - c.start.toNat - _
  change c.position.toNat = c.start.toNat + _ at hposition
  omega

theorem ahead_eq {length : Nat} (hfits : c.position.toNat + length ≤ e.stop) :
    c.ahead length = p.ahead length := by
  rw [h.position_eq, Nat.add_assoc] at hfits
  rw [Cursor.ahead, Parser.ahead, h.data_eq, ByteArray.extract_extract, h.position_eq,
    Nat.add_assoc, Nat.min_eq_left hfits]

theorem behind {length : Nat} (hfits : c.position.toNat + length ≤ e.stop) :
    Tracks e (c.behind length) (p.behind length) := by
  obtain ⟨rfl, hinside, hdata, hposition⟩ := h
  refine ⟨rfl, hinside.behind hfits, hdata, ?_⟩
  rw [Cursor.position_behind hfits, hposition]
  exact Nat.add_assoc _ _ _

/-- **One read by both**: either both take the bytes and give the same, or both stay, and the cursor
says how long the unit would have to be. -/
theorem run_and_parse (r : TypedRead) :
    (c.position.toNat + r.length e.idSize ≤ e.stop
        ∧ ∃ a, r.run c = (.ok a, c.behind (r.length e.idSize))
          ∧ r.parse e.idSize p = (.ok a, p.behind (r.length e.idSize)))
      ∨ (¬c.position.toNat + r.length e.idSize ≤ e.stop
        ∧ r.run c = (.error (Decoder.mismatch e
            (min (c.position.toNat - e.start + r.length e.idSize) Decoder.wordMax)), c)
        ∧ ∃ err, r.parse e.idSize p = (.error err, p)) := by
  have hfits := h.add_le_iff (r.length e.idSize)
  have hahead : _ → c.ahead (r.length e.idSize) = p.ahead (r.length e.idSize) := h.ahead_eq
  obtain ⟨rfl, hinside, -, -⟩ := h
  rw [r.run_eq hinside, Cursor.reading]
  rcases r.parse_eq hinside.idSize_mem p with ⟨hle, hparse⟩ | ⟨hlt, err, hparse⟩
  · have hdata : p.ahead (r.length c.idSize.toNat) = c.ahead (r.length c.idSize.toNat) :=
      (hahead (hfits.mpr hle)).symm
    rw [hdata] at hparse
    exact .inl ⟨hfits.mpr hle, _, if_pos (hfits.mpr hle), hparse⟩
  · have hnot := mt hfits.mp (Nat.not_le_of_lt hlt)
    exact .inr ⟨hnot, if_neg hnot, err, hparse⟩

/-- Both go on from one place. -/
theorem after (r : TypedRead) : Tracks e (r.run c).2 (r.parse e.idSize p).2 := by
  rcases h.run_and_parse r with ⟨hfits, a, hrun, hparse⟩ | ⟨-, hrun, err, hparse⟩
  · rw [hrun, hparse]
    exact h.behind hfits
  · rw [hrun, hparse]
    exact h

/-- **Whatever is read, both stand at one place.** -/
theorem afterAll (reads : List TypedRead) :
    Tracks e (Cursor.afterAll reads c) (Parser.afterReads e.idSize reads p) := by
  induction reads generalizing c p with
  | nil => exact h
  | cons r reads ih => exact ih (h.after r)

/-- **What the cursor gives is what the parser gives**, with an error of its own. -/
theorem run_fst (r : TypedRead) : (r.run c).1 = (r.parse e.idSize p).1.mapError fun _ =>
    Decoder.mismatch e (min (c.position.toNat - e.start + r.length e.idSize) Decoder.wordMax) := by
  rcases h.run_and_parse r with ⟨-, a, hrun, hparse⟩ | ⟨-, hrun, err, hparse⟩
  · rw [hrun, hparse]
    rfl
  · rw [hrun, hparse]
    rfl

/-- Just the bytes that are left can be read. -/
theorem isOk_run_iff (r : TypedRead) :
    (r.run c).1.isOk ↔ c.position.toNat + r.length e.idSize ≤ e.stop := by
  rcases h.run_and_parse r with ⟨hfits, a, hrun, -⟩ | ⟨hnot, hrun, -⟩
  · rw [hrun]
    exact iff_of_true rfl hfits
  · rw [hrun]
    exact iff_of_false Bool.false_ne_true hnot

/-- A read that is met takes its bytes. -/
theorem position_run_of_ok {r : TypedRead} {a : r.Answer} (hok : (r.run c).1 = .ok a) :
    (r.run c).2.position.toNat = c.position.toNat + r.length e.idSize := by
  rcases h.run_and_parse r with ⟨hfits, b, hrun, -⟩ | ⟨-, hrun, -⟩
  · obtain rfl := h.extent_eq
    rw [hrun]
    exact Cursor.position_behind hfits
  · rw [hrun] at hok
    cases hok

/-- A read that is refused moves neither. -/
theorem stay_of_error {r : TypedRead} {err : Error} (herror : (r.run c).1 = .error err) :
    (r.run c).2 = c ∧ (r.parse e.idSize p).2 = p := by
  rcases h.run_and_parse r with ⟨-, a, hrun, -⟩ | ⟨-, hrun, err', hparse⟩
  · rw [hrun] at herror
    cases herror
  · rw [hrun, hparse]
    exact ⟨rfl, rfl⟩

/-- Cursors that one parser keeps up with read the same, whatever their windows are over. -/
theorem run_congr {store : ByteStore} {d : Cursor} (h' : Tracks { e with store } d p)
    (r : TypedRead) : d.position = c.position ∧ (r.run d).1 = (r.run c).1 := by
  have hposition : d.position = c.position :=
    UInt64.toNat_inj.mp (h'.position_eq.trans h.position_eq.symm)
  refine ⟨hposition, ?_⟩
  rw [h'.run_fst, h.run_fst, hposition]
  rfl

end Tracks

/-! ### The main statement -/

/-- A cursor at the beginning of a unit, and a parser at the beginning of its bytes. -/
theorem tracks_ofRange {shards : Shards} {idSize : UInt64} (hid : idSize = 4 ∨ idSize = 8)
    (record : UInt64) {start stop : UInt64} (hle : start ≤ stop)
    (hstop : stop.toNat ≤ shards.source.bytes.size) :
    Tracks ⟨shards.store, idSize.toNat, record.toNat, start.toNat, stop.toNat⟩
      (.ofRange shards idSize record start stop)
      { data := shards.source.bytes.extract start.toNat stop.toNat, base := start.toNat } where
  extent_eq := rfl
  inside := ⟨hid, UInt64.le_refl start, hle, hstop⟩
  data_eq := rfl
  position_eq := rfl

/-- **A cursor reads the bytes of its unit and nothing else.**  After any reads, met or refused, it
gives what a parser of a copy of these bytes gives, and both go on by the number of bytes that are
read if the unit has as many left.  Otherwise both stay, and the cursor's error says of the record
how long the unit is and how long it would have to be, as far as a word can say that.  A decoder
does the same with the unit.  Another source that has the same bytes there, behind other windows and
of another size, leads to the same places and results. -/
theorem cursor_reads_unit {backing : Backing} {data : ByteArray} {source : Source}
    {shardSize padding : UInt64} {shards : Shards}
    (hsource : Source.ofBytes? backing data = some source)
    (hshards : Shards.ofSource source shardSize padding = .ok shards)
    {idSize : UInt64} (hid : idSize = 4 ∨ idSize = 8) (record : UInt64) {start stop : UInt64}
    (hle : start ≤ stop) (hstop : stop.toNat ≤ data.size) (history : List TypedRead)
    (r : TypedRead) :
    let c := Cursor.afterAll history (.ofRange shards idSize record start stop)
    let p := Parser.afterReads idSize.toNat history
      { data := data.extract start.toNat stop.toNat, base := start.toNat }
    let result := (r.run c).1
    let c' := (r.run c).2
    let parsed := (r.parse idSize.toNat p).1
    let p' := (r.parse idSize.toNat p).2
    (c.position.toNat = start.toNat + p.position
      ∧ c'.position.toNat = start.toNat + p'.position)
    ∧ result = parsed.mapError (fun _ => .lengthMismatch record.toNat (stop.toNat - start.toNat)
      (min (c.position.toNat - start.toNat + r.length idSize.toNat) Decoder.wordMax))
    ∧ (result.isOk ↔ c.position.toNat + r.length idSize.toNat ≤ stop.toNat)
    ∧ (∀ a, result = .ok a → c'.position.toNat = c.position.toNat + r.length idSize.toNat)
    ∧ (∀ err, result = .error err → c' = c ∧ p' = p)
    ∧ r.decoder ⟨shards.store, idSize.toNat, record.toNat, start.toNat, stop.toNat⟩
        c.position.toNat = result.map (·, c'.position.toNat)
    ∧ ∀ other : Shards, stop.toNat ≤ other.source.bytes.size →
      other.source.bytes.extract start.toNat stop.toNat = data.extract start.toNat stop.toNat →
      let d := Cursor.afterAll history (.ofRange other idSize record start stop)
      d.position = c.position ∧ (r.run d).1 = result ∧ (r.run d).2.position = c'.position := by
  -- windows and backing are gone from here on: all that is left of them are the bytes of the file
  obtain rfl : shards.source.bytes = data := by
    rw [Shards.source_of_ofSource hshards, Source.bytes_of_ofBytes? hsource]
  intro c p result c' parsed p'
  have h : Tracks ⟨shards.store, idSize.toNat, record.toNat, start.toNat, stop.toNat⟩ c p :=
    (tracks_ofRange hid record hle hstop).afterAll history
  refine ⟨⟨h.position_eq, (h.after r).position_eq⟩, h.run_fst r, h.isOk_run_iff r,
    fun a => h.position_run_of_ok, fun err => h.stay_of_error, ?_, fun other hother hsame => ?_⟩
  · rw [← h.extent_eq]
    exact r.decoder_eq h.inside
  · -- the cursor over the other source keeps up with the same parser
    have hd := (tracks_ofRange hid record hle hother).afterAll history
    rw [hsame] at hd
    obtain ⟨hposition, hresult⟩ := h.run_congr hd r
    exact ⟨hposition, hresult, UInt64.toNat_inj.mp
      ((hd.after r).position_eq.trans (h.after r).position_eq.symm)⟩

/-- Thirteen bytes, of which the first and the last belong to no unit. -/
def framedBytes : ByteArray := ⟨#[0xFF, 0, 0, 0, 7, 0x0A, 0, 0, 0, 9, 1, 2, 0xFF]⟩

/-- The framed bytes behind windows of four bytes that begin three bytes apart. -/
def framedShards : Shards :=
  ⟨⟨.file, framedBytes, by decide⟩, ⟨_, 3, 1, by decide, by decide⟩, rfl⟩

/-- Behind an identifier, a byte, an array of identifiers that is much too long, and an integer, two
bytes of the unit are left.  A run of bytes that with these would be longer than a word can say is
refused, and the cursor stays.  The two bytes are read as a number after that. -/
theorem cursor_reads_unit_framedBytes :
    let c := Cursor.afterAll [.ident, .number .uint8, .idents 0xFFFFFFFF, .value .int]
      (.ofRange framedShards 4 0 1 12)
    let r : TypedRead := .bytes 0xFFFFFFFFFFFFFFFF
    Source.ofBytes? .file framedBytes = some framedShards.source
      ∧ Shards.ofSource framedShards.source 3 1 = .ok framedShards
      ∧ ((4 : UInt64) = 4 ∨ (4 : UInt64) = 8) ∧ (1 : UInt64) ≤ 12
      ∧ (12 : UInt64).toNat ≤ framedBytes.size
      ∧ c.position = 10
      ∧ r.run c = (.error (.lengthMismatch 0 11 0xFFFFFFFFFFFFFFFF), c)
      ∧ ((TypedRead.number .uint16).run c).1 = .ok 0x0102 := by
  intro c r
  have hsource := Source.ofBytes?_of_lt .file framedShards.source.size_lt
  have hshards : Shards.ofSource framedShards.source 3 1 = .ok framedShards :=
    Shards.ofSource_of_lt framedShards.source (by decide) (by decide)
  have hreads := cursor_reads_unit hsource hshards (.inl rfl) 0 (show (1 : UInt64) ≤ 12 by decide)
    (show (12 : UInt64).toNat ≤ framedBytes.size by decide)
    [.ident, .number .uint8, .idents 0xFFFFFFFF, .value .int]
  -- the read that is refused, and the one behind it that is met
  obtain ⟨⟨hplace, -⟩, hrefused, -, -, hstay, -⟩ := hreads r
  obtain ⟨-, hmet, -⟩ := hreads (.number .uint16)
  let p := Parser.afterReads 4 [.ident, .number .uint8, .idents 0xFFFFFFFF, .value .int]
    { data := framedBytes.extract 1 12, base := 1 }
  have hposition : c.position.toNat = 10 :=
    hplace.trans (congrArg (1 + ·) (show p.position = 9 by decide +kernel))
  have hparsed : (p.readBytes 0xFFFFFFFFFFFFFFFF).1
      = .error (.outOfBounds 10 0xFFFFFFFFFFFFFFFF 12) := by decide +kernel
  have hnumber : (p.readNumber .uint16).1 = .ok 0x0102 := by decide +kernel
  have herror : (r.run c).1 = .error (.lengthMismatch 0 11 0xFFFFFFFFFFFFFFFF) :=
    calc (r.run c).1
        = (p.readBytes 0xFFFFFFFFFFFFFFFF).1.mapError fun _ => Error.lengthMismatch 0 11
            (min (c.position.toNat - 1 + 0xFFFFFFFFFFFFFFFF) Decoder.wordMax) := hrefused
      _ = .error (.lengthMismatch 0 11 0xFFFFFFFFFFFFFFFF) := by
        rw [hparsed, hposition]
        rfl
  refine ⟨hsource, hshards, .inl rfl, by decide, by decide, UInt64.toNat_inj.mp hposition,
    Prod.ext herror (hstay _ herror).1, ?_⟩
  rw [hmet]
  exact congrArg (Except.mapError _) hnumber

end HeapDump
