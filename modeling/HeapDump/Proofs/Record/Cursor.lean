/-
HeapDump/Proofs/Record/Cursor.lean

A reader of a unit that outlives its errors.

A decoder that fails is at its end.  A cursor can be asked again: it takes the bytes of a read,
which moves it, and only then asks the windows for them, and a value or an array of identifiers is
found in its bytes by a parser of its own.  Its places and lengths are words.

Inside a unit bytes that are taken can be had from the windows, and that parser finds what they
spell.  So all reads have one form: if the bytes are there, the cursor goes behind them and gives
what they spell, and otherwise it stays and says how long the unit would have to be,

    c.reading length make = if c.position + length ≤ c.stop
      then (.ok (make (c.ahead length)), c.behind length)
      else (.error (the mismatch), c).

There is one equation of this form for each read (`readNumber_eq`, `readId_eq`, `readBytes_eq`,
`readValue_eq`, `readIds_eq`), where numbers have taken the place of words.  What they ask for is
`Inside`: the unit lies inside the file, and the width of identifiers is one that a header allows.
That no sum and no product of words wraps around is a consequence of this.
-/
import HeapDump.Proofs.Record.Reading
import HeapDump.Proofs.Shards.Exactness
import HeapDump.Proofs.Value.Parsing

namespace HeapDump

/-! ### Identifiers one after the other -/

namespace Parser

variable {p : Parser} {width : Nat}

theorem behind_behind (p : Parser) (m n : Nat) : (p.behind m).behind n = p.behind (m + n) := by
  simp only [behind, Nat.add_assoc]

/-- Identifiers have bytes. -/
theorem idWidth_pos (hwidth : width ∈ [1, 2, 4, 8]) : 0 < width :=
  Nat.pos_of_ne_zero fun hzero => absurd hwidth (by simp [hzero])

/-- A parser that has read an identifier has fewer bytes left. -/
theorem remaining_lt_of_readId {id : ObjectId} {after : Parser}
    (h : p.readId width = (.ok id, after)) : after.remaining < p.remaining := by
  by_cases hwidth : width ∈ [1, 2, 4, 8]
  · rw [p.readId_eq hwidth] at h
    have hpos := idWidth_pos hwidth
    split at h
    · next hle =>
      cases h
      rw [remaining_behind]
      omega
    · cases h
  · rw [p.readId_of_unsupported hwidth] at h
    cases h

/-- Identifiers for as long as there are bytes. -/
def readIdsToEnd (width : Nat) (p : Parser) : Except Error (List ObjectId) × Parser :=
  if p.hasMore then
    match _ : p.readId width with
    | (.ok id, after) => answering (id :: ·) (readIdsToEnd width after)
    | (.error e, after) => (.error e, after)
  else (.ok [], p)
termination_by p.remaining
decreasing_by exact remaining_lt_of_readId ‹p.readId width = (.ok id, after)›

/-- As many identifiers as `count` says. -/
def readIds (width : Nat) : (count : Nat) → Parser → Except Error (List ObjectId) × Parser
  | 0, p => (.ok [], p)
  | count + 1, p =>
    match p.readId width with
    | (.ok id, after) => answering (id :: ·) (readIds width count after)
    | (.error e, after) => (.error e, after)

/-- The identifiers that the next bytes of a parser spell. -/
def idsAhead (width count : Nat) (p : Parser) : List ObjectId :=
  Decoder.cutIdents width count (p.ahead (count * width)).data.toList

/-- All bytes are ahead of a parser at their beginning. -/
theorem ahead_size (data : ByteArray) (base : Nat) : ahead { data, base } data.size = data := by
  rw [ahead, Nat.zero_add]
  exact ByteArray.extract_zero_size

theorem idsAhead_succ (width count : Nat) (p : Parser) :
    p.idsAhead width (count + 1)
      = UInt64.ofNat (BigEndian.ofBytes (p.ahead width))
        :: (p.behind width).idsAhead width count := by
  have hhead : (p.ahead ((count + 1) * width)).data.toList.take width
      = (p.ahead width).data.toList := by
    rw [ahead, ahead, toList_extract, toList_extract, List.take_take,
      Nat.min_eq_left (Nat.le_mul_of_pos_left _ count.succ_pos)]
  have htail : (p.ahead ((count + 1) * width)).data.toList.drop width
      = ((p.behind width).ahead (count * width)).data.toList := by
    rw [ahead, ahead, toList_extract, toList_extract, List.drop_take, List.drop_drop, Nat.succ_mul,
      Nat.add_sub_cancel]
    rfl
  rw [idsAhead, Decoder.cutIdents_succ, hhead, htail]
  rfl

section

variable (hwidth : width ∈ [1, 2, 4, 8])
include hwidth

/-- The identifiers in bytes that are a whole number of them. -/
theorem readIdsToEnd_eq {count : Nat} (h : p.remaining = count * width) :
    p.readIdsToEnd width = (.ok (p.idsAhead width count), p.behind (count * width)) := by
  have hpos := idWidth_pos hwidth
  induction count generalizing p with
  | zero =>
    have hend : ¬p.hasMore = true := by
      rw [Nat.zero_mul, remaining] at h
      rw [hasMore, decide_eq_true_iff]
      omega
    rw [readIdsToEnd, if_neg hend, Nat.zero_mul]
    rfl
  | succ count ih =>
    rw [Nat.succ_mul] at h
    have hmore : p.hasMore = true := by
      rw [remaining] at h
      rw [hasMore, decide_eq_true_iff]
      omega
    have hread : p.readId width
        = (.ok (UInt64.ofNat (BigEndian.ofBytes (p.ahead width))), p.behind width) := by
      rw [p.readId_eq hwidth, if_pos (by omega)]
    have hrest : (p.behind width).remaining = count * width := by
      rw [remaining_behind]
      omega
    rw [readIdsToEnd, if_pos hmore]
    split
    · next id after hid =>
      cases hread.symm.trans hid
      rw [ih hrest, idsAhead_succ, behind_behind, Nat.succ_mul, Nat.add_comm]
      rfl
    · next e after hid => cases hread.symm.trans hid

/-- If there are fewer bytes, the identifiers that fit are read, and the next one is not. -/
theorem readIds_eq (count : Nat) (p : Parser) :
    (count * width ≤ p.remaining ∧ p.readIds width count
        = (.ok (p.idsAhead width count), p.behind (count * width)))
      ∨ (p.remaining < count * width ∧ ∃ k, p.readIds width count
        = (.error ((p.behind (k * width)).outOfBounds width), p.behind (k * width))) := by
  induction count generalizing p with
  | zero =>
    refine .inl ⟨?_, ?_⟩
    · rw [Nat.zero_mul]
      exact Nat.zero_le _
    · rw [Nat.zero_mul]
      rfl
  | succ count ih =>
    rw [Nat.succ_mul]
    by_cases hle : width ≤ p.remaining
    · have hread : p.readIds width (count + 1)
          = answering (UInt64.ofNat (BigEndian.ofBytes (p.ahead width)) :: ·)
              ((p.behind width).readIds width count) := by
        rw [readIds, p.readId_eq hwidth, if_pos hle]
      rw [hread]
      -- what comes of the others behind the first one comes of all
      rcases ih (p.behind width) with ⟨hfits, hok⟩ | ⟨hlt, k, herror⟩
      · rw [remaining_behind] at hfits
        refine .inl ⟨by omega, ?_⟩
        rw [hok, idsAhead_succ, behind_behind, Nat.add_comm]
        rfl
      · rw [remaining_behind] at hlt
        refine .inr ⟨by omega, k + 1, ?_⟩
        rw [herror, behind_behind, Nat.succ_mul, Nat.add_comm]
        rfl
    · refine .inr ⟨by omega, 0, ?_⟩
      rw [readIds, p.readId_eq hwidth, if_neg hle, Nat.zero_mul]
      rfl

end

end Parser

/-! ### Cursors -/

/-- A position in the bytes of a source from `start` to `stop`, which belong to the record at
`record`. -/
structure Cursor where
  shards : Shards
  /-- Width of object identifiers in bytes. -/
  idSize : UInt64
  record : UInt64
  start : UInt64
  position : UInt64
  stop : UInt64

/-- A sum that stops at the largest word. -/
def saturatingAdd (a b : UInt64) : UInt64 := (checkedAdd a b).getD (UInt64.ofNat Decoder.wordMax)

theorem toNat_saturatingAdd (a b : UInt64) :
    (saturatingAdd a b).toNat = min (a.toNat + b.toNat) Decoder.wordMax := by
  have hmax : Decoder.wordMax + 1 = UInt64.size := rfl
  rw [saturatingAdd, checkedAdd]
  by_cases h : a.toNat + b.toNat < UInt64.size
  · rw [if_pos h, Option.getD_some, toNat_add_of_lt h]
    omega
  · rw [if_neg h, Option.getD_none, Nat.min_eq_right (by omega)]
    rfl

namespace Cursor

/-- The cursor at the first of the bytes from `start` to `stop`. -/
def ofRange (shards : Shards) (idSize record start stop : UInt64) : Cursor where
  shards := shards
  idSize := idSize
  record := record
  start := start
  position := start
  stop := stop

/-- The error for `length` bytes that are not there. -/
def mismatch (c : Cursor) (length : UInt64) : Error :=
  .lengthMismatch c.record.toNat (c.stop - c.start).toNat
    (saturatingAdd (c.position - c.start) length).toNat

/-- Takes the next `length` bytes and gives the place of the first. -/
def take (length : UInt64) (c : Cursor) : Except Error UInt64 × Cursor :=
  match checkedAdd c.position length with
  | some next =>
    if next ≤ c.stop then (.ok c.position, { c with position := next })
    else (.error (c.mismatch length), c)
  | none => (.error (c.mismatch length), c)

/-- Takes bytes and asks for what stands there.  If that fails, they stay taken. -/
def fetch (length : UInt64) (ask : UInt64 → Except Error α) (c : Cursor) :
    Except Error α × Cursor :=
  match c.take length with
  | (.ok place, after) => (ask place, after)
  | (.error e, after) => (.error e, after)

/-- The next number of kind `s`. -/
def readNumber (s : Scalar) (c : Cursor) : Except Error s.Carrier × Cursor :=
  c.fetch (UInt64.ofNat s.size) (c.shards.readNumber s)

/-- The next object identifier. -/
def readId (c : Cursor) : Except Error ObjectId × Cursor :=
  c.fetch c.idSize fun place => c.shards.readId place c.idSize

/-- The next `length` bytes. -/
def readBytes (length : UInt64) (c : Cursor) : Except Error ByteArray × Cursor :=
  c.fetch length fun place => (c.shards.read place length).map (·.bytes)

/-- Reads bytes and hands them to a parser that knows where they stand. -/
def parsing (length : UInt64) (act : Parser → Except Error α × Parser) (c : Cursor) :
    Except Error α × Cursor :=
  match c.readBytes length with
  | (.ok data, after) => ((act { data, base := c.position.toNat }).1, after)
  | (.error e, after) => (.error e, after)

/-- The next value of type `t`. -/
def readValue (t : BasicType) (c : Cursor) : Except Error (Value ObjectId) × Cursor :=
  c.parsing (UInt64.ofNat (t.size c.idSize.toNat)) (Value.parse t c.idSize.toNat)

/-- The next `count` object identifiers, whose bytes are read all at once. -/
def readIds (count : UInt32) (c : Cursor) : Except Error (List ObjectId) × Cursor :=
  c.parsing (count.toUInt64 * c.idSize) (Parser.readIdsToEnd c.idSize.toNat)

/-! ### Cursors in numbers -/

/-- The unit that a cursor reads. -/
def extent (c : Cursor) : Extent :=
  ⟨c.shards.store, c.idSize.toNat, c.record.toNat, c.start.toNat, c.stop.toNat⟩

/-- The next bytes of a cursor, whether or not they are there. -/
def ahead (c : Cursor) (length : Nat) : ByteArray :=
  c.shards.source.bytes.extract c.position.toNat (c.position.toNat + length)

/-- The cursor behind some bytes. -/
def behind (c : Cursor) (length : Nat) : Cursor :=
  { c with position := UInt64.ofNat (c.position.toNat + length) }

/-- Reads `length` bytes and gives what `make` finds in them. -/
def reading (length : Nat) (make : ByteArray → α) (c : Cursor) : Except Error α × Cursor :=
  if c.position.toNat + length ≤ c.stop.toNat then (.ok (make (c.ahead length)), c.behind length)
  else
    (.error (Decoder.mismatch c.extent
      (min (c.position.toNat - c.start.toNat + length) Decoder.wordMax)), c)

/-- The unit lies in the source, and the cursor in the unit. -/
structure Inside (c : Cursor) : Prop where
  idSize_eq : c.idSize = 4 ∨ c.idSize = 8
  start_le : c.start ≤ c.position
  position_le : c.position ≤ c.stop
  stop_le : c.stop.toNat ≤ c.shards.source.bytes.size

variable {α : Type} {c : Cursor} {length : Nat}

theorem position_behind (h : c.position.toNat + length ≤ c.stop.toNat) :
    (c.behind length).position.toNat = c.position.toNat + length :=
  UInt64.toNat_ofNat_of_lt' (h.trans_lt c.stop.toNat_lt)

namespace Inside

variable (h : c.Inside)
include h

theorem idSize_mem : c.idSize.toNat ∈ [1, 2, 4, 8] := by
  rcases h.idSize_eq with hid | hid
  · rw [hid]
    decide
  · rw [hid]
    decide

theorem mismatch_eq (length : UInt64) : c.mismatch length = Decoder.mismatch c.extent
    (min (c.position.toNat - c.start.toNat + length.toNat) Decoder.wordMax) := by
  rw [mismatch, toNat_saturatingAdd, UInt64.toNat_sub_of_le _ _ h.start_le,
    UInt64.toNat_sub_of_le _ _ (UInt64.le_trans h.start_le h.position_le)]
  rfl

/-- Going on inside the unit. -/
theorem behind (hfits : c.position.toNat + length ≤ c.stop.toNat) : (c.behind length).Inside where
  idSize_eq := h.idSize_eq
  start_le := by
    rw [UInt64.le_iff_toNat_le, position_behind hfits]
    exact (UInt64.le_iff_toNat_le.mp h.start_le).trans (Nat.le_add_right _ _)
  position_le := by
    rw [UInt64.le_iff_toNat_le, position_behind hfits]
    exact hfits
  stop_le := h.stop_le

theorem ahead_size (hfits : c.position.toNat + length ≤ c.stop.toNat) :
    (c.ahead length).size = length := by
  have hstop := h.stop_le
  rw [ahead, ByteArray.size_extract]
  omega

theorem take_eq (length : UInt64) :
    c.take length = if c.position.toNat + length.toNat ≤ c.stop.toNat then
        (.ok c.position, c.behind length.toNat)
      else (.error (Decoder.mismatch c.extent
        (min (c.position.toNat - c.start.toNat + length.toNat) Decoder.wordMax)), c) := by
  have hlt : c.stop.toNat < UInt64.size := c.stop.toNat_lt
  rw [take, checkedAdd, ← h.mismatch_eq]
  by_cases hword : c.position.toNat + length.toNat < UInt64.size
  · have hsum := toNat_add_of_lt hword
    have hplace : UInt64.ofNat (c.position.toNat + length.toNat) = c.position + length := by
      rw [← hsum, UInt64.ofNat_toNat]
    simp only [if_pos hword, UInt64.le_iff_toNat_le, hsum, Cursor.behind, hplace]
  · -- a sum that is no word lies behind every unit
    simp only [if_neg hword]
    rw [if_neg (by omega)]

/-- Once bytes are taken, what is asked for is what they spell. -/
theorem fetch_eq {length : UInt64} {ask : UInt64 → Except Error α} {make : ByteArray → α}
    (hask : c.position.toNat + length.toNat ≤ c.stop.toNat →
      ask c.position = .ok (make (c.ahead length.toNat))) :
    c.fetch length ask = c.reading length.toNat make := by
  rw [fetch, h.take_eq, reading]
  by_cases hfits : c.position.toNat + length.toNat ≤ c.stop.toNat
  · simp only [if_pos hfits, hask hfits]
  · simp only [if_neg hfits]

theorem readNumber_eq (s : Scalar) : c.readNumber s = c.reading s.size s.decode := by
  have hsize : (UInt64.ofNat s.size).toNat = s.size := by cases s <;> rfl
  have hfetch : c.readNumber s = c.reading (UInt64.ofNat s.size).toNat s.decode :=
    h.fetch_eq fun hfits => by
      rw [hsize] at hfits
      rw [Shards.readNumber_eq_readNumberAt, Bytes.readNumberAt_eq,
        if_pos (hfits.trans h.stop_le), ahead, hsize]
  rwa [hsize] at hfetch

theorem readId_eq : c.readId
    = c.reading c.idSize.toNat fun data => UInt64.ofNat (BigEndian.ofBytes data) := by
  obtain ⟨k, hk⟩ := Scalar.exists_ofIdWidth?_iff.mpr h.idSize_mem
  exact h.fetch_eq fun hfits => by
    rw [Shards.readId_eq_readIdAt _ hk, Bytes.readIdAt_eq hk, if_pos (hfits.trans h.stop_le),
      ahead]

theorem readBytes_eq (length : UInt64) : c.readBytes length = c.reading length.toNat id :=
  h.fetch_eq fun hfits => by
    rw [Shards.map_bytes_read, if_pos (hfits.trans h.stop_le)]
    rfl

/-- A parser that finds what they spell in as many bytes as are read finds it in these. -/
theorem parsing_eq {length : UInt64} {act : Parser → Except Error α × Parser}
    {make : ByteArray → α}
    (hact : ∀ data base, data.size = length.toNat → (act { data, base }).1 = .ok (make data)) :
    c.parsing length act = c.reading length.toNat make := by
  rw [parsing, h.readBytes_eq, reading, reading]
  by_cases hfits : c.position.toNat + length.toNat ≤ c.stop.toNat
  · simp only [if_pos hfits, id, hact _ _ (h.ahead_size hfits)]
  · simp only [if_neg hfits]

theorem readValue_eq (t : BasicType) : c.readValue t
    = c.reading (t.size c.idSize.toNat) fun data => .ofBits t (BigEndian.ofBytes data) := by
  have hlength : (UInt64.ofNat (t.size c.idSize.toNat)).toNat = t.size c.idSize.toNat := by
    cases t with
    | object => exact congrArg UInt64.toNat UInt64.ofNat_toNat
    | _ => rfl
  have hparsing : c.readValue t = c.reading (UInt64.ofNat (t.size c.idSize.toNat)).toNat
      fun data => .ofBits t (BigEndian.ofBytes data) :=
    h.parsing_eq fun data base hsize => by
      rw [Value.parse_eq fun _ => h.idSize_mem, ← hlength, ← hsize, Parser.ahead_size]
      exact congrArg Prod.fst (if_pos (Nat.le_refl _))
  rwa [hlength] at hparsing

/-- The bytes of as many identifiers as a word of 32 bits can say are counted in a word. -/
theorem toNat_mul_idSize (count : UInt32) :
    (count.toUInt64 * c.idSize).toNat = count.toNat * c.idSize.toNat := by
  have hcount := count.toNat_lt
  rw [UInt64.toNat_mul, UInt32.toNat_toUInt64, Nat.mod_eq_of_lt]
  rcases h.idSize_eq with hid | hid
  · rw [hid]
    show _ * 4 < _
    omega
  · rw [hid]
    show _ * 8 < _
    omega

theorem readIds_eq (count : UInt32) : c.readIds count
    = c.reading (count.toNat * c.idSize.toNat) fun data =>
        Decoder.cutIdents c.idSize.toNat count.toNat data.data.toList := by
  have hparsing : c.readIds count = c.reading (count.toUInt64 * c.idSize).toNat fun data =>
      Decoder.cutIdents c.idSize.toNat count.toNat data.data.toList :=
    h.parsing_eq fun data base hsize => by
      rw [h.toNat_mul_idSize] at hsize
      have hwhole : Parser.remaining { data, base } = count.toNat * c.idSize.toNat := hsize
      rw [Parser.readIdsToEnd_eq h.idSize_mem hwhole, Parser.idsAhead, ← hsize, Parser.ahead_size]
  rwa [h.toNat_mul_idSize] at hparsing

end Inside

end Cursor

end HeapDump
