/-
HeapDump/Proofs/Shards/History.lean

Reading call after call, through windows that are kept.

A session changes from call to call, since it keeps the windows that it has mapped, but not in
what it reads from (`Session.shards_afterAll`).  So each call answers as a read of the plain bytes
does, whatever was read before:

* a range that is not inside the bytes is refused, with its place, its length and the number of
  bytes that there are;
* a range that is inside gives its bytes, or the number that they spell, most significant byte
  first.

The calls are those of a session: bytes, numbers of fixed width, identifiers (`Session.Call`).
Identifiers of other widths than one, two, four and eight are left out here; what is answered to
them is said where errors are.  Main statement: `reads_equal_source`.
-/
import HeapDump.Proofs.Bytes.Read
import HeapDump.Proofs.Shards.Stitching
import HeapDump.Shards.Session

namespace HeapDump

/-! ### Reads through windows and plain reads -/

namespace Shards

variable (s : Shards)

theorem map_bytes_read_eq_readAt (offset length : UInt64) :
    (s.read offset length).map (·.bytes)
      = (Bytes.readAt s.source.bytes offset.toNat length.toNat).map (·.1) := by
  rw [map_bytes_read, Bytes.readAt]
  split <;> rfl

/-- Just the ranges inside the bytes can be read. -/
theorem isOk_read_iff (offset length : UInt64) : (s.read offset length).isOk
    ↔ offset.toNat + length.toNat ≤ s.source.bytes.size := by
  have hread := s.map_bytes_read offset length
  by_cases hin : offset.toNat + length.toNat ≤ s.source.bytes.size
  · rw [if_pos hin] at hread
    cases h : s.read offset length with
    | error e => rw [h] at hread; cases hread
    | ok chunk => exact iff_of_true rfl hin
  · rw [if_neg hin] at hread
    cases h : s.read offset length with
    | error e => exact iff_of_false Bool.false_ne_true hin
    | ok chunk => rw [h] at hread; cases hread

/-- A number is read as from the plain bytes. -/
theorem readNumber_eq_readNumberAt (k : Scalar) (offset : UInt64) :
    s.readNumber k offset = (Bytes.readNumberAt k s.source.bytes offset.toNat).map (·.1) := by
  have hsize : (UInt64.ofNat k.size).toNat = k.size := by cases k <;> rfl
  have hread := s.map_bytes_read_eq_readAt offset (UInt64.ofNat k.size)
  rw [hsize] at hread
  calc s.readNumber k offset
      = ((s.read offset (UInt64.ofNat k.size)).map (·.bytes)).map k.decode := by
        rw [readNumber]
        cases s.read offset (UInt64.ofNat k.size) <;> rfl
    _ = ((Bytes.readAt s.source.bytes offset.toNat k.size).map (·.1)).map k.decode := by
        rw [hread]
    _ = (Bytes.readNumberAt k s.source.bytes offset.toNat).map (·.1) := by
        rw [Bytes.readNumberAt]
        cases Bytes.readAt s.source.bytes offset.toNat k.size <;> rfl

/-- An identifier of a width that identifiers can have is read as from the plain bytes. -/
theorem readId_eq_readIdAt {width : UInt64} {k : Scalar}
    (hk : Scalar.ofIdWidth? width.toNat = some k) (offset : UInt64) :
    s.readId offset width = (Bytes.readIdAt s.source.bytes offset.toNat width.toNat).map (·.1) := by
  have hid : s.readId offset width = ((s.read offset width).map (·.bytes)).bind
      fun bytes => (Bytes.readIdAt bytes 0 width.toNat).map (·.1) := by
    rw [readId]
    cases s.read offset width with
    | error e => rfl
    | ok chunk =>
      show (Bytes.readIdAt chunk.bytes 0 width.toNat).bind _ = (Bytes.readIdAt _ 0 _).map _
      cases Bytes.readIdAt chunk.bytes 0 width.toNat <;> rfl
  rw [hid, s.map_bytes_read, Bytes.readIdAt_eq hk]
  by_cases hin : offset.toNat + width.toNat ≤ s.source.bytes.size
  · have hsize : (s.source.bytes.extract offset.toNat (offset.toNat + width.toNat)).size
        = width.toNat := by
      rw [ByteArray.size_extract]
      omega
    rw [if_pos hin, if_pos hin]
    exact Bytes.readIdAt_zero hk hsize
  · rw [if_neg hin, if_neg hin]
    rfl

end Shards

/-! ### Call after call -/

namespace Session

/-- A reading call. -/
inductive Call where
  | read (offset length : UInt64)
  | readNumber (k : Scalar) (offset : UInt64)
  | readId (offset width : UInt64)

namespace Call

/-- The place at which a call reads. -/
def offset : Call → UInt64
  | read offset _ | readNumber _ offset | readId offset _ => offset

/-- The number of bytes that a call reads. -/
def length : Call → UInt64
  | read _ length => length
  | readNumber k _ => UInt64.ofNat k.size
  | readId _ width => width

/-- The session after a call. -/
def after (c : Call) (s : Session) : Session :=
  match c with
  | read offset length => (s.read offset length).2
  | readNumber k offset => (s.readNumber k offset).2
  | readId offset width => (s.readId offset width).2

/-- Whether a call gives an answer, and no error. -/
def succeeds (c : Call) (s : Session) : Bool :=
  match c with
  | read offset length => (s.read offset length).1.isOk
  | readNumber k offset => (s.readNumber k offset).1.isOk
  | readId offset width => (s.readId offset width).1.isOk

/-- Calls of all kinds map the windows that their bytes need, and change nothing else. -/
theorem after_eq (c : Call) (s : Session) : c.after s = s.touchAll c.offset c.length := by
  cases c <;> rfl

end Call

/-- The session after some calls. -/
def afterAll (calls : List Call) (s : Session) : Session := calls.foldl (fun s c => c.after s) s

@[simp] theorem shards_touch (s : Session) (index : UInt64) : (s.touch index).shards = s.shards := by
  rw [touch]
  split <;> rfl

@[simp] theorem shards_touchAll (s : Session) (offset length : UInt64) :
    (s.touchAll offset length).shards = s.shards :=
  List.foldlRecOn _ touch (motive := fun t : Session => t.shards = s.shards) rfl
    fun t ht index _ => (t.shards_touch index).trans ht

/-- Reading does not change what is read from. -/
@[simp] theorem shards_afterAll (calls : List Call) (s : Session) :
    (afterAll calls s).shards = s.shards :=
  List.foldlRecOn _ _ (motive := fun t : Session => t.shards = s.shards) rfl
    fun t ht c _ => by rw [c.after_eq, shards_touchAll, ht]

end Session

/-! ### The main statement -/

/-- **Reads through windows equal reads of the plain bytes**, whatever was read before.  A read of
a range gives exactly its bytes if the range lies inside, and is refused otherwise.  A number, or
an identifier of one, two, four or eight bytes, is what a plain read at the same place gives: the
number that its bytes spell with the most significant byte first. -/
theorem reads_equal_source {bytes : ByteArray} {backing : Backing} {source : Source}
    {shardSize padding : UInt64} {shards : Shards}
    (hsource : Source.ofBytes? backing bytes = some source)
    (hshards : Shards.ofSource source shardSize padding = .ok shards)
    (calls : List Session.Call) :
    let s := Session.afterAll calls { shards }
    (∀ offset length : UInt64, (s.read offset length).1.map (·.bytes)
      = if offset.toNat + length.toNat ≤ bytes.size then
          .ok (bytes.extract offset.toNat (offset.toNat + length.toNat))
        else .error (.outOfBounds offset.toNat length.toNat bytes.size))
    ∧ (∀ (k : Scalar) (offset : UInt64),
      (s.readNumber k offset).1 = (Bytes.readNumberAt k bytes offset.toNat).map (·.1)
      ∧ (offset.toNat + k.size ≤ bytes.size → ∃ x, (s.readNumber k offset).1 = .ok x
        ∧ k.toBits x = BigEndian.ofBytes (bytes.extract offset.toNat (offset.toNat + k.size)))
      ∧ (¬offset.toNat + k.size ≤ bytes.size →
        (s.readNumber k offset).1 = .error (.outOfBounds offset.toNat k.size bytes.size)))
    ∧ ∀ offset width : UInt64, width.toNat ∈ [1, 2, 4, 8] →
      (s.readId offset width).1 = (Bytes.readIdAt bytes offset.toNat width.toNat).map (·.1)
      ∧ (offset.toNat + width.toNat ≤ bytes.size → ∃ id, (s.readId offset width).1 = .ok id
        ∧ id.toNat
          = BigEndian.ofBytes (bytes.extract offset.toNat (offset.toNat + width.toNat)))
      ∧ (¬offset.toNat + width.toNat ≤ bytes.size →
        (s.readId offset width).1 = .error (.outOfBounds offset.toNat width.toNat bytes.size)) := by
  intro s
  have hs : s.shards = shards := Session.shards_afterAll calls { shards }
  have hbytes : shards.source.bytes = bytes := by
    rw [Shards.source_of_ofSource hshards, Source.bytes_of_ofBytes? hsource]
  refine ⟨fun offset length => ?_, fun k offset => ?_, fun offset width hwidth => ?_⟩
  · show (s.shards.read offset length).map (·.bytes) = _
    rw [hs, Shards.map_bytes_read, hbytes]
  · have hread : (s.readNumber k offset).1
        = (Bytes.readNumberAt k bytes offset.toNat).map (·.1) := by
      show s.shards.readNumber k offset = _
      rw [hs, Shards.readNumber_eq_readNumberAt, hbytes]
    refine ⟨hread, fun hin => ⟨_, ?_, k.toBits_decode_extract hin⟩, fun hout => ?_⟩
    · rw [hread, Bytes.readNumberAt_eq, if_pos hin]
    · rw [hread, Bytes.readNumberAt_eq, if_neg hout]
  · obtain ⟨k, hk⟩ := Scalar.exists_ofIdWidth?_iff.mpr hwidth
    have hread : (s.readId offset width).1
        = (Bytes.readIdAt bytes offset.toNat width.toNat).map (·.1) := by
      show s.shards.readId offset width = _
      rw [hs, Shards.readId_eq_readIdAt _ hk, hbytes]
    refine ⟨hread, fun hin => ⟨_, ?_, Bytes.toNat_ofNat_extract hk hin⟩, fun hout => ?_⟩
    · rw [hread, Bytes.readIdAt_eq hk, if_pos hin]
    · rw [hread, Bytes.readIdAt_eq hk, if_neg hout]

/-- Ten bytes that say where they stand. -/
def tenBytes : ByteArray := ⟨#[0, 1, 2, 3, 4, 5, 6, 7, 8, 9]⟩

/-- Windows of five bytes that begin four bytes apart.  Seven bytes and a number of eight are read
from three of them, after other reads. -/
theorem reads_equal_source_tenBytes :
    ∃ source shards, Source.ofBytes? .memory tenBytes = some source
      ∧ Shards.ofSource source 4 1 = .ok shards
      ∧ let s := Session.afterAll [.read 3 1, .readId 8 4] { shards }
        (s.read 2 7).1.map (·.bytes) = .ok ⟨#[2, 3, 4, 5, 6, 7, 8]⟩
        ∧ (s.readNumber .uint16 9).1 = .error (.outOfBounds 9 2 10)
        ∧ (8 : UInt64).toNat ∈ [1, 2, 4, 8]
        ∧ ∃ id, (s.readId 1 8).1 = .ok id ∧ id.toNat = 0x0102030405060708 := by
  have hsource := Source.ofBytes?_of_lt .memory (show tenBytes.size < UInt64.size by decide)
  have hshards := Shards.ofSource_of_lt ⟨.memory, tenBytes, by decide⟩
    (show (1 : UInt64) < 4 by decide) (by decide)
  obtain ⟨hread, hnumber, hid⟩ := reads_equal_source hsource hshards [.read 3 1, .readId 8 4]
  obtain ⟨id, hok, hvalue⟩ := (hid 1 8 (by decide)).2.1 (by decide)
  exact ⟨_, _, hsource, hshards, (hread 2 7).trans (by decide),
    (hnumber .uint16 9).2.2 (by decide), by decide, id, hok, hvalue.trans (by decide)⟩

end HeapDump
