/-
HeapDump/Proofs/Record/Marked.lean

How far a record determines the bytes that spell it.

A reader looks at every byte of a record, with three exceptions:

* the two reserved identifiers of a class object may hold anything;
* the byte of a boolean counts only as zero or not zero;
* payloads that are passed over are free.

A `Mark` is a byte as a writer puts it down together with what a reader lets
pass in its place, and `Spelled ms bs` says that the bytes `bs` are such as the
marks `ms` allow, position by position:

    Spelled ms bs ↔ List.Forall₂ Mark.Allows ms bs.

So the marks of a record are its written form with the three exceptions noted in
it.  Forgetting them gives the written form back (`HeapRecord.map_byte_marks`,
`Entry.map_byte_marks`), and the written form is one of the spellings
(`spelled_map_byte`); the relation goes through concatenation
(`spelled_append_iff`), so spellings are put together field by field.
-/
import Mathlib
import HeapDump.Record.Written

namespace HeapDump

namespace Written

/-! ### Marks -/

/-- How far a reading determines a byte. -/
inductive Freedom where
  /-- There is no other byte. -/
  | fixed
  /-- Any byte that is zero or any that is not. -/
  | truth
  /-- Any byte at all. -/
  | free
  deriving DecidableEq, Repr

/-- A byte as it is written, and how far it is determined. -/
structure Mark where
  byte : UInt8
  freedom : Freedom
  deriving DecidableEq, Repr

/-- Whether a reader takes the byte `b` for what is written at the mark. -/
def Mark.Allows (m : Mark) (b : UInt8) : Prop :=
  match m.freedom with
  | .fixed => b = m.byte
  | .truth => b = 0 ↔ m.byte = 0
  | .free => True

/-- Bytes that are determined. -/
def fixed (bs : List UInt8) : List Mark := bs.map (⟨·, .fixed⟩)

/-- Bytes that may be any others. -/
def free (bs : List UInt8) : List Mark := bs.map (⟨·, .free⟩)

/-- The marks of a value without its type. -/
def valueMarks (idSize : Nat) (v : Value ObjectId) : List Mark :=
  match v with
  | .boolean _ => (value idSize v).map (⟨·, .truth⟩)
  | _ => fixed (value idSize v)

/-- The marks of a value behind the code of its type. -/
def typedValueMarks (idSize : Nat) (v : Value ObjectId) : List Mark :=
  fixed [v.type.code] ++ valueMarks idSize v

/-- The marks of an entry of a constant pool. -/
def constantMarks (idSize : Nat) (c : UInt16 × Value ObjectId) : List Mark :=
  fixed (half c.1) ++ typedValueMarks idSize c.2

/-- The marks of a run of items behind their 16-bit number. -/
def countedMarks (item : α → List Mark) (items : List α) : List Mark :=
  fixed (half (UInt16.ofNat items.length)) ++ items.flatMap item

/-- The bytes `bs` are such as the marks `ms` allow. -/
def Spelled (ms : List Mark) (bs : List UInt8) : Prop := List.Forall₂ Mark.Allows ms bs

/-! ### What marks allow -/

@[simp] theorem map_byte_fixed (bs : List UInt8) : (fixed bs).map Mark.byte = bs := by
  simp [fixed, Function.comp_def]

@[simp] theorem map_byte_free (bs : List UInt8) : (free bs).map Mark.byte = bs := by
  simp [free, Function.comp_def]

/-- A reader takes a byte for itself. -/
theorem Mark.allows_byte (m : Mark) : m.Allows m.byte := by
  unfold Allows
  split
  · rfl
  · exact Iff.rfl
  · trivial

/-- What is written is spelled. -/
theorem spelled_map_byte (ms : List Mark) : Spelled ms (ms.map Mark.byte) := by
  rw [Spelled, List.forall₂_map_right_iff]
  exact List.forall₂_same.mpr fun m _ => m.allows_byte

theorem Spelled.length_eq {ms : List Mark} {bs : List UInt8} (h : Spelled ms bs) :
    ms.length = bs.length := List.Forall₂.length_eq h

@[simp] theorem spelled_nil_iff {bs : List UInt8} : Spelled [] bs ↔ bs = [] :=
  List.forall₂_nil_left_iff

/-- Spellings of two runs follow each other. -/
theorem spelled_append_iff {ms ns : List Mark} {bs : List UInt8} :
    Spelled (ms ++ ns) bs ↔ ∃ xs ys, bs = xs ++ ys ∧ Spelled ms xs ∧ Spelled ns ys := by
  constructor
  · intro h
    have hlen := h.length_eq
    rw [List.length_append] at hlen
    refine ⟨bs.take ms.length, bs.drop ms.length, (List.take_append_drop ..).symm, ?_, ?_⟩
    · have htake := List.forall₂_take ms.length h
      rwa [List.take_left] at htake
    · have hdrop := List.forall₂_drop ms.length h
      rwa [List.drop_left] at hdrop
  · rintro ⟨xs, ys, rfl, h1, h2⟩
    exact List.rel_append h1 h2

theorem Spelled.append {ms ns : List Mark} {xs ys : List UInt8} (h : Spelled ms xs)
    (h' : Spelled ns ys) : Spelled (ms ++ ns) (xs ++ ys) :=
  List.rel_append h h'

/-- Determined bytes have one spelling. -/
@[simp] theorem spelled_fixed_iff {ws bs : List UInt8} : Spelled (fixed ws) bs ↔ bs = ws := by
  rw [Spelled, fixed, List.forall₂_map_left_iff]
  constructor
  · intro h
    exact (List.forall₂_eq_eq_eq ▸ (h.imp fun _ _ hb => Eq.symm hb) : ws = bs).symm
  · rintro rfl
    exact List.forall₂_same.mpr fun _ _ => rfl

/-- Free bytes are spelled by any as many. -/
@[simp] theorem spelled_free_iff {ws bs : List UInt8} :
    Spelled (free ws) bs ↔ bs.length = ws.length := by
  rw [Spelled, free, List.forall₂_map_left_iff]
  constructor
  · intro h
    exact h.length_eq.symm
  · intro h
    exact List.forall₂_iff_zip.mpr ⟨h.symm, fun _ => trivial⟩

end Written

open Written

/-! ### Marks of records -/

/-- The marks of a static field. -/
def StaticRecord.marks (idSize : Nat) (s : StaticRecord) : List Mark :=
  fixed (ident idSize s.nameId) ++ typedValueMarks idSize s.value

/-- The marks of the fields of a class object. -/
def ClassDump.marks (idSize : Nat) (d : ClassDump) : List Mark :=
  fixed (ident idSize d.classId ++ word d.stackSerial ++ ident idSize d.superId ++
    ident idSize d.loaderId ++ ident idSize d.signersId ++ ident idSize d.protectionDomainId) ++
    free (ident idSize 0 ++ ident idSize 0) ++ fixed (word d.instanceSize) ++
    countedMarks (constantMarks idSize) d.constants ++
    countedMarks (StaticRecord.marks idSize) d.statics ++
    countedMarks (fun f => fixed (FieldRecord.written idSize f)) d.fields

/-- The marks of the fields of a sub-record. -/
def HeapRecord.fieldMarks (idSize : Nat) (r : HeapRecord) : List Mark :=
  match r with
  | classDump d => d.marks idSize
  | _ => fixed (r.fieldBytes idSize)

/-- The marks of a sub-record. -/
def HeapRecord.marks (idSize : Nat) (r : HeapRecord) : List Mark :=
  fixed [r.tag.code] ++ r.fieldMarks idSize

/-- The marks of a top-level record. -/
def Entry.marks (idSize : Nat) (e : Entry) : List Mark :=
  match e.content with
  | .fields _ => fixed (e.written idSize)
  | .skipped tag payload =>
    fixed (tag :: word e.time ++ count payload.length) ++ free payload
  | .heapDump segment records =>
    let tag := if segment then Tag.heapDumpSegment else Tag.heapDump
    let length := (records.flatMap (HeapRecord.written idSize)).length
    fixed (tag.code :: word e.time ++ count length) ++ records.flatMap (HeapRecord.marks idSize)

/-- The marks of a whole dump. -/
def Written.dumpMarks (h : Header) (entries : List Entry) : List Mark :=
  fixed h.written ++ entries.flatMap (Entry.marks h.idSize)

/-! ### The written form by its marks -/

@[simp] theorem Written.map_byte_valueMarks (idSize : Nat) (v : Value ObjectId) :
    (valueMarks idSize v).map Mark.byte = value idSize v := by
  cases v <;> simp [valueMarks, Function.comp_def]

@[simp] theorem Written.map_byte_typedValueMarks (idSize : Nat) (v : Value ObjectId) :
    (typedValueMarks idSize v).map Mark.byte = typedValue idSize v := by
  simp [typedValueMarks, typedValue]

theorem Written.map_byte_countedMarks {item : α → List Mark} {written : α → List UInt8}
    (h : ∀ a, (item a).map Mark.byte = written a) (items : List α) :
    (countedMarks item items).map Mark.byte = counted written items := by
  simp [countedMarks, counted, List.map_flatMap, h]

theorem ClassDump.map_byte_marks (idSize : Nat) (d : ClassDump) :
    (d.marks idSize).map Mark.byte = d.fieldBytes idSize := by
  have hconstants : (countedMarks (constantMarks idSize) d.constants).map Mark.byte
      = counted (constant idSize) d.constants :=
    map_byte_countedMarks (fun c => by simp [constantMarks, constant]) d.constants
  have hstatics : (countedMarks (StaticRecord.marks idSize) d.statics).map Mark.byte
      = counted (StaticRecord.written idSize) d.statics :=
    map_byte_countedMarks (fun s => by simp [StaticRecord.marks, StaticRecord.written]) d.statics
  have hfields : (countedMarks (fun f => fixed (FieldRecord.written idSize f)) d.fields).map
      Mark.byte = counted (FieldRecord.written idSize) d.fields :=
    map_byte_countedMarks (fun f => map_byte_fixed _) d.fields
  simp only [marks, fieldBytes, List.map_append, map_byte_fixed, map_byte_free, hconstants,
    hstatics, hfields, List.append_assoc]

/-- The bytes of a sub-record's marks are its written form. -/
theorem HeapRecord.map_byte_marks (idSize : Nat) (r : HeapRecord) :
    (r.marks idSize).map Mark.byte = r.written idSize := by
  rw [marks, List.map_append, map_byte_fixed, written, List.singleton_append]
  congr 1
  cases r with
  | classDump d => exact d.map_byte_marks idSize
  | _ => exact map_byte_fixed _

theorem HeapRecord.map_byte_flatMap_marks (idSize : Nat) (records : List HeapRecord) :
    (records.flatMap (HeapRecord.marks idSize)).map Mark.byte
      = records.flatMap (HeapRecord.written idSize) := by
  simp only [List.map_flatMap, map_byte_marks]

/-- The bytes of a top-level record's marks are its written form. -/
theorem Entry.map_byte_marks (idSize : Nat) (e : Entry) :
    (e.marks idSize).map Mark.byte = e.written idSize := by
  obtain ⟨time, body | ⟨tag, payload⟩ | ⟨segment, records⟩⟩ := e
  · exact map_byte_fixed _
  · show (fixed _ ++ free _).map Mark.byte = _
    rw [List.map_append, map_byte_fixed, map_byte_free]
    rfl
  · show (fixed _ ++ _).map Mark.byte = _
    rw [List.map_append, map_byte_fixed, HeapRecord.map_byte_flatMap_marks]
    cases segment <;> rfl

/-- The bytes of a dump's marks are its written form. -/
theorem Written.map_byte_dumpMarks (h : Header) (entries : List Entry) :
    (dumpMarks h entries).map Mark.byte = dump h entries := by
  simp only [dumpMarks, dump, List.map_append, map_byte_fixed, List.map_flatMap,
    Entry.map_byte_marks]

end HeapDump
