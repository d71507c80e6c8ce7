/-
HeapDump/Proofs/Record/Grammar.lean

What the layouts of records read.

For each layout there is one statement: the records that it gives, and the bytes
that it takes for one of them.  Most records have a single spelling, their
written form; a class object is spelled as its marks allow, a string by any
bytes that have its text.

Each statement is proved in the same two steps.  First the layout is taken apart
into its fields by the lemmas of `Reads` (`Reads.afterIdent`, `Reads.afterWord`,
`reads_counted` and so on), which gives one spelling for each field; then
`Reads.congr` puts the fields together as those of a record.  In the direction
from bytes to the record the fields are matched off one by one; in the other the
record has its shape by its tag (`shape_of_tag`), and its fields are the ones
that are asked for.

The statements of all heap sub-records are put together in `reads_subRecord`: a
sub-record is read exactly where a well-formed one is spelled.
-/
import HeapDump.Proofs.Record.Reading

namespace HeapDump

namespace Layout

open Decoder Written

variable {idSize : Nat}

/-- The written form of a number that counts items. -/
theorem word_eq_count {x : UInt32} {n : Nat} (h : n = x.toNat) : Written.word x = count n := by
  rw [count, h, UInt32.ofNat_toNat]

/-- The tag of a sub-record says which kind of sub-record it is. -/
theorem shape_of_tag (r : HeapRecord) : match r.tag with
    | .root kind => ∃ root, r = .root root ∧ root.kind = kind
    | .classDump => ∃ d, r = .classDump d
    | .instanceDump => ∃ d, r = .object (.plain d)
    | .objectArrayDump => ∃ d, r = .object (.references d)
    | .primitiveArrayDump => ∃ d, r = .object (.primitives d) ∧ d.data.isSome = true
    | .primitiveArrayNoData => ∃ d, r = .object (.primitives d) ∧ d.data.isSome = false
    | .heapDumpInfo => ∃ heapId nameId, r = .heapInfo heapId nameId := by
  rcases r with ⟨heapId, nameId⟩ | root | d | (d | d | ⟨objectId, serial, type, length, data⟩)
  · exact ⟨heapId, nameId, rfl⟩
  · exact ⟨root, rfl, rfl⟩
  · exact ⟨d, rfl⟩
  · exact ⟨d, rfl⟩
  · exact ⟨d, rfl⟩
  · cases data with
    | none => exact ⟨_, rfl, rfl⟩
    | some data => exact ⟨_, rfl, rfl⟩

/-! ### Roots -/

/-- A field that is there or not. -/
def optional {α : Type} (present : Bool) (d : Decoder α) : Decoder (Option α) :=
  if present then d >>= fun a => pure (some a) else pure none

/-- A field that is not there takes no bytes. -/
theorem reads_optional {α : Type} {d : Decoder α} {P : α → Prop} {written : α → List UInt8}
    (hd : Reads idSize d fun a bs => P a ∧ bs = written a) (present : Bool) :
    Reads idSize (optional present d) fun o bs =>
      (o.isSome = present ∧ ∀ a ∈ o, P a) ∧ bs = (o.map written).getD [] := by
  cases present with
  | true =>
    refine (hd.map some).congr fun o bs => ?_
    constructor
    · rintro ⟨a, rfl, ha, rfl⟩
      refine ⟨⟨rfl, ?_⟩, rfl⟩
      rintro _ ⟨⟩
      exact ha
    · rintro ⟨⟨hsome, ho⟩, rfl⟩
      obtain ⟨a, rfl⟩ := Option.isSome_iff_exists.mp hsome
      exact ⟨a, rfl, ho a rfl, rfl⟩
  | false =>
    refine (reads_pure none).congr fun o bs => ?_
    constructor
    · rintro ⟨rfl, rfl⟩
      refine ⟨⟨rfl, ?_⟩, rfl⟩
      rintro _ ⟨⟩
    · rintro ⟨⟨hnone, -⟩, rfl⟩
      obtain rfl := Option.isNone_iff_eq_none.mp (Option.isSome_eq_false_iff.mp hnone)
      exact ⟨rfl, rfl⟩

/-- A root has those of four details that its kind has. -/
theorem rootDetails_eq (kind : RootKind) (objectId : ObjectId) :
    rootDetails kind objectId =
      (do let jniRef ← optional kind.hasJniRef ident
          let threadSerial ← optional kind.hasThread word
          let frame ← optional kind.hasFrame word
          let stackSerial ← optional kind.hasStack word
          return { kind, objectId, threadSerial, frame, stackSerial, jniRef }) := by
  cases kind <;>
    simp only [rootDetails, optional, RootKind.hasJniRef, RootKind.hasThread, RootKind.hasFrame,
      RootKind.hasStack, reduceCtorEq, decide_false, decide_true, if_true, Bool.false_eq_true,
      if_false, bind_assoc, pure_bind]

theorem reads_root (hw : idSize ≤ 8) (kind : RootKind) :
    Reads idSize (root kind) fun r bs =>
      r.tag = .root kind ∧ r.WellFormed idSize ∧ Spelled (r.fieldMarks idSize) bs := by
  have hword : Reads idSize word fun x bs => True ∧ bs = Written.word x :=
    (reads_number .uint32).congr fun x bs => ⟨fun h => ⟨trivial, h⟩, fun h => h.2⟩
  have hdetails : root kind = ident >>= fun objectId => rootDetails kind objectId >>= fun r =>
      pure (.root r) := rfl
  simp only [hdetails, rootDetails_eq, bind_assoc, pure_bind]
  -- the details come in the order in which they are written
  refine Reads.congr (Reads.afterIdent hw fun objectId _ =>
    (reads_optional (reads_ident hw) kind.hasJniRef).andThen fun jniRef _ =>
    (reads_optional hword kind.hasThread).andThen fun thread _ =>
    (reads_optional hword kind.hasFrame).andThen fun frame _ =>
    (reads_optional hword kind.hasStack).map _) fun r bs => ?_
  constructor
  · rintro ⟨objectId, _, hid, rfl, jniRef, _, ⟨hasJni, hjni⟩, rfl, thread, _, ⟨hasThread, -⟩, rfl,
      frame, _, ⟨hasFrame, -⟩, rfl, stack, rfl, ⟨hasStack, -⟩, rfl⟩
    refine ⟨rfl, ⟨hid, hjni, hasJni, hasThread, hasFrame, hasStack⟩, spelled_fixed_iff.mpr ?_⟩
    simp only [HeapRecord.fieldBytes, RootRecord.details, List.append_assoc]
  -- a record with this tag is a root of this kind, and its details are there or not by kind
  · rintro ⟨htag, hr, hbs⟩
    have hshape := shape_of_tag r
    rw [htag] at hshape
    obtain ⟨r, rfl, rfl⟩ := hshape
    have htrivial : ∀ o : Option UInt32, ∀ x ∈ o, True := fun _ _ _ => trivial
    refine ⟨r.objectId, _, hr.objectId, ?_, r.jniRef, _, ⟨hr.hasJniRef, hr.jniRef⟩, rfl,
      r.threadSerial, _, ⟨hr.hasThread, htrivial _⟩, rfl, r.frame, _, ⟨hr.hasFrame, htrivial _⟩,
      rfl, r.stackSerial, rfl, ⟨hr.hasStack, htrivial _⟩, rfl⟩
    rw [spelled_fixed_iff.mp hbs]
    simp only [HeapRecord.fieldBytes, RootRecord.details, List.append_assoc]

/-! ### Class objects -/

/-- A value stands behind the code of its type. -/
theorem reads_typedValue {α : Type} (hw : idSize ≤ 8) (f : Value ObjectId → α) :
    Reads idSize (type >>= fun t => Decoder.value t >>= fun v => pure (f v)) fun a bs =>
      ∃ v, a = f v ∧ v.WellFormed idSize ∧ Spelled (typedValueMarks idSize v) bs := by
  refine (reads_type.bind fun t _ _ => (reads_value hw t).map f).congr fun a bs => ?_
  simp only [typedValueMarks, spelled_append_iff, spelled_fixed_iff]
  constructor
  · rintro ⟨_, _, ys, rfl, rfl, v, rfl, rfl, hv, hys⟩
    exact ⟨v, rfl, hv, _, ys, rfl, rfl, hys⟩
  · rintro ⟨v, rfl, hv, _, ys, rfl, rfl, hys⟩
    exact ⟨v.type, _, ys, rfl, rfl, v, rfl, rfl, hv, hys⟩

theorem reads_constant (hw : idSize ≤ 8) :
    Reads idSize constant fun c bs =>
      c.2.WellFormed idSize ∧ Spelled (constantMarks idSize c) bs := by
  refine Reads.congr ((reads_number .uint16).bind fun index _ _ =>
    reads_typedValue hw (Prod.mk index)) fun c bs => ?_
  simp only [constantMarks, spelled_append_iff, spelled_fixed_iff]
  constructor
  · rintro ⟨index, _, ys, rfl, rfl, v, rfl, hv, hys⟩
    exact ⟨hv, _, ys, rfl, rfl, hys⟩
  · obtain ⟨index, v⟩ := c
    rintro ⟨hv, _, ys, rfl, rfl, hys⟩
    exact ⟨index, _, ys, rfl, rfl, v, rfl, hv, hys⟩

theorem reads_static (hw : idSize ≤ 8) :
    Reads idSize static fun s bs =>
      (Fits idSize s.nameId ∧ s.value.WellFormed idSize) ∧ Spelled (s.marks idSize) bs := by
  refine Reads.congr (Reads.afterIdent hw fun nameId _ =>
    reads_typedValue hw (StaticRecord.mk nameId)) fun s bs => ?_
  simp only [StaticRecord.marks, spelled_append_iff, spelled_fixed_iff]
  constructor
  · rintro ⟨nameId, ys, hname, rfl, v, rfl, hv, hys⟩
    exact ⟨⟨hname, hv⟩, _, ys, rfl, rfl, hys⟩
  · obtain ⟨nameId, v⟩ := s
    rintro ⟨⟨hname, hv⟩, _, ys, rfl, rfl, hys⟩
    exact ⟨nameId, ys, hname, rfl, v, rfl, hv, hys⟩

theorem reads_field (hw : idSize ≤ 8) :
    Reads idSize field fun f bs =>
      Fits idSize f.nameId ∧ Spelled (fixed (f.written idSize)) bs := by
  refine Reads.congr (Reads.afterIdent hw fun nameId _ =>
    reads_type.map (FieldRecord.mk nameId)) fun f bs => ?_
  rw [spelled_fixed_iff]
  constructor
  · rintro ⟨nameId, _, hname, rfl, t, rfl, rfl⟩
    exact ⟨hname, rfl⟩
  · rintro ⟨hname, rfl⟩
    exact ⟨f.nameId, _, hname, rfl, f.type, rfl, rfl⟩

/-- A reserved identifier is any bytes of its width. -/
theorem reads_reserved {α : Type} (hw : idSize ≤ 8) {d : Decoder α}
    {S : α → List UInt8 → Prop} (hd : Reads idSize d S) :
    Reads idSize (ident >>= fun _ => d) fun a bs =>
      ∃ xs ys, bs = xs ++ ys ∧ xs.length = idSize ∧ S a ys := by
  refine ((reads_ident hw).bind fun _ _ _ => hd).congr fun a bs => ?_
  constructor
  · rintro ⟨id, xs, ys, rfl, hid, hys⟩
    exact ⟨xs, ys, rfl, ((ident_spelling hw).mpr hid).1, hys⟩
  · rintro ⟨xs, ys, rfl, hlen, hys⟩
    exact ⟨_, xs, ys, rfl, (ident_spelling hw).mp ⟨hlen, rfl⟩, hys⟩

theorem reads_classDump (hw : idSize ≤ 8) :
    Reads idSize classDump fun r bs =>
      r.tag = .classDump ∧ r.WellFormed idSize ∧ Spelled (r.fieldMarks idSize) bs := by
  -- the fields in their order: identifiers, the two reserved ones, a size, three counted runs
  refine Reads.congr (Reads.afterIdent hw fun classId _ => Reads.afterWord fun serial =>
    Reads.afterIdent hw fun superId _ => Reads.afterIdent hw fun loaderId _ =>
    Reads.afterIdent hw fun signersId _ => Reads.afterIdent hw fun domainId _ =>
    reads_reserved hw <| reads_reserved hw <| Reads.afterWord fun size =>
    (reads_counted (reads_constant hw)).bind fun constants _ _ =>
    (reads_counted (reads_static hw)).bind fun statics _ _ =>
    (reads_counted (reads_field hw)).map _) fun r bs => ?_
  have hzero : (Written.ident idSize 0).length = idSize := BigEndian.length_toList ..
  constructor
  · rintro ⟨classId, _, hclass, rfl, serial, _, rfl, superId, _, hsuper, rfl, loaderId, _, hloader,
      rfl, signersId, _, hsigners, rfl, domainId, _, hdomain, rfl, reserved₁, _, rfl, h₁,
      reserved₂, _, rfl, h₂, size, _, rfl, constants, xs, _, rfl, ⟨hclt, hcs, hxs⟩, statics, ys, zs,
      rfl, ⟨hslt, hss, hys⟩, fields, rfl, hflt, hfs, hzs⟩
    refine ⟨rfl, ⟨hclass, hsuper, hloader, hsigners, hdomain, hclt, hcs, hslt, hss, hflt, hfs⟩, ?_⟩
    -- what is read exactly stands on both sides of the reserved identifiers
    have hfixed : Spelled (fixed (Written.ident idSize classId ++ Written.word serial ++
        Written.ident idSize superId ++ Written.ident idSize loaderId ++
        Written.ident idSize signersId ++ Written.ident idSize domainId)) _ :=
      spelled_fixed_iff.mpr rfl
    have hfree : Spelled (free (Written.ident idSize 0 ++ Written.ident idSize 0))
        (reserved₁ ++ reserved₂) := by
      rw [spelled_free_iff, List.length_append, List.length_append, h₁, h₂, hzero]
    have hsize : Spelled (fixed (Written.word size)) _ := spelled_fixed_iff.mpr rfl
    have hall := hfixed.append (hfree.append (hsize.append (hxs.append (hys.append hzs))))
    simpa only [HeapRecord.fieldMarks, ClassDump.marks, List.append_assoc] using hall
  · rintro ⟨htag, hr, hbs⟩
    have hshape := shape_of_tag r
    rw [htag] at hshape
    obtain ⟨d, rfl⟩ := hshape
    simp only [HeapRecord.fieldMarks, ClassDump.marks, List.append_assoc, spelled_append_iff,
      spelled_fixed_iff, spelled_free_iff] at hbs
    obtain ⟨_, _, rfl, rfl, reserved, _, rfl, hreserved, _, _, rfl, rfl, xs, _, rfl, hxs, ys, zs,
      rfl, hys, hzs⟩ := hbs
    rw [List.length_append, hzero] at hreserved
    -- the reserved bytes are those of two identifiers
    rw [← List.take_append_drop idSize reserved]
    simp only [List.append_assoc]
    exact ⟨d.classId, _, hr.classId, rfl, d.stackSerial, _, rfl, d.superId, _, hr.superId, rfl,
      d.loaderId, _, hr.loaderId, rfl, d.signersId, _, hr.signersId, rfl, d.protectionDomainId, _,
      hr.protectionDomainId, rfl, _, _, rfl, by rw [List.length_take]; omega, _, _, rfl,
      by rw [List.length_drop]; omega, d.instanceSize, _, rfl, d.constants, xs, _, rfl,
      ⟨hr.constants_lt, hr.constants, hxs⟩, d.statics, ys, zs, rfl,
      ⟨hr.statics_lt, hr.statics, hys⟩, d.fields, rfl, hr.fields_lt, hr.fields, hzs⟩

/-! ### Objects -/

theorem reads_instanceDump (hw : idSize ≤ 8) :
    Reads idSize instanceDump fun r bs =>
      r.tag = .instanceDump ∧ r.WellFormed idSize ∧ Spelled (r.fieldMarks idSize) bs := by
  refine Reads.congr (Reads.afterIdent hw fun objectId _ => Reads.afterWord fun serial =>
    Reads.afterIdent hw fun classId _ => Reads.afterWord fun length =>
    (reads_bytes length.toNat).map _) fun r bs => ?_
  constructor
  · rintro ⟨objectId, _, hid, rfl, serial, _, rfl, classId, _, hclass, rfl, length, _, rfl, _, rfl,
      hlen, rfl⟩
    have hlt := length.toNat_lt
    rw [← hlen] at hlt
    refine ⟨rfl, ⟨hid, hclass, hlt⟩, spelled_fixed_iff.mpr ?_⟩
    -- the length in front of the bytes is their number
    · rw [word_eq_count hlen]
      simp only [HeapRecord.fieldBytes, ObjectDump.fieldBytes, List.append_assoc]
      rfl
  · rintro ⟨htag, hr, hbs⟩
    have hshape := shape_of_tag r
    rw [htag] at hshape
    obtain ⟨⟨objectId, serial, classId, data⟩, rfl⟩ := hshape
    obtain ⟨hid, hclass, hlt⟩ := hr
    obtain rfl := spelled_fixed_iff.mp hbs
    simp only [HeapRecord.fieldBytes, ObjectDump.fieldBytes, List.append_assoc]
    refine ⟨objectId, _, hid, rfl, serial, _, rfl, classId, _, hclass, rfl,
      UInt32.ofNat data.size, _, rfl, data, rfl, ?_, rfl⟩
    exact (UInt32.toNat_ofNat_of_lt' hlt).symm

theorem reads_objectArrayDump (hw : idSize ≤ 8) :
    Reads idSize objectArrayDump fun r bs =>
      r.tag = .objectArrayDump ∧ r.WellFormed idSize ∧ Spelled (r.fieldMarks idSize) bs := by
  refine Reads.congr (Reads.afterIdent hw fun objectId _ => Reads.afterWord fun serial =>
    Reads.afterWord fun length => Reads.afterIdent hw fun classId _ =>
    (reads_idents hw length.toNat).map _) fun r bs => ?_
  constructor
  · rintro ⟨objectId, _, hid, rfl, serial, _, rfl, length, _, rfl, classId, _, hclass, rfl,
      elements, rfl, hlen, helements, rfl⟩
    refine ⟨rfl, ⟨hid, hclass, hlen ▸ length.toNat_lt, helements⟩, spelled_fixed_iff.mpr ?_⟩
    rw [word_eq_count hlen]
    simp only [HeapRecord.fieldBytes, ObjectDump.fieldBytes, List.append_assoc]
  · rintro ⟨htag, hr, hbs⟩
    have hshape := shape_of_tag r
    rw [htag] at hshape
    obtain ⟨⟨objectId, serial, classId, elements⟩, rfl⟩ := hshape
    obtain ⟨hid, hclass, hlt, helements⟩ := hr
    obtain rfl := spelled_fixed_iff.mp hbs
    simp only [HeapRecord.fieldBytes, ObjectDump.fieldBytes, List.append_assoc]
    refine ⟨objectId, _, hid, rfl, serial, _, rfl, UInt32.ofNat elements.length, _, rfl, classId, _,
      hclass, rfl, elements, rfl, ?_, helements, rfl⟩
    exact (UInt32.toNat_ofNat_of_lt' hlt).symm

theorem reads_primitiveArrayDump (hw : idSize ≤ 8) :
    Reads idSize (primitiveArrayDump true) fun r bs =>
      r.tag = .primitiveArrayDump ∧ r.WellFormed idSize ∧ Spelled (r.fieldMarks idSize) bs := by
  refine Reads.congr (Reads.afterIdent hw fun objectId _ => Reads.afterWord fun serial =>
    Reads.afterWord fun length => reads_primitiveType.andThen fun t _ => Reads.afterRead fun e he =>
    by rw [he]; exact (reads_bytes (length.toNat * t.size idSize)).map _) fun r bs => ?_
  constructor
  · rintro ⟨objectId, _, hid, rfl, serial, _, rfl, length, _, rfl, t, _, ht, rfl, _, rfl, hlen, rfl⟩
    refine ⟨rfl, ⟨hid, ht, ?_⟩, spelled_fixed_iff.mpr ?_⟩
    · rintro _ ⟨⟩
      exact hlen
    · simp only [HeapRecord.fieldBytes, ObjectDump.fieldBytes, List.append_assoc]
      rfl
  · rintro ⟨htag, hr, hbs⟩
    have hshape := shape_of_tag r
    rw [htag] at hshape
    obtain ⟨⟨objectId, serial, t, length, data⟩, rfl, hsome⟩ := hshape
    obtain ⟨data, rfl⟩ := Option.isSome_iff_exists.mp hsome
    obtain ⟨hid, ht, hdata⟩ := hr
    obtain rfl := spelled_fixed_iff.mp hbs
    simp only [HeapRecord.fieldBytes, ObjectDump.fieldBytes, List.append_assoc]
    exact ⟨objectId, _, hid, rfl, serial, _, rfl, length, _, rfl, t, _, ht, rfl, data, rfl,
      hdata data rfl, rfl⟩

theorem reads_primitiveArrayNoData (hw : idSize ≤ 8) :
    Reads idSize (primitiveArrayDump false) fun r bs =>
      r.tag = .primitiveArrayNoData ∧ r.WellFormed idSize ∧ Spelled (r.fieldMarks idSize) bs := by
  refine Reads.congr (Reads.afterIdent hw fun objectId _ => Reads.afterWord fun serial =>
    Reads.afterWord fun length => reads_primitiveType.andThen fun t _ => reads_pure _)
    fun r bs => ?_
  constructor
  · rintro ⟨objectId, _, hid, rfl, serial, _, rfl, length, _, rfl, t, _, ht, rfl, rfl, rfl⟩
    refine ⟨rfl, ⟨hid, ht, ?_⟩, spelled_fixed_iff.mpr ?_⟩
    · rintro _ ⟨⟩
    · simp only [HeapRecord.fieldBytes, ObjectDump.fieldBytes, List.append_assoc]
      rfl
  · rintro ⟨htag, hr, hbs⟩
    have hshape := shape_of_tag r
    rw [htag] at hshape
    obtain ⟨⟨objectId, serial, t, length, data⟩, rfl, hnone⟩ := hshape
    obtain rfl := Option.isNone_iff_eq_none.mp (Option.isSome_eq_false_iff.mp hnone)
    obtain ⟨hid, ht, -⟩ := hr
    obtain rfl := spelled_fixed_iff.mp hbs
    simp only [HeapRecord.fieldBytes, ObjectDump.fieldBytes, List.append_assoc]
    exact ⟨objectId, _, hid, rfl, serial, _, rfl, length, _, rfl, t, _, ht, rfl, rfl, rfl⟩

/-! ### All sub-records -/

theorem reads_heapInfo (hw : idSize ≤ 8) :
    Reads idSize heapInfo fun r bs =>
      r.tag = .heapDumpInfo ∧ r.WellFormed idSize ∧ Spelled (r.fieldMarks idSize) bs := by
  refine Reads.congr (Reads.afterWord fun heapId => (reads_ident hw).map _) fun r bs => ?_
  constructor
  · rintro ⟨heapId, _, rfl, nameId, rfl, hname, rfl⟩
    exact ⟨rfl, hname, spelled_fixed_iff.mpr rfl⟩
  · rintro ⟨htag, hr, hbs⟩
    have hshape := shape_of_tag r
    rw [htag] at hshape
    obtain ⟨heapId, nameId, rfl⟩ := hshape
    obtain rfl := spelled_fixed_iff.mp hbs
    exact ⟨heapId, _, rfl, nameId, rfl, hr, rfl⟩

theorem reads_subPayload (hw : idSize ≤ 8) (tag : SubTag) :
    Reads idSize (subPayload tag) fun r bs =>
      r.tag = tag ∧ r.WellFormed idSize ∧ Spelled (r.fieldMarks idSize) bs := by
  cases tag with
  | root kind => exact reads_root hw kind
  | classDump => exact reads_classDump hw
  | instanceDump => exact reads_instanceDump hw
  | objectArrayDump => exact reads_objectArrayDump hw
  | primitiveArrayDump => exact reads_primitiveArrayDump hw
  | primitiveArrayNoData => exact reads_primitiveArrayNoData hw
  | heapDumpInfo => exact reads_heapInfo hw

/-- **A sub-record is read exactly where a well-formed one is spelled.** -/
theorem reads_subRecord (hw : idSize ≤ 8) :
    Reads idSize subRecord fun r bs => r.WellFormed idSize ∧ Spelled (r.marks idSize) bs := by
  apply Reads.afterPosition
  intro place
  refine (Reads.afterCode
    (S := fun r bs => r.WellFormed idSize ∧ Spelled (r.fieldMarks idSize) bs) HeapRecord.tag
    (fun _ _ => SubTag.ofCode?_eq_some_iff) (fun c tag htag => ?_)
    fun c hnone => ⟨.unknownTag c place, ?_⟩).congr fun r bs => ?_
  · simp only [htag]
    exact reads_subPayload hw tag
  · simp only [hnone]
  · rw [HeapRecord.marks, spelled_append_iff]
    simp only [spelled_fixed_iff]
    constructor
    · rintro ⟨ys, rfl, hr, hys⟩
      exact ⟨hr, _, ys, rfl, rfl, hys⟩
    · rintro ⟨hr, _, ys, rfl, rfl, hys⟩
      exact ⟨ys, rfl, hr, hys⟩

end Layout

end HeapDump
