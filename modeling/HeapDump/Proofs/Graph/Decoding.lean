/-
HeapDump/Proofs/Graph/Decoding.lean

Which fields the data of an object hold, what they are, and what is reported of the data.

The data hold as many fields of a layout as fit into them one behind the other, which is the
greatest number whose sizes add up to no more than there are bytes (`isGreatest_fitting`).  Each is
what its bytes spell, with the reference looked up in it (`value_decodeFields_eq_decodeFront`).

Besides references one thing at most is reported of an object, and `layoutNote?` says which:

* a field that the data are too short for, the first one;
* superclasses without end, if all fields that were looked for are there;
* data behind the last field, if neither is the case.

Main statements: `value_decodeFields_eq_decodeFront`, `notes_decodeFields`.  Both come from one
induction over the layout, which says what reading it gives, where it ends and what it notes
(`readLayout_spec`).
-/
import HeapDump.Graph.Fields
import HeapDump.Proofs.Diagnostic.Selection
import HeapDump.Proofs.Graph.Settled
import HeapDump.Proofs.Value.Parsing
import Mathlib.Algebra.GroupWithZero.Nat
import Mathlib.Order.Bounds.Basic

namespace HeapDump

/-! ### Sizes -/

/-- The number of bytes of the fields of a layout. -/
def layoutSize (idSize : Nat) (fields : List LayoutField) : Nat :=
  (fields.map (·.field.type.size idSize)).sum

/-- How many fields at the front of a layout fit into some bytes. -/
def fitting (idSize : Nat) : Nat → List LayoutField → Nat
  | _, [] => 0
  | size, f :: rest =>
    if f.field.type.size idSize ≤ size then fitting idSize (size - f.field.type.size idSize) rest + 1
    else 0

variable {idSize : Nat}

@[simp] theorem layoutSize_nil : layoutSize idSize [] = 0 := rfl

@[simp] theorem layoutSize_cons (f : LayoutField) (rest : List LayoutField) :
    layoutSize idSize (f :: rest) = f.field.type.size idSize + layoutSize idSize rest :=
  rfl

theorem fitting_le_length (size : Nat) (fields : List LayoutField) :
    fitting idSize size fields ≤ fields.length := by
  induction fields generalizing size with
  | nil => exact Nat.le_refl 0
  | cons f rest ih =>
    rw [fitting]
    split
    · exact Nat.succ_le_succ (ih _)
    · exact Nat.zero_le _

/-- Just the fields that fit have so many bytes at most. -/
theorem le_fitting_iff {size k : Nat} {fields : List LayoutField} (hk : k ≤ fields.length) :
    k ≤ fitting idSize size fields ↔ layoutSize idSize (fields.take k) ≤ size := by
  induction fields generalizing size k with
  | nil =>
    obtain rfl := Nat.le_zero.mp hk
    simp
  | cons f rest ih =>
    cases k with
    | zero => simp
    | succ k =>
      rw [fitting, List.take_succ_cons, layoutSize_cons]
      split
      · next hle =>
        rw [Nat.add_le_add_iff_right, ih (Nat.le_of_succ_le_succ hk)]
        omega
      · next hgt => omega

/-- **The fields that fit** are the greatest number of those whose bytes are so many at most. -/
theorem isGreatest_fitting (idSize size : Nat) (fields : List LayoutField) :
    IsGreatest {k | k ≤ fields.length ∧ layoutSize idSize (fields.take k) ≤ size}
      (fitting idSize size fields) := by
  have hle : fitting idSize size fields ≤ fields.length := fitting_le_length size fields
  exact ⟨⟨hle, (le_fitting_iff hle).mp (Nat.le_refl _)⟩, fun _ hk => (le_fitting_iff hk.1).mpr hk.2⟩

/-- All fields fit if and only if there are as many bytes. -/
theorem getElem?_fitting_eq_none_iff {size : Nat} {fields : List LayoutField} :
    fields[fitting idSize size fields]? = none ↔ layoutSize idSize fields ≤ size := by
  rw [List.getElem?_eq_none_iff, le_fitting_iff (Nat.le_refl _), List.take_length]

/-! ### Values -/

/-- The reference that an identifier is found to be in a table. -/
def Reference.among (objects : ObjectTable) (id : ObjectId) : Reference :=
  if id = 0 then null
  else
    match objects[id]? with
    | some target => resolved id target
    | none => unknown id

theorem Reference.value_lookup_ofId (objects : ObjectTable) (offset : Nat) (holder : Holder)
    (id : ObjectId) : ((ofId id).lookup objects offset holder).value = among objects id := by
  rw [ofId, among]
  split
  · rfl
  · rw [lookup]
    cases objects[id]? <;> rfl

theorem Value.value_lookup_map (objects : ObjectTable) (offset : Nat) (holder : Holder)
    (v : Value ObjectId) :
    ((v.map Reference.ofId).lookup objects offset holder).value
      = v.map (Reference.among objects) := by
  cases v with
  | object id => exact congrArg object (Reference.value_lookup_ofId objects offset holder id)
  | _ => rfl

/-- A field whose data begin at `start`: what its bytes spell, most significant byte first, with
the reference looked up in it. -/
def LayoutField.decode (objects : ObjectTable) (idSize : Nat) (data : ByteArray) (start : Nat)
    (f : LayoutField) : FieldValue where
  name := f.field.name
  declaredBy := f.declaredBy
  value :=
    (Value.ofBits f.field.type <| BigEndian.ofBytes <|
      data.extract start (start + f.field.type.size idSize)).map (Reference.among objects)

/-- The fields at the front of a layout, one behind the other in some data. -/
def decodeFront (objects : ObjectTable) (idSize : Nat) (data : ByteArray) (start : Nat)
    (fields : List LayoutField) : List FieldValue :=
  fields.mapIdx fun j f => f.decode objects idSize data (start + layoutSize idSize (fields.take j))

theorem decodeFront_cons (objects : ObjectTable) (data : ByteArray) (start : Nat)
    (f : LayoutField) (rest : List LayoutField) :
    decodeFront objects idSize data start (f :: rest)
      = f.decode objects idSize data start
        :: decodeFront objects idSize data (start + f.field.type.size idSize) rest := by
  simp [decodeFront, List.mapIdx_cons, Nat.add_assoc]

/-- The first fields of a layout may be counted from its front. -/
theorem decodeFront_take (objects : ObjectTable) (data : ByteArray) (start k : Nat)
    (fields : List LayoutField) :
    decodeFront objects idSize data start (fields.take k)
      = (fields.take k).mapIdx fun j f =>
          f.decode objects idSize data (start + layoutSize idSize (fields.take j)) := by
  refine List.ext_getElem (by simp [decodeFront]) fun j hj _ => ?_
  rw [decodeFront, List.length_mapIdx, List.length_take] at hj
  simp [decodeFront, List.take_take, Nat.min_eq_left (show j ≤ k by omega)]

/-! ### What is reported -/

/-- The causes that are about the data of an object or the superclasses of its class. -/
def Cause.aboutLayout : Cause → Bool
  | shortFieldData .. | excessFieldData .. | cyclicSuperclasses _ => true
  | _ => false

/-- A diagnostic for a field that the data of an object are too short for. -/
def FieldOwner.short (owner : FieldOwner) (f : LayoutField) : Diagnostic :=
  owner.diagnostic (.shortFieldData owner.id owner.dataSize f.field.name f.declaringName)

/-- A diagnostic for data of an object behind its last field. -/
def FieldOwner.excess (owner : FieldOwner) (count : Nat) : Diagnostic :=
  owner.diagnostic (.excessFieldData owner.id count)

/-- A diagnostic for a class whose superclasses have no end. -/
def ClassObject.cyclic (c : ClassObject) : Diagnostic :=
  { cause := .cyclicSuperclasses c.name, object := some c.id }

/-- What is reported of the data of an object, given the position of its class. -/
def layoutNote? (classes : Array ClassObject) (idSize : Nat) (owner : FieldOwner) (i : Nat) :
    Option Diagnostic :=
  let chain := superclassChain classes i
  let fields := layout classes chain
  match fields[fitting idSize owner.dataSize fields]? with
  | some f => some (owner.short f)
  | none =>
    if classes.size < chain.length then classes[i]?.map ClassObject.cyclic
    else if layoutSize idSize fields < owner.dataSize then
      some (owner.excess (owner.dataSize - layoutSize idSize fields))
    else none

section

variable {classes : Array ClassObject} {owner : FieldOwner} {i : Nat} {chain : List Nat}
  (hchain : superclassChain classes i = chain)
include hchain

theorem layoutNote?_of_short {f : LayoutField}
    (h : (layout classes chain)[fitting idSize owner.dataSize (layout classes chain)]? = some f) :
    layoutNote? classes idSize owner i = some (owner.short f) := by
  rw [layoutNote?, hchain, h]

theorem layoutNote?_of_fits (h : layoutSize idSize (layout classes chain) ≤ owner.dataSize) :
    layoutNote? classes idSize owner i
      = if classes.size < chain.length then classes[i]?.map ClassObject.cyclic
        else if layoutSize idSize (layout classes chain) < owner.dataSize then
          some (owner.excess (owner.dataSize - layoutSize idSize (layout classes chain)))
        else none := by
  rw [layoutNote?, hchain, getElem?_fitting_eq_none_iff.mpr h]

end

/-- What is reported about instances names the object whose data it is about. -/
theorem object_of_layoutNote? {classes : Array ClassObject} {owner : FieldOwner} {i : Nat}
    {diagnostic : Diagnostic} (h : layoutNote? classes idSize owner i = some diagnostic)
    (hcategory : diagnostic.category = .instances) : diagnostic.object = some owner.id := by
  rw [layoutNote?] at h
  split at h
  · obtain rfl := Option.some.inj h
    rfl
  · split at h
    · obtain ⟨c, -, rfl⟩ := Option.map_eq_some_iff.mp h
      cases hcategory
    · obtain ⟨-, h⟩ := Option.ite_none_right_eq_some.mp h
      obtain rfl := Option.some.inj h
      rfl

theorem filter_aboutLayout_eq_nil {x : Noted α} (h : x.Every fun d => ¬d.cause.aboutLayout) :
    x.notes.filter (·.cause.aboutLayout) = [] :=
  List.filter_eq_nil_iff.mpr h.of_mem

/-- Looking up a reference in a field reports nothing about the data. -/
theorem Value.filter_aboutLayout_lookup (objects : ObjectTable) (offset : Nat) (holder : Holder)
    (v : Value Reference) :
    (v.lookup objects offset holder).notes.filter (·.cause.aboutLayout) = [] :=
  filter_aboutLayout_eq_nil <| v.every_lookup objects offset fun _ => Bool.false_ne_true

/-- What is reported behind the fields of a layout: superclasses without end, or data that are
left over. -/
def endNotes (classes : Array ClassObject) (owner : FieldOwner) (i chainLength : Nat) :
    Option Parser → List Diagnostic
  | none => []
  | some p =>
    if classes.size < chainLength then (classes[i]?.map ClassObject.cyclic).toList
    else if p.hasMore then [owner.excess p.remaining]
    else []

theorem aboutLayout_endNotes (classes : Array ClassObject) (owner : FieldOwner)
    (i chainLength : Nat) (p? : Option Parser) :
    ∀ d ∈ endNotes classes owner i chainLength p?, d.cause.aboutLayout := by
  intro d hd
  cases p? with
  | none => cases hd
  | some p =>
    rw [endNotes] at hd
    split at hd
    · obtain ⟨c, -, rfl⟩ := Option.map_eq_some_iff.mp (Option.mem_toList.mp hd)
      rfl
    · split at hd
      · obtain rfl := List.mem_singleton.mp hd
        rfl
      · cases hd

/-- An object is decoded by reading its layout and reporting what is found at the end. -/
theorem decodeFields_eq (objects : ObjectTable) (classes : Array ClassObject) (idSize : Nat)
    (owner : FieldOwner) (data : ByteArray) (i : Nat) :
    decodeFields objects classes idSize owner data i
      = let chain := superclassChain classes i
        let read := readLayout objects idSize owner (layout classes chain) { data }
        ⟨read.value.1, read.notes ++ endNotes classes owner i chain.length read.value.2⟩ := by
  rw [decodeFields]
  dsimp only
  generalize readLayout objects idSize owner (layout classes (superclassChain classes i))
    { data } = read
  obtain ⟨⟨values, p?⟩, notes⟩ := read
  cases p? with
  | none => rfl
  | some p =>
    dsimp only [endNotes, bind, Noted.andThen]
    split
    · cases classes[i]? <;> rfl
    · split <;> rfl

section

variable (objects : ObjectTable) (hid : idSize = 4 ∨ idSize = 8) (owner : FieldOwner)
include hid

/-- **What reading a layout gives**: the fields that fit, the place behind them unless there was
one more, and this one reported. -/
theorem readLayout_spec (fields : List LayoutField) (p : Parser) :
    let k := fitting idSize p.remaining fields
    let read := readLayout objects idSize owner fields p
    read.value.1 = decodeFront objects idSize p.data p.position (fields.take k)
      ∧ read.value.2 = (if k < fields.length then none else some (p.behind (layoutSize idSize fields)))
      ∧ read.notes.filter (·.cause.aboutLayout) = (fields[k]?.map owner.short).toList := by
  have hwidth : idSize ∈ [1, 2, 4, 8] := by
    rcases hid with rfl | rfl <;> decide
  induction fields generalizing p with
  | nil => exact ⟨rfl, rfl, rfl⟩
  | cons f rest ih =>
    intro k read
    have hparse := Value.parse_eq (t := f.field.type) (fun _ => hwidth) p
    by_cases h : f.field.type.size idSize ≤ p.remaining
    · -- the field is there, and the others are read behind it
      rw [if_pos h] at hparse
      obtain ⟨hvalues, hnext, hnotes⟩ := ih (p.behind (f.field.type.size idSize))
      have hk : k = fitting idSize (p.behind (f.field.type.size idSize)).remaining rest + 1 := by
        rw [Parser.remaining_behind]
        exact if_pos h
      simp only [read, readLayout, hparse, hk, Noted.value_bind, Noted.value_pure, Noted.notes_bind,
        Noted.notes_pure, List.append_nil, List.filter_append, Value.filter_aboutLayout_lookup,
        List.nil_append, List.take_succ_cons, decodeFront_cons, List.getElem?_cons_succ,
        List.length_cons, Nat.add_lt_add_iff_right, layoutSize_cons]
      refine ⟨?_, ?_, hnotes⟩
      · rw [hvalues, Value.value_lookup_map]
        rfl
      · rw [hnext, Parser.behind, Parser.behind, Parser.behind, Nat.add_assoc]
    · -- the data end in front of the field
      rw [if_neg h] at hparse
      have hk : k = 0 := if_neg h
      simp only [read, readLayout, hparse, hk]
      exact ⟨rfl, rfl, rfl⟩

/-- **The fields of an object** are those at the front of its layout that fit into its data. -/
theorem value_decodeFields_eq_decodeFront (classes : Array ClassObject) (data : ByteArray)
    (i : Nat) :
    let fields := layout classes (superclassChain classes i)
    (decodeFields objects classes idSize owner data i).value
      = decodeFront objects idSize data 0 (fields.take (fitting idSize data.size fields)) := by
  intro fields
  rw [decodeFields_eq]
  exact (readLayout_spec objects hid owner fields { data }).1

/-- **What is reported of an object** besides references is one thing at most. -/
theorem notes_decodeFields (classes : Array ClassObject) {data : ByteArray}
    (hdata : owner.dataSize = data.size) (i : Nat) :
    (decodeFields objects classes idSize owner data i).notes.filter (·.cause.aboutLayout)
      = (layoutNote? classes idSize owner i).toList := by
  obtain ⟨-, hnext, hnotes⟩ := readLayout_spec objects hid owner
    (layout classes (superclassChain classes i)) { data }
  rw [decodeFields_eq]
  dsimp only
  rw [List.filter_append, List.filter_eq_self.mpr (aboutLayout_endNotes classes owner i _ _), hnotes,
    hnext, show (Parser.remaining { data }) = owner.dataSize from hdata.symm]
  -- a field that does not fit is noted by the reading, and everything else at its end
  generalize hchain : superclassChain classes i = chain
  cases hk : (layout classes chain)[fitting idSize owner.dataSize (layout classes chain)]? with
  | some f =>
    rw [layoutNote?_of_short hchain hk, if_pos (List.getElem?_eq_some_iff.mp hk).1]
    rfl
  | none =>
    have hfits := getElem?_fitting_eq_none_iff.mp hk
    have hmore : (Parser.behind { data } (layoutSize idSize (layout classes chain))).hasMore
        = decide (layoutSize idSize (layout classes chain) < owner.dataSize) := by
      rw [hdata]
      exact congrArg (fun n => decide (n < data.size)) (Nat.zero_add _)
    rw [layoutNote?_of_fits hchain hfits, if_neg (Nat.not_lt.mpr (List.getElem?_eq_none_iff.mp hk)),
      endNotes, hmore, Parser.remaining_behind,
      show (Parser.remaining { data }) = owner.dataSize from hdata.symm]
    split
    · cases classes[i]? <;> rfl
    · simp only [decide_eq_true_eq]
      split <;> rfl

end

/-! ### Instances -/

/-- What is reported of the data of an instance, once its class has been looked up. -/
def Instance.layoutNote? (classes : Array ClassObject) (idSize : Nat) (i : Instance) :
    Option Diagnostic :=
  match i.contents with
  | .object data _ =>
    i.classRef.class?.bind (HeapDump.layoutNote? classes idSize ⟨i.id, i.offset, data.size⟩)
  | .objectArray _ | .primitiveArray .. => none

theorem Instance.layoutNote?_of_class? {i : Instance} {data : ByteArray}
    {fields : List FieldValue} (hcontents : i.contents = .object data fields) {c : Nat}
    (hc : i.classRef.class? = some c) (classes : Array ClassObject) (idSize : Nat) :
    i.layoutNote? classes idSize
      = HeapDump.layoutNote? classes idSize ⟨i.id, i.offset, data.size⟩ c := by
  rw [Instance.layoutNote?, hcontents, hc]
  rfl

/-- One thing at most is reported of an instance, namely of a plain object whose class was
found. -/
theorem Instance.exists_of_layoutNote? {i : Instance} {classes : Array ClassObject}
    {diagnostic : Diagnostic} (h : i.layoutNote? classes idSize = some diagnostic) :
    ∃ data fields c, i.contents = .object data fields ∧ i.classRef.class? = some c
      ∧ HeapDump.layoutNote? classes idSize ⟨i.id, i.offset, data.size⟩ c = some diagnostic := by
  rw [Instance.layoutNote?] at h
  split at h
  · next data fields hcontents =>
    obtain ⟨c, hc, h⟩ := Option.bind_eq_some_iff.mp h
    exact ⟨data, fields, c, hcontents, hc, h⟩
  · cases h
  · cases h

namespace Resolution

variable {ctx : Resolution} (hfields : ctx.resolveFields = true)
include hfields

/-- The fields of a plain object are decoded by the layout of its class. -/
theorem fields_resolveInstance (i : Instance) {data : ByteArray} {fields : List FieldValue}
    {c : Nat} (hcontents : (ctx.resolveInstance i).value.contents = .object data fields)
    (hclass : (ctx.resolveInstance i).value.classRef.class? = some c) :
    let o := (ctx.resolveInstance i).value
    fields = (decodeFields ctx.objects ctx.classes ctx.idSize ⟨o.id, o.offset, data.size⟩ data
      c).value := by
  intro o
  obtain ⟨id, heap, offset, classRef, stackSerial, contents, size⟩ := i
  cases contents with
  | object data' fields' =>
    simp only [resolveInstance, objectFields, Noted.value_bind, Noted.value_pure, hfields,
      if_true] at hcontents hclass
    rw [hclass] at hcontents
    obtain ⟨rfl, rfl⟩ := Contents.object.inj hcontents
    rfl
  | objectArray elements => cases hcontents
  | primitiveArray t length data' => cases hcontents

/-- One thing at most is reported of the data of an instance. -/
theorem filter_aboutLayout_resolveInstance (hid : ctx.idSize = 4 ∨ ctx.idSize = 8)
    (i : Instance) :
    (ctx.resolveInstance i).notes.filter (·.cause.aboutLayout)
      = ((ctx.resolveInstance i).value.layoutNote? ctx.classes ctx.idSize).toList := by
  obtain ⟨id, heap, offset, classRef, stackSerial, contents, size⟩ := i
  have hlookup (holder : Holder) : (classRef.lookupClass ctx.objects offset holder).notes.filter
      (·.cause.aboutLayout) = [] :=
    filter_aboutLayout_eq_nil <| classRef.every_lookupClass ctx.objects offset
      (fun _ => Bool.false_ne_true) fun _ => Bool.false_ne_true
  cases contents with
  | object data fields =>
    simp only [resolveInstance, Noted.notes_bind, Noted.notes_pure, Noted.value_bind,
      Noted.value_pure, List.append_nil, List.filter_append, hlookup, List.nil_append,
      objectFields, hfields, if_true, Instance.layoutNote?]
    cases (classRef.lookupClass ctx.objects offset (.classOfInstance id)).value.class? with
    | none => rfl
    | some c => exact notes_decodeFields ctx.objects hid ⟨id, offset, data.size⟩ ctx.classes rfl c
  | objectArray elements =>
    simp only [resolveInstance, Noted.notes_bind, Noted.notes_pure, List.append_nil,
      List.filter_append, hlookup, List.nil_append]
    refine filter_aboutLayout_eq_nil (Noted.every_each fun element _ => ?_)
    exact element.1.every_lookup ctx.objects offset fun _ => Bool.false_ne_true
  | primitiveArray t length data => rfl

end Resolution

end HeapDump
