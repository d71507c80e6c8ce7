/-
HeapDump/Proofs/Graph/Settled.lean

What becomes of identifiers when they are looked up.

A settled reference is determined by its identifier, the table of objects and the
objects that its place allows (`Reference.Settled`):

* it is null exactly if its identifier is 0;
* it is resolved to a position exactly if the table has it there and the place allows
  an object of this kind;
* it is unknown in all other cases.

Every lookup settles the identifiers that it is given, in values, classes, decoded
fields and roots alike, and keeps the identifier.  Decoded fields are those that
`rawFields` reads from the data, so what is settled there is known from the bytes.
The class of an array of a primitive type is looked for by name instead, and
`Instance.Settled` has a case of its own for it.
-/
import HeapDump.Proofs.Graph.ArrayClass
import HeapDump.Proofs.Graph.ReadBack

namespace HeapDump

/-! ### Single references -/

/-- Any object will do. -/
def Target.any : Target → Prop := fun _ => True

/-- Only a class will do. -/
def Target.isClass : Target → Prop
  | classAt _ => True
  | instanceAt _ => False

namespace Reference

/-- A reference that has been looked up in a table of objects, at a place that allows some
of them only: null if its identifier is, else found if the table has an object for the
identifier that is allowed, else unknown. -/
structure Settled (objects : ObjectTable) (allowed : Target → Prop) (r : Reference) : Prop where
  null_iff : r = null ↔ r.id = 0
  resolved_iff : ∀ t, r = resolved r.id t ↔ r.id ≠ 0 ∧ objects[r.id]? = some t ∧ allowed t
  unknown_iff : r = unknown r.id ↔ r.id ≠ 0 ∧ ∀ t, objects[r.id]? = some t → ¬allowed t

variable {objects : ObjectTable} {allowed : Target → Prop}

/-- A settled reference has been looked up. -/
theorem Settled.ne_unresolved {r : Reference} (h : r.Settled objects allowed) (id : ObjectId) :
    r ≠ unresolved id := by
  rintro rfl
  have hid : id ≠ 0 := fun hid => by cases h.null_iff.mpr hid
  have hnone : ∀ t, objects[id]? = some t → ¬allowed t := fun t ht ha => by
    cases (h.resolved_iff t).mpr ⟨hid, ht, ha⟩
  cases h.unknown_iff.mpr ⟨hid, hnone⟩

/-- What a settled reference was found to mean is what the table says. -/
theorem Settled.getElem?_of_target? {r : Reference} (h : r.Settled objects allowed) {t : Target}
    (ht : r.target? = some t) : objects[r.id]? = some t := by
  cases r with
  | resolved id t' =>
    obtain rfl : t' = t := Option.some.inj ht
    exact ((h.resolved_iff t').mp rfl).2.1
  | _ => cases ht

theorem settled_null : null.Settled objects allowed where
  null_iff := by simp [id]
  resolved_iff := by simp [id]
  unknown_iff := by simp [id]

theorem settled_resolved {id : ObjectId} {t : Target} (hid : id ≠ 0)
    (ht : objects[id]? = some t) (ha : allowed t) :
    (resolved id t).Settled objects allowed where
  null_iff := by simp [Reference.id, hid]
  resolved_iff t' := by
    simp only [Reference.id, ht, resolved.injEq, true_and, Option.some_inj]
    exact ⟨fun h => ⟨hid, h, h ▸ ha⟩, fun h => h.2.1⟩
  unknown_iff := by simp [Reference.id, ht, ha]

theorem settled_unknown {id : ObjectId} (hid : id ≠ 0)
    (hnone : ∀ t, objects[id]? = some t → ¬allowed t) :
    (unknown id).Settled objects allowed where
  null_iff := by simp [Reference.id, hid]
  resolved_iff t := by
    simp only [Reference.id, reduceCtorEq, false_iff]
    exact fun h => hnone t h.2.1 h.2.2
  unknown_iff := by simpa [Reference.id, hid] using hnone

/-- Looking an identifier up settles it. -/
theorem settled_lookup (objects : ObjectTable) (offset : Nat) (holder : Holder) (id : ObjectId) :
    ((ofId id).lookup objects offset holder).value.Settled objects Target.any := by
  by_cases hid : id = 0
  · subst hid
    exact settled_null
  · rw [ofId, if_neg hid, lookup]
    cases ht : objects[id]? with
    | some t => exact settled_resolved hid ht trivial
    | none => exact settled_unknown hid (by simp [ht])

/-- Looking an identifier up that must be of a class settles it. -/
theorem settled_lookupClass (objects : ObjectTable) (offset : Nat) (holder : Holder)
    (id : ObjectId) :
    ((ofId id).lookupClass objects offset holder).value.Settled objects Target.isClass := by
  by_cases hid : id = 0
  · subst hid
    exact settled_null
  · rw [ofId, if_neg hid, lookupClass]
    rcases ht : objects[id]? with - | (i | i)
    · exact settled_unknown hid (by simp [ht])
    · exact settled_resolved hid ht trivial
    · exact settled_unknown hid (by simp [ht, Target.isClass])

end Reference

/-- A value is settled if its reference is, should it be one. -/
def Value.Settled (objects : ObjectTable) (v : Value Reference) : Prop :=
  ∀ r, v.reference? = some r → r.Settled objects Target.any

theorem Value.settled_lookup (objects : ObjectTable) (offset : Nat) (holder : Holder)
    (v : Value ObjectId) :
    ((v.map Reference.ofId).lookup objects offset holder).value.Settled objects := by
  intro r hr
  cases v with
  | object id =>
    obtain rfl := Option.some.inj hr
    exact Reference.settled_lookup objects offset holder id
  | _ => cases hr

/-! ### Classes -/

/-- A class whose references are all settled; its superclass must be a class. -/
structure ClassObject.Settled (objects : ObjectTable) (c : ClassObject) : Prop where
  superclass : c.superclass.Settled objects Target.isClass
  classLoader : c.classLoader.Settled objects Target.any
  constants : ∀ constant ∈ c.constants, constant.2.Settled objects
  statics : ∀ s ∈ c.statics, s.value.Settled objects

theorem Draft.settled_lookup_classObject (d : Draft) (objects : ObjectTable)
    (c : Located ClassDump) : ((d.classObject c).lookup objects).value.Settled objects where
  superclass := Reference.settled_lookupClass ..
  classLoader := Reference.settled_lookup ..
  constants constant hmem := by
    simp only [ClassObject.lookup, classObject, Noted.value_bind, Noted.value_pure,
      Noted.value_each, List.map_map, List.mem_map] at hmem
    obtain ⟨raw, -, rfl⟩ := hmem
    exact Value.settled_lookup _ _ _ _
  statics s hmem := by
    simp only [ClassObject.lookup, classObject, Noted.value_bind, Noted.value_pure,
      Noted.value_each, List.map_map, List.mem_map] at hmem
    obtain ⟨raw, -, rfl⟩ := hmem
    exact Value.settled_lookup _ _ _ _

/-! ### Decoded fields -/

/-- A decoded field as the data have it. -/
def FieldValue.raw (f : FieldValue) : String × Nat × Value ObjectId :=
  (f.name, f.declaredBy, f.value.map Reference.id)

/-- The fields of a layout that data hold, as far as they go. -/
def rawFields (idSize : Nat) : List LayoutField → Parser → List (String × Nat × Value ObjectId)
  | [], _ => []
  | f :: rest, p =>
    match Value.parse f.field.type idSize p with
    | (.error _, _) => []
    | (.ok raw, p) => (f.field.name, f.declaredBy, raw) :: rawFields idSize rest p

/-- Reading a layout gives the fields that the data hold, and settles them. -/
theorem settled_readLayout (objects : ObjectTable) (idSize : Nat) (owner : FieldOwner)
    (fields : List LayoutField) (p : Parser) :
    (readLayout objects idSize owner fields p).value.1.map FieldValue.raw
        = rawFields idSize fields p
      ∧ ∀ f ∈ (readLayout objects idSize owner fields p).value.1, f.value.Settled objects := by
  induction fields generalizing p with
  | nil => exact ⟨rfl, by simp [readLayout]⟩
  | cons f rest ih =>
    rw [readLayout, rawFields]
    rcases Value.parse f.field.type idSize p with ⟨(e | raw), p⟩
    · -- the data end here
      exact ⟨rfl, by simp⟩
    · obtain ⟨hraw, hsettled⟩ := ih p
      simp only [Noted.value_bind, Noted.value_pure, List.map_cons, List.mem_cons, forall_eq_or_imp]
      refine ⟨?_, Value.settled_lookup _ _ _ _, hsettled⟩
      rw [hraw]
      simp [FieldValue.raw]

theorem value_decodeFields (objects : ObjectTable) (classes : Array ClassObject) (idSize : Nat)
    (owner : FieldOwner) (data : ByteArray) (i : Nat) :
    (decodeFields objects classes idSize owner data i).value
      = (readLayout objects idSize owner (layout classes (superclassChain classes i))
          { data }).value.1 := by
  rw [decodeFields]
  simp only [Noted.value_bind]
  split
  · rfl
  · split
    · split <;> rfl
    · split <;> rfl

/-! ### Instances -/

/-- The fields that the data of a plain object hold, given its class; none unless the class
is known and fields are wanted. -/
def Resolution.rawFields (ctx : Resolution) (classRef : Reference) (data : ByteArray) :
    List (String × Nat × Value ObjectId) :=
  match classRef.class? with
  | some k =>
    if ctx.resolveFields then
      HeapDump.rawFields ctx.idSize (layout ctx.classes (superclassChain ctx.classes k)) { data }
    else []
  | none => []

/-- An instance whose references are all settled, and whose fields are those that its data
hold.  Its class must be a class; that of an array of a primitive type is found by name. -/
def Instance.Settled (ctx : Resolution) (i : Instance) : Prop :=
  match i.contents with
  | .object data fields =>
    i.classRef.Settled ctx.objects Target.isClass
      ∧ fields.map FieldValue.raw = ctx.rawFields i.classRef data
      ∧ ∀ f ∈ fields, f.value.Settled ctx.objects
  | .objectArray elements =>
    i.classRef.Settled ctx.objects Target.isClass
      ∧ ∀ r ∈ elements, r.Settled ctx.objects Target.any
  | .primitiveArray t _ _ =>
    if t = .object then i.classRef = .null else IsArrayClass ctx.classes t i.classRef

/-- Linking the classes leaves an instance settled. -/
theorem Instance.Settled.of_sameButLinks {ctx : Resolution} {i : Instance}
    {classes : Array ClassObject} (h : SameButLinks classes ctx.classes) (hi : i.Settled ctx) :
    i.Settled { ctx with classes } := by
  obtain ⟨id, heap, offset, classRef, stackSerial, contents, size⟩ := i
  cases contents with
  | object data fields =>
    obtain ⟨hclass, hraw, hfields⟩ := hi
    refine ⟨hclass, hraw.trans ?_, hfields⟩
    simp only [Resolution.rawFields, h.superclassChain_eq, h.layout_eq]
  | objectArray elements => exact hi
  | primitiveArray t length data =>
    simp only [Instance.Settled] at hi ⊢
    split
    · next ht => rwa [if_pos ht] at hi
    · next ht => exact IsArrayClass.of_sameButLinks h (by rwa [if_neg ht] at hi)

namespace Resolution

variable (ctx : Resolution)

theorem settled_objectFields (i : Instance) (classRef : Reference) (data : ByteArray) :
    (ctx.objectFields i classRef data).value.map FieldValue.raw = ctx.rawFields classRef data
      ∧ ∀ f ∈ (ctx.objectFields i classRef data).value, f.value.Settled ctx.objects := by
  rw [objectFields, rawFields]
  cases classRef.class? with
  | none => exact ⟨rfl, by simp⟩
  | some k =>
    dsimp only
    split
    · rw [value_decodeFields]
      exact settled_readLayout ..
    · exact ⟨rfl, by simp⟩

/-- Resolving an instance settles it. -/
theorem settled_resolveInstance {ctx : Resolution}
    (hindex : ctx.index = ClassIndex.ofNames (ctx.classes.toList.map (·.name)))
    (o : Located ObjectDump) :
    (ctx.resolveInstance (Draft.instanceObject o)).value.Settled ctx := by
  obtain ⟨dump, heap, offset⟩ := o
  cases dump with
  | plain dump =>
    obtain ⟨hraw, hsettled⟩ := ctx.settled_objectFields
      (Draft.instanceObject ⟨.plain dump, heap, offset⟩)
      ((Reference.ofId dump.classId).lookupClass ctx.objects offset
        (.classOfInstance dump.objectId)).value dump.data
    exact ⟨Reference.settled_lookupClass _ _ _ _, hraw, hsettled⟩
  | references dump =>
    refine ⟨Reference.settled_lookupClass _ _ _ _, fun r hr => ?_⟩
    rw [Noted.value_each] at hr
    obtain ⟨⟨r', n⟩, hmem, rfl⟩ := List.mem_map.mp hr
    obtain ⟨id, -, rfl⟩ := List.mem_map.mp (List.fst_mem_of_mem_zipIdx hmem)
    exact Reference.settled_lookup _ _ _ _
  | primitives dump =>
    show if dump.elementType = .object then ctx.arrayClass dump.elementType = .null
      else IsArrayClass ctx.classes dump.elementType (ctx.arrayClass dump.elementType)
    split
    · next ht => exact if_pos ht
    · next ht => exact isArrayClass_arrayClass hindex ht

end Resolution

end HeapDump
