/-
HeapDump/Proofs/Record/WellFormed.lean

What a writer of dumps has to keep to.

A record is well formed if everything in it has room in its field: identifiers
in the width of identifiers, counts and lengths in 16 or 32 bits.  A root tells
what its kind tells and no more, and a primitive array has as many bytes as its
elements take up.  A header has a name that begins as the format wants, without a
zero byte, and a width of four or eight.

These are the conditions under which the written form of a record is read back as
the record.  None is stronger than that: a record that breaks one has a written
form that says something else or cannot be read at all, and every sub-record that
a stream gives satisfies them.

All of it can be decided, instance by instance along the fields of the records, so
that concrete dumps are checked by evaluation.
-/
import Mathlib
import HeapDump.Record.Written

namespace HeapDump

/-! ### Fields -/

/-- Whether all identifiers of a list have a property is asked of one after the other. -/
instance (priority := 2000) (P : ObjectId → Prop) [DecidablePred P] (ids : List ObjectId) :
    Decidable (∀ id ∈ ids, P id) := List.decidableBAll P ids

instance (priority := 2000) (P : ObjectId → Prop) [DecidablePred P] (id? : Option ObjectId) :
    Decidable (∀ id ∈ id?, P id) := id?.decidableForallMem

/-- The identifier has room in `idSize` bytes. -/
def Fits (idSize : Nat) (id : ObjectId) : Prop := id.toNat < 256 ^ idSize

instance (idSize : Nat) (id : ObjectId) : Decidable (Fits idSize id) :=
  inferInstanceAs (Decidable (_ < _))

/-- A value is well formed if its reference has room. -/
def Value.WellFormed (idSize : Nat) (v : Value ObjectId) : Prop :=
  ∀ id ∈ v.reference?, Fits idSize id

instance (idSize : Nat) (v : Value ObjectId) : Decidable (v.WellFormed idSize) :=
  inferInstanceAs (Decidable (∀ id ∈ v.reference?, Fits idSize id))

/-- A value that is no reference is well formed. -/
theorem Value.wellFormed_of_reference? {idSize : Nat} {v : Value ObjectId}
    (h : v.reference? = none) : v.WellFormed idSize := by
  intro id hid
  rw [h] at hid
  cases hid

/-! ### Heap sub-records -/

namespace RootKind

/-- Whether roots of a kind name a thread. -/
def hasThread : RootKind → Bool
  | jniLocal | javaFrame | jniMonitor | nativeStack | threadBlock | threadObject => true
  | _ => false

/-- Whether roots of a kind name a frame or a depth. -/
def hasFrame : RootKind → Bool
  | jniLocal | javaFrame | jniMonitor => true
  | _ => false

/-- Whether roots of a kind name a stack trace. -/
def hasStack (k : RootKind) : Bool := k = threadObject

/-- Whether roots of a kind hold a reference of their own. -/
def hasJniRef (k : RootKind) : Bool := k = jniGlobal

end RootKind

/-- A root that tells what its kind tells. -/
@[mk_iff] structure RootRecord.WellFormed (idSize : Nat) (r : RootRecord) : Prop where
  objectId : Fits idSize r.objectId
  jniRef : ∀ id ∈ r.jniRef, Fits idSize id
  hasJniRef : r.jniRef.isSome = r.kind.hasJniRef
  hasThread : r.threadSerial.isSome = r.kind.hasThread
  hasFrame : r.frame.isSome = r.kind.hasFrame
  hasStack : r.stackSerial.isSome = r.kind.hasStack

instance (idSize : Nat) (r : RootRecord) : Decidable (r.WellFormed idSize) :=
  decidable_of_iff' _ (RootRecord.wellFormed_iff idSize r)

/-- A class object whose lists are counted in 16 bits. -/
@[mk_iff] structure ClassDump.WellFormed (idSize : Nat) (d : ClassDump) : Prop where
  classId : Fits idSize d.classId
  superId : Fits idSize d.superId
  loaderId : Fits idSize d.loaderId
  signersId : Fits idSize d.signersId
  protectionDomainId : Fits idSize d.protectionDomainId
  constants_lt : d.constants.length < UInt16.size
  constants : ∀ c ∈ d.constants, c.2.WellFormed idSize
  statics_lt : d.statics.length < UInt16.size
  statics : ∀ s ∈ d.statics, Fits idSize s.nameId ∧ s.value.WellFormed idSize
  fields_lt : d.fields.length < UInt16.size
  fields : ∀ f ∈ d.fields, Fits idSize f.nameId

instance (idSize : Nat) (d : ClassDump) : Decidable (d.WellFormed idSize) :=
  decidable_of_iff' _ (ClassDump.wellFormed_iff idSize d)

/-- An object whose length has room in 32 bits.  A primitive array has primitive
elements and, if it has any bytes, those of all its elements. -/
def ObjectDump.WellFormed (idSize : Nat) : ObjectDump → Prop
  | plain d => Fits idSize d.objectId ∧ Fits idSize d.classId ∧ d.data.size < UInt32.size
  | references d =>
    Fits idSize d.objectId ∧ Fits idSize d.classId ∧ d.elements.length < UInt32.size
      ∧ ∀ id ∈ d.elements, Fits idSize id
  | primitives d =>
    Fits idSize d.objectId ∧ d.elementType ≠ .object
      ∧ ∀ data ∈ d.data, data.size = d.length.toNat * d.elementType.size idSize

instance (idSize : Nat) : (d : ObjectDump) → Decidable (d.WellFormed idSize)
  | .plain d => inferInstanceAs (Decidable (Fits idSize d.objectId ∧ Fits idSize d.classId ∧ _))
  | .references d =>
    inferInstanceAs (Decidable (Fits idSize d.objectId ∧ Fits idSize d.classId ∧ _ ∧
      ∀ id ∈ d.elements, Fits idSize id))
  | .primitives d =>
    inferInstanceAs (Decidable (Fits idSize d.objectId ∧ d.elementType ≠ .object ∧
      ∀ data ∈ d.data, data.size = d.length.toNat * d.elementType.size idSize))

/-- A sub-record that can be written. -/
def HeapRecord.WellFormed (idSize : Nat) : HeapRecord → Prop
  | heapInfo _ nameId => Fits idSize nameId
  | root r => r.WellFormed idSize
  | classDump d => d.WellFormed idSize
  | object d => d.WellFormed idSize

instance (idSize : Nat) : (r : HeapRecord) → Decidable (r.WellFormed idSize)
  | .heapInfo _ nameId => inferInstanceAs (Decidable (Fits idSize nameId))
  | .root r => inferInstanceAs (Decidable (r.WellFormed idSize))
  | .classDump d => inferInstanceAs (Decidable (d.WellFormed idSize))
  | .object d => inferInstanceAs (Decidable (d.WellFormed idSize))

/-! ### Top-level records -/

/-- The tags of the records that readers pass over although they know them. -/
def Tag.isPassedOver (t : Tag) : Bool :=
  t = allocSites ∨ t = heapSummary ∨ t = cpuSamples ∨ t = controlSettings

/-- A record with fields of its own that can be written. -/
def Body.WellFormed (idSize : Nat) : Body → Prop
  | string id _ => Fits idSize id
  | loadClass _ classId _ nameId => Fits idSize classId ∧ Fits idSize nameId
  | stackFrame f =>
    Fits idSize f.frameId ∧ Fits idSize f.methodNameId ∧ Fits idSize f.signatureId
      ∧ Fits idSize f.sourceFileId
  | stackTrace t => t.frameIds.length < UInt32.size ∧ ∀ id ∈ t.frameIds, Fits idSize id
  | startThread t =>
    Fits idSize t.threadId ∧ Fits idSize t.nameId ∧ Fits idSize t.groupNameId
      ∧ Fits idSize t.parentGroupNameId
  | unloadClass _ | endThread _ | heapDumpEnd => True
  | heapDumpStart .. | skipped .. | heap _ => False

instance (idSize : Nat) : (b : Body) → Decidable (b.WellFormed idSize)
  | .string id _ => inferInstanceAs (Decidable (Fits idSize id))
  | .loadClass _ classId _ nameId =>
    inferInstanceAs (Decidable (Fits idSize classId ∧ Fits idSize nameId))
  | .stackFrame f =>
    inferInstanceAs (Decidable (Fits idSize f.frameId ∧ Fits idSize f.methodNameId ∧
      Fits idSize f.signatureId ∧ Fits idSize f.sourceFileId))
  | .stackTrace t =>
    inferInstanceAs (Decidable (t.frameIds.length < UInt32.size ∧
      ∀ id ∈ t.frameIds, Fits idSize id))
  | .startThread t =>
    inferInstanceAs (Decidable (Fits idSize t.threadId ∧ Fits idSize t.nameId ∧
      Fits idSize t.groupNameId ∧ Fits idSize t.parentGroupNameId))
  | .unloadClass _ | .endThread _ | .heapDumpEnd => inferInstanceAs (Decidable True)
  | .heapDumpStart .. | .skipped .. | .heap _ => inferInstanceAs (Decidable False)

/-- What a whole top-level record may hold. -/
def Entry.Content.WellFormed (idSize : Nat) : Entry.Content → Prop
  | fields body => body.WellFormed idSize
  | skipped tag _ => ∃ t ∈ Tag.ofCode? tag, t.isPassedOver
  | heapDump _ records => ∀ r ∈ records, r.WellFormed idSize

instance (idSize : Nat) : (c : Entry.Content) → Decidable (c.WellFormed idSize)
  | .fields body => inferInstanceAs (Decidable (body.WellFormed idSize))
  | .skipped tag _ => inferInstanceAs (Decidable (∃ t ∈ Tag.ofCode? tag, t.isPassedOver))
  | .heapDump _ records => inferInstanceAs (Decidable (∀ r ∈ records, r.WellFormed idSize))

/-- A top-level record that can be written: its length has room in 32 bits. -/
@[mk_iff] structure Entry.WellFormed (idSize : Nat) (e : Entry) : Prop where
  content : e.content.WellFormed idSize
  payload_lt : ∀ p ∈ e.content.payload? idSize, p.2.length < UInt32.size

instance (idSize : Nat) (e : Entry) : Decidable (e.WellFormed idSize) :=
  decidable_of_iff' _ (Entry.wellFormed_iff idSize e)

/-! ### Headers -/

/-- The format identifier of a header in bytes. -/
def Header.name (h : Header) : List UInt8 := h.format.toUTF8.data.toList

/-- A header that readers accept. -/
@[mk_iff] structure Header.WellFormed (h : Header) : Prop where
  magic_prefix : magic <+: h.name
  zero_notMem : 0 ∉ h.name
  name_lt : h.name.length < scanLimit
  idSize_eq : h.idSize = 4 ∨ h.idSize = 8
  length_eq : h.length = h.name.length + tailLength

instance (h : Header) : Decidable h.WellFormed := decidable_of_iff' _ h.wellFormed_iff

end HeapDump
