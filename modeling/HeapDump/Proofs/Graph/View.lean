/-
HeapDump/Proofs/Graph/View.lean

Objects as identifiers show them.

A view of an object has its names, values and sizes, and of each reference the
state and the identifier, but no positions; the class that declares a field is given
by its identifier.  Neither the heap of an object nor the lists that linking fills
in are part of it.

Views are what two graphs can be compared by whose objects stand in different orders.
A lookup asks the table whether an identifier is there and, where only classes are
allowed, of which kind it is; so looking references up in two tables with the same
identifiers, each of the same kind of object (`SameKinds`), gives the same views and
notes the same (`ClassObject.view_lookup`, `ClassObject.notes_lookup`).
-/
import HeapDump.Graph.Resolution

namespace HeapDump

/-! ### References -/

/-- What became of a reference. -/
inductive ReferenceState where
  | null | unresolved | resolved | unknown
  deriving DecidableEq, Repr

/-- A reference without positions. -/
structure ReferenceView where
  state : ReferenceState
  id : ObjectId
  deriving DecidableEq, Repr

/-- What became of a reference. -/
def Reference.state : Reference → ReferenceState
  | null => .null
  | unresolved _ => .unresolved
  | resolved .. => .resolved
  | unknown _ => .unknown

/-- A reference as identifiers show it. -/
def Reference.view (r : Reference) : ReferenceView := ⟨r.state, r.id⟩

/-- A value as identifiers show it. -/
def Value.view (v : Value Reference) : Value ReferenceView := v.map Reference.view

/-! ### Classes -/

/-- A class without positions. -/
structure ClassView where
  id : ObjectId
  name : String
  offset : Nat
  serial : Option UInt32
  stackSerial : UInt32
  superclass : ReferenceView
  classLoader : ReferenceView
  signersId : ObjectId
  protectionDomainId : ObjectId
  instanceSize : UInt32
  constants : List (UInt16 × Value ReferenceView)
  statics : List (ObjectId × String × Value ReferenceView)
  fields : List Field
  deriving DecidableEq, Repr

/-- A class as identifiers show it. -/
def ClassObject.view (c : ClassObject) : ClassView where
  id := c.id
  name := c.name
  offset := c.offset
  serial := c.serial
  stackSerial := c.stackSerial
  superclass := c.superclass.view
  classLoader := c.classLoader.view
  signersId := c.signersId
  protectionDomainId := c.protectionDomainId
  instanceSize := c.instanceSize
  constants := c.constants.map fun (index, v) => (index, v.view)
  statics := c.statics.map fun s => (s.nameId, s.name, s.value.view)
  fields := c.fields

/-- The class at a position as identifiers show it. -/
def viewAt (classes : Array ClassObject) (i : Nat) : Option ClassView :=
  classes[i]?.map ClassObject.view

/-! ### Instances -/

/-- A decoded field without positions. -/
structure FieldView where
  name : String
  /-- The class that declares the field. -/
  declaredBy : Option ObjectId
  value : Value ReferenceView
  deriving DecidableEq, Repr

/-- What an instance holds, without positions. -/
inductive ContentsView where
  | object (data : ByteArray) (fields : List FieldView)
  | objectArray (elements : List ReferenceView)
  | primitiveArray (elementType : BasicType) (length : UInt32) (data : Option ByteArray)
  deriving DecidableEq

/-- An instance without positions. -/
structure InstanceView where
  id : ObjectId
  offset : Nat
  stackSerial : UInt32
  /-- The class; left out for an array of a primitive type, whose class is found by name. -/
  classRef : Option ReferenceView
  contents : ContentsView
  size : Nat
  deriving DecidableEq

/-- A decoded field as identifiers show it. -/
def FieldValue.view (classes : Array ClassObject) (f : FieldValue) : FieldView :=
  ⟨f.name, (viewAt classes f.declaredBy).map (·.id), f.value.view⟩

/-- What an instance holds, as identifiers show it. -/
def Contents.view (classes : Array ClassObject) : Contents → ContentsView
  | object data fields => .object data (fields.map (FieldValue.view classes))
  | objectArray elements => .objectArray (elements.map Reference.view)
  | primitiveArray elementType length data => .primitiveArray elementType length data

/-- An instance as identifiers show it. -/
def Instance.view (classes : Array ClassObject) (i : Instance) : InstanceView where
  id := i.id
  offset := i.offset
  stackSerial := i.stackSerial
  classRef :=
    match i.contents with
    | .primitiveArray .. => none
    | _ => some i.classRef.view
  contents := i.contents.view classes
  size := i.size

/-! ### Tables with the same identifiers -/

/-- What there is at a position. -/
inductive TargetKind where
  | ofClass | ofInstance
  deriving DecidableEq, Repr

/-- What there is at a position. -/
def Target.kind : Target → TargetKind
  | classAt _ => .ofClass
  | instanceAt _ => .ofInstance

/-- Two tables that have the same identifiers, each for the same kind of object. -/
def SameKinds (objects objects' : ObjectTable) : Prop :=
  ∀ id : ObjectId, objects[id]?.map Target.kind = objects'[id]?.map Target.kind

section Lookup

variable {objects objects' : ObjectTable} (h : SameKinds objects objects') (offset : Nat)
  (holder : Holder)

include h

theorem SameKinds.symm : SameKinds objects' objects := fun id => (h id).symm

theorem Reference.lookup_congr (r : Reference) :
    (r.lookup objects offset holder).value.view = (r.lookup objects' offset holder).value.view
      ∧ (r.lookup objects offset holder).notes = (r.lookup objects' offset holder).notes := by
  cases r with
  | unresolved id =>
    have hid := h id
    rw [lookup, lookup]
    -- the state of a found reference does not depend on the position
    cases hfound : objects[id]? <;> cases hfound' : objects'[id]? <;>
      simp_all [view, state, Reference.id]
  | _ => exact ⟨rfl, rfl⟩

theorem Reference.lookupClass_congr (r : Reference) :
    (r.lookupClass objects offset holder).value.view
        = (r.lookupClass objects' offset holder).value.view
      ∧ (r.lookupClass objects offset holder).notes
        = (r.lookupClass objects' offset holder).notes := by
  cases r with
  | unresolved id =>
    have hid := h id
    rw [lookupClass, lookupClass]
    rcases hfound : objects[id]? with - | (i | i) <;>
      rcases hfound' : objects'[id]? with - | (j | j) <;>
      simp_all [view, state, Reference.id, Target.kind]
  | _ => exact ⟨rfl, rfl⟩

theorem Value.lookup_congr (v : Value Reference) :
    (v.lookup objects offset holder).value.view = (v.lookup objects' offset holder).value.view
      ∧ (v.lookup objects offset holder).notes = (v.lookup objects' offset holder).notes := by
  cases v with
  | object r =>
    obtain ⟨hview, hnotes⟩ := r.lookup_congr h offset holder
    exact ⟨congrArg Value.object hview, congrArg (· ++ []) hnotes⟩
  | _ => exact ⟨rfl, rfl⟩

/-- Looking up the references of a class shows the same. -/
theorem ClassObject.view_lookup (c : ClassObject) :
    (c.lookup objects).value.view = (c.lookup objects').value.view := by
  simp only [lookup, view, Noted.value_bind, Noted.value_pure, Noted.value_each, List.map_map,
    Function.comp_def, (Reference.lookup_congr h _ _ _).1, (Reference.lookupClass_congr h _ _ _).1,
    (Value.lookup_congr h _ _ _).1]

/-- Looking up the references of a class notes the same. -/
theorem ClassObject.notes_lookup (c : ClassObject) :
    (c.lookup objects).notes = (c.lookup objects').notes := by
  simp only [lookup, Noted.notes_bind, Noted.notes_pure, Noted.notes_each, List.append_nil,
    (Reference.lookup_congr h _ _ _).2, (Reference.lookupClass_congr h _ _ _).2,
    (Value.lookup_congr h _ _ _).2]

end Lookup

end HeapDump
