/-
HeapDump/Graph/Object.lean

The objects of a heap, the heaps themselves and the roots.

Classes and instances refer to each other through `Reference`s, which hold
identifiers until they have been looked up and positions afterwards.  The same
structures serve before and after: what is filled in later (subclasses and
instances of a class, decoded fields, the size of an instance) is empty before.

A position is an index into one of the three arrays of a `Graph`, which are in
the order of the file.  Identifiers, serial numbers and heaps stay the words that
the dump gives.
-/
import HeapDump.Graph.ClassName
import HeapDump.Graph.Reference
import HeapDump.Record.Basic
import HeapDump.Value.Elements

namespace HeapDump

/-! ### Classes -/

/-- An instance field that a class declares. -/
structure Field where
  nameId : ObjectId
  name : String
  type : BasicType
  deriving DecidableEq, Repr

/-- A static field with its value. -/
structure StaticField where
  nameId : ObjectId
  name : String
  value : Value Reference
  deriving DecidableEq, Repr

/-- A class. -/
structure ClassObject where
  id : ObjectId
  name : String
  heap : UInt32
  /-- Place of its record in the file. -/
  offset : Nat
  /-- Serial number, if the dump tells of its loading. -/
  serial : Option UInt32
  stackSerial : UInt32
  superclass : Reference
  classLoader : Reference
  signersId : ObjectId
  protectionDomainId : ObjectId
  /-- Number of bytes of an instance. -/
  instanceSize : UInt32
  constants : List (UInt16 × Value Reference)
  statics : List StaticField
  /-- The fields that the class itself declares, in order. -/
  fields : List Field
  /-- Positions of the classes whose superclass this is. -/
  subclasses : List Nat := []
  /-- Positions of the instances whose class is exactly this one. -/
  instances : List Nat := []
  deriving DecidableEq, Repr

namespace ClassObject

/-- Whether this is a class of arrays. -/
def isArray (c : ClassObject) : Bool := ClassName.isArray c.name

/-- Number of bytes of the fields that the class itself declares. -/
def fieldsSize (c : ClassObject) (idSize : Nat) : Nat :=
  c.fields.foldl (fun n f => n + f.type.size idSize) 0

/-- The first declared field of a name. -/
def field? (c : ClassObject) (name : String) : Option Field := c.fields.find? (·.name = name)

/-- The value of the first static field of a name. -/
def static? (c : ClassObject) (name : String) : Option (Value Reference) :=
  (c.statics.find? (·.name = name)).map (·.value)

end ClassObject

/-! ### Instances -/

/-- A decoded field of an instance. -/
structure FieldValue where
  name : String
  /-- Position of the class that declares the field. -/
  declaredBy : Nat
  value : Value Reference
  deriving DecidableEq, Repr

/-- What an instance holds. -/
inductive Contents where
  /-- The packed fields of a plain object, and the fields decoded from them. -/
  | object (data : ByteArray) (fields : List FieldValue)
  | objectArray (elements : List Reference)
  | primitiveArray (elementType : BasicType) (length : UInt32) (data : Option ByteArray)
  deriving DecidableEq

/-- An object other than a class. -/
structure Instance where
  id : ObjectId
  heap : UInt32
  /-- Place of its record in the file. -/
  offset : Nat
  classRef : Reference
  stackSerial : UInt32
  contents : Contents
  /-- Number of bytes. -/
  size : Nat := 0
  deriving DecidableEq

namespace Instance

/-- Whether the instance is an array. -/
def isArray (i : Instance) : Bool :=
  match i.contents with
  | .object .. => false
  | .objectArray _ | .primitiveArray .. => true

/-- The number of elements of an array. -/
def length? (i : Instance) : Option Nat :=
  match i.contents with
  | .object .. => none
  | .objectArray elements => some elements.length
  | .primitiveArray _ length _ => some length.toNat

/-- The decoded fields of a plain object. -/
def fields (i : Instance) : List FieldValue :=
  match i.contents with
  | .object _ fields => fields
  | .objectArray _ | .primitiveArray .. => []

/-- The value of the first field of a name. -/
def field? (i : Instance) (name : String) : Option (Value Reference) :=
  (i.fields.find? (·.name = name)).map (·.value)

/-- The elements of an array of references. -/
def elements? (i : Instance) : Option (List Reference) :=
  match i.contents with
  | .objectArray elements => some elements
  | .object .. | .primitiveArray .. => none

/-- The elements of an array of a primitive type, if they are there and complete. -/
def values? (i : Instance) : Option Elements :=
  match i.contents with
  | .primitiveArray elementType _ (some data) => Elements.decode elementType data
  | _ => none

/-- All references that the instance holds: those of its fields, then its elements. -/
def references (i : Instance) : List Reference :=
  i.fields.filterMap (·.value.reference?) ++ i.elements?.getD []

end Instance

/-! ### Heaps and roots -/

/-- A heap, with the positions of what belongs to it. -/
structure Heap where
  id : UInt32
  name : String
  classes : Array Nat
  instances : Array Nat
  roots : Array Nat
  deriving DecidableEq, Repr

/-- The name of a heap that the dump does not name. -/
def Heap.defaultName (id : UInt32) : String := if id = 0 then "default" else s!"heap-{id.toNat}"

/-- An object kept alive from outside the heap. -/
structure GcRoot where
  kind : RootKind
  id : ObjectId
  target : Reference
  heap : UInt32
  threadSerial : Option UInt32
  frame : Option UInt32
  jniRef : Option ObjectId
  /-- Place of its record in the file. -/
  offset : Nat
  deriving DecidableEq, Repr

/-! ### Graphs -/

/-- Classes, instances and roots, each in the order of the file. -/
structure Graph where
  classes : Array ClassObject
  instances : Array Instance
  roots : Array GcRoot
  deriving DecidableEq

end HeapDump
