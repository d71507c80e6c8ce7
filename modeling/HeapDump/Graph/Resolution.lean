/-
HeapDump/Graph/Resolution.lean

Turning a graph of identifiers into one of positions: first the classes, then
the instances, whose fields and arrays need the classes, then the roots.

The classes that instances are resolved against are the resolved ones, since the
layout of an object follows resolved superclasses.  Instances do not depend on
each other.  The links downwards, from a class to its subclasses and instances,
are put in last and are read by no lookup.

Classes are found by name through an index that is built from their common
forms.  Several classes can have one name, one for each loader; the index lists
them in the order of the file, and where one is wanted it is the first.
-/
import HeapDump.Graph.Fields

namespace HeapDump

/-- Classes by the common form of their names, each list in the order of the file. -/
abbrev ClassIndex := Std.ExtTreeMap String (Array Nat)

namespace ClassIndex

/-- The index of classes with the given names. -/
def ofNames (names : List String) : ClassIndex :=
  names.zipIdx.foldl (fun index (name, i) =>
    index.alter (ClassName.normalize name) fun found => some ((found.getD #[]).push i)) ∅

/-- The positions of the classes that a name means, in any spelling. -/
def find (index : ClassIndex) (name : String) : Array Nat :=
  index[ClassName.normalize name]?.getD #[]

end ClassIndex

/-- What the instances of a dump are resolved against. -/
structure Resolution where
  objects : ObjectTable
  /-- The classes, resolved. -/
  classes : Array ClassObject
  index : ClassIndex
  idSize : Nat
  resolveFields : Bool

namespace Resolution

/-- The class of the arrays of a primitive type: the first one of their name. -/
def arrayClass (ctx : Resolution) (t : BasicType) : Reference :=
  -- Arrays of references name their class themselves.
  if t = .object then .null
  else
    match ctx.index[t.arrayClassName]?.bind (·[0]?) with
    | none => .null
    | some i =>
      match ctx.classes[i]? with
      | some c => .resolved c.id (.classAt i)
      | none => .null

/-- The number of bytes of a plain object: what its class says, or else the number
of bytes of its fields. -/
def objectSize (ctx : Resolution) (classRef : Reference) (data : ByteArray) : Nat :=
  match classRef.class?.bind (ctx.classes[·]?) with
  -- What the class says is believed, even if the data has another length.
  | some c => c.instanceSize.toNat
  | none => data.size

/-- The decoded fields of a plain object, if its class is known and fields are wanted. -/
def objectFields (ctx : Resolution) (i : Instance) (classRef : Reference) (data : ByteArray) :
    Noted (List FieldValue) :=
  match classRef.class? with
  | some c =>
    if ctx.resolveFields then
      decodeFields ctx.objects ctx.classes ctx.idSize ⟨i.id, i.offset, data.size⟩ data c
    else pure []
  | none => pure []

/-- Resolves an instance. -/
def resolveInstance (ctx : Resolution) (i : Instance) : Noted Instance :=
  match i.contents with
  | .object data _ => do
    let classRef ← i.classRef.lookupClass ctx.objects i.offset (.classOfInstance i.id)
    let fields ← ctx.objectFields i classRef data
    let size := ctx.objectSize classRef data
    return { i with classRef, contents := .object data fields, size }
  | .objectArray elements => do
    let classRef ← i.classRef.lookupClass ctx.objects i.offset (.classOfArray i.id)
    let elements ← Noted.each elements.zipIdx fun (r, n) =>
      r.lookup ctx.objects i.offset (.element n i.id)
    let size := elements.length * ctx.idSize
    return { i with classRef, contents := .objectArray elements, size }
  -- The class is found by name or not at all; nothing is noted if there is none.
  | .primitiveArray t length _ =>
    return { i with classRef := ctx.arrayClass t, size := length.toNat * t.size ctx.idSize }

end Resolution

/-- Resolves all references of a graph, and links its classes. -/
def Graph.resolve (objects : ObjectTable) (index : ClassIndex) (idSize : Nat)
    (resolveFields : Bool) (g : Graph) : Noted Graph := do
  let classes ← Noted.eachIn g.classes (·.lookup objects)
  let ctx : Resolution := { objects, classes, index, idSize, resolveFields }
  let instances ← Noted.eachIn g.instances ctx.resolveInstance
  let roots ← Noted.eachIn g.roots (·.lookup objects)
  return Graph.link ⟨classes, instances, roots⟩

end HeapDump
