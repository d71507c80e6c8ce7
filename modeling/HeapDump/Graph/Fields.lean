/-
HeapDump/Graph/Fields.lean

Decoding the packed fields of a plain object.

The layout of an object is the fields that its class declares, then those of the
superclass, and so on.  Fields are read in this order until the data runs out.
At most one thing is noted about an object besides unknown references: that the
data is too short, that the chain of its superclasses has no end, or that data
is left over.  They are asked for in this order, and what has been decoded is
kept in every case.

Field values are looked up as they are read, so their references are settled
like all others and the notes come in the order of the fields.

The parser is over the data of the object alone.  Its places are not places of
the file, and the diagnostics take theirs from the record of the object.
-/
import HeapDump.Graph.Hierarchy
import HeapDump.Graph.Lookup

namespace HeapDump

/-- A field in the layout of a class: the field, and the class that declares it by
position and name. -/
structure LayoutField where
  field : Field
  declaredBy : Nat
  declaringName : String
  deriving DecidableEq, Repr

/-- The fields that the class at position `i` itself contributes to a layout. -/
def layoutPart (classes : Array ClassObject) (i : Nat) : List LayoutField :=
  match classes[i]? with
  | some c => c.fields.map fun field => ⟨field, i, c.name⟩
  | none => []

/-- The layout of objects whose class and its ancestors are at the positions `chain`. -/
def layout (classes : Array ClassObject) (chain : List Nat) : List LayoutField :=
  chain.flatMap (layoutPart classes)

/-- The object whose fields are decoded: identifier, place in the file, and number
of bytes of its data. -/
structure FieldOwner where
  id : ObjectId
  offset : Nat
  dataSize : Nat

/-- A diagnostic about the data of an object. -/
def FieldOwner.diagnostic (owner : FieldOwner) (cause : Cause) : Diagnostic :=
  { cause, offset := some owner.offset, object := some owner.id }

/-- Reads the fields of a layout until the data runs out.  Gives the parser behind
the last field, or `none` if there were too few data. -/
def readLayout (objects : ObjectTable) (idSize : Nat) (owner : FieldOwner) :
    List LayoutField → Parser → Noted (List FieldValue × Option Parser)
  | [], p => pure ([], some p)
  | f :: rest, p =>
    match Value.parse f.field.type idSize p with
    -- The fields behind this one are not tried, even if a narrower one would fit.
    | (.error _, _) => do
      Noted.note <| owner.diagnostic <|
        .shortFieldData owner.id owner.dataSize f.field.name f.declaringName
      return ([], none)
    | (.ok raw, p) => do
      let value ← (raw.map Reference.ofId).lookup objects owner.offset (.field f.field.name owner.id)
      let (values, p?) ← readLayout objects idSize owner rest p
      return (⟨f.field.name, f.declaredBy, value⟩ :: values, p?)

/-- Decodes the fields of an object with the data `data` whose class is at the
position `i`. -/
def decodeFields (objects : ObjectTable) (classes : Array ClassObject) (idSize : Nat)
    (owner : FieldOwner) (data : ByteArray) (i : Nat) : Noted (List FieldValue) := do
  let chain := superclassChain classes i
  let (values, p?) ← readLayout objects idSize owner (layout classes chain) { data }
  match p? with
  | none => return values
  | some p =>
    -- A chain longer than there are classes visits one of them twice, and so has no end.
    if classes.size < chain.length then
      match classes[i]? with
      | some c =>
        Noted.note { cause := .cyclicSuperclasses c.name, object := some c.id }
        return values
      | none => return values
    else if p.hasMore then
      Noted.note <| owner.diagnostic <| .excessFieldData owner.id p.remaining
      return values
    else return values

end HeapDump
