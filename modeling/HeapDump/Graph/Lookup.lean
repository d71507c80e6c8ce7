/-
HeapDump/Graph/Lookup.lean

Looking references up in the table of all objects.

A reference that is looked up keeps its identifier.  One whose identifier no
object has becomes unknown and is noted, once for each place that holds it; so
does one that must be to a class and is to an instance.  What is not
`unresolved` any more is left alone, so looking up twice is looking up once.

The places are taken in a fixed order, that of their fields in a class, and by
index in an array, which fixes the order of the notes.  A class is looked up with
the table and its own names only, so the classes of a dump can be done in any
order with the same values.
-/
import HeapDump.Diagnostic.Noted
import HeapDump.Graph.Object
import Std.Data.ExtTreeMap

namespace HeapDump

/-- The objects of a dump by identifier. -/
abbrev ObjectTable := Std.ExtTreeMap ObjectId Target

namespace Reference

/-- The reference to an object that is not there, held at `offset` by `holder`. -/
def missing (id : ObjectId) (offset : Nat) (holder : Holder) : Noted Reference :=
  ⟨unknown id, [{ cause := .unresolved id holder, offset := some offset, object := some id }]⟩

/-- Looks a reference up. -/
def lookup (objects : ObjectTable) (offset : Nat) (holder : Holder) (r : Reference) :
    Noted Reference :=
  match r with
  | unresolved id =>
    match objects[id]? with
    | some target => pure (resolved id target)
    | none => missing id offset holder
  | r => pure r

/-- Looks a reference up that must be to a class. -/
def lookupClass (objects : ObjectTable) (offset : Nat) (holder : Holder) (r : Reference) :
    Noted Reference :=
  match r with
  | unresolved id =>
    match objects[id]? with
    | some (.classAt i) => pure (resolved id (.classAt i))
    -- There is an object, but not one that can be meant here.
    | some (.instanceAt _) =>
      ⟨unknown id, [{ cause := .notAClass id holder, offset := some offset, object := some id }]⟩
    | none => missing id offset holder
  | r => pure r

end Reference

/-- Looks up the reference in a value, if it is one. -/
def Value.lookup (objects : ObjectTable) (offset : Nat) (holder : Holder)
    (v : Value Reference) : Noted (Value Reference) :=
  match v with
  | .object r => do return .object (← r.lookup objects offset holder)
  | v => pure v

/-- Looks up the references of a class: superclass, class loader, constants, statics. -/
def ClassObject.lookup (objects : ObjectTable) (c : ClassObject) : Noted ClassObject := do
  let superclass ← c.superclass.lookupClass objects c.offset (.superclass c.name)
  let classLoader ← c.classLoader.lookup objects c.offset (.classLoader c.name)
  let constants ← Noted.each c.constants fun (index, v) => do
    return (index, ← v.lookup objects c.offset (.constant index c.name))
  let statics ← Noted.each c.statics fun s => do
    return { s with value := ← s.value.lookup objects c.offset (.staticField s.name c.name) }
  return { c with superclass, classLoader, constants, statics }

/-- Looks up the object of a root. -/
def GcRoot.lookup (objects : ObjectTable) (r : GcRoot) : Noted GcRoot := do
  return { r with target := ← r.target.lookup objects r.offset (.root r.kind) }

end HeapDump
