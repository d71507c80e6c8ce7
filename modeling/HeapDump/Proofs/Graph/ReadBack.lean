/-
HeapDump/Proofs/Graph/ReadBack.lean

Reading back from an object what its record said.

A reference has the same identifier before and after it is looked up, so nothing
of a record is lost on the way into the graph: `ClassObject.located` and
`Instance.located` give the definition of an object with its heap and its place,
for drafts (`located_classObject`) and behind all lookups (`located_lookup`,
`located_resolveInstance`) alike.

What is read back is the whole record, so that one equation stands for all the
fields of a class or an instance: whoever knows which records an arena was made
from knows what every object in it says of itself.
-/
import HeapDump.Draft.Naming
import HeapDump.Graph.Resolution

namespace HeapDump

/-! ### Identifiers -/

@[simp] theorem Reference.id_ofId (id : ObjectId) : (ofId id).id = id := by
  rw [ofId]
  split
  · next h => exact h.symm
  · rfl

@[simp] theorem Reference.id_lookup (objects : ObjectTable) (offset : Nat) (holder : Holder)
    (r : Reference) : (r.lookup objects offset holder).value.id = r.id := by
  cases r with
  | unresolved id =>
    rw [lookup]
    split <;> rfl
  | _ => rfl

@[simp] theorem Reference.id_lookupClass (objects : ObjectTable) (offset : Nat)
    (holder : Holder) (r : Reference) :
    (r.lookupClass objects offset holder).value.id = r.id := by
  cases r with
  | unresolved id =>
    rw [lookupClass]
    split <;> rfl
  | _ => rfl

namespace Value

@[simp] theorem map_id_map_ofId (v : Value ObjectId) :
    (v.map Reference.ofId).map Reference.id = v := by
  cases v <;> simp [map]

@[simp] theorem map_id_lookup (objects : ObjectTable) (offset : Nat) (holder : Holder)
    (v : Value Reference) :
    (v.lookup objects offset holder).value.map Reference.id = v.map Reference.id := by
  cases v <;> simp [map, lookup]

end Value

/-! ### Classes -/

namespace ClassObject

/-- What the record of a class said. -/
def dump (c : ClassObject) : ClassDump where
  classId := c.id
  stackSerial := c.stackSerial
  superId := c.superclass.id
  loaderId := c.classLoader.id
  signersId := c.signersId
  protectionDomainId := c.protectionDomainId
  instanceSize := c.instanceSize
  constants := c.constants.map fun (index, v) => (index, v.map Reference.id)
  statics := c.statics.map fun s => ⟨s.nameId, s.value.map Reference.id⟩
  fields := c.fields.map fun f => ⟨f.nameId, f.type⟩

/-- The definition of a class, with its heap and its place. -/
def located (c : ClassObject) : Located ClassDump := ⟨c.dump, c.heap, c.offset⟩

@[simp] theorem located_lookup (objects : ObjectTable) (c : ClassObject) :
    (c.lookup objects).value.located = c.located := by
  simp [located, dump, lookup]

end ClassObject

@[simp] theorem Draft.located_classObject (d : Draft) (c : Located ClassDump) :
    (d.classObject c).located = c := by
  simp [classObject, ClassObject.located, ClassObject.dump, Function.comp_def]

/-! ### Instances -/

namespace Instance

/-- What the record of an instance said. -/
def dump (i : Instance) : ObjectDump :=
  match i.contents with
  | .object data _ => .plain ⟨i.id, i.stackSerial, i.classRef.id, data⟩
  | .objectArray elements =>
    .references ⟨i.id, i.stackSerial, i.classRef.id, elements.map Reference.id⟩
  | .primitiveArray t length data => .primitives ⟨i.id, i.stackSerial, t, length, data⟩

/-- The definition of an instance, with its heap and its place. -/
def located (i : Instance) : Located ObjectDump := ⟨i.dump, i.heap, i.offset⟩

end Instance

@[simp] theorem Draft.located_instanceObject (o : Located ObjectDump) :
    (instanceObject o).located = o := by
  obtain ⟨dump, heap, offset⟩ := o
  cases dump <;> simp [instanceObject, Instance.located, Instance.dump, Function.comp_def]

@[simp] theorem Resolution.located_resolveInstance (ctx : Resolution) (i : Instance) :
    (ctx.resolveInstance i).value.located = i.located := by
  rw [resolveInstance]
  split
  · next hcontents => simp [Instance.located, Instance.dump, hcontents]
  · next elements hcontents =>
    have hfst : elements.zipIdx.map (fun x => x.1.id) = elements.map Reference.id := by
      conv => rhs; rw [← List.zipIdx_map_fst 0 elements, List.map_map]
      rfl
    simp [Instance.located, Instance.dump, hcontents, Function.comp_def, hfst]
  · next hcontents => simp [Instance.located, Instance.dump, hcontents]

end HeapDump
