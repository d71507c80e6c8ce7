/-
HeapDump/Proofs/Graph/Held.lean

All references that a graph holds, each with the place of its holder in the file.

The order is that in which references are looked up: class by class the
superclass, the class loader, the constants and the statics; then instance by
instance the class and what the instance refers to, fields or elements; then the
roots.  It is fixed here once (`Graph.held`), so that what is said of all
references of a graph can be said in order.

Linking changes none of them (`Graph.held_link`), and those of a draft are
identifiers as the records have them (`Draft.exists_ofId_of_mem_held`): nothing is
resolved or unknown before it has been looked up.
-/
import HeapDump.Draft.Naming
import HeapDump.Graph.Hierarchy

namespace HeapDump

/-! ### Enumerating references -/

/-- The references that a class holds. -/
def ClassObject.references (c : ClassObject) : List Reference :=
  c.superclass :: c.classLoader ::
    (c.constants.filterMap (·.2.reference?) ++ c.statics.filterMap (·.value.reference?))

/-- The references that a class holds, with its place. -/
def ClassObject.held (c : ClassObject) : List (Reference × Nat) :=
  c.references.map (·, c.offset)

/-- The class of an instance and the references in it, with its place. -/
def Instance.held (i : Instance) : List (Reference × Nat) :=
  (i.classRef :: i.references).map (·, i.offset)

/-- The reference of a root, with its place. -/
def GcRoot.held (r : GcRoot) : List (Reference × Nat) := [(r.target, r.offset)]

/-- All references that a graph holds, with the places of their holders. -/
def Graph.held (g : Graph) : List (Reference × Nat) :=
  g.classes.toList.flatMap ClassObject.held ++ g.instances.toList.flatMap Instance.held
    ++ g.roots.toList.flatMap GcRoot.held

/-- A held reference is one of a class, of an instance or of a root. -/
theorem Graph.mem_held_iff {g : Graph} {p : Reference × Nat} :
    p ∈ g.held ↔ (∃ c ∈ g.classes, p ∈ c.held) ∨ (∃ i ∈ g.instances, p ∈ i.held)
      ∨ ∃ r ∈ g.roots, p ∈ r.held := by
  simp [held]

/-! ### References of instances -/

/-- A plain object holds the references in its fields. -/
theorem Instance.references_of_object {i : Instance} {data : ByteArray}
    {fields : List FieldValue} (h : i.contents = .object data fields) :
    i.references = fields.filterMap (·.value.reference?) := by
  simp [references, Instance.fields, elements?, h]

/-- An array of references holds its elements. -/
theorem Instance.references_of_objectArray {i : Instance} {elements : List Reference}
    (h : i.contents = .objectArray elements) : i.references = elements := by
  simp [references, fields, elements?, h]

/-- An array of a primitive type holds no references. -/
theorem Instance.references_of_primitiveArray {i : Instance} {t : BasicType} {length : UInt32}
    {data : Option ByteArray} (h : i.contents = .primitiveArray t length data) :
    i.references = [] := by
  simp [references, fields, elements?, h]

/-! ### Linking -/

/-- What a function sees of the items of a list is not changed by changing what it does
not look at. -/
theorem flatMap_mapIdx {α β γ : Type} {f : Nat → α → β} {h : β → List γ} {h' : α → List γ}
    (hf : ∀ i x, h (f i x) = h' x) (xs : List α) :
    (xs.mapIdx f).flatMap h = xs.flatMap h' := by
  induction xs generalizing f with
  | nil => rfl
  | cons x xs ih =>
    rw [List.mapIdx_cons, List.flatMap_cons, List.flatMap_cons, hf, ih fun i y => hf (i + 1) y]

/-- Linking changes no reference. -/
theorem Graph.held_link (g : Graph) : g.link.held = g.held := by
  have hclasses : g.link.classes.toList.flatMap ClassObject.held
      = g.classes.toList.flatMap ClassObject.held := by
    rw [link, Array.toList_mapIdx]
    apply flatMap_mapIdx
    intro i c
    rfl
  rw [held, hclasses]
  rfl

/-! ### The references of a draft -/

/-- A reference in a value of a record is an identifier. -/
theorem Value.exists_ofId {v : Value ObjectId} {r : Reference}
    (h : (v.map Reference.ofId).reference? = some r) : ∃ id, r = .ofId id := by
  cases v with
  | object id =>
    obtain rfl : Reference.ofId id = r := Option.some.inj h
    exact ⟨id, rfl⟩
  | _ => cases h

/-- A class of a draft holds identifiers. -/
theorem Draft.exists_ofId_of_mem_classObject {d : Draft} {c : Located ClassDump}
    {p : Reference × Nat} (hp : p ∈ (d.classObject c).held) : ∃ id, p.1 = .ofId id := by
  obtain ⟨r, hr, rfl⟩ := List.mem_map.mp hp
  rcases List.mem_cons.mp hr with rfl | hr
  · exact ⟨_, rfl⟩
  rcases List.mem_cons.mp hr with rfl | hr
  · exact ⟨_, rfl⟩
  rcases List.mem_append.mp hr with hr | hr
  · -- a constant
    obtain ⟨constant, hmem, hvalue⟩ := List.mem_filterMap.mp hr
    obtain ⟨raw, -, rfl⟩ := List.mem_map.mp hmem
    exact Value.exists_ofId hvalue
  · -- a static field
    obtain ⟨static, hmem, hvalue⟩ := List.mem_filterMap.mp hr
    obtain ⟨raw, -, rfl⟩ := List.mem_map.mp hmem
    exact Value.exists_ofId hvalue

/-- An instance of a draft holds identifiers, or nothing where its class belongs. -/
theorem Draft.exists_ofId_of_mem_instanceObject {o : Located ObjectDump}
    {p : Reference × Nat} (hp : p ∈ (instanceObject o).held) : ∃ id, p.1 = .ofId id := by
  obtain ⟨r, hr, rfl⟩ := List.mem_map.mp hp
  obtain ⟨dump, heap, offset⟩ := o
  rcases List.mem_cons.mp hr with rfl | hr
  · -- the class
    cases dump with
    | plain dump => exact ⟨dump.classId, rfl⟩
    | references dump => exact ⟨dump.classId, rfl⟩
    | primitives dump => exact ⟨0, rfl⟩
  · cases dump with
    | plain dump =>
      rw [Instance.references_of_object rfl] at hr
      cases hr
    | references dump =>
      rw [Instance.references_of_objectArray rfl] at hr
      obtain ⟨id, -, rfl⟩ := List.mem_map.mp hr
      exact ⟨id, rfl⟩
    | primitives dump =>
      rw [Instance.references_of_primitiveArray rfl] at hr
      cases hr

/-- The references of a draft are identifiers that have not been looked up. -/
theorem Draft.exists_ofId_of_mem_held {d : Draft} {p : Reference × Nat}
    (hp : p ∈ d.graph.held) : ∃ id, p.1 = .ofId id := by
  rcases Graph.mem_held_iff.mp hp with ⟨c, hc, hp⟩ | ⟨i, hi, hp⟩ | ⟨r, hr, hp⟩
  · obtain ⟨dump, -, rfl⟩ := Array.mem_map.mp hc
    exact exists_ofId_of_mem_classObject hp
  · obtain ⟨dump, -, rfl⟩ := Array.mem_map.mp hi
    exact exists_ofId_of_mem_instanceObject hp
  · obtain ⟨root, -, rfl⟩ := Array.mem_map.mp hr
    obtain rfl : p = _ := List.mem_singleton.mp hp
    exact ⟨_, rfl⟩

end HeapDump
