/-
HeapDump/Proofs/Draft/Objects.lean

The table of objects is the inverse of the lists of objects, and these are the
first definitions.

`Indexes` says that a table finds every identifier at its position and nothing
else:

    objects[id]? = some t ↔ idAt classIds instanceIds t = some id.

It makes the identifiers distinct (`Indexes.nodup`), for an identifier at two
positions would be found at both.  An object more is one entry more, at a position
where nothing was before (`Indexes.insert`).

What a draft holds after some records is said by `Draft.Holds` in terms of the
records alone: the classes and instances are the first definitions, the roots are
all roots, an identifier is in the table exactly if it is defined.  Each record
preserves this (`Draft.Holds.push`).  It is what decides whether the next
definition counts, so the fields of the invariant are proved together.
-/
import HeapDump.Proofs.Draft.Push
import Mathlib.Data.List.Induction
import Std.Data.ExtTreeMap.Lemmas

namespace HeapDump

/-! ### Positions in lists -/

/-- A list is without repetition if each item is at one position only. -/
theorem nodup_of_unique {xs : List α}
    (h : ∀ (i j : Nat) (x : α), xs[i]? = some x → xs[j]? = some x → i = j) : xs.Nodup := by
  refine List.pairwise_iff_getElem.mpr fun i j hi hj hij heq => ?_
  have := h i j xs[i] (List.getElem?_eq_getElem hi) (heq ▸ List.getElem?_eq_getElem hj)
  omega

/-- One item more changes nothing at other positions. -/
theorem getElem?_concat_of_ne (xs : List α) (x : α) {i : Nat} (h : i ≠ xs.length) :
    (xs ++ [x])[i]? = xs[i]? := by
  rcases Nat.lt_or_gt_of_ne h with hlt | hgt
  · rw [List.getElem?_append_left hlt]
  · rw [List.getElem?_eq_none (by simp; omega), List.getElem?_eq_none (by omega)]

/-! ### Tables of positions -/

/-- The identifier at a position, given those of the classes and of the instances. -/
def idAt (classIds instanceIds : List ObjectId) : Target → Option ObjectId
  | .classAt i => classIds[i]?
  | .instanceAt i => instanceIds[i]?

/-- A table that finds each identifier at its position, and no others. -/
def Indexes (objects : ObjectTable) (classIds instanceIds : List ObjectId) : Prop :=
  ∀ (id : ObjectId) (t : Target), objects[id]? = some t ↔ idAt classIds instanceIds t = some id

namespace Indexes

variable {objects : ObjectTable} {classIds instanceIds : List ObjectId}

theorem nil : Indexes ∅ [] [] := by
  intro id t
  cases t <;> simp [idAt]

/-- Each identifier is at one position only. -/
theorem unique (h : Indexes objects classIds instanceIds) {id : ObjectId} (t t' : Target)
    (ht : idAt classIds instanceIds t = some id) (ht' : idAt classIds instanceIds t' = some id) :
    t = t' :=
  Option.some.inj (((h id t).mpr ht).symm.trans ((h id t').mpr ht'))

/-- No two objects have the same identifier. -/
theorem nodup (h : Indexes objects classIds instanceIds) : (classIds ++ instanceIds).Nodup := by
  refine List.nodup_append.mpr ⟨?_, ?_, ?_⟩
  · refine nodup_of_unique fun i j id hi hj => ?_
    exact Target.classAt.inj (h.unique (.classAt i) (.classAt j) hi hj)
  · refine nodup_of_unique fun i j id hi hj => ?_
    exact Target.instanceAt.inj (h.unique (.instanceAt i) (.instanceAt j) hi hj)
  · rintro id hclass _ hinstance rfl
    obtain ⟨i, hi⟩ := List.getElem?_of_mem hclass
    obtain ⟨j, hj⟩ := List.getElem?_of_mem hinstance
    cases h.unique (.classAt i) (.instanceAt j) hi hj

/-- A table with an object more, at a position that nothing was at before. -/
theorem insert (h : Indexes objects classIds instanceIds) {id : ObjectId} (fresh : id ∉ objects)
    {new : Target} {classIds' instanceIds' : List ObjectId}
    (hfree : idAt classIds instanceIds new = none)
    (hnew : idAt classIds' instanceIds' new = some id)
    (hold : ∀ t, t ≠ new → idAt classIds' instanceIds' t = idAt classIds instanceIds t) :
    Indexes (objects.insert id new) classIds' instanceIds' := by
  intro id' t
  rw [Std.ExtTreeMap.getElem?_insert]
  -- only the new identifier is at the new position; elsewhere nothing has changed, and the new
  -- identifier was at no position before
  by_cases ht : t = new
  · subst ht
    by_cases hid : id = id'
    · simp [hid.symm, hnew]
    · have hne : objects[id']? ≠ some t := by
        rw [Ne, h id' t, hfree]
        simp
      simp [hid, hnew, hne]
  · rw [hold t ht]
    by_cases hid : id = id'
    · subst hid
      have hnone : objects[id]? = none := Std.ExtTreeMap.getElem?_eq_none fresh
      have hne : idAt classIds instanceIds t ≠ some id := by
        rw [Ne, ← h id t, hnone]
        simp
      simp [hne, Ne.symm ht]
    · simp [hid, h id' t]

/-- A table with a class more. -/
theorem insert_class (h : Indexes objects classIds instanceIds) {id : ObjectId}
    (fresh : id ∉ objects) :
    Indexes (objects.insert id (.classAt classIds.length)) (classIds ++ [id]) instanceIds := by
  refine h.insert fresh ?_ ?_ fun t ht => ?_
  · simp [idAt]
  · simp [idAt]
  · cases t with
    | classAt i =>
      exact getElem?_concat_of_ne _ _ fun hi => ht (congrArg _ hi)
    | instanceAt i => rfl

/-- A table with an instance more. -/
theorem insert_instance (h : Indexes objects classIds instanceIds) {id : ObjectId}
    (fresh : id ∉ objects) :
    Indexes (objects.insert id (.instanceAt instanceIds.length)) classIds
      (instanceIds ++ [id]) := by
  refine h.insert fresh ?_ ?_ fun t ht => ?_
  · simp [idAt]
  · simp [idAt]
  · cases t with
    | classAt i => rfl
    | instanceAt i =>
      exact getElem?_concat_of_ne _ _ fun hi => ht (congrArg _ hi)

end Indexes

/-! ### Drafts and their records -/

/-- A draft has the heap, the objects and the roots that records give rise to. -/
structure Draft.Holds (d : Draft) (records : List Record) : Prop where
  currentHeap : d.currentHeap = heapBehind records
  classes : d.classes.toList = firstClasses records
  instances : d.instances.toList = firstObjects records
  roots : d.roots.toList = rootsOf records
  mem_objects_iff : ∀ id, id ∈ d.objects ↔ Defined records id
  indexes : Indexes d.objects (d.classes.toList.map (·.value.classId))
    (d.instances.toList.map (·.value.objectId))

namespace Draft

theorem holds_nil (header : Header) (log : Diagnostics) :
    Holds { header, diagnostics := log } [] where
  currentHeap := rfl
  classes := rfl
  instances := rfl
  roots := rfl
  mem_objects_iff id := by simp [Defined]
  indexes := .nil

/-- What a draft takes in are the sub-records that count. -/
theorem Holds.taken?_eq {d : Draft} {records : List Record} (h : d.Holds records) (r : Record) :
    d.taken? r = novel? records r := by
  simp only [taken?, novel?, h.mem_objects_iff]

/-- A table indexes the objects after one sub-record more that counts. -/
theorem indexes_take {d : Draft} {record : HeapRecord} (offset : Nat)
    (h : Indexes d.objects (d.classes.toList.map (·.value.classId))
      (d.instances.toList.map (·.value.objectId)))
    (hfresh : ∀ id, record.definedId? = some id → id ∉ d.objects) :
    Indexes (d.take record offset).objects
      ((d.take record offset).classes.toList.map (·.value.classId))
      ((d.take record offset).instances.toList.map (·.value.objectId)) := by
  rw [classes_take, instances_take]
  cases record with
  | heapInfo heapId nameId =>
    simpa [take, enterHeap, inHeap, HeapRecord.classDump?, HeapRecord.objectDump?] using h
  | root root =>
    have hobjects := (d.untouched_noteThread root).objects
    simpa [take, addRoot, inHeap, HeapRecord.classDump?, HeapRecord.objectDump?, hobjects] using h
  | classDump dump =>
    have hinsert := h.insert_class (hfresh dump.classId rfl)
    simpa [take, inHeap, locate, HeapRecord.classDump?, HeapRecord.objectDump?] using hinsert
  | object dump =>
    have hinsert := h.insert_instance (hfresh dump.objectId rfl)
    simpa [take, inHeap, locate, HeapRecord.classDump?, HeapRecord.objectDump?] using hinsert

/-- **What a draft holds after one record more.** -/
theorem Holds.push {d : Draft} {records : List Record} (h : d.Holds records) (r : Record) :
    (d.push r).Holds (records ++ [r]) := by
  have htaken := h.taken?_eq r
  cases hr : novel? records r with
  | none =>
    have same := d.untouched_push (htaken.trans hr)
    exact {
      currentHeap := by simp [same.currentHeap, h.currentHeap, heapBehind_concat, hr]
      classes := by simp [same.classes, h.classes, firstClasses, gathered_concat, hr]
      instances := by simp [same.instances, h.instances, firstObjects, gathered_concat, hr]
      roots := by simp [same.roots, h.roots, rootsOf, gathered_concat, hr]
      mem_objects_iff := by simp [same.objects, h.mem_objects_iff, defined_concat, hr]
      indexes := by rw [same.objects, same.classes, same.instances]; exact h.indexes }
  | some record =>
    -- a record that counts defines no identifier of the table, and is placed in the heap that is
    -- current
    have hfresh (id : ObjectId) (hid : record.definedId? = some id) : id ∉ d.objects := by
      rw [h.mem_objects_iff]
      exact (novel?_eq_some_iff.mp hr).2 id hid
    have hlocate {α : Type} : (d.locate r.offset : α → Located α)
        = fun value => ⟨value, heapBehind records, r.offset⟩ := by
      funext value
      rw [locate, h.currentHeap]
    rw [d.push_of_taken? (htaken.trans hr)]
    exact {
      currentHeap := by simp [currentHeap_take, h.currentHeap, heapBehind_concat, hr]
      classes := by
        simp [classes_take, h.classes, firstClasses, gathered_concat, hr, hlocate]
      instances := by
        simp [instances_take, h.instances, firstObjects, gathered_concat, hr, hlocate]
      roots := by simp [roots_take, h.roots, rootsOf, gathered_concat, hr, hlocate]
      mem_objects_iff := by simp [mem_objects_take, h.mem_objects_iff, defined_concat, hr]
      indexes := indexes_take r.offset h.indexes hfresh }

/-- **What a draft holds after some records.** -/
theorem holds_foldl_push (header : Header) (log : Diagnostics) (records : List Record) :
    (records.foldl push { header, diagnostics := log }).Holds records := by
  induction records using List.reverseRecOn with
  | nil => exact holds_nil header log
  | append_singleton records r ih =>
    rw [List.foldl_append]
    exact ih.push r

end Draft

end HeapDump
