/-
HeapDump/Proofs/Draft/Push.lean

What one record does to the heaps, the objects and the roots of a draft.

Of all records only sub-records of heap dumps have a part in them, and of these a
second definition of an identifier has none.  So there are three cases:

* a sub-record that counts (`Draft.taken?`) is taken in, each kind in its own way
  (`push_of_taken?`, with `Draft.take`);
* a second definition is noted and does nothing else (`push_of_defined`);
* all other records leave heaps, objects and roots alone (`untouched_push`).

What is taken in changes one list by one item at the end (`classes_take`,
`instances_take`, `roots_take`), and these equations are all that later proofs use:
each invariant of reading has a step for records that are taken in and one for the
others.
-/
import HeapDump.Proofs.Draft.History
import Std.Data.ExtTreeMap.Lemmas

namespace HeapDump

namespace Draft

variable (d : Draft) {r : Record}

/-- Two drafts with the same heaps, objects and roots. -/
structure Untouched (d d' : Draft) : Prop where
  currentHeap : d'.currentHeap = d.currentHeap
  heaps : d'.heaps = d.heaps
  objects : d'.objects = d.objects
  classes : d'.classes = d.classes
  instances : d'.instances = d.instances
  roots : d'.roots = d.roots

theorem untouched_noteThread (root : RootRecord) : d.Untouched (d.noteThread root) := by
  rw [noteThread]
  split <;> exact ⟨rfl, rfl, rfl, rfl, rfl, rfl⟩

/-! ### Records by kind -/

theorem push_of_heapRecord? {record : HeapRecord} (h : r.heapRecord? = some record) :
    d.push r = d.pushHeapRecord record r.offset := by
  obtain ⟨offset, time, body⟩ := r
  cases body <;> cases h
  rfl

/-- A record that is no sub-record leaves heaps, objects and roots alone. -/
theorem untouched_push_of_heapRecord? (h : r.heapRecord? = none) : d.Untouched (d.push r) := by
  rw [push]
  obtain ⟨offset, time, body⟩ := r
  cases body with
  | heap record => cases h
  | skipped tag length =>
    dsimp only
    split <;> exact ⟨rfl, rfl, rfl, rfl, rfl, rfl⟩
  | _ => exact ⟨rfl, rfl, rfl, rfl, rfl, rfl⟩

/-- What is noted of a second definition of an identifier. -/
def duplicate (record : HeapRecord) (id : ObjectId) (offset : Nat) : Diagnostic :=
  { cause := if record.classDump?.isSome then .duplicateClass id else .duplicateInstance id
    offset := some offset, object := some id }

/-- A second definition is noted, and that is all. -/
theorem pushHeapRecord_of_defined {record : HeapRecord} {id : ObjectId}
    (hid : record.definedId? = some id) (hmem : id ∈ d.objects) (offset : Nat) :
    d.pushHeapRecord record offset = d.report (duplicate record id offset) := by
  cases record with
  | classDump dump =>
    obtain rfl : dump.classId = id := Option.some.inj hid
    exact if_pos hmem
  | object dump =>
    obtain rfl : dump.objectId = id := Option.some.inj hid
    exact if_pos hmem
  | _ => cases hid

theorem push_of_defined {record : HeapRecord} {id : ObjectId} (hr : r.heapRecord? = some record)
    (hid : record.definedId? = some id) (hmem : id ∈ d.objects) :
    d.push r = d.report (duplicate record id r.offset) := by
  rw [d.push_of_heapRecord? hr, d.pushHeapRecord_of_defined hid hmem]

/-! ### What is taken in -/

/-- The sub-record that a draft takes in, unless it defines an identifier once more. -/
def taken? (r : Record) : Option HeapRecord :=
  r.heapRecord?.filter fun record => record.definedId?.all fun id => id ∉ d.objects

/-- What is not taken in leaves heaps, objects and roots alone. -/
theorem untouched_push (h : d.taken? r = none) : d.Untouched (d.push r) := by
  cases hr : r.heapRecord? with
  | none => exact d.untouched_push_of_heapRecord? hr
  | some record =>
    rw [taken?, hr, Option.filter_eq_none_iff] at h
    have := h record rfl
    cases hid : record.definedId? with
    | none => simp [hid] at this
    | some id =>
      have hmem : id ∈ d.objects := by simpa [hid] using this
      rw [d.push_of_defined hr hid hmem]
      exact ⟨rfl, rfl, rfl, rfl, rfl, rfl⟩

/-- What a draft becomes by a sub-record that it takes in. -/
def take (record : HeapRecord) (offset : Nat) : Draft :=
  match record with
  | .heapInfo heapId nameId => d.enterHeap heapId nameId
  | .root root => d.addRoot root offset
  | .classDump dump =>
    { d.inHeap fun h => { h with classes := h.classes.push d.classes.size } with
      objects := d.objects.insert dump.classId (.classAt d.classes.size)
      classes := d.classes.push (d.locate offset dump) }
  | .object dump =>
    { d.inHeap fun h => { h with instances := h.instances.push d.instances.size } with
      objects := d.objects.insert dump.objectId (.instanceAt d.instances.size)
      instances := d.instances.push (d.locate offset dump) }

/-- What defines no identifier once more is taken in. -/
theorem pushHeapRecord_of_fresh {record : HeapRecord}
    (h : ∀ id, record.definedId? = some id → id ∉ d.objects) (offset : Nat) :
    d.pushHeapRecord record offset = d.take record offset := by
  cases record with
  | classDump dump => exact if_neg (h dump.classId rfl)
  | object dump => exact if_neg (h dump.objectId rfl)
  | _ => rfl

/-- A sub-record is taken in, or it defines an identifier once more and is noted. -/
theorem pushHeapRecord_cases (record : HeapRecord) (offset : Nat) :
    d.pushHeapRecord record offset = d.take record offset
      ∨ ∃ id, d.pushHeapRecord record offset = d.report (duplicate record id offset) := by
  by_cases h : ∃ id, record.definedId? = some id ∧ id ∈ d.objects
  · obtain ⟨id, hid, hmem⟩ := h
    exact .inr ⟨id, d.pushHeapRecord_of_defined hid hmem offset⟩
  · exact .inl (d.pushHeapRecord_of_fresh (fun id hid hmem => h ⟨id, hid, hmem⟩) offset)

theorem push_of_taken? {record : HeapRecord} (h : d.taken? r = some record) :
    d.push r = d.take record r.offset := by
  rw [taken?, Option.filter_eq_some_iff] at h
  rw [d.push_of_heapRecord? h.1]
  refine d.pushHeapRecord_of_fresh (fun id hid => ?_) r.offset
  simpa [hid] using h.2

/-- A map of drafts that leaves the objects alone goes together with a sub-record, if it does so
with what is taken in and with what is noted. -/
theorem map_pushHeapRecord {F : Draft → Draft} {record : HeapRecord} {offset offset' : Nat}
    (hobjects : (F d).objects = d.objects)
    (htake : F (d.take record offset) = (F d).take record offset')
    (hreport : ∀ id, F (d.report (duplicate record id offset))
      = (F d).report (duplicate record id offset')) :
    F (d.pushHeapRecord record offset) = (F d).pushHeapRecord record offset' := by
  by_cases h : ∃ id, record.definedId? = some id ∧ id ∈ d.objects
  · obtain ⟨id, hid, hmem⟩ := h
    rw [d.pushHeapRecord_of_defined hid hmem,
      pushHeapRecord_of_defined _ hid (hobjects ▸ hmem), hreport]
  · have hfresh : ∀ id, record.definedId? = some id → id ∉ d.objects :=
      fun id hid hmem => h ⟨id, hid, hmem⟩
    rw [d.pushHeapRecord_of_fresh hfresh, pushHeapRecord_of_fresh _ (hobjects ▸ hfresh), htake]

/-! ### How a draft grows -/

section Take

variable (record : HeapRecord) (offset : Nat)

theorem currentHeap_take :
    (d.take record offset).currentHeap = record.heapId?.getD d.currentHeap := by
  cases record with
  | root root => exact (d.untouched_noteThread root).currentHeap
  | _ => rfl

theorem classes_take :
    (d.take record offset).classes.toList
      = d.classes.toList ++ (record.classDump?.map (d.locate offset)).toList := by
  cases record with
  | root root =>
    show (d.noteThread root).classes.toList = d.classes.toList ++ []
    rw [(d.untouched_noteThread root).classes, List.append_nil]
  | classDump dump => exact Array.toList_push
  | _ => exact (List.append_nil _).symm

theorem instances_take :
    (d.take record offset).instances.toList
      = d.instances.toList ++ (record.objectDump?.map (d.locate offset)).toList := by
  cases record with
  | root root =>
    show (d.noteThread root).instances.toList = d.instances.toList ++ []
    rw [(d.untouched_noteThread root).instances, List.append_nil]
  | object dump => exact Array.toList_push
  | _ => exact (List.append_nil _).symm

theorem roots_take :
    (d.take record offset).roots.toList
      = d.roots.toList ++ (record.root?.map (d.locate offset)).toList := by
  cases record with
  | root root =>
    have same := d.untouched_noteThread root
    simp [take, addRoot, inHeap, locate, HeapRecord.root?, same.roots, same.currentHeap]
  | _ => exact (List.append_nil _).symm

theorem mem_objects_take (id : ObjectId) :
    id ∈ (d.take record offset).objects ↔ id ∈ d.objects ∨ record.definedId? = some id := by
  cases record with
  | heapInfo heapId nameId => simp [take, enterHeap, inHeap, HeapRecord.definedId?]
  | root root =>
    simp [take, addRoot, inHeap, HeapRecord.definedId?, (d.untouched_noteThread root).objects]
  | classDump dump => simp [take, inHeap, HeapRecord.definedId?, or_comm]
  | object dump => simp [take, inHeap, HeapRecord.definedId?, or_comm]

end Take

end Draft

end HeapDump
