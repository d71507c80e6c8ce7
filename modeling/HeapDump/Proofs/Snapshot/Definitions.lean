/-
HeapDump/Proofs/Snapshot/Definitions.lean

The first definition of an identifier is the one that counts.

At every point of reading, and in the finished snapshot, classes and instances are
the first definitions in the order of the file, with their payload, heap and place,
and the table of objects finds each identifier at its one position
(`FirstDefinitions`).  Finishing a draft keeps all of this, since an object reads
back as the record that defined it (`ClassObject.located`, `Instance.located`).

In the snapshot the table is used through `Snapshot.Indexed`: an identifier is looked
up exactly to the object that has it.  What is found of one kind, classes or
instances, follows from it in the same way (`Indexed.bind_index?_eq_some_iff`).

Any later definition of an identifier, of whichever kind, is noted with its place and
ignored: the log has one warning more and the rest of the draft is as it was.  Main
statement: `first_definitions_win`.
-/
import HeapDump.Proofs.Draft.Objects
import HeapDump.Proofs.Snapshot.Finish

namespace HeapDump

/-- Classes and instances are the first definitions that records give, no two of them have
the same identifier, and a table of objects finds them, each at its position. -/
structure FirstDefinitions (records : List Record) (objects : ObjectTable)
    (classes : List (Located ClassDump)) (instances : List (Located ObjectDump)) : Prop where
  classes_eq : classes = firstClasses records
  instances_eq : instances = firstObjects records
  nodup : (classes.map (·.value.classId) ++ instances.map (·.value.objectId)).Nodup
  indexes : Indexes objects (classes.map (·.value.classId)) (instances.map (·.value.objectId))

theorem Draft.Holds.firstDefinitions {d : Draft} {records : List Record} (h : d.Holds records) :
    FirstDefinitions records d.objects d.classes.toList d.instances.toList where
  classes_eq := h.classes
  instances_eq := h.instances
  nodup := h.indexes.nodup
  indexes := h.indexes

/-! ### Identifiers in a snapshot -/

theorem Instance.objectId_dump (i : Instance) : i.dump.objectId = i.id := by
  rw [dump]
  split <;> rfl

/-- The identifiers of a snapshot's objects are those of their definitions. -/
theorem Snapshot.id_get? (s : Snapshot) (t : Target) :
    (s.get? t).map HeapObject.id
      = idAt ((s.classes.toList.map ClassObject.located).map (·.value.classId))
        ((s.instances.toList.map Instance.located).map (·.value.objectId)) t := by
  cases t with
  | classAt i =>
    simp only [get?, idAt, List.getElem?_map, Array.getElem?_toList, Option.map_map]
    rfl
  | instanceAt i =>
    simp only [get?, idAt, List.getElem?_map, Array.getElem?_toList, Option.map_map]
    exact congrArg (Option.map · _) (funext fun o => o.objectId_dump.symm)

/-- The table of a snapshot finds each object at its position, and nothing else. -/
def Snapshot.Indexed (s : Snapshot) : Prop :=
  ∀ (id : ObjectId) (t : Target), s.objects[id]? = some t
    ↔ (s.get? t).map HeapObject.id = some id

theorem Draft.indexed_finish {d : Draft}
    (h : Indexes d.objects (d.classes.toList.map (·.value.classId))
      (d.instances.toList.map (·.value.objectId))) (resolveFields : Bool) :
    (d.finish resolveFields).Indexed := by
  intro id t
  rw [Snapshot.id_get?, d.located_classes_finish, d.located_instances_finish]
  exact h id t

theorem Draft.Holds.indexed_finish {d : Draft} {records : List Record} (h : d.Holds records)
    (resolveFields : Bool) : (d.finish resolveFields).Indexed :=
  Draft.indexed_finish h.indexes resolveFields

namespace Snapshot.Indexed

variable {s : Snapshot}

/-- **What is found for an identifier among the items of one kind is the item that has it.**
The items of the kind stand at the positions that `place` gives and `index?` takes apart. -/
theorem bind_index?_eq_some_iff (hs : s.Indexed) {items : Array α} {itemId : α → ObjectId}
    (place : Nat → Target) {index? : Target → Option Nat}
    (hplace : ∀ t i, index? t = some i ↔ t = place i)
    (hget : ∀ i, (s.get? (place i)).map HeapObject.id = items[i]?.map itemId)
    {id : ObjectId} {x : α} :
    ((s.target? id).bind index?).bind (items[·]?) = some x
      ↔ itemId x = id ∧ ∃ i : Nat, items[i]? = some x := by
  -- the table gives a position of the kind just for the identifier of the item there
  have hindex (i : Nat) : (s.target? id).bind index? = some i
      ↔ items[i]?.map itemId = some id := by
    rw [Option.bind_eq_some_iff, ← hget, ← hs id]
    constructor
    · rintro ⟨t, ht, hi⟩
      obtain rfl := (hplace t i).mp hi
      exact ht
    · intro ht
      exact ⟨place i, ht, (hplace _ i).mpr rfl⟩
  rw [Option.bind_eq_some_iff]
  simp only [hindex]
  constructor
  · rintro ⟨i, hid, hi⟩
    rw [hi] at hid
    exact ⟨Option.some.inj hid, i, hi⟩
  · rintro ⟨rfl, i, hi⟩
    exact ⟨i, by rw [hi]; rfl, hi⟩

/-- The class found for an identifier is the one that has it. -/
theorem class?_eq_some_iff (hs : s.Indexed) {id : ObjectId} {c : ClassObject} :
    s.class? id = some c ↔ c.id = id ∧ ∃ i : Nat, s.classes[i]? = some c := by
  refine hs.bind_index?_eq_some_iff .classAt (fun t i => ?_) fun i => ?_
  · cases t <;> simp [Target.class?]
  · rw [get?, Option.map_map]
    rfl

/-- The instance found for an identifier is the one that has it. -/
theorem instance?_eq_some_iff (hs : s.Indexed) {id : ObjectId} {o : Instance} :
    s.instance? id = some o ↔ o.id = id ∧ ∃ i : Nat, s.instances[i]? = some o := by
  refine hs.bind_index?_eq_some_iff .instanceAt (fun t i => ?_) fun i => ?_
  · cases t <;> simp [Target.instance?]
  · rw [get?, Option.map_map]
    rfl

end Snapshot.Indexed

/-! ### The main statement -/

/-- **The first definition of an identifier is the one that counts**, whatever its kind.
A later one only adds a warning, with the identifier and its own place: the log has one entry
more, at its end, and nothing else of the draft is changed. -/
theorem first_definitions_win (header : Header) (log : Diagnostics) (records : List Record)
    (resolveFields : Bool) :
    let draft := records.foldl Draft.push { header, diagnostics := log }
    let snapshot := draft.finish resolveFields
    FirstDefinitions records draft.objects draft.classes.toList draft.instances.toList
    ∧ FirstDefinitions records snapshot.objects
        (snapshot.classes.toList.map ClassObject.located)
        (snapshot.instances.toList.map Instance.located)
    ∧ snapshot.Indexed
    ∧ ∀ (r : Record) (record : HeapRecord) (id : ObjectId), r.heapRecord? = some record →
        record.definedId? = some id → Defined records id →
        ∃ diagnostic, draft.push r = draft.report diagnostic
          ∧ (draft.push r).diagnostics.toList = draft.diagnostics.toList ++ [diagnostic]
          ∧ { draft.push r with diagnostics := draft.diagnostics } = draft
          ∧ diagnostic.severity = .warning
          ∧ diagnostic.category
            = (match record with | .classDump _ => .classes | _ => .instances)
          ∧ diagnostic.object = some id ∧ diagnostic.offset = some r.offset := by
  intro draft snapshot
  have hdraft : draft.Holds records := Draft.holds_foldl_push header log records
  refine ⟨hdraft.firstDefinitions, ?_, hdraft.indexed_finish resolveFields, ?_⟩
  · rw [draft.located_classes_finish, draft.located_instances_finish]
    exact hdraft.firstDefinitions
  · intro r record id hr hid hdefined
    have hmem : id ∈ draft.objects := (hdraft.mem_objects_iff id).mpr hdefined
    have hpush := draft.push_of_defined hr hid hmem
    refine ⟨_, hpush, ?_, ?_, ?_⟩
    · rw [hpush, Draft.report, Diagnostics.toList_push]
    · rw [hpush]
      rfl
    -- which warning it is depends on the kind of the record that is dropped
    cases record with
    | classDump dump => exact ⟨rfl, rfl, rfl, rfl⟩
    | object dump => exact ⟨rfl, rfl, rfl, rfl⟩
    | _ => cases hid

end HeapDump
