/-
HeapDump/Proofs/Snapshot/References.lean

The references of a finished snapshot.

All of them have been looked up: each is null, found or unknown, as its identifier,
the table of objects and its place in the graph demand, and keeps the identifier
that its record carried.  What a reference was found to mean is there and has that
identifier.

`Snapshot.Settled` says so of the places one by one and then of all references that
the graph holds (`Graph.held`), so that no place can be forgotten.  That identifiers
are kept is said by reading the objects back: they are the first definitions of the
records, field by field.

The class of an array of a primitive type is found by name and never reported, which
is said of the whole log: no diagnostic names such an array as its holder.  Main
statement: `references_settled`.
-/
import HeapDump.Proofs.Graph.Held
import HeapDump.Proofs.Graph.Holders
import HeapDump.Proofs.Graph.Settled
import HeapDump.Proofs.Snapshot.Definitions
import Mathlib.Data.List.Nodup

namespace HeapDump

/-- What the instances of a snapshot have been resolved against. -/
def Snapshot.resolution (s : Snapshot) (resolveFields : Bool) : Resolution where
  objects := s.objects
  classes := s.classes
  index := s.classIndex
  idSize := s.header.idSize
  resolveFields := resolveFields

/-- All references of a snapshot are settled, kind by kind, and so is any reference that it
holds: it has been looked up, and what it was found to mean is there. -/
structure Snapshot.Settled (s : Snapshot) (resolveFields : Bool) : Prop where
  classes : ∀ c ∈ s.classes, c.Settled s.objects
  instances : ∀ i ∈ s.instances, i.Settled (s.resolution resolveFields)
  roots : ∀ r ∈ s.roots, r.target.Settled s.objects Target.any
  ne_unresolved : ∀ p ∈ s.graph.held, ∀ id, p.1 ≠ .unresolved id
  found : ∀ p ∈ s.graph.held, ∀ t, p.1.target? = some t →
    ∃ o, s.get? t = some o ∧ o.id = p.1.id

/-! ### Any reference of a snapshot -/

section

variable {s : Snapshot} {resolveFields : Bool}

/-- A held reference is settled in one way or the other. -/
theorem Snapshot.settled_of_mem_held (hclasses : ∀ c ∈ s.classes, c.Settled s.objects)
    (hinstances : ∀ i ∈ s.instances, i.Settled (s.resolution resolveFields))
    (hroots : ∀ r ∈ s.roots, r.target.Settled s.objects Target.any)
    {p : Reference × Nat} (hp : p ∈ s.graph.held) :
    (∃ allowed, p.1.Settled s.objects allowed) ∨ ∃ t, IsArrayClass s.classes t p.1 := by
  rcases Graph.mem_held_iff.mp hp with ⟨c, hc, hp⟩ | ⟨i, hi, hp⟩ | ⟨r, hr, hp⟩
  · -- a class
    have hc := hclasses c hc
    obtain ⟨r, hr, rfl⟩ := List.mem_map.mp hp
    simp only [ClassObject.references, List.mem_cons, List.mem_append, List.mem_filterMap] at hr
    left
    rcases hr with rfl | rfl | ⟨constant, hmem, hr⟩ | ⟨static, hmem, hr⟩
    · exact ⟨_, hc.superclass⟩
    · exact ⟨_, hc.classLoader⟩
    · exact ⟨_, hc.constants constant hmem r hr⟩
    · exact ⟨_, hc.statics static hmem r hr⟩
  · -- an instance
    have hi := hinstances i hi
    obtain ⟨r, hr, rfl⟩ := List.mem_map.mp hp
    rw [Instance.Settled] at hi
    split at hi
    · next data fields hcontents =>
      obtain ⟨hclass, -, hfields⟩ := hi
      rw [Instance.references_of_object hcontents] at hr
      rcases List.mem_cons.mp hr with rfl | hr
      · exact .inl ⟨_, hclass⟩
      · obtain ⟨f, hf, hr⟩ := List.mem_filterMap.mp hr
        exact .inl ⟨_, hfields f hf r hr⟩
    · next elements hcontents =>
      obtain ⟨hclass, helements⟩ := hi
      rw [Instance.references_of_objectArray hcontents] at hr
      rcases List.mem_cons.mp hr with rfl | hr
      · exact .inl ⟨_, hclass⟩
      · exact .inl ⟨_, helements r hr⟩
    · next t length data hcontents =>
      rw [Instance.references_of_primitiveArray hcontents] at hr
      obtain rfl := List.mem_singleton.mp hr
      split at hi
      · exact .inl ⟨Target.any, hi ▸ Reference.settled_null⟩
      · exact .inr ⟨t, hi⟩
  · -- a root
    obtain rfl := List.mem_singleton.mp hp
    exact .inl ⟨_, hroots r hr⟩

/-- A settled reference has been looked up, and what it was found to mean is there. -/
theorem Snapshot.Indexed.exists_get?_of_settled (hs : s.Indexed) {r : Reference}
    (hr : (∃ allowed, r.Settled s.objects allowed) ∨ ∃ t, IsArrayClass s.classes t r) :
    (∀ id, r ≠ .unresolved id)
      ∧ ∀ t, r.target? = some t → ∃ o, s.get? t = some o ∧ o.id = r.id := by
  rcases hr with ⟨allowed, hr⟩ | ⟨t, ⟨k, c, hk, -, -, rfl⟩ | ⟨-, rfl⟩⟩
  · refine ⟨hr.ne_unresolved, fun t ht => ?_⟩
    have hget := (hs r.id t).mp (hr.getElem?_of_target? ht)
    exact Option.map_eq_some_iff.mp hget
  · refine ⟨by simp, fun t ht => ?_⟩
    obtain rfl : Target.classAt k = t := Option.some.inj ht
    exact ⟨.ofClass c, by rw [get?, hk]; rfl, rfl⟩
  · exact ⟨by simp, fun t ht => by cases ht⟩

end

/-! ### The references of a finished draft -/

namespace Draft

variable (d : Draft) (resolveFields : Bool)

/-- Names are not changed by looking references up. -/
theorem index_resolution : (d.resolution resolveFields).index
    = ClassIndex.ofNames ((d.resolution resolveFields).classes.toList.map (·.name)) := by
  show ClassIndex.ofNames _ = ClassIndex.ofNames (d.lookedUpClasses.toList.map (·.name))
  rw [lookedUpClasses, graph, Array.toList_map, Array.toList_map, List.map_map, List.map_map]
  rfl

theorem settled_of_mem_classes_finish {c : ClassObject}
    (hc : c ∈ (d.finish resolveFields).classes) : c.Settled d.objects := by
  refine (d.sameButLinks_finish resolveFields).forall_mem (fun c => ?_) (fun c hc => ?_) hc
  · exact ⟨fun h => ⟨h.superclass, h.classLoader, h.constants, h.statics⟩,
      fun h => ⟨h.superclass, h.classLoader, h.constants, h.statics⟩⟩
  · obtain ⟨dump, -, rfl⟩ := Array.mem_map.mp hc
    exact d.settled_lookup_classObject d.objects dump

theorem settled_of_mem_instances_finish {i : Instance}
    (hi : i ∈ (d.finish resolveFields).instances) :
    i.Settled ((d.finish resolveFields).resolution resolveFields) := by
  rw [← Array.mem_toList_iff, instances_finish] at hi
  obtain ⟨o, -, rfl⟩ := List.mem_map.mp hi
  have hsettled := Resolution.settled_resolveInstance (d.index_resolution resolveFields) o
  exact hsettled.of_sameButLinks (d.sameButLinks_finish resolveFields)

theorem settled_of_mem_roots_finish {r : GcRoot} (hr : r ∈ (d.finish resolveFields).roots) :
    r.target.Settled d.objects Target.any := by
  rw [← Array.mem_toList_iff, roots_finish] at hr
  obtain ⟨root, -, rfl⟩ := List.mem_map.mp hr
  exact Reference.settled_lookup _ _ _ _

/-- What an instance is can be told from its record. -/
theorem isPrimitiveArray_iff {i : Instance} :
    i.IsPrimitiveArray ↔ ∃ array, i.dump = .primitives array := by
  rw [Instance.IsPrimitiveArray, Instance.dump]
  cases i.contents <;> simp

/-- An array of a primitive type in the finished snapshot is one of the draft. -/
theorem Holds.not_isPrimitiveArray {d : Draft} {records : List Record} (h : d.Holds records)
    (resolveFields : Bool) {i j : Instance} (hi : i ∈ (d.finish resolveFields).instances)
    (hj : j ∈ d.graph.instances) (hid : j.id = i.id) (hprimitive : i.IsPrimitiveArray) :
    j.IsPrimitiveArray := by
  rw [← Array.mem_toList_iff, instances_finish] at hi
  obtain ⟨o, ho, rfl⟩ := List.mem_map.mp hi
  obtain ⟨o', ho', rfl⟩ := Array.mem_map.mp hj
  have hdump (x : Located ObjectDump) : (instanceObject x).dump = x.value :=
    congrArg Located.value (located_instanceObject x)
  have hdump' : ((d.resolution resolveFields).resolveInstance (instanceObject o)).value.dump
      = o.value := by
    rw [← hdump o]
    exact congrArg Located.value (Resolution.located_resolveInstance _ (instanceObject o))
  have hids : o'.value.objectId = o.value.objectId := by
    rw [← hdump o', ← hdump', Instance.objectId_dump, Instance.objectId_dump, hid]
  -- no two definitions have the same identifier
  obtain rfl : o' = o := List.inj_on_of_nodup_map (List.nodup_append.mp h.indexes.nodup).2.1
    (Array.mem_toList_iff.mpr ho') ho hids
  rw [isPrimitiveArray_iff, hdump'] at hprimitive
  rwa [isPrimitiveArray_iff, hdump]

end Draft

/-! ### The main statement -/

/-- **All references of a finished snapshot are settled** and keep the identifiers that the
records carried.  No diagnostic about a reference names an array of a primitive type as
the holder. -/
theorem references_settled (header : Header) (log : Diagnostics) (records : List Record)
    (resolveFields : Bool) :
    let snapshot := (records.foldl Draft.push { header, diagnostics := log }).finish resolveFields
    snapshot.Settled resolveFields
    ∧ snapshot.classes.toList.map ClassObject.located = firstClasses records
    ∧ snapshot.instances.toList.map Instance.located = firstObjects records
    ∧ snapshot.roots.toList.map (·.target.id) = (rootsOf records).map (·.value.objectId)
    ∧ ∃ new, snapshot.diagnostics.toList = log.toList ++ new
        ∧ ∀ diagnostic ∈ new, ∀ i ∈ snapshot.instances, i.IsPrimitiveArray →
          diagnostic.holderId? ≠ some i.id := by
  intro snapshot
  -- Each place is settled by the lookup that was made there.
  have hdraft := Draft.holds_foldl_push header log records
  have hindexed := hdraft.indexed_finish resolveFields
  have hclasses : ∀ c ∈ snapshot.classes, c.Settled snapshot.objects := fun c hc =>
    Draft.settled_of_mem_classes_finish _ resolveFields hc
  have hinstances : ∀ i ∈ snapshot.instances, i.Settled (snapshot.resolution resolveFields) :=
    fun i hi => Draft.settled_of_mem_instances_finish _ resolveFields hi
  have hroots : ∀ r ∈ snapshot.roots, r.target.Settled snapshot.objects Target.any :=
    fun r hr => Draft.settled_of_mem_roots_finish _ resolveFields hr
  -- Hence all that is held is settled, and what was found is there.
  have hheld (p : Reference × Nat) (hp : p ∈ snapshot.graph.held) :=
    hindexed.exists_get?_of_settled
      (Snapshot.settled_of_mem_held hclasses hinstances hroots hp)
  refine ⟨⟨hclasses, hinstances, hroots, fun p hp => (hheld p hp).1, fun p hp => (hheld p hp).2⟩,
    ?_, ?_, ?_, ?_⟩
  · rw [Draft.located_classes_finish, hdraft.classes]
  · rw [Draft.located_instances_finish, hdraft.instances]
  · rw [Draft.roots_finish, List.map_map, ← hdraft.roots]
    simp [Function.comp_def, GcRoot.lookup, Draft.gcRoot]
  · obtain ⟨new, hnew, hheldBy⟩ := Draft.exists_toList_diagnostics_finish
      { header, diagnostics := log } records resolveFields
    refine ⟨new, hnew, fun diagnostic hmem i hi hprimitive hid => ?_⟩
    obtain ⟨j, hj, hji, hnot⟩ := hheldBy diagnostic hmem i.id hid
    exact hnot (hdraft.not_isPrimitiveArray resolveFields hi hj hji hprimitive)

end HeapDump
