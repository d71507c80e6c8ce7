/-
HeapDump/Proofs/Snapshot/Heaps.lean

The heaps of a finished snapshot partition its classes, instances and roots.

For each of the three kinds the lists of the heaps group the positions by heap
(`Grouping`): a list is increasing, a position is in the list of its heap and in no
other, every heap that something belongs to is there, and the sizes of the lists add
up to the number of positions.  All of it comes from one equation, that each list is
that of all positions of its heap (`Grouping.of_findIdxs`), which reading has kept up
(`Draft.Grouped`) and finishing does not touch.

An object or a root belongs to the heap that was named last before its definition, and
looking for an object in a heap finds what its list has (`Snapshot.classIn?_eq_some_iff`,
`Snapshot.instanceIn?_eq_some_iff`).  Main statement: `heaps_partition`.
-/
import HeapDump.Proofs.Draft.Heaps
import HeapDump.Proofs.Snapshot.Definitions
import Mathlib.Algebra.BigOperators.Group.Finset.Basic
import Mathlib.Algebra.GroupWithZero.Nat

namespace HeapDump

/-! ### Grouping by heap -/

/-- The lists of the heaps group positions by heap, given the heap at each position: they
are increasing, hold what they should, miss nothing and count each position once. -/
structure Grouping (heaps : Std.ExtTreeMap UInt32 Heap) (list : Heap → Array Nat)
    (heapOf : List UInt32) : Prop where
  increasing : ∀ (k : UInt32) (h : Heap), heaps[k]? = some h →
    (list h).toList.Pairwise (· < ·)
  mem_iff : ∀ (k : UInt32) (h : Heap), heaps[k]? = some h →
    ∀ i, i ∈ list h ↔ heapOf[i]? = some k
  mem_heaps : ∀ k ∈ heapOf, k ∈ heaps
  sum_size : (heaps.toList.map fun (_, h) => (list h).size).sum = heapOf.length

/-- Each item is counted once among distinct keys that cover all items. -/
theorem sum_count_eq_length [DecidableEq κ] {keys xs : List κ} (hkeys : keys.Nodup)
    (hcover : ∀ x ∈ xs, x ∈ keys) : (keys.map fun k => xs.count k).sum = xs.length := by
  rw [← List.sum_toFinset _ hkeys]
  have hcard := Multiset.sum_count_eq_card (s := keys.toFinset) (m := (xs : Multiset κ))
    fun x hx => List.mem_toFinset.mpr (hcover x hx)
  simpa using hcard

/-- Lists of all positions of a heap group the positions. -/
theorem Grouping.of_findIdxs {heaps : Std.ExtTreeMap UInt32 Heap} {list : Heap → Array Nat}
    {heapOf : List UInt32}
    (hlist : ∀ (k : UInt32) (h : Heap), heaps[k]? = some h →
      (list h).toList = heapOf.findIdxs (· = k))
    (hmem : ∀ k ∈ heapOf, k ∈ heaps) : Grouping heaps list heapOf where
  increasing k h hk := by
    rw [hlist k h hk]
    exact List.pairwise_findIdxs
  mem_iff k h hk i := by
    rw [← Array.mem_toList_iff, hlist k h hk, List.mem_findIdxs_iff_exists_getElem_pos,
      List.getElem?_eq_some_iff]
    simp
  mem_heaps := hmem
  sum_size := by
    -- the list of a heap is as long as its identifier comes up often, and no identifier is missing
    have hsize : ∀ p ∈ heaps.toList, (list p.2).size = heapOf.count p.1 := by
      intro p hp
      have hk : heaps[p.1]? = some p.2 := Std.ExtTreeMap.mem_toList_iff_getElem?_eq_some.mp hp
      rw [← Array.length_toList, hlist _ _ hk, List.length_findIdxs]
      exact List.countP_congr fun k _ => by simp
    have hcover : ∀ k ∈ heapOf, k ∈ heaps.keys := fun k hk =>
      Std.ExtTreeMap.mem_keys.mpr (hmem k hk)
    rw [List.map_congr_left hsize, ← sum_count_eq_length Std.ExtTreeMap.nodup_keys hcover,
      ← Std.ExtTreeMap.map_fst_toList_eq_keys, List.map_map]
    rfl

/-! ### The heaps of a finished draft -/

namespace Draft

/-- A heap of the snapshot is one of the draft. -/
theorem getElem?_heaps_finish (d : Draft) (resolveFields : Bool) (k : UInt32) :
    (d.finish resolveFields).heaps[k]? = d.heaps[k]?.map (d.heap k) :=
  Std.ExtTreeMap.getElem?_map

theorem mem_heaps_finish (d : Draft) (resolveFields : Bool) (k : UInt32) :
    k ∈ (d.finish resolveFields).heaps ↔ k ∈ d.heaps :=
  Std.ExtTreeMap.mem_map

theorem eq_heap_entry (d : Draft) (resolveFields : Bool) {k : UInt32} {h : Heap}
    (hk : (d.finish resolveFields).heaps[k]? = some h) : h = d.heap k (d.entry k) := by
  rw [getElem?_heaps_finish, Option.map_eq_some_iff] at hk
  obtain ⟨entry, hentry, rfl⟩ := hk
  rw [Draft.entry, Std.ExtTreeMap.getD_eq_getD_getElem?, hentry]
  rfl

/-- What is grouped in a draft is grouped in the finished snapshot. -/
theorem grouping_finish (d : Draft) (resolveFields : Bool) (list : Heap → Array Nat)
    {items : List (Located α)}
    (hlist : ∀ k, (list (d.heap k (d.entry k))).toList = items.findIdxs (·.heap = k))
    (hmem : ∀ x ∈ items, x.heap ∈ d.heaps) :
    Grouping (d.finish resolveFields).heaps list (items.map (·.heap)) := by
  refine .of_findIdxs (fun k h hk => ?_) fun k hk => ?_
  · rw [d.eq_heap_entry resolveFields hk, hlist, List.findIdxs_map]
    rfl
  · obtain ⟨x, hx, rfl⟩ := List.mem_map.mp hk
    exact (d.mem_heaps_finish resolveFields _).mpr (hmem x hx)

end Draft

/-! ### Looking into a heap -/

namespace Snapshot

variable {s : Snapshot} {k : UInt32} {h : Heap}

/-- What a grouped list has at hand are the items whose heap it is. -/
theorem exists_mem_list_iff {list : Heap → Array Nat} {items : Array α} {heap : α → UInt32}
    (hgroups : Grouping s.heaps list (items.toList.map heap)) (hk : s.heaps[k]? = some h)
    {x : α} :
    (∃ i ∈ list h, items[i]? = some x) ↔ (∃ i : Nat, items[i]? = some x) ∧ heap x = k := by
  have hat {i : Nat} (hi : items[i]? = some x) : i ∈ list h ↔ heap x = k := by
    rw [hgroups.mem_iff k h hk, List.getElem?_map, Array.getElem?_toList, hi]
    exact Option.some_inj
  constructor
  · rintro ⟨i, hmem, hi⟩
    exact ⟨⟨i, hi⟩, (hat hi).mp hmem⟩
  · rintro ⟨⟨i, hi⟩, hx⟩
    exact ⟨i, (hat hi).mpr hx, hi⟩

/-- A heap's class of an identifier is the one in its list. -/
theorem classIn?_eq_some_iff (hs : s.Indexed)
    (hgroups : Grouping s.heaps Heap.classes (s.classes.toList.map (·.heap)))
    (hk : s.heaps[k]? = some h) (hid : h.id = k) {id : ObjectId} {c : ClassObject} :
    s.classIn? h id = some c ↔ c.id = id ∧ ∃ i ∈ h.classes, s.classes[i]? = some c := by
  rw [exists_mem_list_iff hgroups hk, classIn?, Option.filter_eq_some_iff,
    hs.class?_eq_some_iff, and_assoc, hid, decide_eq_true_iff]

/-- A heap's instance of an identifier is the one in its list. -/
theorem instanceIn?_eq_some_iff (hs : s.Indexed)
    (hgroups : Grouping s.heaps Heap.instances (s.instances.toList.map (·.heap)))
    (hk : s.heaps[k]? = some h) (hid : h.id = k) {id : ObjectId} {o : Instance} :
    s.instanceIn? h id = some o ↔ o.id = id ∧ ∃ i ∈ h.instances, s.instances[i]? = some o := by
  rw [exists_mem_list_iff hgroups hk, instanceIn?, Option.filter_eq_some_iff,
    hs.instance?_eq_some_iff, and_assoc, hid, decide_eq_true_iff]

end Snapshot

/-! ### The main statement -/

/-- The heaps of a snapshot partition its classes, instances and roots, and looking for an
object in a heap finds what is in the list of that heap. -/
structure Snapshot.Partitioned (s : Snapshot) : Prop where
  id_eq : ∀ (k : UInt32) (h : Heap), s.heaps[k]? = some h → h.id = k
  classes : Grouping s.heaps Heap.classes (s.classes.toList.map (·.heap))
  instances : Grouping s.heaps Heap.instances (s.instances.toList.map (·.heap))
  roots : Grouping s.heaps Heap.roots (s.roots.toList.map (·.heap))
  classIn?_eq_some_iff : ∀ (k : UInt32) (h : Heap), s.heaps[k]? = some h →
    ∀ id c, s.classIn? h id = some c ↔ c.id = id ∧ ∃ i ∈ h.classes, s.classes[i]? = some c
  instanceIn?_eq_some_iff : ∀ (k : UInt32) (h : Heap), s.heaps[k]? = some h →
    ∀ id o, s.instanceIn? h id = some o
      ↔ o.id = id ∧ ∃ i ∈ h.instances, s.instances[i]? = some o

/-- A finished draft whose heaps group its items is partitioned by them. -/
theorem Draft.Grouped.partitioned_finish {d : Draft} {records : List Record}
    (h : d.Grouped records) (hd : d.Holds records) (resolveFields : Bool) :
    (d.finish resolveFields).Partitioned := by
  -- the grouping of the draft, read off the finished items; then lookups in it
  have hid (k : UInt32) (x : Heap) (hk : (d.finish resolveFields).heaps[k]? = some x) :
      x.id = k := by
    rw [d.eq_heap_entry resolveFields hk]
    rfl
  have hclasses : Grouping (d.finish resolveFields).heaps Heap.classes
      ((d.finish resolveFields).classes.toList.map (·.heap)) := by
    have := d.grouping_finish resolveFields Heap.classes h.classes fun c hc =>
      (h.mem_heaps_iff _).mpr (.inr (.inl ⟨c, hc, rfl⟩))
    rwa [← d.located_classes_finish resolveFields, List.map_map] at this
  have hinstances : Grouping (d.finish resolveFields).heaps Heap.instances
      ((d.finish resolveFields).instances.toList.map (·.heap)) := by
    have := d.grouping_finish resolveFields Heap.instances h.instances fun o ho =>
      (h.mem_heaps_iff _).mpr (.inr (.inr (.inl ⟨o, ho, rfl⟩)))
    rwa [← d.located_instances_finish resolveFields, List.map_map] at this
  have hroots : Grouping (d.finish resolveFields).heaps Heap.roots
      ((d.finish resolveFields).roots.toList.map (·.heap)) := by
    rw [d.roots_finish, List.map_map]
    exact d.grouping_finish resolveFields Heap.roots h.roots fun r hr =>
      (h.mem_heaps_iff _).mpr (.inr (.inr (.inr ⟨r, hr, rfl⟩)))
  have hindexed := hd.indexed_finish resolveFields
  exact {
    id_eq := hid
    classes := hclasses
    instances := hinstances
    roots := hroots
    classIn?_eq_some_iff := fun k x hk _ _ =>
      Snapshot.classIn?_eq_some_iff hindexed hclasses hk (hid k x hk)
    instanceIn?_eq_some_iff := fun k x hk _ _ =>
      Snapshot.instanceIn?_eq_some_iff hindexed hinstances hk (hid k x hk) }

/-- **Heaps partition classes, instances and roots.**  Each of these belongs to the heap that
was named last before its record, and a heap is there if it was named or something belongs
to it. -/
theorem heaps_partition (header : Header) (log : Diagnostics) (records : List Record)
    (resolveFields : Bool) :
    let snapshot := (records.foldl Draft.push { header, diagnostics := log }).finish resolveFields
    snapshot.Partitioned
    ∧ snapshot.classes.toList.map (fun c => (c.id, c.heap))
        = (firstClasses records).map (fun c => (c.value.classId, c.heap))
    ∧ snapshot.instances.toList.map (fun o => (o.id, o.heap))
        = (firstObjects records).map (fun o => (o.value.objectId, o.heap))
    ∧ snapshot.roots.toList.map (fun r => (r.id, r.heap))
        = (rootsOf records).map (fun r => (r.value.objectId, r.heap))
    ∧ ∀ k, k ∈ snapshot.heaps ↔ (∃ r ∈ records, r.heapId? = some k)
        ∨ (∃ c ∈ firstClasses records, c.heap = k) ∨ (∃ o ∈ firstObjects records, o.heap = k)
        ∨ ∃ r ∈ rootsOf records, r.heap = k := by
  intro snapshot
  have hdraft := Draft.holds_foldl_push header log records
  have hgrouped := Draft.grouped_foldl_push header log records
  refine ⟨hgrouped.partitioned_finish hdraft resolveFields, ?_, ?_, ?_, fun k => ?_⟩
  · rw [← hdraft.classes, ← Draft.located_classes_finish _ resolveFields, List.map_map]
    rfl
  · rw [← hdraft.instances, ← Draft.located_instances_finish _ resolveFields, List.map_map]
    exact List.map_congr_left fun o _ => by simp [Instance.located, o.objectId_dump]
  · rw [← hdraft.roots, Draft.roots_finish, List.map_map]
    rfl
  · rw [← hdraft.classes, ← hdraft.instances, ← hdraft.roots, ← hgrouped.mem_heaps_iff]
    exact Draft.mem_heaps_finish _ resolveFields k

end HeapDump
