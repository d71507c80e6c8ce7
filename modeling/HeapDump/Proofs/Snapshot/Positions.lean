/-
HeapDump/Proofs/Snapshot/Positions.lean

The positions that a finished snapshot speaks of.

A class that a class or an instance was found to have is there
(`Draft.Holds.parentsInside_finish`, `Draft.Holds.lt_size_of_class?_finish`), and no two
positions have the same object (`nodup_classIds_finish`, `nodup_instanceIds_finish`).

Both come from the table of objects: a reference is resolved to a position that the table
gives, the table gives only positions that there are, and an identifier is at one position
only.  They are the side conditions that walks and chains of superclasses need.
-/
import HeapDump.Proofs.Graph.Ancestry
import HeapDump.Proofs.Snapshot.References

namespace HeapDump

theorem Reference.target?_of_class? {r : Reference} {i : Nat} (h : r.class? = some i) :
    r.target? = some (.classAt i) := by
  obtain ⟨t, ht, hi⟩ := Option.bind_eq_some_iff.mp h
  cases t with
  | classAt j =>
    obtain rfl := Option.some.inj hi
    exact ht
  | instanceAt j => cases hi

/-- A class that a settled reference was found to mean is there. -/
theorem Snapshot.Indexed.lt_size_of_class? {s : Snapshot} (hs : s.Indexed) {r : Reference}
    (hr : (∃ allowed, r.Settled s.objects allowed) ∨ ∃ t, IsArrayClass s.classes t r) {i : Nat}
    (hi : r.class? = some i) : i < s.classes.size := by
  obtain ⟨o, ho, -⟩ := (hs.exists_get?_of_settled hr).2 _ (Reference.target?_of_class? hi)
  obtain ⟨c, hc, -⟩ := Option.map_eq_some_iff.mp ho
  exact (Array.getElem?_eq_some_iff.mp hc).1

namespace Draft.Holds

variable {d : Draft} {records : List Record} (h : d.Holds records) (resolveFields : Bool)
include h

/-- All superclasses that were found are there. -/
theorem parentsInside_finish : ParentsInside (d.finish resolveFields).classes := by
  intro i j hj
  obtain ⟨c, hc, hsuper⟩ := Option.bind_eq_some_iff.mp hj
  have hsettled := d.settled_of_mem_classes_finish resolveFields (Array.mem_of_getElem? hc)
  exact (h.indexed_finish resolveFields).lt_size_of_class? (.inl ⟨_, hsettled.superclass⟩) hsuper

/-- The class of an instance is there, if it was found. -/
theorem lt_size_of_class?_finish {o : Instance} (ho : o ∈ (d.finish resolveFields).instances)
    {c : Nat} (hc : o.classRef.class? = some c) : c < (d.finish resolveFields).classes.size := by
  have hsettled := d.settled_of_mem_instances_finish resolveFields ho
  refine (h.indexed_finish resolveFields).lt_size_of_class? ?_ hc
  rw [Instance.Settled] at hsettled
  split at hsettled
  · exact .inl ⟨_, hsettled.1⟩
  · exact .inl ⟨_, hsettled.1⟩
  · split at hsettled
    · rw [hsettled] at hc
      cases hc
    · exact .inr ⟨_, hsettled⟩

/-- No two instances have the same identifier. -/
theorem nodup_instanceIds_finish :
    ((d.finish resolveFields).instances.toList.map (·.id)).Nodup := by
  have hnodup := (List.nodup_append.mp h.indexes.nodup).2.1
  rw [← d.located_instances_finish resolveFields, List.map_map] at hnodup
  have hid : (fun o : Instance => o.located.value.objectId) = (·.id) :=
    funext Instance.objectId_dump
  rwa [← hid]

/-- No two classes have the same identifier. -/
theorem nodup_classIds_finish : ((d.finish resolveFields).classes.toList.map (·.id)).Nodup := by
  have hnodup := (List.nodup_append.mp h.indexes.nodup).1
  rwa [← d.located_classes_finish resolveFields, List.map_map] at hnodup

end Draft.Holds

end HeapDump
