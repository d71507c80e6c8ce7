/-
HeapDump/Proofs/Snapshot/BackLinks.lean

The lists of subclasses and instances are the inverse of the references to superclasses and classes.

A finished snapshot names the owner of a position at most: the superclass of a class, or the class
of an instance.  `Inverse lists owners` says that the lists of the owners have exactly the
positions that name them, in increasing order, each position once in all, and that the lengths of
the lists add up to the number of positions that name an owner.

That linking groups positions by their owners gives all of this, provided each owner that is named
has a list (`Inverse.of_findIdxs`); a position whose owner is out of range would be lost.  That no
owner is out of range is what the resolution of references has seen to, since it finds only
objects that are there.

Arrays of primitive types name their class too, but by its name; the last part says which class
that is.  Main statement: `links_invert_references`.
-/
import HeapDump.Proofs.Snapshot.Heaps
import HeapDump.Proofs.Snapshot.Positions
import HeapDump.Proofs.Graph.Traversal

namespace HeapDump

/-! ### Lists by owner -/

/-- The lists of all owners are the inverse of naming the owner of a position, if it has one. -/
structure Inverse (lists : List (List Nat)) (owners : List (Option Nat)) : Prop where
  mem_iff : ∀ (i : Nat) (list : List Nat), lists[i]? = some list →
    ∀ j, j ∈ list ↔ owners[j]? = some (some i)
  increasing : ∀ list ∈ lists, list.Pairwise (· < ·)
  existsUnique : ∀ j i, owners[j]? = some (some i) →
    ∃! i' : Nat, ∃ list, lists[i']? = some list ∧ j ∈ list
  sum_length : (lists.map List.length).sum = owners.countP Option.isSome

/-- As many positions have a given owner as it is named among the owners that there are. -/
theorem length_findIdxs_some (owners : List (Option Nat)) (i : Nat) :
    (owners.findIdxs (· = some i)).length = (owners.filterMap id).count i := by
  rw [List.length_findIdxs, List.count, List.countP_filterMap]
  refine List.countP_congr fun owner _ => ?_
  cases owner <;> simp

/-- Lists of all positions of an owner are the inverse of naming the owner, if all owners that are
named have a list. -/
theorem Inverse.of_findIdxs {lists : List (List Nat)} {owners : List (Option Nat)}
    (hlist : ∀ (i : Nat) (list : List Nat), lists[i]? = some list →
      list = owners.findIdxs (· = some i))
    (hinside : ∀ i, some i ∈ owners → i < lists.length) : Inverse lists owners where
  mem_iff i list hi j := by
    rw [hlist i list hi, List.mem_findIdxs_iff_exists_getElem_pos, List.getElem?_eq_some_iff]
    simp
  increasing list hmem := by
    obtain ⟨i, hi⟩ := List.getElem?_of_mem hmem
    rw [hlist i list hi]
    exact List.pairwise_findIdxs
  existsUnique j i hj := by
    have hmem (i' : Nat) (list : List Nat) (hi' : lists[i']? = some list) :
        j ∈ list ↔ i' = i := by
      rw [hlist i' list hi', List.mem_findIdxs_iff_exists_getElem_pos]
      obtain ⟨hlt, howner⟩ := List.getElem?_eq_some_iff.mp hj
      simp [hlt, howner, eq_comm]
    have hlt := hinside i (List.mem_of_getElem? hj)
    -- the owner that is named has a list with the position, and no other owner has
    refine ⟨i, ⟨lists[i], List.getElem?_eq_getElem hlt, ?_⟩, fun i' ⟨list, hi', hj'⟩ => ?_⟩
    · exact (hmem i _ (List.getElem?_eq_getElem hlt)).mpr rfl
    · exact (hmem i' list hi').mp hj'
  sum_length := by
    -- a list is as long as its owner is named often
    have hlengths : lists.map List.length
        = (List.range lists.length).map fun i => (owners.filterMap id).count i := by
      refine List.ext_getElem (by simp) fun i hi hi' => ?_
      rw [List.length_map] at hi
      rw [List.getElem_map, List.getElem_map, List.getElem_range, ← length_findIdxs_some,
        ← hlist i _ (List.getElem?_eq_getElem hi)]
    rw [hlengths, sum_count_eq_length List.nodup_range fun i hi => ?_]
    · rw [List.length_filterMap_eq_countP]
      rfl
    · obtain ⟨owner, howner, rfl⟩ := List.mem_filterMap.mp hi
      exact List.mem_range.mpr (hinside i howner)

/-! ### Finished snapshots -/

namespace Graph

variable (g : Graph)

/-- The lists of subclasses of linked classes. -/
theorem inverse_subclasses_link (hin : ParentsInside g.link.classes) :
    Inverse (g.link.classes.toList.map (·.subclasses))
      (g.link.classes.toList.map (·.superclass.class?)) := by
  refine .of_findIdxs (fun i list hi => ?_) fun i hi => ?_
  · rw [List.getElem?_map, Option.map_eq_some_iff] at hi
    obtain ⟨c, hc, rfl⟩ := hi
    rw [Array.getElem?_toList] at hc
    rw [← g.subclassesAt_link (Array.getElem?_eq_some_iff.mp hc).1, subclassesAt, hc]
    rfl
  · obtain ⟨c, hc, hsuper⟩ := List.mem_map.mp hi
    obtain ⟨j, hj⟩ := List.getElem?_of_mem hc
    rw [Array.getElem?_toList] at hj
    rw [List.length_map, Array.length_toList]
    exact hin j i (Option.bind_eq_some_iff.mpr ⟨c, hj, hsuper⟩)

/-- The lists of instances of linked classes. -/
theorem inverse_instances_link
    (hin : ∀ o ∈ g.link.instances, ∀ c, o.classRef.class? = some c → c < g.link.classes.size) :
    Inverse (g.link.classes.toList.map (·.instances))
      (g.link.instances.toList.map (·.classRef.class?)) := by
  refine .of_findIdxs (fun i list hi => ?_) fun i hi => ?_
  · rw [List.getElem?_map, Option.map_eq_some_iff] at hi
    obtain ⟨c, hc, rfl⟩ := hi
    rw [Array.getElem?_toList] at hc
    rw [← g.instancesAt_link (Array.getElem?_eq_some_iff.mp hc).1, instancesAt, hc]
    rfl
  · obtain ⟨o, ho, hclass⟩ := List.mem_map.mp hi
    rw [List.length_map, Array.length_toList]
    exact hin o (Array.mem_toList_iff.mp ho) i hclass

end Graph

/-- **Links are the inverse of references.**  Whatever the records are, a class is listed among
the subclasses of another just if this was found to be its superclass, and an instance among the
instances of a class just if this was found to be its class.  All lists are strictly increasing, a
class or an instance whose owner was found is in one list and no other, and the lists have as many
members together as there are such classes or instances.  The class of an array of a primitive
type, by which it is listed, is the first one that has the name of such arrays. -/
theorem links_invert_references (header : Header) (log : Diagnostics) (records : List Record)
    (resolveFields : Bool) :
    let s := (records.foldl Draft.push { header, diagnostics := log }).finish resolveFields
    Inverse (s.classes.toList.map (·.subclasses)) (s.classes.toList.map (·.superclass.class?))
    ∧ Inverse (s.classes.toList.map (·.instances)) (s.instances.toList.map (·.classRef.class?))
    ∧ ∀ o ∈ s.instances, ∀ t length data, o.contents = .primitiveArray t length data →
      if t = .object then o.classRef = .null else IsArrayClass s.classes t o.classRef := by
  intro s
  let d := records.foldl Draft.push { header, diagnostics := log }
  have hholds : d.Holds records := Draft.holds_foldl_push header log records
  obtain ⟨g, hg⟩ : ∃ g : Graph, s.graph = g.link := ⟨_, d.graph_finish resolveFields⟩
  have hclasses : s.classes = g.link.classes := congrArg Graph.classes hg
  have hinstances : s.instances = g.link.instances := congrArg Graph.instances hg
  refine ⟨?_, ?_, fun o ho t length data hcontents => ?_⟩
  · rw [hclasses]
    exact g.inverse_subclasses_link (hclasses ▸ hholds.parentsInside_finish resolveFields)
  · rw [hclasses, hinstances]
    refine g.inverse_instances_link fun o ho c hc => ?_
    rw [← hinstances] at ho
    rw [← hclasses]
    exact hholds.lt_size_of_class?_finish resolveFields ho hc
  · have hsettled := d.settled_of_mem_instances_finish resolveFields ho
    rw [Instance.Settled, hcontents] at hsettled
    exact hsettled

end HeapDump
