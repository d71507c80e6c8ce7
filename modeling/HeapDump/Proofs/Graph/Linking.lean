/-
HeapDump/Proofs/Graph/Linking.lean

What linking fills in.

The subclasses of a class are exactly the classes whose superclass it was found to be,
and its instances those of which it was found to be the class
(`Graph.mem_subclasses_link_iff`, `Graph.mem_instances_link_iff`).

Both are positions grouped by a key, in one pass over the keys.  A group has the positions
of its members in increasing order, and none twice, because they are pushed in the order of
the pass (`getElem?_positionsByGroup`); so the lists are sorted without having been sorted.
-/
import HeapDump.Graph.Hierarchy
import Mathlib.Data.List.Basic
import Mathlib.Data.List.Induction

namespace HeapDump

/-- A group has the positions of exactly its members, in increasing order. -/
theorem getElem?_positionsByGroup (n : Nat) (keys : List (Option Nat)) (group : Nat) :
    (positionsByGroup n keys)[group]?
      = if group < n then some (keys.findIdxs (· = some group)).toArray else none := by
  -- the last key comes last in the pass, and puts its position at the end of its group
  induction keys using List.reverseRecOn with
  | nil => simp [positionsByGroup, Array.getElem?_replicate]
  | append_singleton keys key ih =>
    rw [List.findIdxs_append]
    cases key with
    | none =>
      have hstep : positionsByGroup n (keys ++ [none]) = positionsByGroup n keys := by
        simp [positionsByGroup, List.zipIdx_append]
      simp [hstep, ih]
    | some key =>
      have hstep : positionsByGroup n (keys ++ [some key])
          = (positionsByGroup n keys).modify key (·.push keys.length) := by
        simp [positionsByGroup, List.zipIdx_append]
      rw [hstep, Array.getElem?_modify, ih]
      by_cases hkey : key = group
      · by_cases hlt : group < n <;> simp [hkey, hlt]
      · simp [hkey]

/-- A position is in a group if its key names the group. -/
theorem mem_positionsByGroup_iff {n group : Nat} (hgroup : group < n)
    {keys : List (Option Nat)} {k : Nat} :
    k ∈ ((positionsByGroup n keys).getD group #[]).toList ↔ keys[k]? = some (some group) := by
  rw [Array.getD_eq_getD_getElem?, getElem?_positionsByGroup, if_pos hgroup, Option.getD_some,
    List.mem_findIdxs_iff_exists_getElem_pos, List.getElem?_eq_some_iff]
  simp

namespace Graph

variable {g : Graph} {i k : Nat} {c : ClassObject}

/-- The subclasses of a class are those whose superclass it is. -/
theorem mem_subclasses_link_iff (hc : g.link.classes[i]? = some c) :
    k ∈ c.subclasses ↔ ∃ c', g.link.classes[k]? = some c' ∧ c'.superclass.class? = some i := by
  rw [link, Array.getElem?_mapIdx, Option.map_eq_some_iff] at hc
  obtain ⟨before, hbefore, rfl⟩ := hc
  rw [mem_positionsByGroup_iff (Array.getElem?_eq_some_iff.mp hbefore).1]
  simp [link]

/-- The instances of a class are those whose class it is. -/
theorem mem_instances_link_iff (hc : g.link.classes[i]? = some c) :
    k ∈ c.instances ↔ ∃ o, g.link.instances[k]? = some o ∧ o.classRef.class? = some i := by
  rw [link, Array.getElem?_mapIdx, Option.map_eq_some_iff] at hc
  obtain ⟨before, hbefore, rfl⟩ := hc
  rw [mem_positionsByGroup_iff (Array.getElem?_eq_some_iff.mp hbefore).1]
  simp [link]

end Graph

end HeapDump
