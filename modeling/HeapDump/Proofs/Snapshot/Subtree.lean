/-
HeapDump/Proofs/Snapshot/Subtree.lean

The instances of a class and of its subclasses, when no chain of superclasses is endless.

They are those of the class itself in the order of the file, and then those of each subclass, the
last one first.  Written as an equation for a function from classes to lists of instances,

    walk c = s.ownInstances c ++ (s.directSubclasses c).reverse.flatMap walk,

which in a forest has just one solution (`Forest.eq_of_walk`); the instances that are found are
this solution.

The limit on the number of classes that are visited has no effect, since no class is visited twice.
So each instance is listed once, and just if the class is its own or a superclass of its own: to be
below a class in the forest is the same as to have it among one's superclasses
(`Snapshot.mem_descendants_iff`).  Main statement: `instancesOf_eq_subtree`.
-/
import HeapDump.Proofs.Graph.Traversal
import HeapDump.Proofs.Snapshot.FieldData

namespace HeapDump

/-- The items at the positions that a property selects. -/
theorem filterMap_findIdxs (xs : List α) (p : α → Bool) :
    (xs.findIdxs p).filterMap (xs[·]?) = xs.filter p := by
  induction xs using List.reverseRecOn with
  | nil => rfl
  | append_singleton xs x ih =>
    have hfront : (xs.findIdxs p).filterMap ((xs ++ [x])[·]?)
        = (xs.findIdxs p).filterMap (xs[·]?) := by
      refine List.filterMap_congr fun i hi => ?_
      obtain ⟨hlt, -⟩ := List.mem_findIdxs_iff_exists_getElem_pos.mp hi
      exact List.getElem?_append_left hlt
    rw [List.findIdxs_append, List.filterMap_append, List.filter_append, hfront, ih]
    by_cases hx : p x <;> simp [hx]

/-- No two positions of an array have the same item if no two items have the same key. -/
theorem eq_of_getElem?_of_nodup {xs : Array α} {key : α → κ} (h : (xs.toList.map key).Nodup)
    {i j : Nat} {x : α} (hi : xs[i]? = some x) (hj : xs[j]? = some x) : i = j := by
  rw [← Array.getElem?_toList] at hi hj
  refine (List.getElem?_inj (List.getElem?_eq_some_iff.mp hi).1 h.of_map).mp ?_
  rw [hi, hj]

namespace Snapshot

/-! ### Down from a class -/

/-- The instances whose class is exactly the one at a position, in the order of the file. -/
def ownInstances (s : Snapshot) (k : Nat) : List Instance :=
  s.instances.toList.filter (·.classRef.class? = some k)

/-- The classes whose superclass is the one at a position, in the order of the file. -/
def directSubclasses (s : Snapshot) (k : Nat) : List Nat :=
  (s.classes.toList.map (·.superclass.class?)).findIdxs (· = some k)

variable {s : Snapshot} {g : Graph} {c k : Nat} {o : Instance}

theorem mem_ownInstances_iff :
    o ∈ s.ownInstances k ↔ o ∈ s.instances ∧ o.classRef.class? = some k := by
  rw [ownInstances, List.mem_filter, Array.mem_toList_iff, decide_eq_true_iff]

section

variable (hg : s.graph = g.link)
include hg

/-- The instances listed for a class are those whose class it was found to be. -/
theorem filterMap_instancesAt (hc : c < s.classes.size) :
    (instancesAt s.classes c).filterMap (s.instances[·]?) = s.ownInstances c := by
  have hclasses : s.classes = g.link.classes := congrArg Graph.classes hg
  have hinstances : s.instances = g.link.instances := congrArg Graph.instances hg
  rw [hclasses] at hc ⊢
  rw [g.instancesAt_link hc, List.findIdxs_map, ownInstances, hinstances, ← filterMap_findIdxs]
  simp only [Array.getElem?_toList]
  rfl

/-- The subclasses listed for a class are those whose superclass it was found to be. -/
theorem subclassesAt_eq (hc : c < s.classes.size) :
    subclassesAt s.classes c = s.directSubclasses c := by
  have hclasses : s.classes = g.link.classes := congrArg Graph.classes hg
  rw [directSubclasses]
  rw [hclasses] at hc ⊢
  exact g.subclassesAt_link hc

variable (hforest : Forest s.classes)
include hforest

/-- The instances below a class are its own, and then those below its subclasses. -/
theorem instancesOf_eq (hc : c < s.classes.size) :
    s.instancesOf c
      = s.ownInstances c ++ (subclassesAt s.classes c).reverse.flatMap s.instancesOf := by
  rw [instancesOf, hforest.instancesOf_eq hc, List.filterMap_append, filterMap_instancesAt hg hc,
    List.filterMap_flatMap]
  rfl

/-- An instance is found below a class if it is one of a descendant of the class. -/
theorem mem_instancesOf_iff (hc : c < s.classes.size) : o ∈ s.instancesOf c
    ↔ o ∈ s.instances ∧ ∃ k ∈ descendants s.classes c, o.classRef.class? = some k := by
  have hclasses : s.classes = g.link.classes := congrArg Graph.classes hg
  have hinstances : s.instances = g.link.instances := congrArg Graph.instances hg
  rw [instancesOf, List.mem_filterMap]
  constructor
  · rintro ⟨i, hi, ho⟩
    obtain ⟨k, hk, hik⟩ := (hforest.mem_instancesOf_iff c hc).mp hi
    rw [hclasses, g.mem_instancesAt_link_iff, ← hinstances] at hik
    obtain ⟨-, o', ho', hclass⟩ := hik
    obtain rfl := Option.some.inj (ho.symm.trans ho')
    exact ⟨Array.mem_of_getElem? ho, k, hk, hclass⟩
  · rintro ⟨hmem, k, hk, hclass⟩
    obtain ⟨i, ho⟩ := Array.getElem?_of_mem hmem
    refine ⟨i, (hforest.mem_instancesOf_iff c hc).mpr ⟨k, hk, ?_⟩, ho⟩
    have hlt := (hforest.mem_descendants_iff.mp hk).1
    rw [hclasses] at hlt ⊢
    exact g.mem_instancesAt_link_iff.mpr ⟨hlt, o, hinstances ▸ ho, hclass⟩

/-- No instance is found twice below a class. -/
theorem nodup_instancesOf (hids : (s.instances.toList.map (·.id)).Nodup)
    (hc : c < s.classes.size) : (s.instancesOf c).Nodup := by
  have hclasses : s.classes = g.link.classes := congrArg Graph.classes hg
  refine List.Nodup.filterMap (fun i j o hi hj => eq_of_getElem?_of_nodup hids hi hj) ?_
  refine hforest.nodup_instancesOf (fun i => ?_) (fun i j k hi hj => ?_) c hc
  · rw [hclasses]
    exact g.nodup_instancesAt_link i
  · rw [hclasses, g.mem_instancesAt_link_iff] at hi hj
    obtain ⟨-, o, ho, hclass⟩ := hi
    obtain ⟨-, o', ho', hclass'⟩ := hj
    obtain rfl := Option.some.inj (ho.symm.trans ho')
    exact Option.some.inj (hclass.symm.trans hclass')

end

/-- The descendants of a class are itself and the classes that have it among their
superclasses. -/
theorem mem_descendants_iff (hids : (s.classes.toList.map (·.id)).Nodup)
    (hc : c < s.classes.size) (hk : k < s.classes.size) : k ∈ descendants s.classes c
    ↔ k = c ∨ ∃ class', s.classes[c]? = some class' ∧ class' ∈ s.superclasses k := by
  have hchain : superclassChain s.classes k = k :: (superclassChain s.classes k).tail := by
    rw [superclassChain, superclassesFrom_succ]
    rfl
  rw [descendants, Finset.mem_filter, Finset.mem_range, and_iff_right hk, hchain, List.mem_cons,
    eq_comm]
  refine or_congr_right ⟨fun hmem => ?_, ?_⟩
  · exact ⟨s.classes[c], Array.getElem?_eq_getElem hc,
      List.mem_filterMap.mpr ⟨c, hmem, Array.getElem?_eq_getElem hc⟩⟩
  · rintro ⟨class', hclass, hmem⟩
    obtain ⟨i, hi, hclass'⟩ := List.mem_filterMap.mp hmem
    rwa [← eq_of_getElem?_of_nodup hids hclass' hclass]

end Snapshot

/-- **The instances of a class and its subclasses are the subtree of the class** when no chain of
superclasses is endless.  Walking down means to take the instances of a class in the order of the
file, and then to walk down from each of its subclasses, the last one first: this describes the
instances found below each class, and nothing else does.  The walk finds the same whatever its
limit, if this is the number of classes or more.  It finds each instance once, and those whose
class is the one where it begins or has it among its superclasses. -/
theorem instancesOf_eq_subtree (header : Header) (log : Diagnostics) (records : List Record)
    (resolveFields : Bool) :
    let s := (records.foldl Draft.push { header, diagnostics := log }).finish resolveFields
    (∀ c < s.classes.size, ¬Endless s.classes c) →
    (∀ walk : Nat → List Instance,
      (∀ c < s.classes.size,
          walk c = s.ownInstances c ++ (s.directSubclasses c).reverse.flatMap walk)
        ↔ ∀ c < s.classes.size, walk c = s.instancesOf c)
    ∧ ∀ c < s.classes.size,
      (∀ limit ≥ s.classes.size,
        (instancesBelow s.classes limit [c] #[]).toList = instancesOf s.classes c)
      ∧ (s.instancesOf c).Nodup
      ∧ ∀ o, o ∈ s.instancesOf c ↔ o ∈ s.instances ∧ ∃ k, o.classRef.class? = some k
        ∧ (k = c ∨ ∃ class', s.classes[c]? = some class' ∧ class' ∈ s.superclasses k) := by
  intro s hends
  let d := records.foldl Draft.push { header, diagnostics := log }
  have hholds : d.Holds records := Draft.holds_foldl_push header log records
  obtain ⟨g, hg⟩ : ∃ g : Graph, s.graph = g.link := ⟨_, d.graph_finish resolveFields⟩
  have hclasses : s.classes = g.link.classes := congrArg Graph.classes hg
  -- without endless chains the links between classes are those of a forest
  have hforest : Forest s.classes := by
    rw [hclasses]
    exact g.forest_link (hclasses ▸ hholds.parentsInside_finish resolveFields) (hclasses ▸ hends)
  have hdown (c : Nat) (hc : c < s.classes.size) : s.instancesOf c
      = s.ownInstances c ++ (subclassesAt s.classes c).reverse.flatMap s.instancesOf :=
    Snapshot.instancesOf_eq hg hforest hc
  refine ⟨fun walk => ⟨fun hwalk => ?_, fun hwalk c hc => ?_⟩, fun c hc => ⟨?_, ?_, fun o => ?_⟩⟩
  -- the description determines the walk: in a forest there is only one such function
  · refine hforest.eq_of_walk (fun c hc => ?_) hdown
    rw [Snapshot.subclassesAt_eq hg hc]
    exact hwalk c hc
  -- and the instances that are found fit it
  · rw [hwalk c hc, hdown c hc, Snapshot.subclassesAt_eq hg hc]
    refine congrArg _ (List.flatMap_congr fun j hj => (hwalk j ?_).symm)
    exact hforest.lt_size_of_mem (Snapshot.subclassesAt_eq hg hc ▸ List.mem_reverse.mp hj)
  -- the limit is not reached, since no class is visited twice
  · exact fun limit hlimit => hforest.toList_instancesBelow_singleton hc hlimit
  · exact Snapshot.nodup_instancesOf hg hforest (hholds.nodup_instanceIds_finish resolveFields) hc
  -- down from a class is the same as up to it
  · rw [Snapshot.mem_instancesOf_iff hg hforest hc]
    refine and_congr_right fun ho => exists_congr fun k => and_comm.trans ?_
    refine and_congr_right fun hclass => ?_
    exact Snapshot.mem_descendants_iff (hholds.nodup_classIds_finish resolveFields) hc
      (hholds.lt_size_of_class?_finish resolveFields ho hclass)

/-- Below the class at the top there are its own object and then those of the subclass. -/
theorem instancesOf_eq_subtree_sampleInheritance :
    let s := sampleSnapshot (sampleInheritance 0)
    (∀ c < s.classes.size, ¬Endless s.classes c)
      ∧ (s.instancesOf 0).Nodup
      ∧ (∃ o ∈ s.instancesOf 0, o.classRef.class? = some 1)
      ∧ (s.instancesOf 0).map (·.id) = [34, 32, 33] := by
  intro s
  have hsize : s.classes.size = 2 := by decide +kernel
  have htop : parent? s.classes 0 = none := by decide +kernel
  have hsub : parent? s.classes 1 = some 0 := by decide +kernel
  have hends : ∀ c < s.classes.size, ¬Endless s.classes c := by
    intro c hc
    refine exists_lineage_iff.mp ?_
    obtain rfl | rfl : c = 0 ∨ c = 1 := by omega
    · exact ⟨_, .top htop⟩
    · exact ⟨_, .step hsub (.top htop)⟩
  obtain ⟨-, hbelow⟩ := instancesOf_eq_subtree ⟨"JAVA PROFILE 1.0.2", 4, 1700000000000, 31⟩ {}
    (sampleInheritance 0) true hends
  obtain ⟨-, hnodup, hmem⟩ := hbelow 0 (hsize ▸ Nat.zero_lt_two)
  have hdata : s.instances[0]?.map (·.classRef.class?) = some (some 1) := by decide +kernel
  obtain ⟨o, ho, hclass⟩ := Option.map_eq_some_iff.mp hdata
  have habove : ∃ class', s.classes[0]? = some class' ∧ class' ∈ s.superclasses 1 :=
    ⟨s.classes[0], Array.getElem?_eq_getElem _,
      List.mem_filterMap.mpr ⟨0, by decide +kernel, Array.getElem?_eq_getElem _⟩⟩
  exact ⟨hends, hnodup, ⟨o, (hmem o).mpr ⟨Array.mem_of_getElem? ho, 1, hclass, .inr habove⟩,
    hclass⟩, by decide +kernel⟩

end HeapDump
