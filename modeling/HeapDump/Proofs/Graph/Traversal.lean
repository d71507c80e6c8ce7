/-
HeapDump/Proofs/Graph/Traversal.lean

Walks down a hierarchy of classes without cycles.

If no chain of superclasses is endless and the lists of subclasses are the inverse of the
superclasses, the classes are a forest (`Forest`).  The classes below one are itself and those
below its subclasses, which have none in common, so their numbers add up
(`Forest.card_descendants`).

A walk with a stack is long enough if it may visit as many classes as there are below those on
the stack, `visits classes pending`, and each visit takes one from that number
(`Forest.visits_cons`).  So a walk from one class visits no more classes than there are, and by
induction on the number it finds the instances of a class and then those below each subclass, the
last one first:

    instancesOf classes i
      = instancesAt classes i ++ (subclassesAt classes i).reverse.flatMap (instancesOf classes)

(`Forest.instancesOf_eq`).  From this equation follow, by induction over the forest, which
instances are found (`Forest.mem_instancesOf_iff`) and that none is found twice
(`Forest.nodup_instancesOf`).
-/
import HeapDump.Proofs.Graph.Ancestry
import HeapDump.Proofs.Graph.Linking
import HeapDump.Proofs.Graph.Links
import Mathlib.Algebra.BigOperators.Group.Finset.Basic
import Mathlib.Algebra.GroupWithZero.Nat
import Mathlib.Algebra.Order.BigOperators.Group.List
import Mathlib.Algebra.Order.Group.Nat
import Mathlib.Data.Finset.Card

namespace HeapDump

/-- The subclasses of the class at a position. -/
def subclassesAt (classes : Array ClassObject) (i : Nat) : List Nat :=
  classes[i]?.elim [] (·.subclasses)

/-- The instances whose class is exactly the one at a position. -/
def instancesAt (classes : Array ClassObject) (i : Nat) : List Nat :=
  classes[i]?.elim [] (·.instances)

/-- Lists of subclasses that are the inverse of the superclasses, in the order of the classes. -/
structure Hierarchy (classes : Array ClassObject) : Prop where
  mem_subclassesAt_iff : ∀ i j, j ∈ subclassesAt classes i ↔ parent? classes j = some i
  increasing : ∀ i, (subclassesAt classes i).Pairwise (· < ·)

/-- Classes without endless chains, with lists of subclasses that are the inverse of the
superclasses. -/
structure Forest (classes : Array ClassObject) : Prop where
  parentsInside : ParentsInside classes
  not_endless : ∀ i < classes.size, ¬Endless classes i
  mem_subclassesAt_iff : ∀ i j, j ∈ subclassesAt classes i ↔ parent? classes j = some i
  nodup_subclassesAt : ∀ i, (subclassesAt classes i).Nodup

/-- The positions of the classes whose chain of superclasses leads through the one at `i`. -/
def descendants (classes : Array ClassObject) (i : Nat) : Finset Nat :=
  (Finset.range classes.size).filter fun j => i ∈ superclassChain classes j

namespace Forest

variable {classes : Array ClassObject} (h : Forest classes) {i j k : Nat}
include h

/-! ### Descendants -/

theorem mem_descendants_iff : j ∈ descendants classes i
    ↔ j < classes.size ∧ ∃ chain, Lineage classes j chain ∧ i ∈ chain := by
  rw [descendants, Finset.mem_filter, Finset.mem_range]
  refine and_congr_right fun hj => ?_
  obtain ⟨chain, hchain⟩ := exists_lineage_iff.mpr (h.not_endless j hj)
  rw [hchain.superclassChain_eq h.parentsInside hj]
  constructor
  · exact fun hi => ⟨chain, hchain, hi⟩
  · rintro ⟨chain', hchain', hi⟩
    rwa [hchain.unique hchain']

theorem lt_size_of_mem (hj : j ∈ subclassesAt classes i) : j < classes.size :=
  lt_size_of_parent? ((h.mem_subclassesAt_iff i j).mp hj)

theorem self_mem_descendants (hi : i < classes.size) : i ∈ descendants classes i := by
  obtain ⟨chain, hchain⟩ := exists_lineage_iff.mpr (h.not_endless i hi)
  exact h.mem_descendants_iff.mpr ⟨hi, chain, hchain, hchain.self_mem⟩

/-- The descendants of a class are itself and those of its subclasses. -/
theorem descendants_eq (hi : i < classes.size) : descendants classes i
    = insert i ((subclassesAt classes i).toFinset.biUnion (descendants classes)) := by
  ext j
  rw [Finset.mem_insert, Finset.mem_biUnion]
  simp only [List.mem_toFinset, h.mem_subclassesAt_iff]
  constructor
  · intro hj
    obtain ⟨hjn, chain, hchain, hmem⟩ := h.mem_descendants_iff.mp hj
    rcases hchain.mem_iff.mp hmem with rfl | ⟨s, hs, hparent⟩
    · exact .inl rfl
    · exact .inr ⟨s, hparent, h.mem_descendants_iff.mpr ⟨hjn, chain, hchain, hs⟩⟩
  · rintro (rfl | ⟨s, hparent, hj⟩)
    · exact h.self_mem_descendants hi
    · obtain ⟨hjn, chain, hchain, hmem⟩ := h.mem_descendants_iff.mp hj
      exact h.mem_descendants_iff.mpr
        ⟨hjn, chain, hchain, hchain.mem_iff.mpr (.inr ⟨s, hmem, hparent⟩)⟩

/-- No class is below one of its subclasses. -/
theorem not_mem_descendants (hj : j ∈ subclassesAt classes i) : i ∉ descendants classes j := by
  intro hi
  obtain ⟨-, chain, hchain, hmem⟩ := h.mem_descendants_iff.mp hi
  have hlonger := Lineage.step ((h.mem_subclassesAt_iff i j).mp hj) hchain
  exact (List.nodup_cons.mp hlonger.nodup).1 hmem

/-- Two subclasses of a class have no descendants in common. -/
theorem disjoint_descendants (hj : j ∈ subclassesAt classes i) (hk : k ∈ subclassesAt classes i)
    (hne : j ≠ k) : Disjoint (descendants classes j) (descendants classes k) := by
  refine Finset.disjoint_left.mpr fun l hl hl' => hne ?_
  obtain ⟨-, chain, hchain, hmem⟩ := h.mem_descendants_iff.mp hl
  obtain ⟨-, chain', hchain', hmem'⟩ := h.mem_descendants_iff.mp hl'
  obtain rfl := hchain.unique hchain'
  obtain ⟨above, habove, hsuffix⟩ := hchain.exists_suffix hmem
  obtain ⟨above', habove', hsuffix'⟩ := hchain.exists_suffix hmem'
  -- both are as far from the top as each other
  have hi := h.parentsInside j i ((h.mem_subclassesAt_iff i j).mp hj)
  obtain ⟨top, htop⟩ := exists_lineage_iff.mpr (h.not_endless i hi)
  obtain rfl := habove.unique (.step ((h.mem_subclassesAt_iff i j).mp hj) htop)
  obtain rfl := habove'.unique (.step ((h.mem_subclassesAt_iff i k).mp hk) htop)
  have heq := List.IsSuffix.eq_of_length (List.suffix_of_suffix_length_le hsuffix hsuffix'
    (Nat.le_refl _)) rfl
  exact (List.cons.inj heq).1

/-- The number of descendants of some classes, each with its own. -/
theorem card_descendants (hi : i < classes.size) : (descendants classes i).card
    = ((subclassesAt classes i).map fun j => (descendants classes j).card).sum + 1 := by
  have hself : i ∉ (subclassesAt classes i).toFinset.biUnion (descendants classes) := by
    simp only [Finset.mem_biUnion, List.mem_toFinset, not_exists, not_and]
    exact fun j hj => h.not_mem_descendants hj
  rw [h.descendants_eq hi, Finset.card_insert_of_notMem hself, Finset.card_biUnion,
    List.sum_toFinset _ (h.nodup_subclassesAt i)]
  intro j hj k hk hne
  exact h.disjoint_descendants (List.mem_toFinset.mp hj) (List.mem_toFinset.mp hk) hne

/-- What holds of a class if it holds of its subclasses holds of all classes. -/
theorem induction {motive : Nat → Prop}
    (step : ∀ i < classes.size, (∀ j ∈ subclassesAt classes i, motive j) → motive i) :
    ∀ i < classes.size, motive i := by
  intro i hi
  induction hcard : (descendants classes i).card using Nat.strong_induction_on generalizing i with
  | _ n ih =>
    refine step i hi fun j hj => ih _ ?_ j (h.lt_size_of_mem hj) rfl
    rw [← hcard, h.card_descendants hi]
    exact Nat.lt_succ_of_le (List.le_sum_of_mem (List.mem_map_of_mem hj))

end Forest

/-! ### The walk with a stack -/

/-- The number of classes that a walk over the classes on a stack visits. -/
def visits (classes : Array ClassObject) (pending : List Nat) : Nat :=
  (pending.map fun i => (descendants classes i).card).sum

theorem visits_append (classes : Array ClassObject) (xs ys : List Nat) :
    visits classes (xs ++ ys) = visits classes xs + visits classes ys := by
  rw [visits, List.map_append, List.sum_append]
  rfl

theorem instancesBelow_nil (classes : Array ClassObject) (fuel : Nat) (found : Array Nat) :
    instancesBelow classes fuel [] found = found := by
  cases fuel <;> rfl

theorem instancesBelow_cons (classes : Array ClassObject) (fuel i : Nat) (pending : List Nat)
    (found : Array Nat) :
    instancesBelow classes (fuel + 1) (i :: pending) found
      = instancesBelow classes fuel ((subclassesAt classes i).reverse ++ pending)
        (found ++ instancesAt classes i) := by
  rw [instancesBelow, subclassesAt, instancesAt]
  cases classes[i]? with
  | none => simp
  | some c => rfl

theorem visits_singleton_le (classes : Array ClassObject) (i : Nat) :
    visits classes [i] ≤ classes.size := by
  rw [visits, List.map_singleton, List.sum_singleton, descendants]
  exact (Finset.card_filter_le _ _).trans_eq (Finset.card_range _)

namespace Forest

variable {classes : Array ClassObject} (h : Forest classes) {i : Nat}
include h

theorem visits_cons (hi : i < classes.size) (pending : List Nat) :
    visits classes (i :: pending)
      = visits classes ((subclassesAt classes i).reverse ++ pending) + 1 := by
  rw [visits, List.map_cons, List.sum_cons, h.card_descendants hi, visits, List.map_append,
    List.sum_append, List.map_reverse, List.sum_reverse]
  omega

/-- The instances below a class are its own and those below its subclasses, if the walk finds
the latter. -/
theorem instancesOf_eq_of_toList (hi : i < classes.size)
    (hsubclasses : ∀ fuel found, visits classes (subclassesAt classes i).reverse ≤ fuel →
      (instancesBelow classes fuel (subclassesAt classes i).reverse found).toList
        = found.toList ++ (subclassesAt classes i).reverse.flatMap (instancesOf classes)) :
    instancesOf classes i = instancesAt classes i
      ++ (subclassesAt classes i).reverse.flatMap (instancesOf classes) := by
  have hle := visits_singleton_le classes i
  rw [h.visits_cons hi, List.append_nil] at hle
  obtain ⟨m, hm⟩ := Nat.exists_eq_add_of_le' (Nat.le_of_add_left_le hle)
  rw [instancesOf, hm, instancesBelow_cons, List.append_nil, hsubclasses _ _ (by omega)]
  simp

/-- **A walk that is long enough finds the instances below each class on the stack**, the
uppermost class first. -/
theorem toList_instancesBelow {fuel : Nat} {pending : List Nat} {found : Array Nat}
    (hpending : ∀ i ∈ pending, i < classes.size) (hfuel : visits classes pending ≤ fuel) :
    (instancesBelow classes fuel pending found).toList
      = found.toList ++ pending.flatMap (instancesOf classes) := by
  -- by the number of classes that are still to be visited
  induction hn : visits classes pending using Nat.strong_induction_on
    generalizing fuel pending found with
  | _ n ih =>
    cases pending with
    | nil => simp [instancesBelow_nil]
    | cons i pending =>
      obtain ⟨hi, hpending⟩ := List.forall_mem_cons.mp hpending
      have hsubclasses : ∀ j ∈ (subclassesAt classes i).reverse, j < classes.size := fun j hj =>
        h.lt_size_of_mem (List.mem_reverse.mp hj)
      have hrest : ∀ j ∈ (subclassesAt classes i).reverse ++ pending, j < classes.size :=
        fun j hj => (List.mem_append.mp hj).elim (hsubclasses j) (hpending j)
      rw [h.visits_cons hi] at hn hfuel
      -- the walk that begins at `i` alone is the instances of `i` and then a shorter walk
      have hself : instancesOf classes i = instancesAt classes i
          ++ (subclassesAt classes i).reverse.flatMap (instancesOf classes) := by
        rw [visits_append] at hn
        exact h.instancesOf_eq_of_toList hi fun fuel found hfuel =>
          ih _ (by omega) hsubclasses hfuel rfl
      obtain ⟨m, rfl⟩ := Nat.exists_eq_add_of_le' (Nat.le_of_add_left_le hfuel)
      rw [instancesBelow_cons, ih _ (by omega) hrest (by omega) rfl, List.flatMap_cons, hself]
      simp

/-- **The instances below a class** are its own, and then those below its subclasses, the last
one first. -/
theorem instancesOf_eq (hi : i < classes.size) :
    instancesOf classes i = instancesAt classes i
      ++ (subclassesAt classes i).reverse.flatMap (instancesOf classes) :=
  h.instancesOf_eq_of_toList hi fun _ _ hfuel =>
    h.toList_instancesBelow (fun _ hj => h.lt_size_of_mem (List.mem_reverse.mp hj)) hfuel

/-- The walk may be longer than there are classes, and finds the same. -/
theorem toList_instancesBelow_singleton (hi : i < classes.size) {limit : Nat}
    (hlimit : classes.size ≤ limit) :
    (instancesBelow classes limit [i] #[]).toList = instancesOf classes i := by
  rw [h.toList_instancesBelow (by simpa using hi) ((visits_singleton_le classes i).trans hlimit)]
  simp

/-- There is one way only to go down from each class to its subclasses. -/
theorem eq_of_walk {α : Type} {own : Nat → List α} {f g : Nat → List α}
    (hf : ∀ i < classes.size, f i = own i ++ (subclassesAt classes i).reverse.flatMap f)
    (hg : ∀ i < classes.size, g i = own i ++ (subclassesAt classes i).reverse.flatMap g) :
    ∀ i < classes.size, f i = g i := by
  refine h.induction fun i hi ih => ?_
  rw [hf i hi, hg i hi]
  exact congrArg _ (List.flatMap_congr fun j hj => ih j (List.mem_reverse.mp hj))

/-- An instance is found below a class if it belongs to one of its descendants. -/
theorem mem_instancesOf_iff {k : Nat} : ∀ i < classes.size,
    (k ∈ instancesOf classes i ↔ ∃ j ∈ descendants classes i, k ∈ instancesAt classes j) := by
  refine h.induction fun i hi ih => ?_
  rw [h.instancesOf_eq hi, h.descendants_eq hi, List.mem_append, List.mem_flatMap]
  simp only [Finset.mem_insert, Finset.mem_biUnion, List.mem_toFinset, List.mem_reverse]
  constructor
  · rintro (hk | ⟨j, hj, hk⟩)
    · exact ⟨i, .inl rfl, hk⟩
    · obtain ⟨l, hl, hk⟩ := (ih j hj).mp hk
      exact ⟨l, .inr ⟨j, hj, hl⟩, hk⟩
  · rintro ⟨l, rfl | ⟨j, hj, hl⟩, hk⟩
    · exact .inl hk
    · exact .inr ⟨j, hj, (ih j hj).mpr ⟨l, hl, hk⟩⟩

/-- No instance is found twice, if each belongs to one class only. -/
theorem nodup_instancesOf (hnodup : ∀ i, (instancesAt classes i).Nodup)
    (hunique : ∀ i j k, k ∈ instancesAt classes i → k ∈ instancesAt classes j → i = j) :
    ∀ i < classes.size, (instancesOf classes i).Nodup := by
  refine h.induction fun i hi ih => ?_
  have hlt (j : Nat) (hj : j ∈ subclassesAt classes i) := h.lt_size_of_mem hj
  rw [h.instancesOf_eq hi]
  refine List.nodup_append'.mpr ⟨hnodup i, List.nodup_flatMap.mpr ⟨fun j hj => ?_, ?_⟩, ?_⟩
  · exact ih j (List.mem_reverse.mp hj)
  · -- subclasses have no descendants in common
    refine (List.nodup_reverse.mpr (h.nodup_subclassesAt i)).imp_of_mem fun hj hk hne => ?_
    rw [List.mem_reverse] at hj hk
    intro l hl hl'
    obtain ⟨a, ha, hla⟩ := (h.mem_instancesOf_iff _ (hlt _ hj)).mp hl
    obtain ⟨b, hb, hlb⟩ := (h.mem_instancesOf_iff _ (hlt _ hk)).mp hl'
    obtain rfl := hunique a b l hla hlb
    exact Finset.disjoint_left.mp (h.disjoint_descendants hj hk hne) ha hb
  · -- the class is none of its subclasses' descendants
    intro k hk hk'
    obtain ⟨j, hj, hk'⟩ := List.mem_flatMap.mp hk'
    rw [List.mem_reverse] at hj
    obtain ⟨a, ha, hka⟩ := (h.mem_instancesOf_iff j (hlt j hj)).mp hk'
    obtain rfl := hunique i a k hk hka
    exact h.not_mem_descendants hj ha

end Forest

/-! ### Linked classes -/

namespace Graph

variable (g : Graph)

/-- The subclasses of a class are the classes whose superclass it is, in their order. -/
theorem subclassesAt_link {i : Nat} (hi : i < g.link.classes.size) :
    subclassesAt g.link.classes i
      = (g.link.classes.toList.map (·.superclass.class?)).findIdxs (· = some i) := by
  rw [g.sameButLinks_link.size_eq] at hi
  rw [← Array.toList_map, g.sameButLinks_link.map_eq fun _ => rfl, Array.toList_map, subclassesAt,
    link, Array.getElem?_mapIdx, Array.getElem?_eq_getElem hi]
  show ((positionsByGroup _ _).getD i #[]).toList = _
  rw [Array.getD_eq_getD_getElem?, getElem?_positionsByGroup, if_pos hi]
  rfl

/-- The instances of a class are those whose class it is, in their order. -/
theorem instancesAt_link {i : Nat} (hi : i < g.link.classes.size) :
    instancesAt g.link.classes i
      = (g.link.instances.toList.map (·.classRef.class?)).findIdxs (· = some i) := by
  rw [g.sameButLinks_link.size_eq] at hi
  rw [instancesAt, link, Array.getElem?_mapIdx, Array.getElem?_eq_getElem hi]
  show ((positionsByGroup _ _).getD i #[]).toList = _
  rw [Array.getD_eq_getD_getElem?, getElem?_positionsByGroup, if_pos hi]
  rfl

/-- An instance is one of a class if this is the class that it was found to have. -/
theorem mem_instancesAt_link_iff {i k : Nat} : k ∈ instancesAt g.link.classes i
    ↔ i < g.link.classes.size
      ∧ ∃ o, g.link.instances[k]? = some o ∧ o.classRef.class? = some i := by
  rw [instancesAt]
  cases hc : g.link.classes[i]? with
  | none => simp [Array.getElem?_eq_none_iff.mp hc]
  | some c =>
    have hi := (Array.getElem?_eq_some_iff.mp hc).1
    exact (mem_instances_link_iff hc).trans (and_iff_right hi).symm

theorem nodup_instancesAt_link (i : Nat) : (instancesAt g.link.classes i).Nodup := by
  by_cases hi : i < g.link.classes.size
  · rw [g.instancesAt_link hi]
    exact List.nodup_findIdxs
  · rw [instancesAt, Array.getElem?_eq_none (Nat.not_lt.mp hi)]
    exact List.nodup_nil

/-- Linking makes the lists of subclasses the inverse of the superclasses. -/
theorem hierarchy_link (hin : ParentsInside g.link.classes) : Hierarchy g.link.classes where
  mem_subclassesAt_iff i j := by
    rw [subclassesAt]
    cases hc : g.link.classes[i]? with
    | none =>
      refine ⟨fun hj => (List.not_mem_nil hj).elim, fun hj => ?_⟩
      exact absurd (hin j i hj) (Nat.not_lt.mpr (Array.getElem?_eq_none_iff.mp hc))
    | some c => exact (mem_subclasses_link_iff hc).trans Option.bind_eq_some_iff.symm
  increasing i := by
    by_cases hi : i < g.link.classes.size
    · rw [g.subclassesAt_link hi]
      exact List.pairwise_findIdxs
    · rw [subclassesAt, Array.getElem?_eq_none (Nat.not_lt.mp hi)]
      exact .nil

/-- Classes that have been linked are a forest, unless a chain of superclasses is endless. -/
theorem forest_link (hin : ParentsInside g.link.classes)
    (hends : ∀ i < g.link.classes.size, ¬Endless g.link.classes i) : Forest g.link.classes where
  parentsInside := hin
  not_endless := hends
  mem_subclassesAt_iff := (g.hierarchy_link hin).mem_subclassesAt_iff
  nodup_subclassesAt i := ((g.hierarchy_link hin).increasing i).imp Nat.ne_of_lt

end Graph

end HeapDump
