/-
HeapDump/Proofs/Snapshot/DamagedHierarchy.lean

The instances of a class and of its subclasses, when superclasses may be cyclic.

The documentation promises the instances of a class and of its subclasses.  `FindsInstances` is
this promise for one class: just these instances, each of them once.

A walk that begins at a class which is on no cycle keeps it, whatever cycles there are elsewhere
(`findsInstances_of_not_onCycle`).  One that begins on a cycle goes round until it has visited as
many classes as there are (`Round`).  So it never comes to what is skipped, and finds the
instances of other classes again and again.

It is right just if no instances below are of a skipped class, and the walk is over before it
meets any of them for a second time (`findsInstances_iff_of_round`).  If the class has instances of
its own, these are met again as soon as the round is over, so the round has to visit every class
of the snapshot (`findsInstances_iff_of_own`).

Main statement: `instancesOf_of_cyclic`; `instancesOf_wrong_sampleLoops` is a small hierarchy where
the promise is broken both ways.
-/
import HeapDump.Proofs.Graph.Walk
import HeapDump.Proofs.Snapshot.Subtree
import Mathlib.Data.Nat.ModEq

namespace HeapDump

namespace Snapshot

/-- Below a class no instance is found twice, and all that are there are found. -/
def FindsInstances (s : Snapshot) (c : Nat) : Prop :=
  (s.instancesOf c).Nodup
    ∧ ∀ o ∈ s.instances, ∀ k, o.classRef.class? = some k → Below s.classes c k →
      o ∈ s.instancesOf c

/-- The instances of the classes of a round, which is repeated until there are as many classes as
the snapshot has. -/
def instancesAlong (s : Snapshot) (round : List Nat) : List Instance :=
  (List.range s.classes.size).flatMap fun t => (round[t % round.length]?).elim [] s.ownInstances

variable {s : Snapshot} {g : Graph} {c k : Nat} {o : Instance}

/-! ### Rounds -/

section

variable {round : List Nat}

/-- An instance is found at a place of a round if its class is there. -/
theorem mem_elim_ownInstances_iff {t : Nat} : o ∈ (round[t]?).elim [] s.ownInstances
    ↔ o ∈ s.instances ∧ ∃ k, round[t]? = some k ∧ o.classRef.class? = some k := by
  cases hk : round[t]? with
  | none => simp
  | some k => simp [mem_ownInstances_iff]

theorem mem_instancesAlong_iff (hle : round.length ≤ s.classes.size) : o ∈ s.instancesAlong round
    ↔ o ∈ s.instances ∧ ∃ k ∈ round, o.classRef.class? = some k := by
  rw [instancesAlong, List.mem_flatMap]
  simp only [mem_elim_ownInstances_iff, List.mem_range]
  constructor
  · rintro ⟨t, -, ho, k, hk, hclass⟩
    exact ⟨ho, k, List.mem_of_getElem? hk, hclass⟩
  · rintro ⟨ho, k, hk, hclass⟩
    obtain ⟨t, ht⟩ := List.getElem?_of_mem hk
    have hlt := (List.getElem?_eq_some_iff.mp ht).1
    exact ⟨t, hlt.trans_le hle, ho, k, by rw [Nat.mod_eq_of_lt hlt, ht], hclass⟩

/-- Nothing comes twice just if no class that has instances is met for a second time. -/
theorem nodup_instancesAlong_iff (hnodup : s.instances.toList.Nodup) (hround : round.Nodup) :
    (s.instancesAlong round).Nodup ↔ ∀ o ∈ s.instances, ∀ k t, o.classRef.class? = some k →
      round[t]? = some k → s.classes.size ≤ t + round.length := by
  rw [instancesAlong, List.nodup_flatMap]
  constructor
  · rintro ⟨-, hdisjoint⟩ o ho k t hclass hk
    have hlt := (List.getElem?_eq_some_iff.mp hk).1
    by_contra hmore
    -- the round would come to this place again
    have hagain := List.pairwise_iff_getElem.mp hdisjoint t (t + round.length)
      (by rw [List.length_range]; omega) (by rw [List.length_range]; omega) (by omega)
    rw [List.getElem_range, List.getElem_range] at hagain
    refine hagain (mem_elim_ownInstances_iff.mpr ⟨ho, k, ?_, hclass⟩)
      (mem_elim_ownInstances_iff.mpr ⟨ho, k, ?_, hclass⟩)
    · rw [Nat.mod_eq_of_lt hlt, hk]
    · rw [Nat.add_mod_right, Nat.mod_eq_of_lt hlt, hk]
  · refine fun hplaces => ⟨fun t _ => ?_,
      List.pairwise_lt_range.imp_of_mem fun {a b} _ hb hlt o ho ho' => ?_⟩
    · cases round[t % round.length]? with
      | none => exact List.nodup_nil
      | some k => exact hnodup.filter _
    · obtain ⟨hin, k, hk, hclass⟩ := mem_elim_ownInstances_iff.mp ho
      obtain ⟨-, k', hk', hclass'⟩ := mem_elim_ownInstances_iff.mp ho'
      obtain rfl := Option.some.inj (hclass.symm.trans hclass')
      -- both are at the same place of the round, so they are a round apart at least
      have hsame : a % round.length = b % round.length :=
        (List.getElem?_inj (List.getElem?_eq_some_iff.mp hk).1 hround).mp (hk.trans hk'.symm)
      have happart := Nat.ModEq.add_le_of_lt hsame hlt
      have hplace := hplaces o hin k _ hclass hk
      have hmod := Nat.mod_le a round.length
      have hb := List.mem_range.mp hb
      omega

end

/-! ### Walks -/

section

variable (hg : s.graph = g.link) (h : Hierarchy s.classes)
include hg h

/-- What a walk finds are the own instances of the classes that it visits. -/
theorem instancesOf_eq_visited (hc : c < s.classes.size) :
    s.instancesOf c = (visited s.classes s.classes.size [c]).flatMap s.ownInstances := by
  rw [instancesOf, HeapDump.instancesOf, toList_instancesBelow_eq, List.nil_append,
    List.filterMap_flatMap]
  exact List.flatMap_congr fun k hk =>
    filterMap_instancesAt hg ((h.below_of_mem_visited hk).lt_size hc)

theorem mem_instancesOf_iff_visited (hc : c < s.classes.size) : o ∈ s.instancesOf c
    ↔ o ∈ s.instances
      ∧ ∃ k, o.classRef.class? = some k ∧ k ∈ visited s.classes s.classes.size [c] := by
  rw [instancesOf_eq_visited hg h hc, List.mem_flatMap]
  simp only [mem_ownInstances_iff]
  constructor
  · rintro ⟨k, hk, ho, hclass⟩
    exact ⟨ho, k, hclass, hk⟩
  · rintro ⟨ho, k, hclass, hk⟩
    exact ⟨k, hk, ho, hclass⟩

theorem instancesOf_eq_instancesAlong {round : List Nat} (hr : Round s.classes c round)
    (hcycle : OnCycle s.classes c) (hc : c < s.classes.size) :
    s.instancesOf c = s.instancesAlong round := by
  rw [instancesOf_eq_visited hg h hc, hr.flatMap_visited h hcycle]
  rfl

variable (hnodup : s.instances.toList.Nodup)
include hnodup

/-- From a class on no cycle all is found, and nothing twice. -/
theorem findsInstances_of_not_onCycle (hc : c < s.classes.size) (hoff : ¬OnCycle s.classes c) :
    s.FindsInstances c := by
  constructor
  · rw [instancesOf_eq_visited hg h hc, List.nodup_flatMap]
    refine ⟨fun k _ => hnodup.filter _,
      (h.nodup_visited (h.count_visited_self_le hoff _)).imp fun hne o ho ho' => hne ?_⟩
    rw [mem_ownInstances_iff] at ho ho'
    exact Option.some.inj (ho.2.symm.trans ho'.2)
  · intro o ho k hclass hbelow
    exact (mem_instancesOf_iff_visited hg h hc).mpr
      ⟨ho, k, hclass, (h.mem_visited_iff hc hoff).mpr hbelow⟩

/-- From a class on a cycle all is found, and nothing twice, just if the classes of all instances
are in the round, at places which the walk does not reach for a second time. -/
theorem findsInstances_iff_of_round {round : List Nat} (hr : Round s.classes c round)
    (hcycle : OnCycle s.classes c) (hc : c < s.classes.size) : s.FindsInstances c
      ↔ ∀ o ∈ s.instances, ∀ k, o.classRef.class? = some k → Below s.classes c k →
        ∃ t, round[t]? = some k ∧ s.classes.size ≤ t + round.length := by
  rw [FindsInstances, instancesOf_eq_instancesAlong hg h hr hcycle hc,
    nodup_instancesAlong_iff hnodup hr.nodup]
  simp only [mem_instancesAlong_iff (hr.length_le hc)]
  constructor
  · rintro ⟨honce, hall⟩ o ho k hclass hbelow
    -- the class of an instance below is somewhere in the round, and there it is met once only
    obtain ⟨-, k', hk, hclass'⟩ := hall o ho k hclass hbelow
    obtain rfl := Option.some.inj (hclass.symm.trans hclass')
    obtain ⟨t, ht⟩ := List.getElem?_of_mem hk
    exact ⟨t, ht, honce o ho k t hclass ht⟩
  · intro hplaces
    refine ⟨fun o ho k t hclass ht => ?_, fun o ho k hclass hbelow => ?_⟩
    · have hbelow := ((hr.mem_iff k).mp (List.mem_of_getElem? ht)).1
      obtain ⟨t', ht', hle⟩ := hplaces o ho k hclass hbelow
      have hlt := (List.getElem?_eq_some_iff.mp ht).1
      rwa [(List.getElem?_inj hlt hr.nodup).mp (ht.trans ht'.symm)]
    · obtain ⟨t, ht, -⟩ := hplaces o ho k hclass hbelow
      exact ⟨ho, k, List.mem_of_getElem? ht, hclass⟩

/-- If a class on a cycle has instances of its own, all is found, and nothing twice, just if a
round has all classes that there are. -/
theorem findsInstances_iff_of_own {round : List Nat} (hr : Round s.classes c round)
    (hcycle : OnCycle s.classes c) (hc : c < s.classes.size)
    (hown : ∃ o ∈ s.instances, o.classRef.class? = some c) : s.FindsInstances c
      ↔ ∀ k < s.classes.size, Below s.classes c k ∧ ¬Skipped s.classes k := by
  rw [findsInstances_iff_of_round hg h hnodup hr hcycle hc]
  have hrange : round ⊆ List.range s.classes.size := fun k hk =>
    List.mem_range.mpr (((hr.mem_iff k).mp hk).1.lt_size hc)
  constructor
  · intro hplaces k hk
    -- the walk comes to the class itself again as soon as it can
    obtain ⟨o, ho, hclass⟩ := hown
    obtain ⟨t, ht, hle⟩ := hplaces o ho c hclass (.refl s.classes c)
    obtain rfl := (List.getElem?_inj hr.length_pos hr.nodup).mp (hr.getElem?_zero.trans ht.symm)
    have hperm := (hr.nodup.subperm hrange).perm_of_length_le
      (by rwa [List.length_range, ← Nat.zero_add round.length])
    exact (hr.mem_iff k).mp (hperm.mem_iff.mpr (List.mem_range.mpr hk))
  · intro hall o _ k _ hbelow
    -- a round with all classes is as long as a walk may be, so nothing is met again
    have hcover : List.range s.classes.size ⊆ round := fun k hk =>
      (hr.mem_iff k).mpr (hall k (List.mem_range.mp hk))
    have hle := (List.nodup_range.subperm hcover).length_le
    obtain ⟨t, ht⟩ := List.getElem?_of_mem (hcover (List.mem_range.mpr (hbelow.lt_size hc)))
    exact ⟨t, ht, by rw [List.length_range] at hle; omega⟩

end

end Snapshot

/-- **What is found below a class if superclasses may be cyclic.**  All instances found are of the
class or of one below it.  If the class is on no cycle, nothing is missing and nothing comes twice,
whatever other superclasses are.  If it is on a cycle, a walk goes round: it visits the class and
those below it that are not skipped, then the same again, and so on, until it has visited as many
classes as there are.  So nothing is missing or comes twice just if the class of each instance
below has a place in the round to which the walk does not come back.  A class that has instances
itself is met first when the walk comes back, so then it must not come back at all: the round must
have all classes of the dump. -/
theorem instancesOf_of_cyclic (header : Header) (log : Diagnostics) (records : List Record)
    (resolveFields : Bool) :
    let s := (records.foldl Draft.push { header, diagnostics := log }).finish resolveFields
    ∀ c < s.classes.size,
      (∀ o ∈ s.instancesOf c, o ∈ s.instances
        ∧ ∃ k, o.classRef.class? = some k ∧ Below s.classes c k)
      ∧ (¬OnCycle s.classes c → s.FindsInstances c)
      ∧ (OnCycle s.classes c → ∃ round : List Nat, round.Nodup ∧ round[0]? = some c
        ∧ (∀ k, k ∈ round ↔ Below s.classes c k ∧ ¬Skipped s.classes k)
        ∧ s.instancesOf c = s.instancesAlong round
        ∧ (s.FindsInstances c ↔ ∀ o ∈ s.instances, ∀ k, o.classRef.class? = some k →
          Below s.classes c k → ∃ t, round[t]? = some k ∧ s.classes.size ≤ t + round.length)
        ∧ ((∃ o ∈ s.instances, o.classRef.class? = some c) →
          (s.FindsInstances c
            ↔ ∀ k < s.classes.size, Below s.classes c k ∧ ¬Skipped s.classes k))) := by
  intro s c hc
  let d := records.foldl Draft.push { header, diagnostics := log }
  have hholds : d.Holds records := Draft.holds_foldl_push header log records
  obtain ⟨g, hg⟩ : ∃ g : Graph, s.graph = g.link := ⟨_, d.graph_finish resolveFields⟩
  have hclasses : s.classes = g.link.classes := congrArg Graph.classes hg
  have hhierarchy : Hierarchy s.classes := by
    rw [hclasses]
    exact g.hierarchy_link (hclasses ▸ hholds.parentsInside_finish resolveFields)
  have hnodup : s.instances.toList.Nodup := (hholds.nodup_instanceIds_finish resolveFields).of_map
  -- what is found lies below, whether or not there are cycles; then the two cases
  refine ⟨fun o ho => ?_, Snapshot.findsInstances_of_not_onCycle hg hhierarchy hnodup hc,
    fun hcycle => ?_⟩
  · obtain ⟨hin, k, hclass, hk⟩ := (Snapshot.mem_instancesOf_iff_visited hg hhierarchy hc).mp ho
    exact ⟨hin, k, hclass, hhierarchy.below_of_mem_visited hk⟩
  · obtain ⟨round, hr⟩ := hhierarchy.exists_round hcycle hc
    exact ⟨round, hr.nodup, hr.getElem?_zero, hr.mem_iff,
      Snapshot.instancesOf_eq_instancesAlong hg hhierarchy hr hcycle hc,
      Snapshot.findsInstances_iff_of_round hg hhierarchy hnodup hr hcycle hc,
      Snapshot.findsInstances_iff_of_own hg hhierarchy hnodup hr hcycle hc⟩

/-- Two classes that are their own superclasses, a subclass of the first in front of it, and an
object each of this subclass and of the second. -/
def sampleLoops : List Record :=
  [⟨31, some 0, .heapDumpStart false 163⟩,
    ⟨40, none, .heap (.classDump ⟨16, 0, 17, 0, 0, 0, 0, [], [], []⟩)⟩,
    ⟨83, none, .heap (.classDump ⟨17, 0, 17, 0, 0, 0, 0, [], [], []⟩)⟩,
    ⟨126, none, .heap (.classDump ⟨18, 0, 18, 0, 0, 0, 0, [], [], []⟩)⟩,
    ⟨169, none, .heap (.object (.plain ⟨32, 0, 16, ⟨#[]⟩⟩))⟩,
    ⟨186, none, .heap (.object (.plain ⟨33, 0, 18, ⟨#[]⟩⟩))⟩]

/-- The subclass is found out, but both classes on cycles are not: what is below the one is
skipped, and from the other the walk comes back. -/
theorem instancesOf_of_cyclic_sampleLoops :
    let s := sampleSnapshot sampleLoops
    s.FindsInstances 0 ∧ ¬s.FindsInstances 1 ∧ ¬s.FindsInstances 2 := by
  intro s
  have hsize : s.classes.size = 3 := by decide +kernel
  have hparent₀ : parent? s.classes 0 = some 1 := by decide +kernel
  have hparent₁ : parent? s.classes 1 = some 1 := by decide +kernel
  have hparent₂ : parent? s.classes 2 = some 2 := by decide +kernel
  have hcycle₁ : OnCycle s.classes 1 := ⟨1, Nat.one_pos, hparent₁⟩
  have hcycle₂ : OnCycle s.classes 2 := ⟨1, Nat.one_pos, hparent₂⟩
  have hoff₀ : ¬OnCycle s.classes 0 := fun h =>
    Nat.zero_ne_one (h.child_unique hcycle₁ hparent₀ hparent₁)
  have hdata₀ : s.instances[0]?.map (·.classRef.class?) = some (some 0) := by decide +kernel
  have hdata₁ : s.instances[1]?.map (·.classRef.class?) = some (some 2) := by decide +kernel
  obtain ⟨o₀, ho₀, hclass₀⟩ := Option.map_eq_some_iff.mp hdata₀
  obtain ⟨o₁, ho₁, hclass₁⟩ := Option.map_eq_some_iff.mp hdata₁
  have hwalk := instancesOf_of_cyclic ⟨"JAVA PROFILE 1.0.2", 4, 1700000000000, 31⟩ {}
    sampleLoops true
  refine ⟨(hwalk 0 (hsize ▸ Nat.succ_pos 2)).2.1 hoff₀, fun h => ?_, fun h => ?_⟩
  · obtain ⟨round, -, -, hmem, -, hplaces, -⟩ := (hwalk 1 (hsize ▸ by decide)).2.2 hcycle₁
    obtain ⟨t, ht, -⟩ :=
      hplaces.mp h o₀ (Array.mem_of_getElem? ho₀) 0 hclass₀ (.of_parent? hparent₀)
    exact ((hmem 0).mp (List.mem_of_getElem? ht)).2
      ⟨0, 1, 1, .refl s.classes 0, hparent₀, hparent₁, hcycle₁, Nat.one_pos⟩
  · obtain ⟨round, -, -, -, -, -, hall⟩ := (hwalk 2 (hsize ▸ by decide)).2.2 hcycle₂
    obtain ⟨k, hk⟩ := ((hall ⟨o₁, Array.mem_of_getElem? ho₁, hclass₁⟩).mp h 1
      (hsize ▸ by decide)).1
    have hround := ancestor?_mul (m := 1) hparent₁ k
    rw [Nat.one_mul] at hround
    cases hround.symm.trans hk

/-- The object of the subclass is not found below its superclass, and the object of the other class
on a cycle is found three times. -/
theorem instancesOf_wrong_sampleLoops :
    let s := sampleSnapshot sampleLoops
    (∃ o ∈ s.instances, o.classRef.class? = some 0 ∧ Below s.classes 1 0
      ∧ o ∉ s.instancesOf 1)
    ∧ (s.instancesOf 2).map (·.id) = [33, 33, 33] := by
  intro s
  have hparent : parent? s.classes 0 = some 1 := by decide +kernel
  have hdata : s.instances[0]?.map (·.classRef.class?) = some (some 0) := by decide +kernel
  obtain ⟨o, ho, hclass⟩ := Option.map_eq_some_iff.mp hdata
  have hnone : s.instancesOf 1 = [] := by decide +kernel
  exact ⟨⟨o, Array.mem_of_getElem? ho, hclass, .of_parent? hparent, hnone ▸ List.not_mem_nil⟩,
    by decide +kernel⟩

end HeapDump
