/-
HeapDump/Proofs/Graph/Ancestry.lean

Chains of superclasses that come to an end, and chains that do not.

`Lineage classes i chain` says that `chain` leads from the class at position `i` upwards to one
without a superclass.  Each class has a lineage or is `Endless` (`exists_lineage_iff`).

No class comes twice in a lineage, since the way up from a class is determined and would never
end; so it is no longer than there are classes (`Lineage.length_le`).  An endless chain goes on
as long as it is followed.  Hence the cut after one class more than there are leaves lineages
whole and tells endless chains:

    classes.size < (superclassChain classes i).length ↔ Endless classes i

(`size_lt_length_superclassChain_iff`).  An endless chain runs into a cycle, for among one more
place than there are classes some class comes twice (`Endless.exists_cycle`).
-/
import HeapDump.Graph.Hierarchy
import Mathlib.Data.List.Nodup
import Mathlib.Data.List.Perm.Subperm

namespace HeapDump

/-! ### Upwards step by step -/

/-- The class that the superclass of the one at position `i` was found to be. -/
def parent? (classes : Array ClassObject) (i : Nat) : Option Nat :=
  classes[i]?.bind (·.superclass.class?)

/-- The class that many steps above the one at position `i`. -/
def ancestor? (classes : Array ClassObject) (i : Nat) : Nat → Option Nat
  | 0 => some i
  | k + 1 => (ancestor? classes i k).bind (parent? classes)

/-- Every superclass that was found is there. -/
def ParentsInside (classes : Array ClassObject) : Prop :=
  ∀ i j, parent? classes i = some j → j < classes.size

/-- Upwards from a class all have a superclass that was found. -/
def Endless (classes : Array ClassObject) (i : Nat) : Prop :=
  ∀ k j, ancestor? classes i k = some j → (parent? classes j).isSome

/-- The classes from one upwards to one without a superclass. -/
inductive Lineage (classes : Array ClassObject) : Nat → List Nat → Prop where
  | top {i : Nat} (h : parent? classes i = none) : Lineage classes i [i]
  | step {i j : Nat} {chain : List Nat} (h : parent? classes i = some j)
      (rest : Lineage classes j chain) : Lineage classes i (i :: chain)

variable {classes : Array ClassObject} {i j : Nat} {chain : List Nat}

theorem lt_size_of_parent? (h : parent? classes i = some j) : i < classes.size := by
  obtain ⟨c, hc, -⟩ := Option.bind_eq_some_iff.mp h
  exact (Array.getElem?_eq_some_iff.mp hc).1

theorem ancestor?_add (i a b : Nat) :
    ancestor? classes i (a + b) = (ancestor? classes i a).bind (ancestor? classes · b) := by
  induction b with
  | zero =>
    exact (Option.bind_fun_some _).symm
  | succ b ih =>
    rw [← Nat.add_assoc, ancestor?, ih, Option.bind_assoc]
    rfl

/-- The first step upwards may be taken apart. -/
theorem ancestor?_succ (i k : Nat) :
    ancestor? classes i (k + 1) = (parent? classes i).bind (ancestor? classes · k) := by
  rw [Nat.add_comm, ancestor?_add]
  rfl

theorem superclassesFrom_succ (m i : Nat) :
    superclassesFrom classes (m + 1) i
      = i :: ((parent? classes i).elim [] (superclassesFrom classes m)) := by
  rw [superclassesFrom, parent?]
  cases classes[i]?.bind (·.superclass.class?) <;> rfl

/-- The classes from one upwards are its ancestors by distance. -/
theorem getElem?_superclassesFrom (m i k : Nat) :
    (superclassesFrom classes m i)[k]? = if k < m then ancestor? classes i k else none := by
  induction m generalizing i k with
  | zero => rfl
  | succ m ih =>
    rw [superclassesFrom_succ]
    cases k with
    | zero => rfl
    | succ k =>
      rw [List.getElem?_cons_succ, ancestor?_succ]
      cases parent? classes i with
      | none => simp
      | some j => simpa using ih j k

/-- There are no more different positions than there are places for them. -/
theorem length_le_of_nodup {positions : List Nat} {n : Nat} (hnodup : positions.Nodup)
    (hlt : ∀ k ∈ positions, k < n) : positions.length ≤ n := by
  have hrange : positions ⊆ List.range n := fun k hk => List.mem_range.mpr (hlt k hk)
  simpa using (hnodup.subperm hrange).length_le

/-! ### Lineages -/

/-- A class has one lineage at most. -/
theorem Lineage.unique {chain' : List Nat} (h : Lineage classes i chain)
    (h' : Lineage classes i chain') : chain = chain' := by
  induction h generalizing chain' with
  | top htop =>
    cases h' with
    | top => rfl
    | step hstep => rw [htop] at hstep; cases hstep
  | step hstep rest ih =>
    cases h' with
    | top htop => rw [htop] at hstep; cases hstep
    | step hstep' rest' =>
      obtain rfl := Option.some.inj (hstep.symm.trans hstep')
      rw [ih rest']

/-- Upwards from a class in a lineage the rest of it is a lineage. -/
theorem Lineage.exists_suffix (h : Lineage classes i chain) (hj : j ∈ chain) :
    ∃ chain', Lineage classes j chain' ∧ chain' <:+ chain := by
  induction h with
  | top htop =>
    obtain rfl := List.mem_singleton.mp hj
    exact ⟨_, .top htop, List.suffix_refl _⟩
  | step hstep rest ih =>
    rcases List.mem_cons.mp hj with rfl | hj
    · exact ⟨_, .step hstep rest, List.suffix_refl _⟩
    · obtain ⟨chain', hchain', hsuffix⟩ := ih hj
      exact ⟨chain', hchain', hsuffix.trans (List.suffix_cons _ _)⟩

/-- No class comes twice in a lineage. -/
theorem Lineage.nodup (h : Lineage classes i chain) : chain.Nodup := by
  induction h with
  | top => exact List.nodup_singleton _
  | @step i j chain hstep rest ih =>
    refine List.nodup_cons.mpr ⟨fun hmem => ?_, ih⟩
    -- the rest would have to be longer than itself
    obtain ⟨chain', hchain', hsuffix⟩ := rest.exists_suffix hmem
    have hlength := hsuffix.length_le
    rw [← (Lineage.step hstep rest).unique hchain', List.length_cons] at hlength
    omega

theorem Lineage.self_mem (h : Lineage classes i chain) : i ∈ chain := by
  cases h <;> exact List.mem_cons_self

theorem Lineage.lt_size (h : Lineage classes i chain) (hin : ParentsInside classes)
    (hi : i < classes.size) : ∀ j ∈ chain, j < classes.size := by
  induction h with
  | top => simpa using hi
  | step hstep rest ih => exact List.forall_mem_cons.mpr ⟨hi, ih (hin _ _ hstep)⟩

/-- A lineage is no longer than there are classes. -/
theorem Lineage.length_le (h : Lineage classes i chain) (hin : ParentsInside classes)
    (hi : i < classes.size) : chain.length ≤ classes.size :=
  length_le_of_nodup h.nodup (h.lt_size hin hi)

/-- A class is in a lineage if it is the first or the superclass of one in it. -/
theorem Lineage.mem_iff (h : Lineage classes i chain) {k : Nat} :
    k ∈ chain ↔ k = i ∨ ∃ j ∈ chain, parent? classes j = some k := by
  induction h with
  | top htop => simp [htop]
  | @step i j chain hstep rest ih =>
    constructor
    · intro hk
      rcases List.mem_cons.mp hk with rfl | hk
      · exact .inl rfl
      · rcases ih.mp hk with rfl | ⟨l, hl, hparent⟩
        · exact .inr ⟨i, List.mem_cons_self, hstep⟩
        · exact .inr ⟨l, List.mem_cons_of_mem _ hl, hparent⟩
    · rintro (rfl | ⟨l, hl, hparent⟩)
      · exact List.mem_cons_self
      · rcases List.mem_cons.mp hl with rfl | hl
        · obtain rfl := Option.some.inj (hstep.symm.trans hparent)
          exact List.mem_cons_of_mem _ rest.self_mem
        · exact List.mem_cons_of_mem _ (ih.mpr (.inr ⟨l, hl, hparent⟩))

/-- A lineage is not cut if there is room for it. -/
theorem Lineage.superclassesFrom_eq (h : Lineage classes i chain) {m : Nat}
    (hm : chain.length ≤ m) : superclassesFrom classes m i = chain := by
  induction h generalizing m with
  | top htop =>
    obtain ⟨m, rfl⟩ := Nat.exists_eq_add_of_le' hm
    rw [List.length_singleton, superclassesFrom_succ, htop]
    rfl
  | step hstep rest ih =>
    obtain ⟨m, rfl⟩ := Nat.exists_eq_add_of_le' hm
    rw [List.length_cons, ← Nat.add_assoc, superclassesFrom_succ, hstep, Option.elim_some,
      ih (Nat.le_add_left _ _)]

/-! ### Chains without end -/

theorem Endless.of_parent? (h : Endless classes i) (hj : parent? classes i = some j) :
    Endless classes j := by
  intro k l hl
  refine h (k + 1) l ?_
  rw [ancestor?_succ, hj]
  exact hl

theorem Endless.exists_ancestor? (h : Endless classes i) (k : Nat) :
    ∃ j, ancestor? classes i k = some j := by
  induction k with
  | zero => exact ⟨i, rfl⟩
  | succ k ih =>
    obtain ⟨j, hj⟩ := ih
    obtain ⟨l, hl⟩ := Option.isSome_iff_exists.mp (h k j hj)
    exact ⟨l, by rw [ancestor?, hj]; exact hl⟩

/-- However many classes are asked for, an endless chain has them. -/
theorem Endless.length_superclassesFrom (h : Endless classes i) (m : Nat) :
    (superclassesFrom classes m i).length = m := by
  induction m generalizing i with
  | zero => rfl
  | succ m ih =>
    obtain ⟨j, hj⟩ := Option.isSome_iff_exists.mp (h 0 i rfl)
    rw [superclassesFrom_succ, hj, List.length_cons, Option.elim_some, ih (h.of_parent? hj)]

/-- A class has a lineage, or its chain has no end. -/
theorem exists_lineage_iff : (∃ chain, Lineage classes i chain) ↔ ¬Endless classes i := by
  constructor
  · rintro ⟨chain, h⟩ hendless
    induction h with
    | top htop =>
      have := hendless 0 _ rfl
      rw [htop] at this
      cases this
    | step hstep rest ih => exact ih (hendless.of_parent? hstep)
  · intro h
    simp only [Endless, not_forall, Option.not_isSome_iff_eq_none] at h
    obtain ⟨k, j, hj, hnone⟩ := h
    -- the way up to the class without a superclass is the lineage
    induction k generalizing i with
    | zero =>
      obtain rfl := Option.some.inj hj
      exact ⟨_, .top hnone⟩
    | succ k ih =>
      rw [ancestor?_succ] at hj
      obtain ⟨l, hl, hj⟩ := Option.bind_eq_some_iff.mp hj
      obtain ⟨chain, hchain⟩ := ih hj
      exact ⟨_, .step hl hchain⟩

/-- The chain of a class goes on behind as many classes as there are if and only if it has no
end. -/
theorem size_lt_length_superclassChain_iff (hin : ParentsInside classes) (hi : i < classes.size) :
    classes.size < (superclassChain classes i).length ↔ Endless classes i := by
  constructor
  · intro hlt
    by_contra h
    obtain ⟨chain, hchain⟩ := exists_lineage_iff.mpr h
    have hle := hchain.length_le hin hi
    rw [superclassChain, hchain.superclassesFrom_eq (Nat.le_succ_of_le hle)] at hlt
    omega
  · intro h
    rw [superclassChain, h.length_superclassesFrom]
    exact Nat.lt_succ_self _

/-- The chain of a class with a lineage is this. -/
theorem Lineage.superclassChain_eq (h : Lineage classes i chain) (hin : ParentsInside classes)
    (hi : i < classes.size) : superclassChain classes i = chain :=
  h.superclassesFrom_eq (Nat.le_succ_of_le (h.length_le hin hi))

/-- **A chain without end runs into a cycle**: some class above comes again further up. -/
theorem Endless.exists_cycle (h : Endless classes i) :
    ∃ a c k, ancestor? classes i a = some c ∧ 0 < k ∧ ancestor? classes c k = some c := by
  -- there are more places above the class than there are classes
  let above := superclassesFrom classes (classes.size + 1) i
  have hsize : above.length = classes.size + 1 := h.length_superclassesFrom _
  have hlt : ∀ c ∈ above, c < classes.size := by
    intro c hc
    obtain ⟨k, hk⟩ := List.getElem?_of_mem hc
    rw [getElem?_superclassesFrom] at hk
    obtain ⟨-, hk⟩ := Option.ite_none_right_eq_some.mp hk
    obtain ⟨p, hp⟩ := Option.isSome_iff_exists.mp (h k c hk)
    exact lt_size_of_parent? hp
  have hrepeats : ¬above.Nodup := by
    intro hnodup
    have := length_le_of_nodup hnodup hlt
    rw [hsize] at this
    omega
  -- so two places have the same class, and from the first on the chain goes in a circle
  rw [List.nodup_iff_getElem?_ne_getElem?] at hrepeats
  push Not at hrepeats
  obtain ⟨a, b, hab, hb, heq⟩ := hrepeats
  rw [getElem?_superclassesFrom, getElem?_superclassesFrom, if_pos (by omega),
    if_pos (by omega)] at heq
  obtain ⟨c, hc⟩ := h.exists_ancestor? a
  refine ⟨a, c, b - a, hc, by omega, ?_⟩
  have hadd : ancestor? classes i (a + (b - a)) = _ := ancestor?_add i a (b - a)
  rw [Nat.add_sub_cancel' (Nat.le_of_lt hab), ← heq, hc] at hadd
  exact hadd.symm

end HeapDump
