/-
HeapDump/Proofs/Graph/Walk.lean

Walks down a hierarchy of classes that may have cycles.

What a walk finds are the instances of the classes that it visits, one after the other
(`toList_instancesBelow_eq`), so the walk is studied by these classes alone: `visited classes t
pending` are the classes that `t` steps visit, and `remaining classes t pending` is the stack that
they leave.

Whatever was visited or is left on the stack came there through its superclass, once for each
visit of this.  In numbers: if `e` is the superclass of `j`,

    (visited t pending).count j + (remaining t pending).count j
      = pending.count j + (visited t pending).count e

(`Hierarchy.count_visited`).  This equation is the invariant from which everything else is drawn.
Hence no class is visited more often than the one where the walk began
(`Hierarchy.count_visited_le`).

From a class that is on no cycle the walk ends and visits all classes below once
(`Hierarchy.mem_visited_iff`).  From a class on a cycle it does not end.  The stack always
`LeadsToCycle`: on top are classes that hang off the cycle and are not skipped, then comes a class
on the cycle, and everything under it is skipped for good.  So the walk comes back to the class
where it began after a `Round`, having left aside what is skipped, and from then on it repeats
itself (`Round.getElem?_visited`).
-/
import HeapDump.Proofs.Graph.Cycles
import HeapDump.Proofs.Graph.Traversal

namespace HeapDump

/-- A list place by place. -/
theorem flatMap_eq_flatMap_range (xs : List α) (f : α → List β) :
    xs.flatMap f = (List.range xs.length).flatMap fun s => xs[s]?.elim [] f := by
  induction xs with
  | nil => rfl
  | cons x xs ih =>
    rw [List.flatMap_cons, ih, List.length_cons, List.range_succ_eq_map, List.flatMap_cons,
      List.flatMap_map]
    rfl

/-! ### Visited classes -/

/-- The classes that the first `t` steps of a walk with a stack visit. -/
def visited (classes : Array ClassObject) : Nat → List Nat → List Nat
  | 0, _ => []
  | _ + 1, [] => []
  | t + 1, i :: pending =>
    i :: visited classes t ((subclassesAt classes i).reverse ++ pending)

/-- The stack after the first `t` steps. -/
def remaining (classes : Array ClassObject) : Nat → List Nat → List Nat
  | 0, pending => pending
  | _ + 1, [] => []
  | t + 1, i :: pending => remaining classes t ((subclassesAt classes i).reverse ++ pending)

variable {classes : Array ClassObject}

@[simp] theorem visited_nil (t : Nat) : visited classes t [] = [] := by cases t <;> rfl

@[simp] theorem remaining_nil (t : Nat) : remaining classes t [] = [] := by cases t <;> rfl

/-- The instances found are those of the classes visited. -/
theorem toList_instancesBelow_eq (t : Nat) (pending : List Nat) (found : Array Nat) :
    (instancesBelow classes t pending found).toList
      = found.toList ++ (visited classes t pending).flatMap (instancesAt classes) := by
  induction t generalizing pending found with
  | zero =>
    rw [instancesBelow, visited, List.flatMap_nil, List.append_nil]
  | succ t ih =>
    cases pending with
    | nil => rw [instancesBelow_nil, visited_nil, List.flatMap_nil, List.append_nil]
    | cons i pending => rw [instancesBelow_cons, ih, visited]; simp

theorem visited_add (a b : Nat) (pending : List Nat) : visited classes (a + b) pending
    = visited classes a pending ++ visited classes b (remaining classes a pending) := by
  induction a generalizing pending with
  | zero => rw [Nat.zero_add]; rfl
  | succ a ih =>
    cases pending with
    | nil => simp
    | cons i pending =>
      rw [Nat.succ_add, visited, visited, remaining, ih]
      rfl

/-- Each step visits a class, as long as the stack is not used up. -/
theorem length_visited {t : Nat} {pending : List Nat} (h : remaining classes t pending ≠ []) :
    (visited classes t pending).length = t := by
  induction t generalizing pending with
  | zero => rfl
  | succ t ih =>
    cases pending with
    | nil => exact absurd (remaining_nil _) h
    | cons i pending => rw [visited, List.length_cons, ih h]

/-- A step visits the top of the stack. -/
theorem exists_pending_of_visited {t i : Nat} {pending rest : List Nat}
    (h : visited classes t pending = i :: rest) : ∃ pending', pending = i :: pending' := by
  cases t with
  | zero => cases h
  | succ t =>
    cases pending with
    | nil => rw [visited_nil] at h; cases h
    | cons j pending => exact ⟨pending, by rw [(List.cons.inj h).1]⟩

/-- What is below on the stack has no effect as long as the rest is not used up. -/
theorem visited_append {t : Nat} {pending : List Nat}
    (h : (visited classes t pending).length = t) (under : List Nat) :
    visited classes t (pending ++ under) = visited classes t pending := by
  induction t generalizing pending with
  | zero => rfl
  | succ t ih =>
    cases pending with
    | nil =>
      rw [visited_nil] at h
      cases h
    | cons i pending =>
      rw [visited, List.length_cons] at h
      rw [List.cons_append, visited, visited, ← List.append_assoc, ih (Nat.succ.inj h)]

namespace Hierarchy

variable (h : Hierarchy classes) {c j t : Nat} {pending : List Nat}
include h

/-- What is visited is below something on the stack. -/
theorem exists_below_of_mem (hj : j ∈ visited classes t pending) :
    ∃ i ∈ pending, Below classes i j := by
  induction t generalizing pending with
  | zero => cases hj
  | succ t ih =>
    cases pending with
    | nil => rw [visited_nil] at hj; cases hj
    | cons i pending =>
      rcases List.mem_cons.mp hj with rfl | hj
      · exact ⟨j, List.mem_cons_self, .refl classes j⟩
      · obtain ⟨k, hk, hbelow⟩ := ih hj
        rcases List.mem_append.mp hk with hk | hk
        · rw [List.mem_reverse, h.mem_subclassesAt_iff] at hk
          exact ⟨i, List.mem_cons_self, (Below.of_parent? hk).trans hbelow⟩
        · exact ⟨k, List.mem_cons_of_mem i hk, hbelow⟩

theorem below_of_mem_visited (hj : j ∈ visited classes t [c]) : Below classes c j := by
  obtain ⟨i, hi, hbelow⟩ := h.exists_below_of_mem hj
  rwa [← List.mem_singleton.mp hi]

/-- A class is once among the subclasses of its superclass. -/
theorem count_subclassesAt (i j : Nat) : (subclassesAt classes i).count j
    = if parent? classes j = some i then 1 else 0 := by
  split
  · next hparent =>
    exact List.count_eq_one_of_mem ((h.increasing i).imp Nat.ne_of_lt)
      ((h.mem_subclassesAt_iff i j).mpr hparent)
  · next hparent =>
    exact List.count_eq_zero_of_not_mem (mt (h.mem_subclassesAt_iff i j).mp hparent)

/-- **Each visit of a class brings each of its subclasses to the stack once**, and nothing else
does. -/
theorem count_visited (t j : Nat) (pending : List Nat) :
    (visited classes t pending).count j + (remaining classes t pending).count j
      = pending.count j
        + (parent? classes j).elim 0 fun e => (visited classes t pending).count e := by
  induction t generalizing pending with
  | zero => cases parent? classes j <;> simp [visited, remaining]
  | succ t ih =>
    cases pending with
    | nil => cases parent? classes j <;> simp
    | cons i pending =>
      -- the visit of `i` takes it from the stack and puts its subclasses there, so only the counts
      -- of `i` and of those change
      have hrest := ih ((subclassesAt classes i).reverse ++ pending)
      rw [List.count_append, List.count_reverse, h.count_subclassesAt] at hrest
      rw [visited, remaining, List.count_cons, List.count_cons]
      cases hparent : parent? classes j with
      | none =>
        rw [hparent, if_neg (by simp), Option.elim_none] at hrest
        rw [Option.elim_none]
        omega
      | some e =>
        rw [hparent, Option.elim_some] at hrest
        rw [Option.elim_some, List.count_cons]
        by_cases he : e = i
        · rw [if_pos (congrArg some he)] at hrest
          rw [if_pos (beq_iff_eq.mpr he.symm)]
          omega
        · rw [if_neg (mt Option.some.inj he)] at hrest
          rw [if_neg (mt beq_iff_eq.mp (Ne.symm he))]
          omega

/-- No class is visited more often than the one where the walk began. -/
theorem count_visited_le (t : Nat) (hj : Below classes c j) :
    (visited classes t [c]).count j ≤ (visited classes t [c]).count c := by
  refine hj.induction
    (motive := fun j => (visited classes t [c]).count j ≤ (visited classes t [c]).count c)
    (Nat.le_refl _) fun j e he _ hle => ?_
  by_cases hself : j = c
  · rw [hself]
  · have hcount := h.count_visited t j [c]
    rw [he, Option.elim_some, List.count_singleton, if_neg (mt beq_iff_eq.mp (Ne.symm hself))]
      at hcount
    omega

/-- No class is visited twice before the one where the walk began is. -/
theorem nodup_visited (hone : (visited classes t [c]).count c ≤ 1) :
    (visited classes t [c]).Nodup := by
  refine List.nodup_iff_count_le_one.mpr fun j => ?_
  by_cases hj : j ∈ visited classes t [c]
  · exact (h.count_visited_le t (h.below_of_mem_visited hj)).trans hone
  · rw [List.count_eq_zero_of_not_mem hj]
    exact Nat.zero_le 1

/-- A walk that visits no class twice is no longer than there are classes. -/
theorem length_visited_le (hc : c < classes.size) (hnodup : (visited classes t [c]).Nodup) :
    (visited classes t [c]).length ≤ classes.size :=
  length_le_of_nodup hnodup fun _ hj => (h.below_of_mem_visited hj).lt_size hc

/-! ### Walks that end -/

/-- A class that is on no cycle is visited once. -/
theorem count_visited_self_le (hoff : ¬OnCycle classes c) (t : Nat) :
    (visited classes t [c]).count c ≤ 1 := by
  have hcount := h.count_visited t c [c]
  have habove : ((parent? classes c).elim 0 fun e => (visited classes t [c]).count e) = 0 := by
    cases he : parent? classes c with
    | none => rfl
    | some e =>
      refine List.count_eq_zero_of_not_mem fun hmem => hoff ?_
      obtain ⟨k, hk⟩ := h.below_of_mem_visited hmem
      exact ⟨k + 1, Nat.succ_pos k, by rw [ancestor?_succ, he]; exact hk⟩
  rw [habove, List.count_singleton_self] at hcount
  omega

/-- The walk ends before it has made more steps than there are classes. -/
theorem remaining_eq_nil (hc : c < classes.size) (hoff : ¬OnCycle classes c) :
    remaining classes classes.size [c] = [] := by
  by_contra hleft
  obtain ⟨i, pending, hpending⟩ := List.exists_cons_of_ne_nil hleft
  have hlonger : (visited classes (classes.size + 1) [c]).length = classes.size + 1 := by
    rw [visited_add, List.length_append, length_visited hleft, hpending]
    rfl
  have hle := h.length_visited_le hc
    (h.nodup_visited (h.count_visited_self_le hoff (classes.size + 1)))
  rw [hlonger] at hle
  omega

/-- From a class that is on no cycle all classes below are visited. -/
theorem mem_visited_iff (hc : c < classes.size) (hoff : ¬OnCycle classes c) :
    j ∈ visited classes classes.size [c] ↔ Below classes c j := by
  refine ⟨h.below_of_mem_visited, fun hj => ?_⟩
  rw [← List.one_le_count_iff]
  -- nothing is left on the stack, so a class is visited if its superclass is
  have hcount (j : Nat) := h.count_visited classes.size j [c]
  simp only [h.remaining_eq_nil hc hoff, List.count_nil, Nat.add_zero] at hcount
  refine hj.induction (motive := fun j => 1 ≤ (visited classes classes.size [c]).count j) ?_
    fun j e he _ hle => ?_
  · rw [hcount, List.count_singleton_self]
    omega
  · rw [hcount, he, Option.elim_some]
    omega

end Hierarchy

/-! ### Walks that come back -/

/-- A stack whose top leads to a class on a cycle.  Nothing above this class is skipped, and all
that is under it is. -/
def LeadsToCycle (classes : Array ClassObject) (pending : List Nat) : Prop :=
  ∃ front i under, pending = front ++ i :: under ∧ OnCycle classes i
    ∧ (∀ j ∈ front, ¬OnCycle classes j ∧ ¬Skipped classes j) ∧ ∀ j ∈ under, Skipped classes j

namespace LeadsToCycle

variable {i j : Nat} {pending : List Nat}

theorem singleton (hi : OnCycle classes i) : LeadsToCycle classes [i] :=
  ⟨[], i, [], rfl, hi, fun _ hj => (List.not_mem_nil hj).elim,
    fun _ hj => (List.not_mem_nil hj).elim⟩

theorem ne_nil (hp : LeadsToCycle classes pending) : pending ≠ [] := by
  obtain ⟨front, i, under, rfl, -⟩ := hp
  simp

/-- If the class on a cycle is on top, all the rest is skipped. -/
theorem skipped_of_mem (hp : LeadsToCycle classes (i :: pending)) (hi : OnCycle classes i)
    (hj : j ∈ pending) : Skipped classes j := by
  obtain ⟨front, i', under, heq, -, hfront, hunder⟩ := hp
  cases front with
  | nil => exact hunder j ((List.cons.inj heq).2 ▸ hj)
  | cons k front =>
    obtain rfl := (List.cons.inj heq).1
    exact absurd hi (hfront i List.mem_cons_self).1

/-- The class on top is not skipped, and the stack after its visit leads to a cycle again. -/
theorem step (h : Hierarchy classes) (hp : LeadsToCycle classes (i :: pending)) :
    ¬Skipped classes i ∧ LeadsToCycle classes ((subclassesAt classes i).reverse ++ pending) := by
  obtain ⟨front, i', under, heq, hcycle, hfront, hunder⟩ := hp
  cases front with
  | cons k front =>
    -- the class on top is on no cycle, and neither are its subclasses
    obtain ⟨rfl, rfl⟩ := List.cons.inj heq
    obtain ⟨⟨hoff, hnot⟩, hfront⟩ := List.forall_mem_cons.mp hfront
    refine ⟨hnot, (subclassesAt classes i).reverse ++ front, i', under,
      (List.append_assoc ..).symm, hcycle, fun j hj => ?_, hunder⟩
    rcases List.mem_append.mp hj with hj | hj
    · rw [List.mem_reverse, h.mem_subclassesAt_iff] at hj
      refine ⟨fun hj' => hoff (hj'.of_below (.of_parent? hj)).1, ?_⟩
      rwa [skipped_iff_of_not_onCycle hj hoff]
    · exact hfront j hj
  | nil =>
    -- the cycle goes on in one of the subclasses, and those in front of this are skipped
    obtain ⟨rfl, rfl⟩ := List.cons.inj heq
    obtain ⟨e', he', hcycle'⟩ := hcycle.exists_child
    obtain ⟨before, behind, hsplit⟩ :=
      List.append_of_mem ((h.mem_subclassesAt_iff i e').mpr he')
    have hincreasing := h.increasing i
    rw [hsplit, List.pairwise_append, List.pairwise_cons] at hincreasing
    obtain ⟨-, ⟨hbehind, -⟩, hbefore⟩ := hincreasing
    have hparent (j : Nat) (hj : j ∈ before ++ e' :: behind) : parent? classes j = some i :=
      (h.mem_subclassesAt_iff i j).mp (hsplit ▸ hj)
    refine ⟨hcycle.not_skipped, behind.reverse, e', before.reverse ++ pending, ?_, hcycle',
      fun j hj => ?_, fun j hj => ?_⟩
    · rw [hsplit]
      simp
    · rw [List.mem_reverse] at hj
      have hlt := hbehind j hj
      have hj := hparent j (List.mem_append_right _ (List.mem_cons_of_mem _ hj))
      refine ⟨fun hj' => Nat.ne_of_lt hlt (hcycle'.child_unique hj' he' hj), ?_⟩
      rw [skipped_iff_of_onCycle hj he' hcycle']
      exact Nat.lt_asymm hlt
    · rcases List.mem_append.mp hj with hj | hj
      · rw [List.mem_reverse] at hj
        have hlt := hbefore j hj e' List.mem_cons_self
        exact (skipped_iff_of_onCycle (hparent j (List.mem_append_left _ hj)) he' hcycle').mpr hlt
      · exact hunder j hj

/-- A walk towards a cycle visits nothing that is skipped, and does not end. -/
theorem walk (h : Hierarchy classes) (hp : LeadsToCycle classes pending) (t : Nat) :
    (∀ j ∈ visited classes t pending, ¬Skipped classes j)
      ∧ LeadsToCycle classes (remaining classes t pending) := by
  induction t generalizing pending with
  | zero => exact ⟨fun _ hj => (List.not_mem_nil hj).elim, hp⟩
  | succ t ih =>
    cases pending with
    | nil => exact absurd rfl hp.ne_nil
    | cons i pending =>
      obtain ⟨hnot, hstep⟩ := hp.step h
      obtain ⟨hvisited, hrest⟩ := ih hstep
      exact ⟨List.forall_mem_cons.mpr ⟨hnot, hvisited⟩, hrest⟩

end LeadsToCycle

/-- A walk from `c` visits the classes of `round`, none of them twice, and then comes to `c`
again.  It leaves aside what is skipped. -/
structure Round (classes : Array ClassObject) (c : Nat) (round : List Nat) : Prop where
  nodup : round.Nodup
  getElem?_zero : round[0]? = some c
  mem_iff : ∀ j, j ∈ round ↔ Below classes c j ∧ ¬Skipped classes j
  visited_eq : visited classes round.length [c] = round
  remaining_eq : ∃ under, remaining classes round.length [c] = c :: under

namespace Hierarchy

variable (h : Hierarchy classes) {c j : Nat} (hcycle : OnCycle classes c)
include h hcycle

theorem length_visited_of_onCycle (t : Nat) : (visited classes t [c]).length = t :=
  length_visited ((LeadsToCycle.singleton hcycle).walk h t).2.ne_nil

/-- From a class on a cycle a walk comes back: without that it would visit more classes than there
are. -/
theorem exists_return (hc : c < classes.size) : ∃ between under, c ∉ between
    ∧ visited classes (between.length + 1) [c] = c :: between
    ∧ remaining classes (between.length + 1) [c] = c :: under := by
  have hlength := h.length_visited_of_onCycle hcycle
  obtain ⟨later, hlater⟩ : ∃ later, visited classes (classes.size + 1) [c] = c :: later := ⟨_, rfl⟩
  -- else nothing would be visited twice, in more visits than there are classes
  have hmem : c ∈ later := by
    by_contra hnot
    have hone : (visited classes (classes.size + 1) [c]).count c ≤ 1 := by
      rw [hlater, List.count_cons_self, List.count_eq_zero_of_not_mem hnot]
    have hle := h.length_visited_le hc (h.nodup_visited hone)
    rw [hlength] at hle
    omega
  obtain ⟨between, behind, rfl, hbetween⟩ := List.eq_append_cons_of_mem hmem
  have hsize : between.length + 1 + (behind.length + 1) = classes.size + 1 := by
    rw [← hlength (classes.size + 1), hlater, List.length_cons, List.length_append,
      List.length_cons]
    omega
  -- the walk is what it visits until it comes back, and what it visits then
  have hsplit : visited classes (between.length + 1) [c]
      ++ visited classes (behind.length + 1) (remaining classes (between.length + 1) [c])
        = (c :: between) ++ c :: behind := by
    rw [← visited_add, hsize, hlater, List.cons_append]
  obtain ⟨hvisited, hnext⟩ := List.append_inj hsplit (hlength _)
  obtain ⟨under, hunder⟩ := exists_pending_of_visited hnext
  exact ⟨between, under, hbetween, hvisited, hunder⟩

/-- When the walk has come back to the class where it began, all that is not skipped has been
visited. -/
theorem mem_visited_of_return {t : Nat} {under : List Nat}
    (hremaining : remaining classes t [c] = c :: under) (hc : c ∈ visited classes t [c])
    (hbelow : Below classes c j) (hnot : ¬Skipped classes j) : j ∈ visited classes t [c] := by
  refine hbelow.induction (motive := fun j => ¬Skipped classes j → j ∈ visited classes t [c])
    (fun _ => hc) (fun j e he _ ih hnot => ?_) hnot
  -- its superclass has been visited, so it has been too, or is still on the stack
  have hparent := ih fun hskipped => hnot ((skipped_iff he).mpr (.inl hskipped))
  have hcount := h.count_visited t j [c]
  rw [hremaining, he, Option.elim_some] at hcount
  have hpos := List.one_le_count_iff.mpr hparent
  by_contra hj
  rw [List.count_eq_zero_of_not_mem hj] at hcount
  have hleft : j ∈ c :: under := List.one_le_count_iff.mp (by omega)
  rcases List.mem_cons.mp hleft with rfl | hleft
  · exact hj hc
  · have hp := ((LeadsToCycle.singleton hcycle).walk h t).2
    rw [hremaining] at hp
    exact hnot (hp.skipped_of_mem hcycle hleft)

/-- From a class on a cycle a walk makes a round. -/
theorem exists_round (hc : c < classes.size) : ∃ round, Round classes c round := by
  obtain ⟨between, under, hbetween, hvisited, hremaining⟩ := h.exists_return hcycle hc
  refine ⟨c :: between, ?_, rfl, fun j => ⟨fun hj => ?_, ?_⟩, hvisited, under, hremaining⟩
  · rw [← hvisited]
    refine h.nodup_visited ?_
    rw [hvisited, List.count_cons_self, List.count_eq_zero_of_not_mem hbetween]
  · rw [← hvisited] at hj
    exact ⟨h.below_of_mem_visited hj, ((LeadsToCycle.singleton hcycle).walk h _).1 j hj⟩
  · rintro ⟨hbelow, hnot⟩
    have hfirst : c ∈ visited classes (between.length + 1) [c] :=
      hvisited ▸ List.mem_cons_self
    rw [← hvisited]
    exact h.mem_visited_of_return hcycle hremaining hfirst hbelow hnot

end Hierarchy

namespace Round

variable {c : Nat} {round : List Nat} (hr : Round classes c round)
include hr

theorem length_pos : 0 < round.length :=
  (List.getElem?_eq_some_iff.mp hr.getElem?_zero).1

theorem length_le (hc : c < classes.size) : round.length ≤ classes.size :=
  length_le_of_nodup hr.nodup fun j hj => ((hr.mem_iff j).mp hj).1.lt_size hc

/-- Behind a round the walk goes on as from its beginning. -/
theorem visited_length_add (h : Hierarchy classes) (hcycle : OnCycle classes c) (t : Nat) :
    visited classes (round.length + t) [c] = round ++ visited classes t [c] := by
  obtain ⟨under, hunder⟩ := hr.remaining_eq
  rw [visited_add, hr.visited_eq, hunder]
  exact congrArg _ (visited_append (h.length_visited_of_onCycle hcycle t) under)

/-- **The walk repeats its round** as long as it may go on. -/
theorem getElem?_visited (h : Hierarchy classes) (hcycle : OnCycle classes c) {s t : Nat}
    (hs : s < t) : (visited classes t [c])[s]? = round[s % round.length]? := by
  have hlength := h.length_visited_of_onCycle hcycle
  have hpos := hr.length_pos
  induction t using Nat.strong_induction_on generalizing s with
  | _ t ih =>
    rcases Nat.le_total t round.length with hle | hle
    · -- the first round is not over
      obtain ⟨m, hm⟩ := Nat.exists_eq_add_of_le hle
      have hfront : round = visited classes t [c] ++ visited classes m (remaining classes t [c]) := by
        rw [← visited_add, ← hm, hr.visited_eq]
      have hround : round[s]? = (visited classes t [c])[s]? := by
        rw [hfront]
        exact List.getElem?_append_left ((hlength t).symm ▸ hs)
      rw [Nat.mod_eq_of_lt (hs.trans_le hle), hround]
    · obtain ⟨m, rfl⟩ := Nat.exists_eq_add_of_le hle
      rw [hr.visited_length_add h hcycle]
      rcases Nat.lt_or_ge s round.length with hlt | hge
      · rw [List.getElem?_append_left hlt, Nat.mod_eq_of_lt hlt]
      · rw [List.getElem?_append_right hge, ih m (by omega) (by omega),
          ← Nat.mod_eq_sub_mod hge]

/-- What the visited classes have together, as far as the walk goes. -/
theorem flatMap_visited {α : Type} (h : Hierarchy classes) (hcycle : OnCycle classes c) (t : Nat)
    (own : Nat → List α) : (visited classes t [c]).flatMap own
      = (List.range t).flatMap fun s => (round[s % round.length]?).elim [] own := by
  rw [flatMap_eq_flatMap_range, h.length_visited_of_onCycle hcycle]
  refine List.flatMap_congr fun s hs => ?_
  rw [hr.getElem?_visited h hcycle (List.mem_range.mp hs)]

end Round

end HeapDump
