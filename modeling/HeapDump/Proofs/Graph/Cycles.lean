/-
HeapDump/Proofs/Graph/Cycles.lean

Classes that are their own superclasses, over one step or more.

There is one way up from each class, so whatever is above a class on a cycle is on the same cycle
(`OnCycle.of_below`), and each such class has just one subclass on it (`OnCycle.exists_child`,
`OnCycle.child_unique`).

A class is `Skipped` if it hangs off a cycle in front of where this goes on: no class on a cycle
is (`OnCycle.not_skipped`), and a class that hangs off behind it is not either.  What is in front
is told by positions: among the subclasses of a class on the cycle, those with a smaller position
than the one on the cycle are skipped, with all below them.

These are facts about the map from classes to superclasses and speak of no walk.  They are stated
so that a walk which takes the subclasses of each class in the order of their positions can be
followed round the cycle.
-/
import HeapDump.Proofs.Graph.Ancestry

namespace HeapDump

/-- The class at position `j` is the one at `i`, or has it among its superclasses. -/
def Below (classes : Array ClassObject) (i j : Nat) : Prop :=
  ∃ k, ancestor? classes j k = some i

/-- The class at a position has itself among its superclasses. -/
def OnCycle (classes : Array ClassObject) (i : Nat) : Prop :=
  ∃ k, 0 < k ∧ ancestor? classes i k = some i

/-- Upwards from the class at position `k`, or there already, is a class in front of one that has
the same superclass and is on a cycle. -/
def Skipped (classes : Array ClassObject) (k : Nat) : Prop :=
  ∃ d e e', Below classes d k ∧ parent? classes d = some e ∧ parent? classes e' = some e
    ∧ OnCycle classes e' ∧ d < e'

variable {classes : Array ClassObject} {i j k e : Nat}

/-! ### Above and below -/

theorem Below.refl (classes : Array ClassObject) (i : Nat) : Below classes i i := ⟨0, rfl⟩

theorem Below.trans (h : Below classes i j) (h' : Below classes j k) : Below classes i k := by
  obtain ⟨a, ha⟩ := h
  obtain ⟨b, hb⟩ := h'
  exact ⟨b + a, by rw [ancestor?_add, hb]; exact ha⟩

theorem Below.of_parent? (h : parent? classes j = some i) : Below classes i j := ⟨1, h⟩

/-- What is above a class is this itself, or above its superclass. -/
theorem below_iff :
    Below classes i j ↔ j = i ∨ ∃ e, parent? classes j = some e ∧ Below classes i e := by
  constructor
  · rintro ⟨k | k, hk⟩
    · exact .inl (Option.some.inj hk)
    · rw [ancestor?_succ] at hk
      obtain ⟨e, he, hk⟩ := Option.bind_eq_some_iff.mp hk
      exact .inr ⟨e, he, k, hk⟩
  · rintro (rfl | ⟨e, he, hbelow⟩)
    · exact .refl classes j
    · exact hbelow.trans (.of_parent? he)

/-- What holds of a class, and of each class that has a superclass of which it holds, holds below
the class. -/
theorem Below.induction {motive : Nat → Prop} (h : Below classes i j) (top : motive i)
    (step : ∀ j e, parent? classes j = some e → Below classes i e → motive e → motive j) :
    motive j := by
  obtain ⟨k, hk⟩ := h
  induction k generalizing j with
  | zero =>
    obtain rfl := Option.some.inj hk
    exact top
  | succ k ih =>
    rw [ancestor?_succ] at hk
    obtain ⟨e, he, hk⟩ := Option.bind_eq_some_iff.mp hk
    exact step j e he ⟨k, hk⟩ (ih hk)

theorem Below.lt_size (h : Below classes i j) (hi : i < classes.size) : j < classes.size :=
  h.induction hi fun _ _ he _ _ => lt_size_of_parent? he

/-! ### Cycles -/

/-- Going round again leads to the same place. -/
theorem ancestor?_mul {m : Nat} (h : ancestor? classes i m = some i) (t : Nat) :
    ancestor? classes i (m * t) = some i := by
  induction t with
  | zero => rfl
  | succ t ih =>
    rw [Nat.mul_succ, ancestor?_add, ih]
    exact h

namespace OnCycle

/-- What is above a class on a cycle is on the cycle, and below the class as well. -/
theorem of_below (h : OnCycle classes j) (hij : Below classes i j) :
    OnCycle classes i ∧ Below classes j i := by
  obtain ⟨m, hm, hround⟩ := h
  obtain ⟨k, hk⟩ := hij
  -- enough rounds lead past the class above
  have hle : k < m * (k + 1) :=
    Nat.lt_of_lt_of_le (Nat.lt_succ_self k) (Nat.le_mul_of_pos_left _ hm)
  obtain ⟨r, hr⟩ := Nat.exists_eq_add_of_lt hle
  have hback : ancestor? classes i (r + 1) = some j := by
    have hmany := ancestor?_mul hround (k + 1)
    rwa [hr, Nat.add_assoc, ancestor?_add, hk] at hmany
  refine ⟨⟨r + 1 + k, by omega, ?_⟩, r + 1, hback⟩
  rw [ancestor?_add, hback]
  exact hk

/-- The cycle goes on below each class. -/
theorem exists_child (h : OnCycle classes i) :
    ∃ j, parent? classes j = some i ∧ OnCycle classes j := by
  obtain ⟨m, hm, hround⟩ := h
  obtain ⟨m, rfl⟩ := Nat.exists_eq_add_of_lt hm
  rw [Nat.zero_add, ancestor?] at hround
  obtain ⟨j, hj, hparent⟩ := Option.bind_eq_some_iff.mp hround
  exact ⟨j, hparent, (of_below ⟨m + 1, by omega, hround⟩ ⟨m, hj⟩).1⟩

theorem exists_period_of_parent? (h : OnCycle classes j) (he : parent? classes j = some e) :
    ∃ m, ancestor? classes e m = some j ∧ ancestor? classes e (m + 1) = some e := by
  obtain ⟨m, hm, hround⟩ := h
  obtain ⟨m, rfl⟩ := Nat.exists_eq_add_of_lt hm
  rw [Nat.zero_add, ancestor?_succ, he] at hround
  refine ⟨m, hround, ?_⟩
  rw [ancestor?, show ancestor? classes e m = some j from hround]
  exact he

/-- The cycle goes on in one way only. -/
theorem child_unique {j' : Nat} (h : OnCycle classes j) (h' : OnCycle classes j')
    (he : parent? classes j = some e) (he' : parent? classes j' = some e) : j = j' := by
  obtain ⟨m, hm, hround⟩ := h.exists_period_of_parent? he
  obtain ⟨m', hm', hround'⟩ := h'.exists_period_of_parent? he'
  -- both are a step short of as many rounds of each length as the other has steps
  have hsteps : (m + 1) * m' + m = (m' + 1) * m + m' := by
    rw [Nat.succ_mul, Nat.succ_mul, Nat.mul_comm m' m]
    omega
  have hj : ancestor? classes e ((m + 1) * m' + m) = some j := by
    rw [ancestor?_add, ancestor?_mul hround]
    exact hm
  have hj' : ancestor? classes e ((m' + 1) * m + m') = some j' := by
    rw [ancestor?_add, ancestor?_mul hround']
    exact hm'
  rw [hsteps, hj'] at hj
  exact (Option.some.inj hj).symm

/-- No class on a cycle is skipped. -/
theorem not_skipped (h : OnCycle classes i) : ¬Skipped classes i := by
  rintro ⟨d, e, e', hbelow, hd, he', hcycle, hlt⟩
  exact Nat.ne_of_lt hlt ((h.of_below hbelow).1.child_unique hcycle hd he')

end OnCycle

/-! ### Skipped classes -/

/-- A class is skipped if its superclass is, or if the cycle goes on behind it. -/
theorem skipped_iff (h : parent? classes j = some e) : Skipped classes j
    ↔ Skipped classes e ∨ ∃ e', parent? classes e' = some e ∧ OnCycle classes e' ∧ j < e' := by
  constructor
  · rintro ⟨d, f, e', hbelow, hd, he', hcycle, hlt⟩
    rcases below_iff.mp hbelow with rfl | ⟨e₁, he₁, hbelow⟩
    · obtain rfl := Option.some.inj (h.symm.trans hd)
      exact .inr ⟨e', he', hcycle, hlt⟩
    · obtain rfl := Option.some.inj (h.symm.trans he₁)
      exact .inl ⟨d, f, e', hbelow, hd, he', hcycle, hlt⟩
  · rintro (⟨d, f, e', hbelow, hskipped⟩ | ⟨e', he', hcycle, hlt⟩)
    · exact ⟨d, f, e', hbelow.trans (.of_parent? h), hskipped⟩
    · exact ⟨j, e, e', .refl classes j, h, he', hcycle, hlt⟩

/-- Below a class that is on no cycle none is skipped that was not already. -/
theorem skipped_iff_of_not_onCycle (h : parent? classes j = some e) (he : ¬OnCycle classes e) :
    Skipped classes j ↔ Skipped classes e := by
  rw [skipped_iff h]
  refine or_iff_left ?_
  rintro ⟨e', he', hcycle, -⟩
  exact he (hcycle.of_below (.of_parent? he')).1

/-- Below a class on a cycle those are skipped that come before the next one on it. -/
theorem skipped_iff_of_onCycle {e' : Nat} (h : parent? classes j = some e)
    (he' : parent? classes e' = some e) (hcycle : OnCycle classes e') :
    Skipped classes j ↔ j < e' := by
  rw [skipped_iff h]
  constructor
  · rintro (hskipped | ⟨e'', he'', hcycle', hlt⟩)
    · exact absurd hskipped (hcycle.of_below (.of_parent? he')).1.not_skipped
    · rwa [hcycle.child_unique hcycle' he' he'']
  · exact fun hlt => .inr ⟨e', he', hcycle, hlt⟩

end HeapDump
