/-
HeapDump/Proofs/Graph/ArrayClass.lean

Finding classes by name, and with it the class of arrays of a primitive type.

The index of class names has for each name the positions of the classes that it
means, in the order of the file (`ClassIndex.toList_getD_ofNames`), so its first
entry is the first such class.

A dump does not say which class an array of a primitive type has; it is looked for
by the name of the type with brackets.  `IsArrayClass classes t r` says what is
found: the first class of that name, or null if there is none.  This is the one
reference of a graph that does not come from an identifier, and the only one for
which the order of the classes matters.
-/
import Mathlib.Data.List.Basic
import HeapDump.Graph.Resolution
import HeapDump.Proofs.Graph.Links
import Mathlib.Data.List.Induction
import Std.Data.ExtTreeMap.Lemmas

namespace HeapDump

/-- The index has the positions of all names of a common form. -/
theorem ClassIndex.toList_getD_ofNames (names : List String) (key : String) :
    ((ofNames names).getD key #[]).toList
      = names.findIdxs (ClassName.normalize · = key) := by
  induction names using List.reverseRecOn with
  | nil => simp [ofNames]
  | append_singleton names name ih =>
    have hstep : ofNames (names ++ [name])
        = (ofNames names).alter (ClassName.normalize name) fun found =>
          some ((found.getD #[]).push names.length) := by
      simp [ofNames, List.zipIdx_append]
    rw [hstep, Std.ExtTreeMap.getD_alter, List.findIdxs_append, ← ih]
    by_cases hkey : ClassName.normalize name = key
    · subst hkey
      simp [Std.ExtTreeMap.getD_eq_getD_getElem?]
    · simp [hkey]

/-- The first position of a list of positions is the first that fits. -/
theorem getElem?_zero_findIdxs (p : α → Bool) (xs : List α) :
    (xs.findIdxs p)[0]? = xs.findIdx? p := by
  induction xs with
  | nil => rfl
  | cons x xs ih =>
    rw [List.findIdxs_cons, List.findIdx?_cons]
    split
    · rfl
    · rw [List.findIdxs_start, List.getElem?_map, ih]

/-- A reference to the first class whose name is that of the arrays of a type, or the null
reference if there is no such class. -/
def IsArrayClass (classes : Array ClassObject) (t : BasicType) (r : Reference) : Prop :=
  (∃ (k : Nat) (c : ClassObject), classes[k]? = some c
    ∧ ClassName.normalize c.name = t.name ++ "[]"
    ∧ (∀ (j : Nat) (c' : ClassObject), j < k → classes[j]? = some c' →
        ClassName.normalize c'.name ≠ t.name ++ "[]")
    ∧ r = .resolved c.id (.classAt k))
  ∨ (∀ c ∈ classes, ClassName.normalize c.name ≠ t.name ++ "[]") ∧ r = .null

/-- The class of arrays is found by names and identifiers alone. -/
theorem IsArrayClass.of_sameButLinks {classes classes' : Array ClassObject} {t : BasicType}
    {r : Reference} (h : SameButLinks classes classes') (hr : IsArrayClass classes' t r) :
    IsArrayClass classes t r := by
  rcases hr with ⟨k, c', hk, hname, hbefore, rfl⟩ | ⟨hnone, rfl⟩
  · obtain ⟨c, hc, hbare⟩ := h.exists_getElem? hk
    have hcid : c.id = c'.id := (congrArg ClassObject.id hbare :)
    have hcname : c.name = c'.name := (congrArg ClassObject.name hbare :)
    refine .inl ⟨k, c, hc, hcname ▸ hname, fun j b hj hb => ?_, by rw [hcid]⟩
    obtain ⟨b', hb', hbare'⟩ := h.symm.exists_getElem? hb
    have hbname : b'.name = b.name := (congrArg ClassObject.name hbare' :)
    exact hbname ▸ hbefore j b' hj hb'
  · exact .inr ⟨fun c hc => h.forall_mem (fun _ => Iff.rfl) hnone hc, rfl⟩

/-- The class of the arrays of a primitive type is the first one of their name. -/
theorem Resolution.isArrayClass_arrayClass {ctx : Resolution} {t : BasicType}
    (hindex : ctx.index = ClassIndex.ofNames (ctx.classes.toList.map (·.name)))
    (ht : t ≠ .object) : IsArrayClass ctx.classes t (ctx.arrayClass t) := by
  -- the first entry of the index is the first class of the name
  have hfirst : ctx.index[t.arrayClassName]?.bind (·[0]?)
      = ctx.classes.toList.findIdx? fun c => ClassName.normalize c.name = t.name ++ "[]" := by
    have hzero (entry : Option (Array Nat)) :
        entry.bind (·[0]?) = (entry.getD #[]).toList[0]? := by
      cases entry <;> simp
    rw [hzero, ← Std.ExtTreeMap.getD_eq_getD_getElem?, hindex, ClassIndex.toList_getD_ofNames,
      List.findIdxs_map, getElem?_zero_findIdxs]
    rfl
  rw [arrayClass, if_neg ht, hfirst]
  cases hk : ctx.classes.toList.findIdx?
      fun c => ClassName.normalize c.name = t.name ++ "[]" with
  | none =>
    refine .inr ⟨fun c hc => ?_, rfl⟩
    simpa using List.findIdx?_eq_none_iff.mp hk c (Array.mem_toList_iff.mpr hc)
  | some k =>
    obtain ⟨hlt, hname, hbefore⟩ := List.findIdx?_eq_some_iff_getElem.mp hk
    have hget : ctx.classes[k]? = some ctx.classes[k] := Array.getElem?_eq_getElem hlt
    simp only [hget]
    refine .inl ⟨k, _, hget, of_decide_eq_true hname, fun j c hj hc hname' => ?_, rfl⟩
    obtain ⟨hjlt, rfl⟩ := Array.getElem?_eq_some_iff.mp hc
    exact hbefore j hj (decide_eq_true hname')

end HeapDump
