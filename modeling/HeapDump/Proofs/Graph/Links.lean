/-
HeapDump/Proofs/Graph/Links.lean

What linking leaves alone.

Linking fills in the lists of subclasses and instances of each class and changes
nothing else (`Graph.sameButLinks_link`).  `SameButLinks classes classes'` says so of
two arrays: they are equal once these lists are emptied.

Whatever does not look at the lists is therefore as before: any property of single
classes (`SameButLinks.map_eq`, `SameButLinks.forall_mem`), and with names, superclasses
and declared fields also chains of superclasses (`SameButLinks.superclassChain_eq`) and
layouts (`SameButLinks.layout_eq`).  Statements about a finished graph are proved for the
classes before linking and carried over by these lemmas.
-/
import HeapDump.Graph.Fields

namespace HeapDump

/-- A class without its lists of subclasses and instances. -/
def ClassObject.bare (c : ClassObject) : ClassObject := { c with subclasses := [], instances := [] }

/-- Classes that differ in their lists of subclasses and instances at most. -/
def SameButLinks (classes classes' : Array ClassObject) : Prop :=
  classes.map ClassObject.bare = classes'.map ClassObject.bare

theorem Graph.sameButLinks_link (g : Graph) : SameButLinks g.link.classes g.classes := by
  apply Array.ext_getElem?
  intro i
  rw [link, Array.getElem?_map, Array.getElem?_mapIdx, Array.getElem?_map, Option.map_map]
  rfl

namespace SameButLinks

variable {classes classes' : Array ClassObject}

/-- What does not look at the lists sees no difference. -/
theorem map_eq (h : SameButLinks classes classes') {f : ClassObject → α}
    (hf : ∀ c, f c.bare = f c) : classes.map f = classes'.map f := by
  have hbare (cs : Array ClassObject) : (cs.map ClassObject.bare).map f = cs.map f := by
    rw [Array.map_map]
    exact Array.map_congr_left fun c _ => hf c
  rw [← hbare, h, hbare]

theorem size_eq (h : SameButLinks classes classes') : classes.size = classes'.size := by
  rw [← Array.size_map (f := ClassObject.bare), h, Array.size_map]

/-- What does not look at the lists sees no difference at any position. -/
theorem map_getElem?_eq (h : SameButLinks classes classes') {f : ClassObject → α}
    (hf : ∀ c, f c.bare = f c) (i : Nat) : classes[i]?.map f = classes'[i]?.map f := by
  rw [← Array.getElem?_map, ← Array.getElem?_map, h.map_eq hf]

/-- A class has its counterpart at the same position. -/
theorem exists_getElem? (h : SameButLinks classes classes') {i : Nat} {c' : ClassObject}
    (hi : classes'[i]? = some c') :
    ∃ c, classes[i]? = some c ∧ c.bare = c'.bare := by
  have hat := h.map_getElem?_eq (f := ClassObject.bare) (fun _ => rfl) i
  rw [hi] at hat
  exact Option.map_eq_some_iff.mp hat

theorem symm (h : SameButLinks classes classes') : SameButLinks classes' classes := Eq.symm h

/-- What holds of all classes and does not look at the lists holds of all counterparts. -/
theorem forall_mem (h : SameButLinks classes classes') {P : ClassObject → Prop}
    (hP : ∀ c, P c.bare ↔ P c) (hall : ∀ c ∈ classes', P c) {c : ClassObject}
    (hc : c ∈ classes) : P c := by
  obtain ⟨i, hi⟩ := Array.getElem?_of_mem hc
  obtain ⟨c', hc', hbare⟩ := h.symm.exists_getElem? hi
  rw [← hP, ← hbare, hP]
  exact hall c' (Array.mem_of_getElem? hc')

theorem superclassesFrom_eq (h : SameButLinks classes classes') (fuel i : Nat) :
    superclassesFrom classes fuel i = superclassesFrom classes' fuel i := by
  induction fuel generalizing i with
  | zero => rfl
  | succ fuel ih =>
    have hsuper : classes[i]?.map (·.superclass) = classes'[i]?.map (·.superclass) :=
      h.map_getElem?_eq (fun _ => rfl) i
    have hnext : classes[i]?.bind (·.superclass.class?)
        = classes'[i]?.bind (·.superclass.class?) := by
      have := congrArg (·.bind Reference.class?) hsuper
      simpa only [Option.bind_map, Function.comp_def] using this
    rw [superclassesFrom, superclassesFrom, hnext]
    simp only [ih]

/-- The chain of superclasses is the same. -/
theorem superclassChain_eq (h : SameButLinks classes classes') (i : Nat) :
    superclassChain classes i = superclassChain classes' i := by
  rw [superclassChain, superclassChain, h.size_eq, h.superclassesFrom_eq]

/-- The layout is the same. -/
theorem layout_eq (h : SameButLinks classes classes') (chain : List Nat) :
    layout classes chain = layout classes' chain := by
  rw [layout, layout]
  refine congrArg (chain.flatMap ·) (funext fun i => ?_)
  have hpart (cs : Array ClassObject) : layoutPart cs i
      = (cs[i]?.map fun c =>
          c.fields.map fun field => (⟨field, i, c.name⟩ : LayoutField)).getD [] := by
    rw [layoutPart]
    cases cs[i]? <;> rfl
  rw [hpart, hpart, h.map_getElem?_eq fun _ => rfl]

end SameButLinks

end HeapDump
