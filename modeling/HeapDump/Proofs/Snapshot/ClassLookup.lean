/-
HeapDump/Proofs/Snapshot/ClassLookup.lean

Finding the classes of a finished snapshot by name.

The index has each class once, under the common form of the name that it was given in the
end, and it is asked for the common form of what is looked for.  So a name finds just the
classes whose names have the same common form, in the order of the file:

    s.findClasses q
      = s.classes.toList.filter fun c => ClassName.normalize c.name = ClassName.normalize q

(`Draft.findClasses_finish`).  Another spelling of a name has the same common form
(`ClassName.Respelled.normalize_eq`) and so finds the same classes.  As a common form is its
own, the lists of the common forms partition the classes: each class is in the list of its
own common form and in no other.  Main statement: `class_lookup_complete`.
-/
import HeapDump.Proofs.Graph.ArrayClass
import HeapDump.Proofs.Graph.ClassName
import HeapDump.Proofs.Snapshot.References
import HeapDump.Proofs.Snapshot.Reordering
import HeapDump.Proofs.Snapshot.Subtree

namespace HeapDump

/-! ### Spellings of one name -/

namespace ClassName

/-- The two spellings of the name of an array class of a primitive type. -/
inductive PrimitiveSpelling (t : BasicType) (dimensions : Nat) : String → Prop where
  | descriptor : PrimitiveSpelling t dimensions (primitiveDescriptor t dimensions)
  | source : PrimitiveSpelling t dimensions (arrayName t.name dimensions)

/-- Spellings of one name: they differ in slashes and dots at most, or they are of the array class
of one class or of one primitive type, and of as many dimensions. -/
inductive Respelled : String → String → Prop where
  | dotted {x y : String} (h : dotted x.toList = dotted y.toList) : Respelled x y
  | array {n m x y : String} {k : Nat} (hk : 0 < k) (h : dotted n.toList = dotted m.toList)
      (hx : ArraySpelling n k x) (hy : ArraySpelling m k y) : Respelled x y
  | primitive {t : BasicType} {x y : String} {k : Nat} (hk : 0 < k)
      (ht : t ∈ BasicType.primitives) (hx : PrimitiveSpelling t k x)
      (hy : PrimitiveSpelling t k y) : Respelled x y

/-- Both spellings have the name in source text as their common form. -/
theorem PrimitiveSpelling.normalize_eq {t : BasicType} {k : Nat} {x : String}
    (h : PrimitiveSpelling t k x) (hk : 0 < k) (ht : t ∈ BasicType.primitives) :
    normalize x = arrayName t.name k := by
  cases h with
  | descriptor => exact normalize_primitiveDescriptor ht hk
  | source =>
    rw [← normalize_primitiveDescriptor ht hk, normalize_normalize]

/-- Spellings of one name have one common form. -/
theorem Respelled.normalize_eq {x y : String} (h : Respelled x y) : normalize x = normalize y := by
  cases h with
  | dotted h =>
    rw [normalize_eq_iff, toList_normalize, ← normalizeChars_dotted, h, normalizeChars_dotted]
  | array hk h hx hy =>
    rw [← String.toList_inj, hx.toList_normalize hk, hy.toList_normalize hk, h]
  | primitive hk ht hx hy => rw [hx.normalize_eq hk ht, hy.normalize_eq hk ht]

end ClassName

/-! ### The index -/

namespace Draft

variable (d : Draft) (resolveFields : Bool)

/-- The index is made from the names that the classes have in the end. -/
theorem classIndex_finish : (d.finish resolveFields).classIndex
    = ClassIndex.ofNames ((d.finish resolveFields).classes.toList.map (·.name)) := by
  rw [← Array.toList_map, (d.sameButLinks_finish resolveFields).map_eq fun _ => rfl,
    Array.toList_map]
  exact d.index_resolution resolveFields

/-- A name finds the classes whose names have the same common form. -/
theorem findClasses_finish (q : String) : (d.finish resolveFields).findClasses q
    = (d.finish resolveFields).classes.toList.filter
      fun c => ClassName.normalize c.name = ClassName.normalize q := by
  rw [Snapshot.findClasses, ClassIndex.find, classIndex_finish,
    ← Std.ExtTreeMap.getD_eq_getD_getElem?, ClassIndex.toList_getD_ofNames, List.findIdxs_map,
    ← filterMap_findIdxs]
  simp only [Array.getElem?_toList]
  rfl

end Draft

/-- Each item of a list is selected once by distinct keys that cover all items. -/
theorem perm_flatMap_filter [DecidableEq κ] {key : α → κ} {keys : List κ} (hkeys : keys.Nodup)
    (xs : List α) (hcover : ∀ x ∈ xs, key x ∈ keys) :
    (keys.flatMap fun k => xs.filter (key · = k)).Perm xs := by
  induction keys generalizing xs with
  | nil =>
    obtain rfl : xs = [] := List.eq_nil_iff_forall_not_mem.mpr fun x hx => by
      simpa using hcover x hx
    exact .nil
  | cons k keys ih =>
    obtain ⟨hk, hkeys⟩ := List.nodup_cons.mp hkeys
    let rest := xs.filter fun x => !decide (key x = k)
    -- the other keys select from what the first one leaves
    have hrest (k' : κ) (hk' : k' ∈ keys) :
        rest.filter (key · = k') = xs.filter (key · = k') := by
      have hne : k' ≠ k := fun heq => hk (heq ▸ hk')
      rw [List.filter_filter]
      refine List.filter_congr fun x _ => ?_
      by_cases hx : key x = k' <;> simp [hx, hne]
    have hperm : (keys.flatMap fun k' => rest.filter (key · = k')).Perm rest :=
      ih hkeys rest fun x hx => by
        obtain ⟨hmem, hne⟩ := List.mem_filter.mp hx
        exact (List.mem_cons.mp (hcover x hmem)).resolve_left (by simpa using hne)
    rw [List.flatMap_cons, ← List.flatMap_congr hrest]
    exact (hperm.append_left _).trans (List.filter_append_perm _ xs)

/-! ### Finished snapshots -/

/-- **Classes are found by name, all of them and in order.**  A name finds just the classes with a
name of the same common form, in the order of the file, and the first of them.  So a class is found
by its own name, by the common form of it and by any other spelling, what two names find is
disjoint if their common forms differ, and the common forms of all names find each class once. -/
theorem class_lookup_complete (header : Header) (log : Diagnostics) (records : List Record)
    (resolveFields : Bool) :
    let s := (records.foldl Draft.push { header, diagnostics := log }).finish resolveFields
    s.classes.toList.map ClassObject.located = firstClasses records
      ∧ (∀ q, s.findClasses q
          = s.classes.toList.filter (fun c => ClassName.normalize c.name = ClassName.normalize q)
        ∧ s.findClass? q = (s.findClasses q).head?)
      ∧ (∀ c ∈ s.classes, c ∈ s.findClasses c.name ∧ c ∈ s.findClasses (ClassName.normalize c.name)
        ∧ ∀ q, ClassName.Respelled c.name q → c ∈ s.findClasses q)
      ∧ (∀ q q', ClassName.normalize q ≠ ClassName.normalize q' →
        (s.findClasses q).Disjoint (s.findClasses q'))
      ∧ ((s.classes.toList.map fun c => ClassName.normalize c.name).dedup.flatMap
          s.findClasses).Perm s.classes.toList := by
  intro s
  let d := records.foldl Draft.push { header, diagnostics := log }
  have hfind : ∀ q, s.findClasses q
      = s.classes.toList.filter fun c => ClassName.normalize c.name = ClassName.normalize q :=
    d.findClasses_finish resolveFields
  have hmem {c : ClassObject} {q : String} : c ∈ s.findClasses q
      ↔ c ∈ s.classes ∧ ClassName.normalize c.name = ClassName.normalize q := by
    rw [hfind, List.mem_filter, Array.mem_toList_iff, decide_eq_true_iff]
  refine ⟨?_, fun q => ⟨hfind q, rfl⟩, fun c hc => ⟨?_, ?_, fun q hq => ?_⟩,
    fun q q' hne c hc hc' => ?_, ?_⟩
  · rw [← (Draft.holds_foldl_push header log records).classes]
    exact d.located_classes_finish resolveFields
  · exact hmem.mpr ⟨hc, rfl⟩
  · exact hmem.mpr ⟨hc, (ClassName.normalize_normalize c.name).symm⟩
  · exact hmem.mpr ⟨hc, hq.normalize_eq⟩
  · exact hne ((hmem.mp hc).2.symm.trans (hmem.mp hc').2)
  -- the common forms of all names, each once, select every class once
  · let keys := (s.classes.toList.map fun c => ClassName.normalize c.name).dedup
    have hkeys : keys.flatMap s.findClasses = keys.flatMap fun k =>
        s.classes.toList.filter (ClassName.normalize ·.name = k) := by
      refine List.flatMap_congr fun k hk => ?_
      -- a common form is its own
      obtain ⟨c, -, rfl⟩ := List.mem_map.mp (List.mem_dedup.mp hk)
      rw [hfind, ClassName.normalize_normalize]
    rw [hkeys]
    exact perm_flatMap_filter (List.nodup_dedup _) _ fun c hc =>
      List.mem_dedup.mpr (List.mem_map_of_mem hc)

/-- Two classes of one name from two loaders, one without a name, and a class of arrays. -/
def sampleLoaders : List Record :=
  [⟨31, some 0, .string 1 "java/util/Map"⟩, ⟨57, some 0, .string 2 "[I"⟩,
    ⟨72, some 0, .loadClass 1 16 0 1⟩, ⟨97, some 0, .loadClass 2 17 0 1⟩,
    ⟨122, some 0, .loadClass 3 19 0 2⟩,
    ⟨147, none, .heap (.classDump ⟨16, 0, 0, 0, 0, 0, 0, [], [], []⟩)⟩,
    ⟨190, none, .heap (.classDump ⟨18, 0, 0, 0, 0, 0, 0, [], [], []⟩)⟩,
    ⟨233, none, .heap (.classDump ⟨19, 0, 0, 0, 0, 0, 0, [], [], []⟩)⟩,
    ⟨276, none, .heap (.classDump ⟨17, 0, 0, 64, 0, 0, 0, [], [], []⟩)⟩]

theorem class_lookup_complete_sampleLoaders :
    let s := sampleSnapshot sampleLoaders
    (s.findClasses "java.util.Map").map (·.id) = [16, 17]
      ∧ (s.findClasses "<unnamed class 0x12>").map (·.id) = [18]
      ∧ ∃ c ∈ s.classes, c.id = 19 ∧ c ∈ s.findClasses "int[]"
        ∧ (s.findClasses "int[]").Disjoint (s.findClasses "java.util.Map") := by
  intro s
  obtain ⟨-, -, hfound, hdisjoint, -⟩ := class_lookup_complete
    ⟨"JAVA PROFILE 1.0.2", 4, 1700000000000, 31⟩ {} sampleLoaders true
  have harray : ∃ c ∈ s.classes.toList, c.id = 19 ∧ c.name = "[I" := by decide +kernel
  obtain ⟨c, hc, hid, hname⟩ := harray
  have hc : c ∈ s.classes := Array.mem_toList_iff.mp hc
  have hspelled : ClassName.Respelled c.name "int[]" :=
    hname ▸ .primitive Nat.one_pos (show BasicType.int ∈ BasicType.primitives by decide)
      .descriptor .source
  refine ⟨by decide +kernel, by decide +kernel, c, hc, hid, (hfound c hc).2.2 _ hspelled, ?_⟩
  exact hdisjoint _ _ (by decide +kernel)

end HeapDump
