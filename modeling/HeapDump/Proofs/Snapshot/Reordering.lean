/-
HeapDump/Proofs/Snapshot/Reordering.lean

A graph does not depend on the order of definitions.

Two dumps that define the same objects in different orders, each object once, and
agree in all other records, have the same objects as identifiers show them, the same
lists of subclasses and instances, and the same diagnostics up to order.

Positions differ, so nothing can be said of the arenas themselves; what is compared are
views (`Snapshot.view?`), in which a reference is an identifier and a state.  The drafts
of both dumps are `Reordered`, their tables have the same identifiers for the same kinds
of objects, and classes and instances resolve to the same views in another order.  Since
an identifier belongs to one object, equal views up to order are equal views for each
identifier.

Heaps may differ too, as an object belongs to the heap that was named last before it.
The class of an array of a primitive type is the first one of its name, so it may differ
if several classes have that name.  Main statement: `reordering_irrelevant`.
-/
import HeapDump.Proofs.Snapshot.Views

namespace HeapDump

/-- An identifier is found as a class if it is among the classes', and as an instance if it is
among the instances'. -/
theorem Indexes.map_kind_eq_some_iff {objects : ObjectTable} {classIds instanceIds : List ObjectId}
    (h : Indexes objects classIds instanceIds) {id : ObjectId} {kind : TargetKind} :
    objects[id]?.map Target.kind = some kind
      ↔ id ∈ match kind with | .ofClass => classIds | .ofInstance => instanceIds := by
  rw [Option.map_eq_some_iff]
  simp only [h id]
  constructor
  · rintro ⟨i | i, hi, rfl⟩
    · exact List.mem_of_getElem? hi
    · exact List.mem_of_getElem? hi
  · intro hmem
    obtain ⟨i, hi⟩ := List.getElem?_of_mem hmem
    cases kind with
    | ofClass => exact ⟨.classAt i, hi, rfl⟩
    | ofInstance => exact ⟨.instanceAt i, hi, rfl⟩

namespace Draft

/-- The classes of a draft are where the table finds their identifiers. -/
theorem classTable_lookedUpClasses {d : Draft}
    (h : Indexes d.objects (d.classes.toList.map (·.value.classId))
      (d.instances.toList.map (·.value.objectId))) : ClassTable d.objects d.lookedUpClasses where
  getElem?_eq_some_iff id i := by
    rw [h id, idAt, lookedUpClasses, Array.getElem?_map, Option.map_map, List.getElem?_map,
      Array.getElem?_toList]
    rfl
  settled c hc := by
    obtain ⟨dump, -, rfl⟩ := Array.mem_map.mp hc
    exact (d.settled_lookup_classObject d.objects dump).superclass

namespace Reordered

variable {d d' : Draft} (h : d.Reordered d')

include h

/-- Both tables have the same identifiers. -/
theorem sameKinds : SameKinds d.objects d'.objects := by
  intro id
  refine Option.ext fun kind => ?_
  rw [h.indexes.map_kind_eq_some_iff, h.indexes'.map_kind_eq_some_iff]
  cases kind with
  | ofClass => exact (Located.perm_map h.classes fun c c' hc => congrArg (·.1.classId) hc).mem_iff
  | ofInstance =>
    exact (Located.perm_map h.instances fun o o' ho => congrArg (·.1.objectId) ho).mem_iff

theorem classObject_eq (c : Located ClassDump) : d.classObject c = d'.classObject c := by
  simp only [classObject, className, className?, fieldName, h.loads_eq, h.strings_eq]

/-- A class is looked up alike, whatever its heap. -/
theorem lookup_congr {c c' : Located ClassDump} (hc : c.entry = c'.entry) :
    ((d.classObject c).lookup d.objects).value.view
        = ((d'.classObject c').lookup d'.objects).value.view
      ∧ ((d.classObject c).lookup d.objects).notes
        = ((d'.classObject c').lookup d'.objects).notes := by
  obtain ⟨dump, heap, offset⟩ := c
  obtain ⟨dump', heap', offset'⟩ := c'
  obtain ⟨rfl, rfl⟩ : dump = dump' ∧ offset = offset' := Located.entry_eq_iff.mp hc
  rw [h.classObject_eq, ClassObject.view_lookup h.sameKinds, ClassObject.notes_lookup h.sameKinds]
  exact ⟨rfl, rfl⟩

/-- The classes of both drafts show the same when they have been looked up. -/
theorem aligned : Aligned d.objects d'.objects d.lookedUpClasses d'.lookedUpClasses where
  kinds := h.sameKinds
  views := by
    rw [lookedUpClasses, lookedUpClasses, Array.toList_map, Array.toList_map, List.map_map,
      List.map_map]
    exact Located.perm_map h.classes fun c c' hc => (h.lookup_congr hc).1
  table := classTable_lookedUpClasses h.indexes
  table' := classTable_lookedUpClasses h.indexes'

theorem resolution_aligned (resolveFields : Bool) :
    (d.resolution resolveFields).Aligned (d'.resolution resolveFields) where
  aligned := h.aligned
  idSize_eq := congrArg Header.idSize h.header_eq
  resolveFields_eq := rfl

/-! ### Finished drafts -/

section

variable (resolveFields : Bool)

theorem aligned_finish : Aligned d.objects d'.objects (d.finish resolveFields).classes
    (d'.finish resolveFields).classes :=
  h.aligned.of_sameButLinks (d.sameButLinks_finish resolveFields)
    (d'.sameButLinks_finish resolveFields)

/-- Classes and instances show the same, in some order. -/
theorem sameViews_finish : (d.finish resolveFields).SameViews (d'.finish resolveFields) where
  classes := (h.aligned_finish resolveFields).views
  instances := by
    rw [Snapshot.instanceViews, Snapshot.instanceViews, instances_finish, instances_finish,
      (d.sameButLinks_finish resolveFields).instanceView_eq,
      (d'.sameButLinks_finish resolveFields).instanceView_eq, List.map_map, List.map_map]
    exact Located.perm_map h.instances fun o o' ho =>
      ((h.resolution_aligned resolveFields).resolveInstance_congr ho).1

/-- The same is reported, in some order. -/
theorem perm_diagnostics_finish : (d.finish resolveFields).diagnostics.toList.Perm
    (d'.finish resolveFields).diagnostics.toList := by
  have hclasses := Located.perm_flatMap h.classes fun c c' hc => (h.lookup_congr hc).2
  have hinstances := Located.perm_flatMap h.instances fun o o' ho =>
    ((h.resolution_aligned resolveFields).resolveInstance_congr ho).2
  have hroots : (d.roots.toList.flatMap fun r => ((gcRoot r).lookup d.objects).notes)
      = d'.roots.toList.flatMap fun r => ((gcRoot r).lookup d'.objects).notes := by
    simp only [h.roots_eq, GcRoot.lookup, Noted.notes_bind, Noted.notes_pure,
      (Reference.lookup_congr h.sameKinds _ _ _).2]
  rw [toList_diagnostics_finish, toList_diagnostics_finish, h.diagnostics_eq, hroots]
  exact (h.perm_namingNotes.append_left _).append
    (hclasses.append (hinstances.append_right _))

/-- What instances are resolved against shows the same behind linking as well. -/
theorem resolution_finish_aligned : Resolution.Aligned
    ((d.finish resolveFields).resolution resolveFields)
    ((d'.finish resolveFields).resolution resolveFields) where
  aligned := h.aligned_finish resolveFields
  idSize_eq := congrArg Header.idSize h.header_eq
  resolveFields_eq := rfl

end

end Reordered

end Draft

/-! ### The main statement -/

/-- **A graph does not depend on the order of definitions.**  Records that define distinct
identifiers may be permuted if all other records stay in order: for each identifier there is
the same object, with the same references by state and identifier, the same fields, values and
sizes; each class has the same subclasses and instances, and the same is reported.  Arrays of
primitive types are of the same classes if no two classes have the same name. -/
theorem reordering_irrelevant (header : Header) (log : Diagnostics)
    {records records' : List Record} (resolveFields : Bool) (hperm : records.Perm records')
    (hothers : records.filter (·.definedId? = none) = records'.filter (·.definedId? = none))
    (hids : DistinctIds records) :
    let s := (records.foldl Draft.push { header, diagnostics := log }).finish resolveFields
    let s' := (records'.foldl Draft.push { header, diagnostics := log }).finish resolveFields
    (∀ id, (s.view? id).isSome ↔ Defined records id)
    ∧ (∀ id, s.view? id = s'.view? id)
    ∧ (∀ id, s.subclassIds id = s'.subclassIds id)
    ∧ (∀ id, s.instanceIds id = s'.instanceIds id)
    ∧ s.diagnostics.toList.Perm s'.diagnostics.toList
    ∧ ((s.classes.toList.map fun c => ClassName.normalize c.name).Nodup →
        ∀ id o o', s.instance? id = some o → s'.instance? id = some o' →
          o.classRef.view = o'.classRef.view) := by
  intro s s'
  have hdraft := Draft.holds_foldl_push header log records
  have hreordered := Draft.reordered_foldl_push header log hperm hothers hids
  have hviews := hreordered.sameViews_finish resolveFields
  -- Both snapshots are indexed, linked and settled, so views tell all that is asked for.
  have hindexed : s.Indexed := Draft.indexed_finish hreordered.indexes resolveFields
  have hindexed' : s'.Indexed := Draft.indexed_finish hreordered.indexes' resolveFields
  have hlinked : s.Linked := Draft.linked_finish _ resolveFields
  have hlinked' : s'.Linked := Draft.linked_finish _ resolveFields
  have hclasses : ∀ c ∈ s.classes, c.Settled s.objects := fun c hc =>
    Draft.settled_of_mem_classes_finish _ resolveFields hc
  have hclasses' : ∀ c ∈ s'.classes, c.Settled s'.objects := fun c hc =>
    Draft.settled_of_mem_classes_finish _ resolveFields hc
  have hinstances : ∀ o ∈ s.instances, o.Settled (s.resolution resolveFields) := fun o ho =>
    Draft.settled_of_mem_instances_finish _ resolveFields ho
  have hinstances' : ∀ o ∈ s'.instances, o.Settled (s'.resolution resolveFields) := fun o ho =>
    Draft.settled_of_mem_instances_finish _ resolveFields ho
  have hview := hviews.view?_eq hindexed hindexed'
  refine ⟨fun id => ?_, hview,
    hviews.subclassIds_eq hindexed hindexed' hlinked hlinked' hclasses hclasses',
    hviews.instanceIds_eq hindexed hindexed' hlinked hlinked' hinstances hinstances',
    hreordered.perm_diagnostics_finish resolveFields, fun hnames id o o' ho ho' => ?_⟩
  · rw [hindexed.isSome_view?_iff]
    exact hdraft.mem_objects_iff id
  -- the two instances show the same view, and with distinct names that tells the class
  · have hshown := (hindexed.view?_of_instance? ho).symm.trans
      ((hview id).trans (hindexed'.view?_of_instance? ho'))
    obtain ⟨-, i, hi⟩ := hindexed.instance?_eq_some_iff.mp ho
    obtain ⟨-, i', hi'⟩ := hindexed'.instance?_eq_some_iff.mp ho'
    exact (hreordered.resolution_finish_aligned resolveFields).view_classRef_eq hnames
      (hinstances o (Array.mem_of_getElem? hi)) (hinstances' o' (Array.mem_of_getElem? hi'))
      (ObjectView.ofInstance.inj (Option.some.inj hshown))

/-! ### A dump in two orders -/

/-- Names, a heap without a name and a root: records that define nothing. -/
def sampleOthers : List Record :=
  [⟨31, some 0, .string 1 "Node"⟩, ⟨48, some 0, .string 2 "next"⟩, ⟨65, some 0, .string 3 "[I"⟩,
    ⟨80, some 0, .loadClass 1 16 0 1⟩, ⟨105, some 0, .loadClass 2 18 0 3⟩,
    ⟨130, some 0, .heapDumpStart false 172⟩, ⟨139, none, .heap (.heapInfo 1 9)⟩,
    ⟨148, none, .heap (.root { kind := .systemClass, objectId := 16 })⟩]

/-- Two classes, a plain object and two arrays, which refer to each other and to an object
that is not there. -/
def sampleDefinitions : List Record :=
  [⟨153, none, .heap (.classDump ⟨16, 0, 18, 0, 0, 0, 4, [], [], [⟨2, .object⟩]⟩)⟩,
    ⟨201, none, .heap (.classDump ⟨18, 0, 0, 34, 0, 0, 4, [], [], []⟩)⟩,
    ⟨244, none, .heap (.object (.plain ⟨32, 0, 16, ⟨#[0, 0, 0, 33]⟩⟩))⟩,
    ⟨265, none, .heap (.object (.references ⟨33, 0, 32, [32, 0, 99]⟩))⟩,
    ⟨294, none, .heap (.object (.primitives ⟨34, 0, .int, 2, none⟩))⟩]

/-- The snapshot of some records, with identifiers of four bytes. -/
def sampleSnapshot (records : List Record) : Snapshot :=
  (records.foldl Draft.push
    { header := ⟨"JAVA PROFILE 1.0.2", 4, 1700000000000, 31⟩, diagnostics := {} }).finish true

theorem reordering_irrelevant_sample :
    let records := sampleOthers ++ sampleDefinitions
    let records' := sampleDefinitions.reverse ++ sampleOthers
    let s := sampleSnapshot records
    let s' := sampleSnapshot records'
    records.Perm records'
      ∧ records.filter (·.definedId? = none) = records'.filter (·.definedId? = none)
      ∧ DistinctIds records
      ∧ (s.classes.toList.map fun c => ClassName.normalize c.name).Nodup
      ∧ s.view? 32 = s'.view? 32
      ∧ s.subclassIds 18 = s'.subclassIds 18
      ∧ s.instanceIds 16 = s'.instanceIds 16
      ∧ s.diagnostics.toList.Perm s'.diagnostics.toList
      ∧ ∃ o o', s.instance? 34 = some o ∧ s'.instance? 34 = some o'
        ∧ o.classRef = .resolved 18 (.classAt 1) ∧ o'.classRef = .resolved 18 (.classAt 0)
        ∧ o.classRef.view = o'.classRef.view := by
  intro records records' s s'
  have hperm : records.Perm records' := by decide +kernel
  have hothers : records.filter (·.definedId? = none) = records'.filter (·.definedId? = none) := by
    decide +kernel
  have hids : DistinctIds records := by decide +kernel
  have hnames : (s.classes.toList.map fun c => ClassName.normalize c.name).Nodup := by
    decide +kernel
  have ho : (s.instance? 34).map (·.classRef) = some (.resolved 18 (.classAt 1)) := by
    decide +kernel
  have ho' : (s'.instance? 34).map (·.classRef) = some (.resolved 18 (.classAt 0)) := by
    decide +kernel
  obtain ⟨o, ho, hclass⟩ := Option.map_eq_some_iff.mp ho
  obtain ⟨o', ho', hclass'⟩ := Option.map_eq_some_iff.mp ho'
  obtain ⟨-, hview, hsubclasses, hinstances, hdiagnostics, hclasses⟩ := reordering_irrelevant
    ⟨"JAVA PROFILE 1.0.2", 4, 1700000000000, 31⟩ {} true hperm hothers hids
  exact ⟨hperm, hothers, hids, hnames, hview 32, hsubclasses 18, hinstances 16, hdiagnostics,
    o, o', ho, ho', hclass, hclass', hclasses hnames 34 o o' ho ho'⟩

end HeapDump
