/-
HeapDump/Proofs/Snapshot/Views.lean

A snapshot as identifiers show it.

`Snapshot.view?` shows the object that has an identifier, and `subclassIds` and
`instanceIds` show the lists of a class.  They are what can be asked of a snapshot
without knowing any position.

All three can be told from the views of the classes and of the instances, in whatever
order these come: the view of an identifier is the one that has it, and a class is in
the list of another if its view names it.  So two snapshots with the same views
(`Snapshot.SameViews`) answer alike.  This takes that the table is right
(`Snapshot.Indexed`), that the lists are what linking makes of references
(`Snapshot.Linked`), and that references are settled.
-/
import HeapDump.Proofs.Graph.Alignment
import HeapDump.Proofs.Graph.Linking
import HeapDump.Proofs.Snapshot.References

namespace HeapDump

/-- An object of any kind, without positions. -/
inductive ObjectView where
  | ofClass (c : ClassView)
  | ofInstance (i : InstanceView)
  deriving DecidableEq

namespace Snapshot

variable (s : Snapshot) (id : ObjectId)

/-- The object with an identifier, as identifiers show it. -/
def view? : Option ObjectView :=
  ((s.target? id).bind s.get?).map fun
    | .ofClass c => .ofClass c.view
    | .ofInstance i => .ofInstance (i.view s.classes)

/-- The identifiers of the subclasses that the class with an identifier lists. -/
def subclassIds : Set ObjectId :=
  { x | ∃ c, s.class? id = some c ∧ ∃ k ∈ c.subclasses, ∃ c', s.classes[k]? = some c' ∧ c'.id = x }

/-- The identifiers of the instances that the class with an identifier lists, but for arrays
of primitive types. -/
def instanceIds : Set ObjectId :=
  { x | ∃ c, s.class? id = some c ∧ ∃ k ∈ c.instances, ∃ o, s.instances[k]? = some o
    ∧ ¬o.IsPrimitiveArray ∧ o.id = x }

/-- The views of the classes, in the order of the file. -/
def classViews : List ClassView := s.classes.toList.map ClassObject.view

/-- The views of the instances, in the order of the file. -/
def instanceViews : List InstanceView := s.instances.toList.map (Instance.view s.classes)

/-- Each class lists the classes whose superclass it was found to be, and the instances whose
class it was found to be. -/
structure Linked : Prop where
  mem_subclasses_iff : ∀ (i : Nat) (c : ClassObject), s.classes[i]? = some c →
    ∀ k, k ∈ c.subclasses ↔ ∃ c', s.classes[k]? = some c' ∧ c'.superclass.class? = some i
  mem_instances_iff : ∀ (i : Nat) (c : ClassObject), s.classes[i]? = some c →
    ∀ k, k ∈ c.instances ↔ ∃ o, s.instances[k]? = some o ∧ o.classRef.class? = some i

end Snapshot

theorem Draft.linked_finish (d : Draft) (resolveFields : Bool) :
    (d.finish resolveFields).Linked where
  mem_subclasses_iff i c hc k := by
    simp only [Snapshot.classes, graph_finish] at hc ⊢
    exact Graph.mem_subclasses_link_iff hc
  mem_instances_iff i c hc k := by
    simp only [Snapshot.classes, Snapshot.instances, graph_finish] at hc ⊢
    exact Graph.mem_instances_link_iff hc

/-- The class of an instance is settled, unless this is an array of a primitive type. -/
theorem Instance.Settled.settled_classRef {ctx : Resolution} {o : Instance} (h : o.Settled ctx)
    (hnot : ¬o.IsPrimitiveArray) : o.classRef.Settled ctx.objects Target.isClass := by
  rw [Settled] at h
  split at h
  · exact h.1
  · exact h.1
  · next t length data hcontents => exact absurd ⟨t, length, data, hcontents⟩ hnot

/-! ### Objects by identifier -/

namespace Snapshot

section

variable {s : Snapshot}

theorem exists_get?_ofClass_iff {c : ClassObject} :
    (∃ t, s.get? t = some (.ofClass c)) ↔ c ∈ s.classes := by
  rw [Array.mem_iff_getElem?]
  constructor
  · rintro ⟨i | i, ht⟩
    · exact ⟨i, by simpa [get?] using ht⟩
    · simp [get?] at ht
  · rintro ⟨i, hi⟩
    exact ⟨.classAt i, by rw [get?, hi]; rfl⟩

theorem exists_get?_ofInstance_iff {o : Instance} :
    (∃ t, s.get? t = some (.ofInstance o)) ↔ o ∈ s.instances := by
  rw [Array.mem_iff_getElem?]
  constructor
  · rintro ⟨i | i, ht⟩
    · simp [get?] at ht
    · exact ⟨i, by simpa [get?] using ht⟩
  · rintro ⟨i, hi⟩
    exact ⟨.instanceAt i, by rw [get?, hi]; rfl⟩

variable (hs : s.Indexed) {id : ObjectId}

include hs

/-- The object found for an identifier is the one that has it. -/
theorem Indexed.bind_get?_eq_some_iff {o : HeapObject} :
    (s.target? id).bind s.get? = some o ↔ o.id = id ∧ ∃ t, s.get? t = some o := by
  simp only [Option.bind_eq_some_iff, target?, hs id]
  constructor
  · rintro ⟨t, hid, ht⟩
    rw [ht] at hid
    exact ⟨Option.some.inj hid, t, ht⟩
  · rintro ⟨rfl, t, ht⟩
    exact ⟨t, by rw [ht]; rfl, ht⟩

theorem Indexed.view?_eq_ofClass_iff {v : ClassView} :
    s.view? id = some (.ofClass v) ↔ v.id = id ∧ v ∈ s.classViews := by
  rw [view?, Option.map_eq_some_iff, classViews, List.mem_map]
  simp only [hs.bind_get?_eq_some_iff, Array.mem_toList_iff]
  constructor
  · rintro ⟨o, ⟨rfl, ht⟩, hv⟩
    cases o with
    | ofInstance i => cases hv
    | ofClass c =>
      cases hv
      exact ⟨rfl, c, exists_get?_ofClass_iff.mp ht, rfl⟩
  · rintro ⟨rfl, c, hc, rfl⟩
    exact ⟨.ofClass c, ⟨rfl, exists_get?_ofClass_iff.mpr hc⟩, rfl⟩

theorem Indexed.view?_eq_ofInstance_iff {v : InstanceView} :
    s.view? id = some (.ofInstance v) ↔ v.id = id ∧ v ∈ s.instanceViews := by
  rw [view?, Option.map_eq_some_iff, instanceViews, List.mem_map]
  simp only [hs.bind_get?_eq_some_iff, Array.mem_toList_iff]
  constructor
  · rintro ⟨o, ⟨rfl, ht⟩, hv⟩
    cases o with
    | ofClass c => cases hv
    | ofInstance o =>
      cases hv
      exact ⟨rfl, o, exists_get?_ofInstance_iff.mp ht, rfl⟩
  · rintro ⟨rfl, o, ho, rfl⟩
    exact ⟨.ofInstance o, ⟨rfl, exists_get?_ofInstance_iff.mpr ho⟩, rfl⟩

/-- An instance that is found is shown. -/
theorem Indexed.view?_of_instance? {o : Instance} (ho : s.instance? id = some o) :
    s.view? id = some (.ofInstance (o.view s.classes)) := by
  obtain ⟨hid, i, hi⟩ := hs.instance?_eq_some_iff.mp ho
  refine hs.view?_eq_ofInstance_iff.mpr ⟨hid, List.mem_map.mpr ⟨o, ?_, rfl⟩⟩
  exact Array.mem_toList_iff.mpr (Array.mem_of_getElem? hi)

/-- There is something to show exactly if the table has the identifier. -/
theorem Indexed.isSome_view?_iff : (s.view? id).isSome ↔ id ∈ s.objects := by
  rw [view?, Option.isSome_map, Std.ExtTreeMap.mem_iff_isSome_getElem?, target?]
  cases ht : s.objects[id]? with
  | none => rfl
  | some t =>
    obtain ⟨o, ho, -⟩ := Option.map_eq_some_iff.mp ((hs id t).mp ht)
    simp [ho]

/-! ### Lists of a class -/

/-- A reference shows as found if it was found to be the class of the identifier. -/
theorem Indexed.view_eq_resolved_iff {r : Reference}
    (hr : r.Settled s.objects Target.isClass) :
    r.view = ⟨.resolved, id⟩
      ↔ ∃ c i, s.class? id = some c ∧ s.classes[i]? = some c ∧ r.class? = some i := by
  constructor
  · intro hview
    obtain ⟨hstate, rfl⟩ : r.state = .resolved ∧ r.id = id := by
      simpa only [Reference.view, ReferenceView.mk.injEq] using hview
    cases r with
    | resolved id t =>
      obtain ⟨-, hfound, hallowed⟩ := (hr.resolved_iff t).mp rfl
      cases t with
      | instanceAt j => exact hallowed.elim
      | classAt i =>
        -- what is resolved is in the table, and the table is right
        obtain ⟨c, hc, hid⟩ : ∃ c, s.classes[i]? = some c ∧ c.id = id := by
          simpa [get?, HeapObject.id] using (hs id _).mp hfound
        exact ⟨c, i, hs.class?_eq_some_iff.mpr ⟨hid, i, hc⟩, hc, rfl⟩
    | _ => cases hstate
  · rintro ⟨c, i, hc, hi, hclass⟩
    cases r with
    | resolved id' t =>
      cases t with
      | instanceAt j => cases hclass
      | classAt k =>
        obtain rfl : k = i := Option.some.inj hclass
        have hfound := (hs id' _).mp ((hr.resolved_iff _).mp rfl).2.1
        have hid : c.id = id' := by simpa [get?, hi, HeapObject.id] using hfound
        rw [← (hs.class?_eq_some_iff.mp hc).1, hid]
        rfl
    | _ => cases hclass

/-- The subclasses of a class can be told from the views of all classes. -/
theorem Indexed.mem_subclassIds_iff (hlinked : s.Linked)
    (hsettled : ∀ c ∈ s.classes, c.Settled s.objects) {x : ObjectId} :
    x ∈ s.subclassIds id ↔ ∃ v ∈ s.classViews, v.id = x ∧ v.superclass = ⟨.resolved, id⟩ := by
  simp only [classViews, List.mem_map, Array.mem_toList_iff]
  constructor
  · rintro ⟨c, hc, k, hk, c', hc', rfl⟩
    have hmem := Array.mem_of_getElem? hc'
    obtain ⟨-, i, hi⟩ := hs.class?_eq_some_iff.mp hc
    obtain ⟨b, hb, hsuper⟩ := (hlinked.mem_subclasses_iff i c hi k).mp hk
    obtain rfl : b = c' := Option.some.inj (hb.symm.trans hc')
    exact ⟨b.view, ⟨b, hmem, rfl⟩, rfl,
      (hs.view_eq_resolved_iff (hsettled b hmem).superclass).mpr ⟨c, i, hc, hi, hsuper⟩⟩
  · rintro ⟨v, ⟨c', hmem, rfl⟩, rfl, hsuper⟩
    obtain ⟨k, hk⟩ := Array.getElem?_of_mem hmem
    obtain ⟨c, i, hc, hi, hclass⟩ :=
      (hs.view_eq_resolved_iff (hsettled c' hmem).superclass).mp hsuper
    exact ⟨c, hc, k, (hlinked.mem_subclasses_iff i c hi k).mpr ⟨c', hk, hclass⟩, c', hk, rfl⟩

/-- The instances of a class, but for arrays of primitive types, can be told from the views of
all instances. -/
theorem Indexed.mem_instanceIds_iff (hlinked : s.Linked) {resolveFields : Bool}
    (hsettled : ∀ o ∈ s.instances, o.Settled (s.resolution resolveFields)) {x : ObjectId} :
    x ∈ s.instanceIds id
      ↔ ∃ v ∈ s.instanceViews, v.id = x ∧ v.classRef = some ⟨.resolved, id⟩ := by
  simp only [instanceViews, List.mem_map, Array.mem_toList_iff]
  constructor
  · rintro ⟨c, hc, k, hk, o, ho, hnot, rfl⟩
    have hmem := Array.mem_of_getElem? ho
    obtain ⟨-, i, hi⟩ := hs.class?_eq_some_iff.mp hc
    obtain ⟨b, hb, hclass⟩ := (hlinked.mem_instances_iff i c hi k).mp hk
    obtain rfl : b = o := Option.some.inj (hb.symm.trans ho)
    have hview := (hs.view_eq_resolved_iff ((hsettled b hmem).settled_classRef hnot)).mpr
      ⟨c, i, hc, hi, hclass⟩
    exact ⟨_, ⟨b, hmem, rfl⟩, rfl, Instance.classRef_view_eq_some_iff.mpr ⟨hnot, hview⟩⟩
  · rintro ⟨v, ⟨o, hmem, rfl⟩, rfl, hview⟩
    obtain ⟨hnot, hview⟩ := Instance.classRef_view_eq_some_iff.mp hview
    obtain ⟨k, hk⟩ := Array.getElem?_of_mem hmem
    obtain ⟨c, i, hc, hi, hclass⟩ :=
      (hs.view_eq_resolved_iff ((hsettled o hmem).settled_classRef hnot)).mp hview
    exact ⟨c, hc, k, (hlinked.mem_instances_iff i c hi k).mpr ⟨o, hk, hclass⟩, o, hk, hnot, rfl⟩

end

/-! ### The same views in some order -/

/-- Snapshots whose classes and instances show the same, in some order. -/
structure SameViews (s s' : Snapshot) : Prop where
  classes : s.classViews.Perm s'.classViews
  instances : s.instanceViews.Perm s'.instanceViews

namespace SameViews

variable {s s' : Snapshot} (h : s.SameViews s') (hs : s.Indexed) (hs' : s'.Indexed)

include h hs hs'

/-- An identifier shows the same object. -/
theorem view?_eq (id : ObjectId) : s.view? id = s'.view? id := by
  refine Option.ext fun v => ?_
  cases v with
  | ofClass v => rw [hs.view?_eq_ofClass_iff, hs'.view?_eq_ofClass_iff, h.classes.mem_iff]
  | ofInstance v =>
    rw [hs.view?_eq_ofInstance_iff, hs'.view?_eq_ofInstance_iff, h.instances.mem_iff]

variable (hlinked : s.Linked) (hlinked' : s'.Linked)

include hlinked hlinked'

/-- A class lists the same subclasses. -/
theorem subclassIds_eq
    (hsettled : ∀ c ∈ s.classes, c.Settled s.objects)
    (hsettled' : ∀ c ∈ s'.classes, c.Settled s'.objects) (id : ObjectId) :
    s.subclassIds id = s'.subclassIds id := by
  ext x
  rw [hs.mem_subclassIds_iff hlinked hsettled, hs'.mem_subclassIds_iff hlinked' hsettled']
  simp only [h.classes.mem_iff]

/-- A class lists the same instances, but for arrays of primitive types. -/
theorem instanceIds_eq {resolveFields : Bool}
    (hsettled : ∀ o ∈ s.instances, o.Settled (s.resolution resolveFields))
    (hsettled' : ∀ o ∈ s'.instances, o.Settled (s'.resolution resolveFields)) (id : ObjectId) :
    s.instanceIds id = s'.instanceIds id := by
  ext x
  rw [hs.mem_instanceIds_iff hlinked hsettled, hs'.mem_instanceIds_iff hlinked' hsettled']
  simp only [h.instances.mem_iff]

end SameViews

end Snapshot

end HeapDump
