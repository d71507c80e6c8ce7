/-
HeapDump/Proofs/Graph/Alignment.lean

Two graphs of the same objects at different positions.

If the classes of two graphs show the same views in some order (`Aligned`), then a
class and its counterpart have the same chain of superclasses and the same layout,
and the same data decode to the same fields with the same notes.  The relation that is
carried along is always the same: two positions show the same view,

    viewAt classes i = viewAt classes' j.

It is kept by the step to the superclass (`Aligned.superclass_eq`), so by whole chains
(`Aligned.superclassChain_eq`), and a layout shown as names, types and identifiers of
classes is a function of the chain (`map_view_layout`).  So an instance is resolved alike
in both (`Aligned.resolveInstance_congr`).

Only the class of an array of a primitive type depends on the order: it is the first of
its name, and two classes may have one name.  It does not if the names of classes are
distinct (`Aligned.view_of_isArrayClass`).
-/
import HeapDump.Proofs.Draft.Reordering
import HeapDump.Proofs.Graph.Holders
import HeapDump.Proofs.Graph.Settled
import HeapDump.Proofs.Graph.View
import Mathlib.Data.List.Nodup

namespace HeapDump

/-! ### Counterparts -/

/-- Two optional items that show the same are both missing or both there. -/
theorem map_eq_map_cases {x : Option α} {y : Option β} {f : α → γ} {g : β → γ}
    (h : x.map f = y.map g) :
    (x = none ∧ y = none) ∨ ∃ a b, x = some a ∧ y = some b ∧ f a = g b := by
  cases x <;> cases y <;> simp_all

/-- Classes that a table of objects finds by their identifiers, with superclasses that have
been looked up in it. -/
structure ClassTable (objects : ObjectTable) (classes : Array ClassObject) : Prop where
  getElem?_eq_some_iff : ∀ (id : ObjectId) (i : Nat),
    objects[id]? = some (.classAt i) ↔ classes[i]?.map (·.id) = some id
  settled : ∀ c ∈ classes, c.superclass.Settled objects Target.isClass

/-- Two arrays of classes with the same views in some order, and tables that have the same
objects as each other. -/
structure Aligned (objects objects' : ObjectTable) (classes classes' : Array ClassObject) :
    Prop where
  kinds : SameKinds objects objects'
  views : (classes.toList.map ClassObject.view).Perm (classes'.toList.map ClassObject.view)
  table : ClassTable objects classes
  table' : ClassTable objects' classes'

/-- Linking the classes leaves them where they are. -/
theorem ClassTable.of_sameButLinks {objects : ObjectTable} {classes classes' : Array ClassObject}
    (h : ClassTable objects classes') (hlinks : SameButLinks classes classes') :
    ClassTable objects classes where
  getElem?_eq_some_iff id i := by
    rw [h.getElem?_eq_some_iff, hlinks.map_getElem?_eq fun _ => rfl]
  settled _ hc := hlinks.forall_mem (fun _ => Iff.rfl) h.settled hc

/-- Linking the classes does not show. -/
theorem SameButLinks.viewAt_eq {classes classes' : Array ClassObject}
    (h : SameButLinks classes classes') : viewAt classes = viewAt classes' :=
  funext fun i => h.map_getElem?_eq (fun _ => rfl) i

/-- Linking the classes does not show in instances. -/
theorem SameButLinks.instanceView_eq {classes classes' : Array ClassObject}
    (h : SameButLinks classes classes') : Instance.view classes = Instance.view classes' := by
  have hfield : FieldValue.view classes = FieldValue.view classes' := by
    funext f
    rw [FieldValue.view, FieldValue.view, h.viewAt_eq]
  funext o
  rw [Instance.view, Instance.view]
  cases o.contents <;> simp only [Contents.view, hfield]

namespace Aligned

variable {objects objects' : ObjectTable} {classes classes' : Array ClassObject}

/-- Linking both sides leaves them aligned. -/
theorem of_sameButLinks (h : Aligned objects objects' classes classes')
    {linked linked' : Array ClassObject} (hlinks : SameButLinks linked classes)
    (hlinks' : SameButLinks linked' classes') : Aligned objects objects' linked linked' where
  kinds := h.kinds
  views := by
    rw [← Array.toList_map, ← Array.toList_map, hlinks.map_eq fun _ => rfl,
      hlinks'.map_eq fun _ => rfl, Array.toList_map, Array.toList_map]
    exact h.views
  table := h.table.of_sameButLinks hlinks
  table' := h.table'.of_sameButLinks hlinks'

theorem symm (h : Aligned objects objects' classes classes') :
    Aligned objects' objects classes' classes := ⟨h.kinds.symm, h.views.symm, h.table', h.table⟩

theorem size_eq (h : Aligned objects objects' classes classes') : classes.size = classes'.size := by
  simpa using h.views.length_eq

/-- Every class has a counterpart. -/
theorem exists_mem (h : Aligned objects objects' classes classes') {c : ClassObject}
    (hc : c ∈ classes) : ∃ c' ∈ classes', c'.view = c.view := by
  have hview := h.views.mem_iff.mp (List.mem_map.mpr ⟨c, Array.mem_toList_iff.mpr hc, rfl⟩)
  obtain ⟨c', hc', heq⟩ := List.mem_map.mp hview
  exact ⟨c', Array.mem_toList_iff.mp hc', heq⟩

/-- An identifier shows the same class on both sides. -/
theorem viewAt_eq (h : Aligned objects objects' classes classes') {id : ObjectId} {i j : Nat}
    (hi : objects[id]? = some (.classAt i)) (hj : objects'[id]? = some (.classAt j)) :
    viewAt classes i = viewAt classes' j := by
  obtain ⟨c, hc, rfl⟩ := Option.map_eq_some_iff.mp ((h.table.getElem?_eq_some_iff id i).mp hi)
  obtain ⟨c', hc', hview⟩ := h.exists_mem (Array.mem_of_getElem? hc)
  obtain ⟨k, hk⟩ := Array.getElem?_of_mem hc'
  -- the counterpart is where the other table finds the identifier
  have hfound := (h.table'.getElem?_eq_some_iff c.id k).mpr <| by
    rw [hk, Option.map_some]
    exact congrArg (fun v => some v.id) hview
  obtain rfl : j = k := by simpa [hj] using hfound
  rw [viewAt, viewAt, hc, hk, Option.map_some, Option.map_some, hview]

/-- What a reference to a class was found to mean shows the same. -/
theorem class?_eq (h : Aligned objects objects' classes classes') {r r' : Reference}
    (hr : r.Settled objects Target.isClass) (hr' : r'.Settled objects' Target.isClass)
    (hview : r.view = r'.view) :
    r.class?.map (viewAt classes) = r'.class?.map (viewAt classes') := by
  have hstate : r.state = r'.state := congrArg ReferenceView.state hview
  have hid : r.id = r'.id := congrArg ReferenceView.id hview
  cases r <;> cases r' <;> cases hstate
  case resolved.resolved id t id' t' =>
    obtain rfl : id = id' := hid
    have ht := (hr.resolved_iff t).mp rfl
    have ht' := (hr'.resolved_iff t').mp rfl
    -- both positions are of classes, as their places demand
    cases t with
    | instanceAt i => exact ht.2.2.elim
    | classAt i =>
      cases t' with
      | instanceAt j => exact ht'.2.2.elim
      | classAt j => exact congrArg some (h.viewAt_eq ht.2.1 ht'.2.1)
  all_goals rfl

/-- The class of the arrays of a type shows the same if no two classes have the same name. -/
theorem view_of_isArrayClass (h : Aligned objects objects' classes classes')
    (hnames : (classes.toList.map fun c => ClassName.normalize c.name).Nodup) {t : BasicType}
    {r r' : Reference} (hr : IsArrayClass classes t r) (hr' : IsArrayClass classes' t r') :
    r.view = r'.view := by
  rcases hr with ⟨k, c, hk, hname, -, rfl⟩ | ⟨hnone, rfl⟩
  · rcases hr' with ⟨k', c', hk', hname', -, rfl⟩ | ⟨hnone', rfl⟩
    · -- the counterpart of the one class has the name of the other
      have hc := Array.mem_of_getElem? hk
      obtain ⟨b, hb, hview⟩ := h.symm.exists_mem (Array.mem_of_getElem? hk')
      have hbname : b.name = c'.name := congrArg ClassView.name hview
      obtain rfl : b = c := List.inj_on_of_nodup_map hnames (Array.mem_toList_iff.mpr hb)
        (Array.mem_toList_iff.mpr hc) (by rw [hname, hbname, hname'])
      have hid : b.id = c'.id := congrArg ClassView.id hview
      exact congrArg (ReferenceView.mk .resolved) hid
    -- a class of the name in one graph has its counterpart in the other
    · obtain ⟨c', hc', hview⟩ := h.exists_mem (Array.mem_of_getElem? hk)
      have hname' : c'.name = c.name := congrArg ClassView.name hview
      exact absurd (hname' ▸ hname) (hnone' c' hc')
  · rcases hr' with ⟨k', c', hk', hname', -, rfl⟩ | ⟨-, rfl⟩
    · obtain ⟨c, hc, hview⟩ := h.symm.exists_mem (Array.mem_of_getElem? hk')
      have hname : c.name = c'.name := congrArg ClassView.name hview
      exact absurd (hname ▸ hname') (hnone c hc)
    · rfl

/-! ### Superclasses and layouts -/

/-- The next class upwards shows the same. -/
theorem superclass_eq (h : Aligned objects objects' classes classes') {i j : Nat}
    (hij : viewAt classes i = viewAt classes' j) :
    (classes[i]?.bind (·.superclass.class?)).map (viewAt classes)
      = (classes'[j]?.bind (·.superclass.class?)).map (viewAt classes') := by
  rcases map_eq_map_cases hij with ⟨hc, hc'⟩ | ⟨c, c', hc, hc', hview⟩
  · rw [hc, hc']
    rfl
  · rw [hc, hc']
    exact h.class?_eq (h.table.settled c (Array.mem_of_getElem? hc))
      (h.table'.settled c' (Array.mem_of_getElem? hc')) (congrArg ClassView.superclass hview)

theorem superclassesFrom_eq (h : Aligned objects objects' classes classes') (fuel : Nat)
    {i j : Nat} (hij : viewAt classes i = viewAt classes' j) :
    (superclassesFrom classes fuel i).map (viewAt classes)
      = (superclassesFrom classes' fuel j).map (viewAt classes') := by
  induction fuel generalizing i j with
  | zero => rfl
  | succ fuel ih =>
    have hnext := h.superclass_eq hij
    rw [superclassesFrom, superclassesFrom]
    rcases map_eq_map_cases hnext with ⟨hi, hj⟩ | ⟨k, l, hi, hj, hkl⟩
    · rw [hi, hj]
      exact congrArg ([·]) hij
    · rw [hi, hj]
      exact congrArg₂ (· :: ·) hij (ih hkl)

/-- The chain of superclasses shows the same. -/
theorem superclassChain_eq (h : Aligned objects objects' classes classes') {i j : Nat}
    (hij : viewAt classes i = viewAt classes' j) :
    (superclassChain classes i).map (viewAt classes)
      = (superclassChain classes' j).map (viewAt classes') := by
  rw [superclassChain, superclassChain, h.size_eq]
  exact h.superclassesFrom_eq _ hij

end Aligned

/-- A field of a layout as identifiers show it. -/
def LayoutField.view (classes : Array ClassObject) (f : LayoutField) :
    Field × Option ObjectId × String :=
  (f.field, (viewAt classes f.declaredBy).map (·.id), f.declaringName)

/-- The layout of a chain of classes can be told from their views. -/
theorem map_view_layout (classes : Array ClassObject) (chain : List Nat) :
    (layout classes chain).map (LayoutField.view classes)
      = (chain.map (viewAt classes)).flatMap fun v? =>
          match v? with
          | some v => v.fields.map fun field => (field, some v.id, v.name)
          | none => [] := by
  rw [layout, List.map_flatMap, List.flatMap_map]
  refine congrArg (List.flatMap · chain) (funext fun i => ?_)
  rw [layoutPart]
  cases hc : classes[i]? with
  | none => simp [viewAt, hc]
  | some c => simp [viewAt, hc, LayoutField.view, ClassObject.view, Function.comp_def]

/-! ### Fields -/

/-- The same data under layouts that show the same decode to the same fields, end at the
same place and give rise to the same notes. -/
theorem readLayout_congr {objects objects' : ObjectTable} (h : SameKinds objects objects')
    {classes classes' : Array ClassObject} (idSize : Nat) (owner : FieldOwner)
    {fields fields' : List LayoutField}
    (hfields : fields.map (LayoutField.view classes) = fields'.map (LayoutField.view classes'))
    (p : Parser) :
    let read := readLayout objects idSize owner fields p
    let read' := readLayout objects' idSize owner fields' p
    read.value.1.map (FieldValue.view classes) = read'.value.1.map (FieldValue.view classes')
      ∧ read.value.2 = read'.value.2 ∧ read.notes = read'.notes := by
  induction fields generalizing fields' p with
  | nil =>
    obtain rfl := List.map_eq_nil_iff.mp hfields.symm
    exact ⟨rfl, rfl, rfl⟩
  | cons f rest ih =>
    obtain ⟨f', rest', rfl, hf, hrest⟩ := List.map_eq_cons_iff.mp hfields.symm
    obtain ⟨hfield, hdeclared, hname⟩ : f'.field = f.field
        ∧ (viewAt classes' f'.declaredBy).map (·.id) = (viewAt classes f.declaredBy).map (·.id)
        ∧ f'.declaringName = f.declaringName := by
      simpa only [LayoutField.view, Prod.mk.injEq] using hf
    simp only [readLayout, hfield, hname]
    rcases Value.parse f.field.type idSize p with ⟨(e | raw), p⟩
    · -- the data end here
      exact ⟨rfl, rfl, rfl⟩
    · obtain ⟨hvalues, hend, hnotes⟩ := ih hrest.symm p
      obtain ⟨hvalue, hvalueNotes⟩ :=
        (raw.map Reference.ofId).lookup_congr h owner.offset (.field f.field.name owner.id)
      refine ⟨?_, hend, ?_⟩
      · simp only [Noted.value_bind, Noted.value_pure, List.map_cons, hvalues]
        rw [FieldValue.view, FieldValue.view, hdeclared, hvalue]
      · simp only [Noted.notes_bind, hvalueNotes, hnotes, Noted.notes_pure]

namespace Aligned

variable {objects objects' : ObjectTable} {classes classes' : Array ClassObject}

/-- The same data of a class and of its counterpart decode to the same fields, with the same
notes. -/
theorem decodeFields_congr (h : Aligned objects objects' classes classes') (idSize : Nat)
    (owner : FieldOwner) (data : ByteArray) {i j : Nat}
    (hij : viewAt classes i = viewAt classes' j) :
    let decoded := decodeFields objects classes idSize owner data i
    let decoded' := decodeFields objects' classes' idSize owner data j
    decoded.value.map (FieldValue.view classes) = decoded'.value.map (FieldValue.view classes')
      ∧ decoded.notes = decoded'.notes := by
  have hchain := h.superclassChain_eq hij
  have hlength : (superclassChain classes i).length = (superclassChain classes' j).length := by
    simpa using congrArg List.length hchain
  have hlayout : (layout classes (superclassChain classes i)).map (LayoutField.view classes)
      = (layout classes' (superclassChain classes' j)).map (LayoutField.view classes') := by
    rw [map_view_layout, map_view_layout, hchain]
  obtain ⟨hvalues, hend, hnotes⟩ := readLayout_congr h.kinds idSize owner hlayout { data }
  intro decoded decoded'
  refine ⟨?_, ?_⟩
  · rw [value_decodeFields, value_decodeFields, hvalues]
  · -- what is noted last depends on the end, on the length of the chain and on the class
    simp only [decoded, decoded', decodeFields, Noted.notes_bind, hnotes, hend, hlength,
      h.size_eq]
    refine congrArg (_ ++ ·) ?_
    split
    · rfl
    · split
      · rcases map_eq_map_cases hij with ⟨hc, hc'⟩ | ⟨c, c', hc, hc', hview⟩
        · rw [hc, hc']
          rfl
        · have hname : c.name = c'.name := congrArg ClassView.name hview
          have hid : c.id = c'.id := congrArg ClassView.id hview
          rw [hc, hc']
          simp only [hname, hid, Noted.notes_bind, Noted.notes_note, Noted.notes_pure]
      · split <;> rfl

end Aligned

/-! ### Instances -/

/-- The class of an instance is shown, unless this is an array of a primitive type. -/
theorem Instance.classRef_view_eq_some_iff {classes : Array ClassObject} {o : Instance}
    {r : ReferenceView} :
    (o.view classes).classRef = some r ↔ ¬o.IsPrimitiveArray ∧ o.classRef.view = r := by
  rw [view, IsPrimitiveArray]
  cases o.contents <;> simp

/-- Two resolutions against aligned classes, to the same extent. -/
structure Resolution.Aligned (ctx ctx' : Resolution) : Prop where
  aligned : HeapDump.Aligned ctx.objects ctx'.objects ctx.classes ctx'.classes
  idSize_eq : ctx.idSize = ctx'.idSize
  resolveFields_eq : ctx.resolveFields = ctx'.resolveFields

namespace Resolution.Aligned

variable {ctx ctx' : Resolution}

section

variable (h : ctx.Aligned ctx') {classRef classRef' : Reference}
  (hclass : classRef.class?.map (viewAt ctx.classes) = classRef'.class?.map (viewAt ctx'.classes))

include hclass

/-- The size of a plain object is the same. -/
theorem objectSize_eq (data : ByteArray) :
    ctx.objectSize classRef data = ctx'.objectSize classRef' data := by
  rw [objectSize, objectSize]
  rcases map_eq_map_cases hclass with ⟨hi, hj⟩ | ⟨i, j, hi, hj, hij⟩
  · rw [hi, hj]
    rfl
  · rw [hi, hj, Option.bind_some, Option.bind_some]
    rcases map_eq_map_cases hij with ⟨hc, hc'⟩ | ⟨c, c', hc, hc', hview⟩
    · rw [hc, hc']
    · have hsize : c.instanceSize = c'.instanceSize := congrArg ClassView.instanceSize hview
      rw [hc, hc']
      exact congrArg UInt32.toNat hsize

include h

/-- The fields of a plain object show the same, and so do the notes. -/
theorem objectFields_congr (o o' : Instance) (hid : o.id = o'.id) (hoffset : o.offset = o'.offset)
    (data : ByteArray) :
    let found := ctx.objectFields o classRef data
    let found' := ctx'.objectFields o' classRef' data
    found.value.map (FieldValue.view ctx.classes) = found'.value.map (FieldValue.view ctx'.classes)
      ∧ found.notes = found'.notes := by
  rw [objectFields, objectFields, hid, hoffset, ← h.resolveFields_eq, ← h.idSize_eq]
  rcases map_eq_map_cases hclass with ⟨hi, hj⟩ | ⟨i, j, hi, hj, hij⟩
  · rw [hi, hj]
    exact ⟨rfl, rfl⟩
  · rw [hi, hj]
    dsimp only
    split
    · exact h.aligned.decodeFields_congr _ _ _ hij
    · exact ⟨rfl, rfl⟩

end

/-- **An instance is resolved alike**, whatever its heap; the class of an array of a primitive
type is left out. -/
theorem resolveInstance_congr (h : ctx.Aligned ctx') {o o' : Located ObjectDump}
    (ho : o.entry = o'.entry) :
    let resolved := ctx.resolveInstance (Draft.instanceObject o)
    let resolved' := ctx'.resolveInstance (Draft.instanceObject o')
    resolved.value.view ctx.classes = resolved'.value.view ctx'.classes
      ∧ resolved.notes = resolved'.notes := by
  obtain ⟨dump, heap, offset⟩ := o
  obtain ⟨dump', heap', offset'⟩ := o'
  obtain ⟨rfl, rfl⟩ : dump = dump' ∧ offset = offset' := Located.entry_eq_iff.mp ho
  have hkinds := h.aligned.kinds
  cases dump with
  | plain dump =>
    -- the class is looked up alike, and the data are decoded by its layout
    obtain ⟨hview, hnotes⟩ := (Reference.ofId dump.classId).lookupClass_congr hkinds offset
      (.classOfInstance dump.objectId)
    have hclass := h.aligned.class?_eq (Reference.settled_lookupClass ..)
      (Reference.settled_lookupClass ..) hview
    obtain ⟨hfields, hfieldNotes⟩ := h.objectFields_congr hclass
      (Draft.instanceObject ⟨.plain dump, heap, offset⟩)
      (Draft.instanceObject ⟨.plain dump, heap', offset⟩) rfl rfl dump.data
    have hsize := objectSize_eq hclass dump.data
    refine ⟨?_, ?_⟩
    · simp only [resolveInstance, Draft.instanceObject, Noted.value_bind, Noted.value_pure,
        Instance.view, Contents.view] at hfields ⊢
      rw [hview, hfields, hsize]
    · simp only [resolveInstance, Draft.instanceObject, Noted.notes_bind, Noted.notes_pure]
        at hfieldNotes ⊢
      rw [hnotes, hfieldNotes]
  | references dump =>
    obtain ⟨hview, hnotes⟩ := (Reference.ofId dump.classId).lookupClass_congr hkinds offset
      (.classOfArray dump.objectId)
    refine ⟨?_, ?_⟩
    · simp only [resolveInstance, Draft.instanceObject, Noted.value_bind, Noted.value_pure,
        Noted.value_each, Instance.view, Contents.view, List.map_map, Function.comp_def, hview,
        (Reference.lookup_congr hkinds _ _ _).1, h.idSize_eq, List.length_map]
    · simp only [resolveInstance, Draft.instanceObject, Noted.notes_bind, Noted.notes_each,
        Noted.notes_pure, hnotes, (Reference.lookup_congr hkinds _ _ _).2]
  | primitives dump =>
    refine ⟨?_, rfl⟩
    simp only [resolveInstance, Draft.instanceObject, Noted.value_pure, Instance.view,
      Contents.view, h.idSize_eq]

/-- What is shown of an instance tells its class, if no two classes have the same name. -/
theorem view_classRef_eq (h : ctx.Aligned ctx')
    (hnames : (ctx.classes.toList.map fun c => ClassName.normalize c.name).Nodup)
    {o o' : Instance} (ho : o.Settled ctx) (ho' : o'.Settled ctx')
    (hview : o.view ctx.classes = o'.view ctx'.classes) : o.classRef.view = o'.classRef.view := by
  have hclass : (o.view ctx.classes).classRef = (o'.view ctx'.classes).classRef :=
    congrArg InstanceView.classRef hview
  by_cases hprimitive : o.IsPrimitiveArray
  · have hprimitive' : o'.IsPrimitiveArray := by
      by_contra hnot
      have hshown := hclass.trans (Instance.classRef_view_eq_some_iff.mpr ⟨hnot, rfl⟩)
      exact (Instance.classRef_view_eq_some_iff.mp hshown).1 hprimitive
    obtain ⟨t, length, data, hc⟩ := hprimitive
    obtain ⟨t', length', data', hc'⟩ := hprimitive'
    have hcontents : o.contents.view ctx.classes = o'.contents.view ctx'.classes :=
      congrArg InstanceView.contents hview
    obtain rfl : t = t' := by
      rw [hc, hc', Contents.view, Contents.view] at hcontents
      exact (ContentsView.primitiveArray.inj hcontents).1
    -- both classes are found by the same name
    simp only [Instance.Settled, hc, hc'] at ho ho'
    by_cases ht : t = .object
    · rw [if_pos ht] at ho ho'
      rw [ho, ho']
    · rw [if_neg ht] at ho ho'
      exact h.aligned.view_of_isArrayClass hnames ho ho'
  · have hshown := hclass.symm.trans (Instance.classRef_view_eq_some_iff.mpr ⟨hprimitive, rfl⟩)
    exact (Instance.classRef_view_eq_some_iff.mp hshown).2.symm

end Resolution.Aligned

end HeapDump
