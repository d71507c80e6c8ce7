/-
HeapDump/Proofs/Snapshot/FieldData.lean

The fields of plain objects whose superclasses come to an end.

The layout of an object is what its class declares, then what each superclass declares.  The
object has as many fields of it as fit into its data, each spelt by its own bytes; if the data
are too short, or too long, this is what is reported of the object.

Reports name the object that they are about, and identifiers are distinct, so the reports of one
object can be picked from the log (`filter_isOf_eq`).  A second definition of an identifier is
reported under the same identifier while records are read; it is a warning in front of those that
are found when the draft is finished, and `second_definition_reported_sampleInheritance` shows
that it may be the only one.

Main statement: `fields_follow_layout`.
-/
import HeapDump.Proofs.Draft.Warnings
import HeapDump.Proofs.Snapshot.Layouts
import HeapDump.Proofs.Snapshot.Positions
import HeapDump.Proofs.Snapshot.Reordering

namespace HeapDump

/-- The fields of a layout are those that the classes declare, one class after the other. -/
theorem map_field_layout (classes : Array ClassObject) (chain : List Nat) :
    (layout classes chain).map (·.field)
      = (chain.filterMap (classes[·]?)).flatMap (·.fields) := by
  induction chain with
  | nil => rfl
  | cons i chain ih =>
    rw [layout, List.flatMap_cons, ← layout, List.map_append, ih, List.filterMap_cons, layoutPart]
    cases classes[i]? with
    | none => rfl
    | some c => simp [Function.comp_def]

/-- Of things that some items give, those that only an item of one key can give. -/
theorem filter_filterMap_of_nodup {xs : List α} {key : α → κ} (hnodup : (xs.map key).Nodup)
    {note : α → Option β} {keep : β → Bool} {x : α} (hx : x ∈ xs)
    (hkey : ∀ y b, note y = some b → keep b → key y = key x) :
    (xs.filterMap note).filter keep = (note x).toList.filter keep := by
  have hother (y : α) (hy : key y ≠ key x) : (note y).toList.filter keep = [] :=
    List.filter_eq_nil_iff.mpr fun b hb hkeep => hy (hkey y b (Option.mem_toList.mp hb) hkeep)
  rw [List.filterMap_eq_flatMap_toList, List.filter_flatMap]
  induction xs with
  | nil => cases hx
  | cons y xs ih =>
    obtain ⟨hy, hnodup⟩ := List.nodup_cons.mp hnodup
    rw [List.flatMap_cons]
    rcases List.mem_cons.mp hx with rfl | hx
    · have hrest : xs.flatMap (fun z => (note z).toList.filter keep) = [] :=
        List.flatMap_eq_nil_iff.mpr fun z hz => hother z fun hzx => hy (hzx ▸ List.mem_map_of_mem hz)
      rw [hrest, List.append_nil]
    · rw [hother y fun hyx => hy (hyx ▸ List.mem_map_of_mem hx), List.nil_append, ih hnodup hx]

/-- Whether a diagnostic is about instances and names one. -/
def Diagnostic.isOf (d : Diagnostic) (id : ObjectId) : Bool :=
  d.category = .instances ∧ d.object = some id

/-- What is reported of an object about instances is of it. -/
theorem FieldOwner.filter_isOf (owner : FieldOwner) {cause : Cause}
    (h : cause.category = .instances) :
    [owner.diagnostic cause].filter (·.isOf owner.id) = [owner.diagnostic cause] :=
  List.filter_cons_of_pos (decide_eq_true ⟨h, rfl⟩)

/-- What is reported of an instance is about its data, if everything else that is reported is not
about instances. -/
theorem filter_isOf_eq {xs : List Instance} (hnodup : (xs.map (·.id)).Nodup)
    {classes : Array ClassObject} {idSize : Nat} {found : List Diagnostic}
    (hlayout : found.filter (·.cause.aboutLayout) = xs.filterMap (·.layoutNote? classes idSize))
    (hothers : ∀ d ∈ found, ¬d.cause.aboutLayout → d.category ≠ .instances)
    {o : Instance} (ho : o ∈ xs) :
    found.filter (·.isOf o.id) = (o.layoutNote? classes idSize).toList.filter (·.isOf o.id) := by
  -- what is reported about instances is about their data, so nothing is lost by the first filter
  have habout : found.filter (·.isOf o.id)
      = (found.filter (·.cause.aboutLayout)).filter (·.isOf o.id) := by
    rw [List.filter_filter]
    refine List.filter_congr fun d hd => ?_
    by_cases hlayout : d.cause.aboutLayout
    · rw [hlayout, Bool.and_true]
    · have := hothers d hd hlayout
      simp [Diagnostic.isOf, this]
  rw [habout, hlayout]
  refine filter_filterMap_of_nodup hnodup ho fun i d hd hof => ?_
  obtain ⟨data, fields, c, -, -, hnote⟩ := Instance.exists_of_layoutNote? hd
  obtain ⟨hcategory, hobject⟩ := of_decide_eq_true hof
  rw [object_of_layoutNote? hnote hcategory] at hobject
  exact Option.some.inj hobject

/-- **Fields follow the layout of the class exactly.**  Take a plain object whose class was found
and has a chain of superclasses that ends.  Its layout is the fields that its class declares and
then those of each superclass.  It has the first fields of the layout, as many as their bytes fit
into its data, and each has the name and the declaring class that the layout says and the value
that its bytes spell.  Finishing the snapshot reports one thing about it if the data are too
short for the layout, one if they are too long, and nothing if they fit.  In front of it the log
has what it had before and what has been reported of the records: about instances these are
second definitions. -/
theorem fields_follow_layout (header : Header) (hid : header.idSize = 4 ∨ header.idSize = 8)
    (log : Diagnostics) (records : List Record) :
    let s := (records.foldl Draft.push { header, diagnostics := log }).finish true
    ∃ found, s.diagnostics.toList = log.toList ++ warnings records ++ found
      ∧ (∀ d ∈ warnings records, d.category = .instances →
        ∃ id, d.cause = .duplicateInstance id ∧ d.object = some id)
      ∧ ∀ o ∈ s.instances, ∀ data fields c chain, o.contents = .object data fields →
        o.classRef.class? = some c → Lineage s.classes c chain →
        let fs := layout s.classes chain
        let reported := found.filter (·.isOf o.id)
        let owner : FieldOwner := ⟨o.id, o.offset, data.size⟩
        (∃ class', s.classes[c]? = some class'
          ∧ fs.map (·.field) = (class' :: s.superclasses c).flatMap (·.fields))
        ∧ (∃ k, IsGreatest {k | k ≤ fs.length ∧ layoutSize header.idSize (fs.take k) ≤ data.size} k
          ∧ fields = (fs.take k).mapIdx (fun j f =>
              f.decode s.objects header.idSize data (layoutSize header.idSize (fs.take j)))
          ∧ (data.size < layoutSize header.idSize fs →
            ∃ f, fs[k]? = some f ∧ reported = [owner.diagnostic <|
              .shortFieldData o.id data.size f.field.name f.declaringName]))
        ∧ (layoutSize header.idSize fs < data.size → reported = [owner.diagnostic <|
            .excessFieldData o.id (data.size - layoutSize header.idSize fs)])
        ∧ (layoutSize header.idSize fs = data.size → reported = []) := by
  intro s
  let d := records.foldl Draft.push { header, diagnostics := log }
  have hholds : d.Holds records := Draft.holds_foldl_push header log records
  have hheader : d.header = header := Draft.header_foldl_push _ records
  obtain ⟨found, hlog, hlayout, hothers⟩ := d.exists_found_finish (hheader ▸ hid)
  refine ⟨found, ?_, fun _ => exists_duplicateInstance_of_mem_warnings,
    fun o ho data fields c chain hcontents hclass hchain => ?_⟩
  · rw [hlog, Draft.diagnostics_foldl_push, Diagnostics.toList_pushAll]
  intro fs reported owner
  have hc : c < s.classes.size := hholds.lt_size_of_class?_finish true ho hclass
  have hin : ParentsInside s.classes := hholds.parentsInside_finish true
  have hwhole : superclassChain s.classes c = chain := hchain.superclassChain_eq hin hc
  -- what is reported of the object is about its data, so it is the one thing there may be
  have hreported : reported
      = (layoutNote? s.classes header.idSize owner c).toList.filter (·.isOf o.id) := by
    rw [← Instance.layoutNote?_of_class? hcontents hclass]
    exact filter_isOf_eq (hholds.nodup_instanceIds_finish true) (hheader ▸ hlayout)
      (fun x hx h => (hothers x hx h).2) (Array.mem_toList_iff.mpr ho)
  have hlength : ¬s.classes.size < chain.length := Nat.not_lt.mpr (hchain.length_le hin hc)
  refine ⟨⟨s.classes[c], Array.getElem?_eq_getElem hc, ?_⟩,
    ⟨fitting header.idSize data.size fs, isGreatest_fitting _ _ _, ?_, ?_⟩, ?_, ?_⟩
  -- the layout in terms of the classes that the snapshot gives as superclasses
  · have hcons : chain = c :: chain.tail := by cases hchain <;> rfl
    rw [map_field_layout, Snapshot.superclasses, hwhole, hcons, List.filterMap_cons,
      Array.getElem?_eq_getElem hc]
    rfl
  -- the fields that fit, each decoded behind those in front of it
  · have hfields := d.fields_finish ho hcontents hclass
    rw [value_decodeFields_eq_decodeFront _ (hheader ▸ hid), hwhole, decodeFront_take] at hfields
    simp only [Nat.zero_add, hheader] at hfields
    exact hfields
  -- data too short, too long, or just right
  · intro hshort
    cases hf : fs[fitting header.idSize data.size fs]? with
    | none => exact absurd (getElem?_fitting_eq_none_iff.mp hf) (Nat.not_le.mpr hshort)
    | some f =>
      refine ⟨f, rfl, ?_⟩
      rw [hreported, layoutNote?_of_short hwhole hf]
      exact owner.filter_isOf rfl
  · intro hexcess
    rw [hreported, layoutNote?_of_fits hwhole (Nat.le_of_lt hexcess), if_neg hlength,
      if_pos hexcess]
    exact owner.filter_isOf rfl
  · intro hfit
    rw [hreported, layoutNote?_of_fits hwhole (Nat.le_of_eq hfit), if_neg hlength,
      if_neg (Nat.not_lt.mpr (Nat.le_of_eq hfit.symm))]
    rfl

/-- A class, a subclass of it and three objects of both, with `top` above the former. -/
def sampleInheritance (top : ObjectId) : List Record :=
  [⟨31, some 0, .string 1 "Base"⟩, ⟨48, some 0, .string 2 "Wide"⟩, ⟨65, some 0, .string 3 "a"⟩,
    ⟨79, some 0, .string 4 "b"⟩, ⟨93, some 0, .loadClass 1 16 0 1⟩,
    ⟨118, some 0, .loadClass 2 17 0 2⟩, ⟨143, some 0, .heapDumpStart false 185⟩,
    ⟨152, none, .heap (.classDump ⟨16, 0, top, 0, 0, 0, 4, [], [], [⟨3, .int⟩]⟩)⟩,
    ⟨200, none, .heap (.classDump ⟨17, 0, 16, 0, 0, 0, 12, [], [], [⟨4, .long⟩]⟩)⟩,
    ⟨248, none, .heap (.object (.plain ⟨32, 0, 17, ⟨#[0, 0, 0, 0, 0, 0, 1, 2, 0, 0]⟩⟩))⟩,
    ⟨275, none, .heap (.object (.plain ⟨33, 0, 17, ⟨Array.replicate 24 7⟩⟩))⟩,
    ⟨316, none, .heap (.object (.plain ⟨34, 0, 16, ⟨#[0, 0, 0, 5]⟩⟩))⟩]

/-- Ten bytes are a long integer of the subclass, but too few for the integer above. -/
theorem fields_follow_layout_sampleInheritance :
    let s := sampleSnapshot (sampleInheritance 0)
    s.header.idSize = 4
      ∧ ∃ found, s.diagnostics.toList = warnings (sampleInheritance 0) ++ found
        ∧ ∃ o ∈ s.instances, ∃ data, o.classRef.class? = some 1 ∧ Lineage s.classes 1 [1, 0]
          ∧ o.contents = .object data [⟨"b", 1, .long 258⟩]
          ∧ ∃ k f, IsGreatest {k | k ≤ (layout s.classes [1, 0]).length
              ∧ layoutSize 4 ((layout s.classes [1, 0]).take k) ≤ data.size} k
            ∧ (layout s.classes [1, 0])[k]? = some f
            ∧ found.filter (·.isOf 32) = [⟨.shortFieldData 32 10 f.field.name f.declaringName,
                some 248, some 32⟩] := by
  intro s
  have hdata : (s.instances[0]?.map fun o => (o.id, o.offset, o.classRef.class?, o.contents))
      = some (32, 248, some 1,
        .object ⟨#[0, 0, 0, 0, 0, 0, 1, 2, 0, 0]⟩ [⟨"b", 1, .long 258⟩]) := by
    decide +kernel
  obtain ⟨o, ho, heq⟩ := Option.map_eq_some_iff.mp hdata
  obtain ⟨hid, hoffset, hclass, hcontents⟩ : o.id = 32 ∧ o.offset = 248
      ∧ o.classRef.class? = some 1 ∧ o.contents = .object _ _ := by
    simpa only [Prod.mk.injEq] using heq
  have hchain : Lineage s.classes 1 [1, 0] :=
    .step (show parent? s.classes 1 = some 0 by decide +kernel) (.top (by decide +kernel))
  have hshort : 10 < layoutSize 4 (layout s.classes [1, 0]) := by decide +kernel
  obtain ⟨found, hlog, -, hall⟩ := fields_follow_layout ⟨"JAVA PROFILE 1.0.2", 4, 1700000000000, 31⟩
    (.inl rfl) {} (sampleInheritance 0)
  obtain ⟨-, ⟨k, hk, -, hreported⟩, -⟩ :=
    hall o (Array.mem_of_getElem? ho) _ _ 1 [1, 0] hcontents hclass hchain
  obtain ⟨f, hf, hreported⟩ := hreported hshort
  rw [FieldOwner.diagnostic, hid, hoffset] at hreported
  exact ⟨rfl, found, hlog, o, Array.mem_of_getElem? ho, _, hclass, hchain, hcontents, k, f, hk, hf,
    hreported⟩

/-- Four bytes are the integer that the class declares, yet a warning is about the object: it is
defined twice. -/
theorem second_definition_reported_sampleInheritance :
    let s := sampleSnapshot (sampleInheritance 0 ++ [⟨337, some 0, .heapDumpStart false 21⟩,
      ⟨346, none, .heap (.object (.plain ⟨34, 0, 16, ⟨#[0, 0, 0, 5]⟩⟩))⟩])
    s.header.idSize = 4
      ∧ ∃ o ∈ s.instances, o.id = 34 ∧ o.classRef.class? = some 0 ∧ Lineage s.classes 0 [0]
        ∧ ∃ data fields, o.contents = .object data fields
          ∧ layoutSize 4 (layout s.classes [0]) = data.size
          ∧ ∃ d ∈ s.diagnostics.toList, d.isOf 34 ∧ d.severity = .warning := by
  intro s
  have hdata : (s.instances[2]?.map fun o => (o.id, o.classRef.class?, o.contents))
      = some (34, some 0, .object ⟨#[0, 0, 0, 5]⟩ [⟨"a", 0, .int 5⟩]) := by
    decide +kernel
  obtain ⟨o, ho, heq⟩ := Option.map_eq_some_iff.mp hdata
  obtain ⟨hid, hclass, hcontents⟩ : o.id = 34 ∧ o.classRef.class? = some 0
      ∧ o.contents = .object _ _ := by
    simpa only [Prod.mk.injEq] using heq
  have htop : parent? s.classes 0 = none := by decide +kernel
  have hsecond : ⟨.duplicateInstance 34, some 346, some 34⟩ ∈ s.diagnostics.toList := by
    decide +kernel
  exact ⟨rfl, o, Array.mem_of_getElem? ho, hid, hclass, .top htop, _, _, hcontents,
    by decide +kernel, _, hsecond, rfl, rfl⟩

end HeapDump
