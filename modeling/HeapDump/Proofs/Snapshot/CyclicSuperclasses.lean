/-
HeapDump/Proofs/Snapshot/CyclicSuperclasses.lean

Superclasses without end are found out, and do no harm.

An object is decoded class by class, at most one class more than there are.  Its class is
reported to be its own ancestor just if the chain of superclasses has no end and the data last
for all the classes that are visited: in front of that comes only the report of a field that is
missing, and behind it only that of data left over.

There are no other errors in a log.  What is reported while records are read are warnings, and
of what finishing reports only the layouts of objects can give an error
(`Draft.Holds.exists_cyclic_of_error`).  So a log with errors means that there is a cycle, and
`Endless.exists_cycle` says where one is.

The bound on the visits is about `climb`, which counts them and decodes the same fields; the
other parts are about the finished snapshot and its log.  Main statement:
`cyclic_superclasses_detected`.
-/
import HeapDump.Proofs.Draft.Warnings
import HeapDump.Proofs.Graph.Climbing
import HeapDump.Proofs.Snapshot.FieldData

namespace HeapDump

/-- What is reported of an object is an error just if the superclasses have no end and the data
last for one class more than there are. -/
theorem layoutNote?_error_iff {classes : Array ClassObject} (hin : ParentsInside classes) {i : Nat}
    (hi : i < classes.size) {idSize : Nat} {owner : FieldOwner} {d : Diagnostic} :
    layoutNote? classes idSize owner i = some d ∧ d.severity = .error
      ↔ (Endless classes i ∧ layoutSize idSize (layout classes (superclassChain classes i))
          ≤ owner.dataSize) ∧ d = classes[i].cyclic := by
  have hendless := size_lt_length_superclassChain_iff hin hi
  cases hk : (layout classes (superclassChain classes i))[fitting idSize owner.dataSize
      (layout classes (superclassChain classes i))]? with
  | some f =>
    -- a field is missing: that is a warning, and the data do not last
    rw [layoutNote?_of_short rfl hk]
    constructor
    · rintro ⟨h, hd⟩
      obtain rfl := Option.some.inj h
      cases hd
    · rintro ⟨⟨-, hfits⟩, -⟩
      rw [getElem?_fitting_eq_none_iff.mpr hfits] at hk
      cases hk
  | none =>
    -- no field is missing: it is an error if there are too many classes, and a warning otherwise
    have hfits := getElem?_fitting_eq_none_iff.mp hk
    rw [layoutNote?_of_fits rfl hfits]
    by_cases hlong : classes.size < (superclassChain classes i).length
    · rw [if_pos hlong, Array.getElem?_eq_getElem hi, Option.map_some]
      constructor
      · rintro ⟨h, -⟩
        exact ⟨⟨hendless.mp hlong, hfits⟩, (Option.some.inj h).symm⟩
      · rintro ⟨-, rfl⟩
        exact ⟨rfl, rfl⟩
    · rw [if_neg hlong]
      constructor
      · rintro ⟨h, hd⟩
        obtain ⟨-, h⟩ := Option.ite_none_right_eq_some.mp h
        obtain rfl := Option.some.inj h
        cases hd
      · rintro ⟨⟨hend, -⟩, -⟩
        exact absurd (hendless.mpr hend) hlong

/-- **An error in the log of a snapshot** is that the superclasses of an object's class have no
end, if only warnings have been reported of the records. -/
theorem Draft.Holds.exists_cyclic_of_error {d : Draft} {records : List Record}
    (h : d.Holds records) (hid : d.header.idSize = 4 ∨ d.header.idSize = 8)
    (hwarnings : ∀ d' ∈ d.diagnostics.toList, d'.severity = .warning) {diagnostic : Diagnostic}
    (hmem : diagnostic ∈ (d.finish true).diagnostics.toList)
    (hseverity : diagnostic.severity = .error) :
    let s := d.finish true
    ∃ o ∈ s.instances, ∃ data fields c class', o.contents = .object data fields
      ∧ o.classRef.class? = some c ∧ s.classes[c]? = some class' ∧ Endless s.classes c
      ∧ diagnostic = class'.cyclic := by
  intro s
  obtain ⟨found, hlog, hlayout, hothers⟩ := d.exists_found_finish hid
  rw [hlog] at hmem
  rcases List.mem_append.mp hmem with hmem | hmem
  -- what was reported before are warnings
  · have hwarning := hwarnings diagnostic hmem
    rw [hseverity] at hwarning
    cases hwarning
  · -- what finishing reports is an error only if it is about the layout of an object
    have habout : diagnostic.cause.aboutLayout := by
      by_contra hnot
      exact (hothers diagnostic hmem hnot).1 hseverity
    have hnotes : diagnostic ∈ found.filter (·.cause.aboutLayout) :=
      List.mem_filter.mpr ⟨hmem, habout⟩
    rw [hlayout] at hnotes
    obtain ⟨o, ho, hnote⟩ := List.mem_filterMap.mp hnotes
    obtain ⟨data, fields, c, hcontents, hclass, hnote⟩ := Instance.exists_of_layoutNote? hnote
    have ho := Array.mem_toList_iff.mp ho
    have hc : c < s.classes.size := h.lt_size_of_class?_finish true ho hclass
    obtain ⟨⟨hendless, -⟩, heq⟩ :=
      (layoutNote?_error_iff (h.parentsInside_finish true) hc).mp ⟨hnote, hseverity⟩
    exact ⟨o, ho, data, fields, c, _, hcontents, hclass, Array.getElem?_eq_getElem hc, hendless,
      heq⟩

/-- **Superclasses without end are detected exactly, and do no harm.**  Take a plain object whose
class was found.  Decoding it class by class ends after one class more than there are at most,
and gives its fields; at most one thing is reported of its data and superclasses.  It is reported
that the superclasses of its class have no end if and only if this is so and the data are long
enough for the fields of one class more than there are.  The log has what is reported of the
objects, one after the other.  Any error in it is such a report, so there is some class that is
its own ancestor if there are errors. -/
theorem cyclic_superclasses_detected (header : Header)
    (hid : header.idSize = 4 ∨ header.idSize = 8) (attachSink : Bool) (records : List Record) :
    let s := (records.foldl Draft.push
      { header, diagnostics := .start attachSink }).finish true
    (∀ o ∈ s.instances, ∀ data fields c, o.contents = .object data fields →
      o.classRef.class? = some c →
      let decoding := climb s.objects s.classes header.idSize ⟨o.id, o.offset, data.size⟩ c 0 c
        { data }
      decoding.1 ≤ s.classes.size + 1
      ∧ decoding.2.value = fields
      ∧ decoding.2.notes.filter (·.cause.aboutLayout)
        = (o.layoutNote? s.classes header.idSize).toList
      ∧ ∃ class', s.classes[c]? = some class'
        ∧ (o.layoutNote? s.classes header.idSize = some class'.cyclic
          ↔ Endless s.classes c
            ∧ layoutSize header.idSize
              (layout s.classes (superclassesFrom s.classes (s.classes.size + 1) c)) ≤ data.size))
    ∧ s.diagnostics.toList.filter (·.cause.aboutLayout)
      = s.instances.toList.filterMap (·.layoutNote? s.classes header.idSize)
    ∧ (∀ d ∈ s.diagnostics.toList, d.severity = .error →
      ∃ o ∈ s.instances, ∃ data fields c class', o.contents = .object data fields
        ∧ o.classRef.class? = some c ∧ s.classes[c]? = some class' ∧ Endless s.classes c
        ∧ d = class'.cyclic)
    ∧ (s.diagnostics.has .error → ∃ c k, 0 < k ∧ ancestor? s.classes c k = some c) := by
  intro s
  let d := records.foldl Draft.push { header, diagnostics := .start attachSink }
  -- What the records give: first definitions, superclasses that are there, a log of warnings.
  have hholds : d.Holds records := Draft.holds_foldl_push header _ records
  have hin : ParentsInside s.classes := hholds.parentsInside_finish true
  have hheader : d.header = header := Draft.header_foldl_push _ records
  have hbefore : d.diagnostics.toList = warnings records := by
    rw [Draft.diagnostics_foldl_push, Diagnostics.toList_pushAll]
    rfl
  -- What finishing adds to the log, and that an error in it is about a cycle.
  obtain ⟨found, hlog, hlayout, -⟩ := d.exists_found_finish (hheader ▸ hid)
  rw [hbefore] at hlog
  rw [hheader] at hlayout
  have herror (diagnostic : Diagnostic) (hmem : diagnostic ∈ s.diagnostics.toList) :=
    hholds.exists_cyclic_of_error (hheader ▸ hid)
      (fun _ h => severity_of_mem_warnings (hbefore ▸ h)) hmem
  refine ⟨fun o ho data fields c hcontents hclass => ?_, ?_, herror, fun hhas => ?_⟩
  -- one object: the visits are bounded, the fields are kept, and one thing at most is noted
  · have hc : c < s.classes.size := hholds.lt_size_of_class?_finish true ho hclass
    have hdecoded := climb_eq_decodeFields s.objects s.classes header.idSize
      ⟨o.id, o.offset, data.size⟩ data c
    have hfields := d.fields_finish ho hcontents hclass
    rw [hheader] at hfields
    refine ⟨visits_climb_le _ _ _ _ _ (Nat.zero_le _) _ _, ?_, ?_, s.classes[c],
      Array.getElem?_eq_getElem hc, ?_⟩
    · rw [hdecoded]
      exact hfields.symm
    · rw [hdecoded, notes_decodeFields _ hid _ _ rfl, Instance.layoutNote?_of_class? hcontents hclass]
    -- the error is noted just if the chain has no end and the data last
    · rw [Instance.layoutNote?_of_class? hcontents hclass]
      constructor
      · intro h
        exact ((layoutNote?_error_iff hin hc).mp ⟨h, rfl⟩).1
      · intro h
        exact ((layoutNote?_error_iff hin hc).mpr ⟨h, rfl⟩).1
  -- all objects: the warnings of the records are not about layouts, so the notes on these are new
  · have hnone : (warnings records).filter (·.cause.aboutLayout) = [] :=
      List.filter_eq_nil_iff.mpr fun _ hmem => (pushCause_of_mem_warnings hmem).not_aboutLayout
    rw [hlog, List.filter_append, hnone, hlayout]
    rfl
  -- an error is about a class whose chain has no end, and such a chain runs into a cycle
  · obtain ⟨diagnostic, hmem, hseverity⟩ := List.any_eq_true.mp hhas
    obtain ⟨o, -, data, fields, c, class', -, -, -, hendless, -⟩ :=
      herror diagnostic hmem (of_decide_eq_true hseverity)
    obtain ⟨-, c', k, -, hk, hcycle⟩ := hendless.exists_cycle
    exact ⟨c', k, hk, hcycle⟩

/-- Of two classes that are each other's superclasses one has an object with data for three. -/
theorem cyclic_superclasses_detected_sampleInheritance :
    let s := sampleSnapshot (sampleInheritance 17)
    s.header.idSize = 4
      ∧ ∃ o ∈ s.instances, o.id = 33 ∧ ∃ class', s.classes[1]? = some class'
        ∧ Endless s.classes 1
        ∧ o.layoutNote? s.classes 4 = some class'.cyclic := by
  intro s
  have hdata : (s.instances[1]?.map fun o => (o.id, o.classRef.class?, o.contents))
      = some (33, some 1, .object ⟨Array.replicate 24 7⟩ [⟨"b", 1, .long 0x0707070707070707⟩,
          ⟨"a", 0, .int 0x07070707⟩, ⟨"b", 1, .long 0x0707070707070707⟩]) := by
    decide +kernel
  obtain ⟨o, ho, heq⟩ := Option.map_eq_some_iff.mp hdata
  obtain ⟨hid, hclass, hcontents⟩ : o.id = 33 ∧ o.classRef.class? = some 1
      ∧ o.contents = .object _ _ := by
    simpa only [Prod.mk.injEq] using heq
  have hin : ParentsInside s.classes :=
    (Draft.holds_foldl_push _ _ (sampleInheritance 17)).parentsInside_finish true
  have hendless : Endless s.classes 1 :=
    (size_lt_length_superclassChain_iff hin (by decide +kernel)).mp (by decide +kernel)
  obtain ⟨hobjects, -⟩ := cyclic_superclasses_detected ⟨"JAVA PROFILE 1.0.2", 4, 1700000000000, 31⟩
    (.inl rfl) false (sampleInheritance 17)
  obtain ⟨-, -, -, class', hclass', hiff⟩ :=
    hobjects o (Array.mem_of_getElem? ho) _ _ 1 hcontents hclass
  exact ⟨rfl, o, Array.mem_of_getElem? ho, hid, class', hclass', hendless,
    hiff.mpr ⟨hendless, by decide +kernel⟩⟩

end HeapDump
