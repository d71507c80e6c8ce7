/-
HeapDump/Proofs/Snapshot/Names.lean

The names in a finished snapshot, and the report of those that are missing.

A name is the string that was defined last with its identifier, and the identifier of
a name is the one that was told last, by a loading for classes and by the entry of a heap
for heaps.  So names do not depend on whether their strings stand in front of or behind
what they name.  `Snapshot.NamedBy` says this of classes, their fields and statics, heaps
and frames; each has a placeholder of its own for a name that is missing.

A heap whose name is the identifier of no string and a class without a name are reported
once each, heaps in the order of their identifiers and classes in that of the file, and so
is a dump in which no heap dump begins.  Fields and frames without names are not reported.
Main statement: `names_bind_to_last`.
-/
import HeapDump.Proofs.Draft.Tables
import HeapDump.Proofs.Snapshot.Heaps
import HeapDump.Proofs.Snapshot.Log
import HeapDump.Proofs.Snapshot.Reordering

namespace HeapDump

/-! ### Names told by records -/

section

variable (records : List Record)

/-- The name of a class, that of its last loading, if there is one and it has a string. -/
def lastClassName? (id : ObjectId) : Option String :=
  (lastSaid (Record.classLoad? id) records).bind fun load => lastString records load.nameId

/-- The name of a field.  One without a string is called by the identifier of its name. -/
def lastFieldName (nameId : ObjectId) : String :=
  (lastString records nameId).getD s!"<unnamed field {objectText nameId}>"

/-- The name of a heap, if it was entered and the last identifier of its name has a string. -/
def lastHeapName? (k : UInt32) : Option String :=
  (lastSaid (Record.heapNameId? k) records).bind (lastString records)

/-- A stack frame with its names.  A missing name is left empty. -/
def namedFrame (f : StackFrameRecord) : StackFrame where
  id := f.frameId
  method := (lastString records f.methodNameId).getD ""
  signature := (lastString records f.signatureId).getD ""
  sourceFile := (lastString records f.sourceFileId).getD ""
  classSerial := f.classSerial
  line := .ofInt32 f.line

/-- A class has the serial number of its last loading and its name; one without a name is called
by its identifier. -/
structure ClassObject.NamedBy (c : ClassObject) : Prop where
  serial_eq : c.serial = (lastSaid (Record.classLoad? c.id) records).map (·.serial)
  name_eq : c.name = (lastClassName? records c.id).getD s!"<unnamed class {objectText c.id}>"
  field_name_eq : ∀ f ∈ c.fields, f.name = lastFieldName records f.nameId
  static_name_eq : ∀ f ∈ c.statics, f.name = lastFieldName records f.nameId

/-- All names of a snapshot are those that records have told last. -/
structure Snapshot.NamedBy (s : Snapshot) : Prop where
  strings : ∀ id, s.strings[id]? = lastString records id
  classes : ∀ c ∈ s.classes, c.NamedBy records
  heaps : ∀ (k : UInt32) (h : Heap), s.heaps[k]? = some h →
    h.name = (lastHeapName? records k).getD (if k = 0 then "default" else s!"heap-{k.toNat}")
  frames : ∀ id, s.frames[id]?
    = (lastSaid (Record.stackFrame? id) records).map (namedFrame records)

/-- The warning about a heap, if the last identifier of its name has no string. -/
def heapNameWarning? (k : UInt32) : Option Diagnostic :=
  (lastSaid (Record.heapNameId? k) records).bind fun nameId =>
    if lastString records nameId = none then
      some { cause := .missingHeapName nameId k (Heap.defaultName k), object := some nameId }
    else none

/-- The warning about a class, if it has no name. -/
def classNameWarning? (c : ClassObject) : Option Diagnostic :=
  if lastClassName? records c.id = none then
    some { cause := .unnamedClass c.id, offset := some c.offset, object := some c.id }
  else none

end

theorem severity_of_heapNameWarning? {records : List Record} {k : UInt32}
    {diagnostic : Diagnostic} (h : heapNameWarning? records k = some diagnostic) :
    diagnostic.severity = .warning := by
  obtain ⟨nameId, -, hwarning⟩ := Option.bind_eq_some_iff.mp h
  obtain ⟨-, heq⟩ := Option.ite_none_right_eq_some.mp hwarning
  rw [← Option.some.inj heq]
  rfl

theorem severity_of_classNameWarning? {records : List Record} {c : ClassObject}
    {diagnostic : Diagnostic} (h : classNameWarning? records c = some diagnostic) :
    diagnostic.severity = .warning := by
  obtain ⟨-, heq⟩ := Option.ite_none_right_eq_some.mp h
  rw [← Option.some.inj heq]
  rfl

/-- A class without a name gives rise to a diagnostic. -/
def Cause.isUnnamedClass : Cause → Bool
  | unnamedClass _ => true
  | _ => false

/-! ### Classes -/

/-- Names do not look at the lists of subclasses and instances. -/
theorem ClassObject.namedBy_bare (records : List Record) (c : ClassObject) :
    c.bare.NamedBy records ↔ c.NamedBy records :=
  ⟨fun h => ⟨h.serial_eq, h.name_eq, h.field_name_eq, h.static_name_eq⟩,
    fun h => ⟨h.serial_eq, h.name_eq, h.field_name_eq, h.static_name_eq⟩⟩

/-- References are looked up without a change to names. -/
theorem ClassObject.NamedBy.lookup {records : List Record} {c : ClassObject}
    (h : c.NamedBy records) (objects : ObjectTable) : (c.lookup objects).value.NamedBy records where
  serial_eq := h.serial_eq
  name_eq := h.name_eq
  field_name_eq := h.field_name_eq
  static_name_eq f hf := by
    simp only [ClassObject.lookup, Noted.value_bind, Noted.value_pure, Noted.value_each,
      List.mem_map] at hf
    obtain ⟨f', hf', rfl⟩ := hf
    exact h.static_name_eq f' hf'

namespace Draft

variable {d : Draft} {records : List Record}

namespace Tabled

theorem className?_eq (h : d.Tabled records) (id : ObjectId) :
    d.className? id = lastClassName? records id := by
  rw [className?, h.loads]
  exact Option.bind_congr fun load _ => h.strings load.nameId

theorem fieldName_eq (h : d.Tabled records) (nameId : ObjectId) :
    d.fieldName nameId = lastFieldName records nameId := by
  rw [fieldName, h.strings, lastFieldName]

theorem namedBy_classObject (h : d.Tabled records) (c : Located ClassDump) :
    (d.classObject c).NamedBy records where
  serial_eq := by
    show d.loads[c.value.classId]?.map (·.serial) = _
    rw [h.loads]
    rfl
  name_eq := by
    show d.className c.value.classId = _
    rw [className, h.className?_eq]
    rfl
  field_name_eq f hf := by
    obtain ⟨f', -, rfl⟩ := List.mem_map.mp hf
    exact h.fieldName_eq f'.nameId
  static_name_eq f hf := by
    obtain ⟨f', -, rfl⟩ := List.mem_map.mp hf
    exact h.fieldName_eq f'.nameId

/-- A stack frame has the last strings of its names. -/
theorem stackFrame_eq (h : d.Tabled records) (f : StackFrameRecord) :
    d.stackFrame f = namedFrame records f := by
  simp only [stackFrame, namedFrame, h.strings]

theorem heapName_eq (h : d.Tabled records) (k : UInt32) :
    d.heapName k (d.entry k).nameId = (lastHeapName? records k).getD (Heap.defaultName k) := by
  rw [heapName, h.heapNameIds, lastHeapName?]
  simp only [h.strings]

/-- The names of a finished draft. -/
theorem namedBy_finish (h : d.Tabled records) (resolveFields : Bool) :
    (d.finish resolveFields).NamedBy records where
  strings := h.strings
  classes c hc := by
    refine (d.sameButLinks_finish resolveFields).forall_mem
      (ClassObject.namedBy_bare records) (fun c' hc' => ?_) hc
    obtain ⟨dump, -, rfl⟩ := Array.mem_map.mp hc'
    exact (h.namedBy_classObject dump).lookup d.objects
  heaps k x hk := by
    rw [d.eq_heap_entry resolveFields hk]
    exact h.heapName_eq k
  frames id := by
    show (d.frames.map fun _ f => d.stackFrame f)[id]? = _
    rw [Std.ExtTreeMap.getElem?_map, h.frames]
    exact congrArg (Option.map · _) (funext h.stackFrame_eq)

/-! ### What is missing -/

/-- The heaps without a name are reported in the order of their identifiers. -/
theorem unnamedHeaps_eq (h : d.Tabled records) (resolveFields : Bool) :
    d.unnamedHeaps = (d.finish resolveFields).heaps.keys.filterMap (heapNameWarning? records) := by
  -- finishing keeps the heaps, and they are gone through by identifier
  have hkeys : (d.finish resolveFields).heaps.keys = d.heaps.toList.map Prod.fst := by
    rw [Std.ExtTreeMap.map_fst_toList_eq_keys]
    exact Std.ExtTreeMap.keys_map
  rw [unnamedHeaps, hkeys, List.filterMap_map]
  refine List.filterMap_congr fun p hmem => ?_
  obtain ⟨k, x⟩ := p
  have hentry : x.nameId = lastSaid (Record.heapNameId? k) records := by
    rw [← h.heapNameIds, entry, Std.ExtTreeMap.getD_eq_getD_getElem?,
      Std.ExtTreeMap.mem_toList_iff_getElem?_eq_some.mp hmem]
    rfl
  dsimp only [Function.comp_apply]
  rw [hentry, heapNameWarning?]
  cases lastSaid (Record.heapNameId? k) records with
  | none => rfl
  | some nameId =>
    rw [Option.bind_some, ← h.strings]
    dsimp only
    rw [Std.ExtTreeMap.contains_eq_isSome_getElem?]
    cases d.strings[nameId]? <;> rfl

/-- The classes without a name are reported in the order of the file. -/
theorem unnamedClasses_eq (h : d.Tabled records) (resolveFields : Bool) :
    d.unnamedClasses
      = (d.finish resolveFields).classes.toList.filterMap (classNameWarning? records) := by
  rw [unnamedClasses, ← d.located_classes_finish resolveFields, List.filterMap_map]
  refine List.filterMap_congr fun c _ => ?_
  have hname : d.className? c.located.value.classId = lastClassName? records c.id :=
    h.className?_eq c.id
  dsimp only [Function.comp_apply]
  rw [hname, classNameWarning?]
  cases lastClassName? records c.id <;> rfl

end Tabled

/-- It is reported that no heap dump begins, if none does. -/
theorem missingHeapDump_foldl_push (header : Header) (log : Diagnostics) (records : List Record) :
    (records.foldl push { header, diagnostics := log }).missingHeapDump
      = if ∃ r ∈ records, r.body.isHeapDumpStart then [] else [{ cause := .noHeapDump }] := by
  have hnone : (records.foldl push { header, diagnostics := log }).heapDumps = 0
      ↔ ¬∃ r ∈ records, r.body.isHeapDumpStart := by
    rw [heapDumps_foldl_push, Nat.zero_add, List.countP_eq_zero]
    push Not
    rfl
  rw [missingHeapDump]
  simp only [hnone, ite_not]

/-- The names of heaps and of classes are missing. -/
theorem namingSort_names :
    NamingSort (fun cause => cause.category = .heaps || cause.isUnnamedClass)
      true true false false where
  push _ h := by cases h <;> rfl
  resolving _ h := by cases h <;> rfl
  heaps _ _ _ := rfl
  classes _ := rfl
  traces _ _ := rfl
  dump := rfl

/-- A heap dump is missing. -/
theorem namingSort_general : NamingSort (·.category = .general) false false false true where
  push _ h := by cases h <;> rfl
  resolving _ h := by cases h <;> rfl
  heaps _ _ _ := rfl
  classes _ := rfl
  traces _ _ := rfl
  dump := rfl

end Draft

/-! ### Finished snapshots -/

/-- **Names are those told last, and missing ones are reported once.**  In a finished snapshot all
names are those of the last strings, whose identifiers were told last.  What is new in its log and
about names is one warning for each heap whose last name has no string, in the order of their
identifiers, and behind these one for each class without a name, in the order of the file.  The
only general remark is that no heap dump begins, if none does. -/
theorem names_bind_to_last (header : Header) (log : Diagnostics) (records : List Record)
    (resolveFields : Bool) :
    let s := (records.foldl Draft.push { header, diagnostics := log }).finish resolveFields
    s.NamedBy records
      ∧ s.classes.toList.map ClassObject.located = firstClasses records
      ∧ s.heaps.keys.Pairwise (· < ·)
      ∧ ∃ new, s.diagnostics.toList = log.toList ++ new
        ∧ new.filter (fun d => d.category = .heaps || d.cause.isUnnamedClass)
          = s.heaps.keys.filterMap (heapNameWarning? records)
            ++ s.classes.toList.filterMap (classNameWarning? records)
        ∧ new.filter (·.category = .general)
          = (if ∃ r ∈ records, r.body.isHeapDumpStart then [] else [{ cause := .noHeapDump }])
        ∧ (∀ d ∈ new, d.category = .heaps || d.cause.isUnnamedClass → d.severity = .warning)
        ∧ ∀ d ∈ new, d.category = .general → d.severity = .info := by
  intro s
  let d := records.foldl Draft.push { header, diagnostics := log }
  have htabled : d.Tabled records := Draft.tabled_foldl_push header log records
  obtain ⟨new, htoList, hsort⟩ := Draft.exists_new_finish header log records resolveFields
  -- The two sorts of diagnostics, each as a list.
  have hnames : new.filter (fun d => d.category = .heaps || d.cause.isUnnamedClass)
      = s.heaps.keys.filterMap (heapNameWarning? records)
        ++ s.classes.toList.filterMap (classNameWarning? records) := by
    rw [← htabled.unnamedHeaps_eq, ← htabled.unnamedClasses_eq]
    refine (hsort Draft.namingSort_names).trans ?_
    simp only [cond_true, cond_false, List.append_nil, d]
  have hgeneral : new.filter (·.category = .general)
      = if ∃ r ∈ records, r.body.isHeapDumpStart then [] else [{ cause := .noHeapDump }] := by
    rw [← Draft.missingHeapDump_foldl_push header log]
    exact hsort Draft.namingSort_general
  have hfirst : s.classes.toList.map ClassObject.located = firstClasses records := by
    rw [← (Draft.holds_foldl_push header log records).classes]
    exact d.located_classes_finish resolveFields
  have hkeys : s.heaps.keys.Pairwise (· < ·) :=
    (Std.ExtTreeMap.ordered_keys (t := s.heaps)).imp fun hlt => compareOfLessAndEq_eq_lt.mp hlt
  refine ⟨htabled.namedBy_finish resolveFields, hfirst, hkeys, new, htoList, hnames, hgeneral,
    fun diagnostic hmem hname => ?_, fun diagnostic hmem hcategory => ?_⟩
  · have hmissing : diagnostic ∈ new.filter
        fun d => d.category = .heaps || d.cause.isUnnamedClass := List.mem_filter.mpr ⟨hmem, hname⟩
    rw [hnames, List.mem_append, List.mem_filterMap, List.mem_filterMap] at hmissing
    rcases hmissing with ⟨k, -, hwarning⟩ | ⟨c, -, hwarning⟩
    · exact severity_of_heapNameWarning? hwarning
    · exact severity_of_classNameWarning? hwarning
  · have hmissing : diagnostic ∈ new.filter (·.category = .general) :=
      List.mem_filter.mpr ⟨hmem, decide_eq_true hcategory⟩
    rw [hgeneral] at hmissing
    split at hmissing
    · cases hmissing
    · rw [List.mem_singleton.mp hmissing]
      rfl

/-- Two classes in two heaps.  The strings of the first class are defined twice or behind it, the
second class is not loaded, and the last name of heap 7 has no string. -/
def sampleNames : List Record :=
  [⟨31, some 0, .string 1 "Link"⟩, ⟨48, some 0, .loadClass 1 16 0 2⟩,
    ⟨73, none, .heap (.heapInfo 7 1)⟩,
    ⟨82, none, .heap (.classDump ⟨16, 0, 0, 0, 0, 0, 4, [], [], [⟨3, .object⟩, ⟨9, .int⟩]⟩)⟩,
    ⟨135, none, .heap (.heapInfo 8 3)⟩,
    ⟨144, none, .heap (.classDump ⟨17, 0, 0, 0, 0, 0, 0, [], [], []⟩)⟩,
    ⟨187, none, .heap (.heapInfo 7 9)⟩, ⟨196, some 0, .string 3 "next"⟩,
    ⟨213, some 0, .loadClass 2 16 0 1⟩, ⟨238, some 0, .string 1 "Node"⟩]

theorem names_bind_to_last_sampleNames :
    let s := sampleSnapshot sampleNames
    s.NamedBy sampleNames
      ∧ s.classes.map (·.name) = #["Node", "<unnamed class 0x11>"]
      ∧ s.classes.map (·.serial) = #[some 2, none]
      ∧ s.classes.map (·.fields.map (·.name)) = #[["next", "<unnamed field 0x9>"], []]
      ∧ s.heaps.toList.map (fun (k, h) => (k, h.name)) = [(7, "heap-7"), (8, "next")]
      ∧ s.diagnostics.toList = [{ cause := .missingHeapName 9 7 "heap-7", object := some 9 },
        { cause := .unnamedClass 17, offset := some 144, object := some 17 },
        { cause := .noHeapDump }] := by
  intro s
  obtain ⟨hnamed, -⟩ := names_bind_to_last ⟨"JAVA PROFILE 1.0.2", 4, 1700000000000, 31⟩ {}
    sampleNames true
  refine ⟨hnamed, ?_, ?_, ?_, ?_, ?_⟩
  all_goals decide +kernel

end HeapDump
