/-
HeapDump/Proofs/Draft/Reordering.lean

Drafts that differ in the order of definitions.

A definition of a new identifier adds one object, which its heap lists, and leaves
everything else alone.  What else a draft holds, its `Draft.backdrop`, therefore comes
from the other records: a definition shows nothing there (`backdrop_take`), and what
another record does to it depends on it alone (`backdrop_push_congr`).

If no identifier is defined twice (`DistinctIds`), all definitions count, wherever they
stand, so two orders of them give the same objects up to order.  Which heap an object
belongs to depends on its place in the order, so heaps are left out: what is compared is
the definition itself and where it stands in the file (`Located.entry`).

`Draft.Reordered` puts both together, and what names and notes are made of a draft is
the same for two such drafts, up to order (`Reordered.perm_namingNotes`).
Main statement: `Draft.reordered_foldl_push`.
-/
import HeapDump.Draft.Naming
import HeapDump.Proofs.Draft.Objects

namespace HeapDump

/-! ### What a draft holds besides objects -/

/-- What a draft holds besides classes and instances; of the heaps, only their names. -/
structure Backdrop where
  header : Header
  currentHeap : UInt32
  heapDumps : Nat
  strings : Std.ExtTreeMap ObjectId String
  loads : Std.ExtTreeMap ObjectId ClassLoad
  frames : Std.ExtTreeMap ObjectId StackFrameRecord
  traces : Std.ExtTreeMap UInt32 StackTrace
  threads : Std.ExtTreeMap UInt32 ThreadDraft
  heapNames : Std.ExtTreeMap UInt32 ObjectId
  roots : Array (Located RootRecord)
  diagnostics : Diagnostics

namespace Draft

/-- The names of the heaps that have one, by identifier. -/
def heapNames (d : Draft) : Std.ExtTreeMap UInt32 ObjectId := d.heaps.filterMap fun _ h => h.nameId

/-- What a draft holds besides classes and instances. -/
def backdrop (d : Draft) : Backdrop where
  header := d.header
  currentHeap := d.currentHeap
  heapDumps := d.heapDumps
  strings := d.strings
  loads := d.loads
  frames := d.frames
  traces := d.traces
  threads := d.threads
  heapNames := d.heapNames
  roots := d.roots
  diagnostics := d.diagnostics

theorem getElem?_heapNames (d : Draft) (k : UInt32) :
    d.heapNames[k]? = d.heaps[k]?.bind (·.nameId) :=
  Std.ExtTreeMap.getElem?_filterMap'

/-- What changes in a heap but not its name. -/
theorem heapNames_inHeap (d : Draft) {f : HeapDraft → HeapDraft}
    (hf : ∀ h, (f h).nameId = h.nameId) : (d.inHeap f).heapNames = d.heapNames := by
  refine Std.ExtTreeMap.ext_getElem? fun k => ?_
  rw [getElem?_heapNames, getElem?_heapNames, inHeap, Std.ExtTreeMap.getElem?_alter]
  split
  · next hk =>
    obtain rfl : d.currentHeap = k := Std.LawfulEqCmp.compare_eq_iff_eq.mp hk
    cases d.heaps[d.currentHeap]? <;> simp [hf]
  · rfl

theorem heapNames_enterHeap (d : Draft) (heapId : UInt32) (nameId : ObjectId) :
    (d.enterHeap heapId nameId).heapNames = d.heapNames.insert heapId nameId := by
  refine Std.ExtTreeMap.ext_getElem? fun k => ?_
  rw [Std.ExtTreeMap.getElem?_insert, getElem?_heapNames, getElem?_heapNames, enterHeap, inHeap,
    Std.ExtTreeMap.getElem?_alter]
  split <;> rfl

/-- Heaps without a name of their own are not in the list of those whose name is missing. -/
theorem unnamedHeaps_eq (d : Draft) : d.unnamedHeaps = d.heapNames.toList.filterMap
    fun (id, nameId) => if d.strings.contains nameId then none else some
      { cause := .missingHeapName nameId id (Heap.defaultName id), object := some nameId } := by
  rw [unnamedHeaps, heapNames, Std.ExtTreeMap.toList_filterMap, List.filterMap_filterMap]
  refine congrArg (List.filterMap · _) (funext fun (id, h) => ?_)
  dsimp only
  cases h.nameId <;> rfl

/-! ### One record more -/

/-- What is defined adds to the objects and nothing else. -/
theorem backdrop_take (d : Draft) {record : HeapRecord} {id : ObjectId}
    (hid : record.definedId? = some id) (offset : Nat) :
    (d.take record offset).backdrop = d.backdrop := by
  cases record with
  | classDump dump =>
    have hnames := d.heapNames_inHeap (f := fun h =>
      { h with classes := h.classes.push d.classes.size }) fun _ => rfl
    exact congrArg (fun names => { d.backdrop with heapNames := names }) hnames
  | object dump =>
    have hnames := d.heapNames_inHeap (f := fun h =>
      { h with instances := h.instances.push d.instances.size }) fun _ => rfl
    exact congrArg (fun names => { d.backdrop with heapNames := names }) hnames
  | _ => cases hid

theorem backdrop_enterHeap (d : Draft) (heapId : UInt32) (nameId : ObjectId) :
    (d.enterHeap heapId nameId).backdrop
      = { d.backdrop with
          currentHeap := heapId, heapNames := d.backdrop.heapNames.insert heapId nameId } :=
  congrArg (fun names => { d.backdrop with currentHeap := heapId, heapNames := names })
    (d.heapNames_enterHeap heapId nameId)

theorem backdrop_noteThread_congr {d d' : Draft} (h : d.backdrop = d'.backdrop)
    (root : RootRecord) : (d.noteThread root).backdrop = (d'.noteThread root).backdrop := by
  rw [noteThread, noteThread]
  split
  · next serial _ _ =>
    exact congrArg (fun b => { b with
      threads := b.threads.alter serial fun t =>
        let t := t.getD ⟨0, 0, none⟩
        some { t with
          id := root.objectId
          stackSerial := root.stackSerial.getD t.stackSerial } }) h
  · exact h

theorem backdrop_addRoot (d : Draft) (root : RootRecord) (offset : Nat) :
    (d.addRoot root offset).backdrop
      = { (d.noteThread root).backdrop with
          roots := (d.noteThread root).backdrop.roots.push
            ⟨root, (d.noteThread root).backdrop.currentHeap, offset⟩ } := by
  have hnames := (d.noteThread root).heapNames_inHeap (f := fun h =>
    { h with roots := h.roots.push (d.noteThread root).roots.size }) fun _ => rfl
  exact congrArg (fun names => { (d.noteThread root).backdrop with
    heapNames := names
    roots := (d.noteThread root).roots.push
      ⟨root, (d.noteThread root).currentHeap, offset⟩ }) hnames

/-- What a record that defines nothing does to the rest depends on the rest. -/
theorem backdrop_push_congr {d d' : Draft} (h : d.backdrop = d'.backdrop) {r : Record}
    (hr : r.definedId? = none) : (d.push r).backdrop = (d'.push r).backdrop := by
  obtain ⟨offset, time, body⟩ := r
  cases body with
  | string id value =>
    exact congrArg (fun b => { b with strings := b.strings.insert id value }) h
  | loadClass serial classId stackSerial nameId =>
    exact congrArg (fun b => { b with loads := b.loads.insert classId ⟨serial, nameId⟩ }) h
  | stackFrame frame =>
    exact congrArg (fun b => { b with frames := b.frames.insert frame.frameId frame }) h
  | stackTrace trace =>
    exact congrArg (fun b => { b with traces := b.traces.insert trace.serial trace }) h
  | startThread start =>
    exact congrArg (fun b => { b with
      threads := b.threads.insert start.serial ⟨start.threadId, start.stackSerial, some start⟩ }) h
  | heapDumpStart segment length =>
    exact congrArg (fun b => { b with heapDumps := b.heapDumps + 1 }) h
  -- these change nothing at all
  | unloadClass serial => exact h
  | endThread serial => exact h
  | heapDumpEnd => exact h
  | skipped tag length =>
    rw [push, push]
    dsimp only
    cases Tag.ofCode? tag with
    | some _ => exact h
    | none =>
      show (d.report _).backdrop = (d'.report _).backdrop
      exact congrArg (fun b => { b with
        diagnostics := b.diagnostics.push
          { cause := .skippedRecord tag length, offset := some offset } }) h
  | heap record =>
    cases record with
    | heapInfo heapId nameId =>
      show (d.enterHeap heapId nameId).backdrop = (d'.enterHeap heapId nameId).backdrop
      rw [backdrop_enterHeap, backdrop_enterHeap, h]
    | root root =>
      show (d.addRoot root offset).backdrop = (d'.addRoot root offset).backdrop
      rw [backdrop_addRoot, backdrop_addRoot, backdrop_noteThread_congr h]
    | classDump dump => cases hr
    | object dump => cases hr

end Draft

/-! ### Distinct identifiers -/

/-- No identifier is defined twice. -/
def DistinctIds (records : List Record) : Prop := (records.filterMap Record.definedId?).Nodup

instance (records : List Record) : Decidable (DistinctIds records) :=
  inferInstanceAs (Decidable (records.filterMap Record.definedId?).Nodup)

namespace DistinctIds

theorem of_perm {records records' : List Record} (h : DistinctIds records)
    (hperm : records.Perm records') : DistinctIds records' :=
  (hperm.filterMap _).nodup_iff.mp h

theorem of_concat {records : List Record} {r : Record} (h : DistinctIds (records ++ [r])) :
    DistinctIds records := by
  rw [DistinctIds, List.filterMap_append] at h
  exact (List.nodup_append.mp h).1

/-- What a record defines is new. -/
theorem not_defined {records : List Record} {r : Record} (h : DistinctIds (records ++ [r]))
    {id : ObjectId} (hid : r.definedId? = some id) : ¬Defined records id := by
  rintro ⟨r', hmem, hid'⟩
  rw [DistinctIds, List.filterMap_append] at h
  have hnew : id ∈ [r].filterMap Record.definedId? := by simp [hid]
  exact (List.nodup_append.mp h).2.2 id (List.mem_filterMap.mpr ⟨r', hmem, hid'⟩) id hnew rfl

/-- Every definition counts. -/
theorem novel?_eq {records : List Record} {r : Record} (h : DistinctIds (records ++ [r])) :
    novel? records r = r.heapRecord? := by
  refine Option.ext fun record => ?_
  rw [novel?_eq_some_iff]
  refine and_iff_left_of_imp fun hr id hid => h.not_defined ?_
  rw [Record.definedId?, hr]
  exact hid

end DistinctIds

/-- What is located and its place in the file, without its heap. -/
def Located.entry (x : Located α) : α × Nat := (x.value, x.offset)

theorem Located.entry_eq_iff {x y : Located α} :
    x.entry = y.entry ↔ x.value = y.value ∧ x.offset = y.offset := by
  simp only [entry, Prod.mk.injEq]

/-- Functions that do not look at the heap give the same for the same entries in any order. -/
theorem Located.perm_map {xs ys : List (Located α)} {f g : Located α → β}
    (h : (xs.map entry).Perm (ys.map entry)) (hfg : ∀ x y, x.entry = y.entry → f x = g y) :
    (xs.map f).Perm (ys.map g) := by
  have hf : xs.map f = (xs.map entry).map fun e => g ⟨e.1, 0, e.2⟩ := by
    rw [List.map_map]
    exact List.map_congr_left fun x _ => hfg x _ rfl
  have hg : ys.map g = (ys.map entry).map fun e => g ⟨e.1, 0, e.2⟩ := by
    rw [List.map_map]
    exact List.map_congr_left fun y _ => (hfg y y rfl).symm.trans (hfg y _ rfl)
  rw [hf, hg]
  exact h.map _

/-- So do functions that leave items out. -/
theorem Located.perm_filterMap {xs ys : List (Located α)} {f g : Located α → Option β}
    (h : (xs.map entry).Perm (ys.map entry)) (hfg : ∀ x y, x.entry = y.entry → f x = g y) :
    (xs.filterMap f).Perm (ys.filterMap g) := by
  have hmap := (perm_map h hfg).filterMap id
  rwa [List.filterMap_map, List.filterMap_map] at hmap

/-- So do functions that give several items. -/
theorem Located.perm_flatMap {xs ys : List (Located α)} {f g : Located α → List β}
    (h : (xs.map entry).Perm (ys.map entry)) (hfg : ∀ x y, x.entry = y.entry → f x = g y) :
    (xs.flatMap f).Perm (ys.flatMap g) := by
  rw [List.flatMap_def, List.flatMap_def]
  exact (perm_map h hfg).flatten

/-- All that records define is gathered, whatever their order. -/
theorem DistinctIds.map_entry_gathered {records : List Record} (h : DistinctIds records)
    (pick : HeapRecord → Option α) :
    (gathered pick records).map Located.entry
      = records.filterMap fun r => (r.heapRecord?.bind pick).map (·, r.offset) := by
  induction records using List.reverseRecOn with
  | nil => rfl
  | append_singleton records r ih =>
    rw [gathered_concat, List.map_append, ih h.of_concat, h.novel?_eq, List.filterMap_append,
      List.filterMap_cons]
    cases r.heapRecord?.bind pick <;> rfl

theorem DistinctIds.perm_gathered {records records' : List Record} (h : DistinctIds records)
    (hperm : records.Perm records') (pick : HeapRecord → Option α) :
    ((gathered pick records).map Located.entry).Perm
      ((gathered pick records').map Located.entry) := by
  rw [h.map_entry_gathered, (h.of_perm hperm).map_entry_gathered]
  exact hperm.filterMap _

namespace Draft

/-! ### Runs -/

/-- What there is besides objects comes from the records that define nothing. -/
theorem backdrop_foldl_push (header : Header) (log : Diagnostics) {records : List Record}
    (h : DistinctIds records) :
    (records.foldl push { header, diagnostics := log }).backdrop
      = ((records.filter (·.definedId? = none)).foldl push
          { header, diagnostics := log }).backdrop := by
  -- induction from the end: the draft before the last record decides what that record does
  induction records using List.reverseRecOn with
  | nil => rfl
  | append_singleton records r ih =>
    have ih := ih h.of_concat
    rw [List.foldl_append, List.filter_append, List.foldl_append]
    cases hr : r.definedId? with
    | none =>
      simp only [List.filter_cons, hr, decide_true, if_pos, List.filter_nil]
      exact backdrop_push_congr ih hr
    | some id =>
      -- the definition is taken in, and shows among the objects only
      obtain ⟨record, hrecord, hid⟩ := Option.bind_eq_some_iff.mp hr
      have htaken := (holds_foldl_push header log records).taken?_eq r
      rw [h.novel?_eq, hrecord] at htaken
      simp only [List.filter_cons, hr, reduceCtorEq, decide_false, if_false, List.filter_nil,
        List.foldl_nil, List.foldl_cons]
      rw [push_of_taken? _ htaken, backdrop_take _ hid, ih]

/-- Two drafts with the same objects, by identifier and in some order, that agree in all
else; objects may be in different heaps. -/
structure Reordered (d d' : Draft) : Prop where
  backdrop : d.backdrop = d'.backdrop
  classes : (d.classes.toList.map Located.entry).Perm (d'.classes.toList.map Located.entry)
  instances : (d.instances.toList.map Located.entry).Perm (d'.instances.toList.map Located.entry)
  indexes : Indexes d.objects (d.classes.toList.map (·.value.classId))
    (d.instances.toList.map (·.value.objectId))
  indexes' : Indexes d'.objects (d'.classes.toList.map (·.value.classId))
    (d'.instances.toList.map (·.value.objectId))

namespace Reordered

variable {d d' : Draft} (h : d.Reordered d')

include h

theorem strings_eq : d.strings = d'.strings := congrArg Backdrop.strings h.backdrop

theorem loads_eq : d.loads = d'.loads := congrArg Backdrop.loads h.backdrop

theorem header_eq : d.header = d'.header := congrArg Backdrop.header h.backdrop

theorem roots_eq : d.roots = d'.roots := congrArg Backdrop.roots h.backdrop

theorem diagnostics_eq : d.diagnostics = d'.diagnostics :=
  congrArg Backdrop.diagnostics h.backdrop

/-- Names do not depend on the order of definitions. -/
theorem className?_eq (id : ObjectId) : d.className? id = d'.className? id := by
  rw [className?, className?, h.loads_eq, h.strings_eq]

/-- What is found missing while names are put in is the same, up to order. -/
theorem perm_namingNotes : d.namingNotes.Perm d'.namingNotes := by
  -- only the notes on classes follow the order of definitions; the others are equal
  have hheaps : d.unnamedHeaps = d'.unnamedHeaps := by
    have hnames : d.heapNames = d'.heapNames := congrArg Backdrop.heapNames h.backdrop
    rw [unnamedHeaps_eq, unnamedHeaps_eq, hnames, h.strings_eq]
  have hclasses : d.unnamedClasses.Perm d'.unnamedClasses := by
    rw [unnamedClasses, unnamedClasses]
    refine Located.perm_filterMap h.classes fun c c' hc => ?_
    obtain ⟨hvalue, hoffset⟩ := Located.entry_eq_iff.mp hc
    simp only [hvalue, hoffset, h.className?_eq]
  have htraces : d.missingTraces = d'.missingTraces := by
    have hthreads : d.threads = d'.threads := congrArg Backdrop.threads h.backdrop
    have hknown : d.traces = d'.traces := congrArg Backdrop.traces h.backdrop
    rw [missingTraces, missingTraces, h.roots_eq, hthreads, hknown]
  have hdump : d.missingHeapDump = d'.missingHeapDump := by
    have hbegun : d.heapDumps = d'.heapDumps := congrArg Backdrop.heapDumps h.backdrop
    rw [missingHeapDump, missingHeapDump, hbegun]
  rw [namingNotes, namingNotes, hheaps, htraces, hdump]
  exact ((hclasses.append_left _).append_right _).append_right _

end Reordered

/-- **Drafts do not depend on the order of definitions**, but for the order of their objects
and the heaps that these belong to. -/
theorem reordered_foldl_push (header : Header) (log : Diagnostics)
    {records records' : List Record} (hperm : records.Perm records')
    (hothers : records.filter (·.definedId? = none) = records'.filter (·.definedId? = none))
    (hids : DistinctIds records) :
    Reordered (records.foldl push { header, diagnostics := log })
      (records'.foldl push { header, diagnostics := log }) := by
  have hids' := hids.of_perm hperm
  have hdraft := holds_foldl_push header log records
  have hdraft' := holds_foldl_push header log records'
  exact {
    backdrop := by
      rw [backdrop_foldl_push header log hids, backdrop_foldl_push header log hids', hothers]
    classes := by
      rw [hdraft.classes, hdraft'.classes]
      exact hids.perm_gathered hperm HeapRecord.classDump?
    instances := by
      rw [hdraft.instances, hdraft'.instances]
      exact hids.perm_gathered hperm HeapRecord.objectDump?
    indexes := hdraft.indexes
    indexes' := hdraft'.indexes }

end Draft

end HeapDump
