/-
HeapDump/Proofs/Draft/Tables.lean

What the tables of a draft hold, told without a draft.

Each table keeps what records have said last under a key.  For a function `say?` that
picks from a record what it says, if anything,

    lastSaid say? records

is the last thing that is said, and `lastSaid_concat` is its recursion from the end.  A
record that says something replaces what was there, and all others leave it alone; so any
part of a draft that grows like this is known (`Draft.eq_lastSaid`), and the tables of
strings, loadings, frames and traces and the name of each heap are five instances.

A sub-record of a heap dump has no part in the tables, whatever becomes of it, so whether
it counts need not be known here.
-/
import HeapDump.Proofs.Draft.Heaps
import HeapDump.Proofs.Draft.Interleaving

namespace HeapDump

/-! ### What a record says under a key -/

namespace Record

/-- The string with an identifier. -/
def string? (id : ObjectId) (r : Record) : Option String :=
  match r.body with
  | .string id' value => if id' = id then some value else none
  | _ => none

/-- The loading of the class with an identifier. -/
def classLoad? (id : ObjectId) (r : Record) : Option ClassLoad :=
  match r.body with
  | .loadClass serial classId _ nameId => if classId = id then some ⟨serial, nameId⟩ else none
  | _ => none

/-- The frame with an identifier. -/
def stackFrame? (id : ObjectId) (r : Record) : Option StackFrameRecord :=
  match r.body with
  | .stackFrame frame => if frame.frameId = id then some frame else none
  | _ => none

/-- The stack trace with a serial number. -/
def stackTrace? (serial : UInt32) (r : Record) : Option StackTrace :=
  match r.body with
  | .stackTrace trace => if trace.serial = serial then some trace else none
  | _ => none

/-- The identifier of the name of a heap. -/
def heapNameId? (heapId : UInt32) (r : Record) : Option ObjectId :=
  match r.body with
  | .heap (.heapInfo heapId' nameId) => if heapId' = heapId then some nameId else none
  | _ => none

end Record

/-! ### The last word -/

/-- What records say last, if `say?` is what each of them says. -/
def lastSaid (say? : Record → Option α) (records : List Record) : Option α :=
  (records.filterMap say?).getLast?

/-- The string that records have defined last with an identifier. -/
def lastString (records : List Record) (id : ObjectId) : Option String :=
  lastSaid (Record.string? id) records

section

variable (say? : Record → Option α) (records : List Record)

@[simp] theorem lastSaid_nil : lastSaid say? [] = none := rfl

theorem lastSaid_concat (r : Record) :
    lastSaid say? (records ++ [r]) = (say? r).or (lastSaid say? records) := by
  rw [lastSaid, List.filterMap_append, List.getLast?_append, lastSaid]
  cases hr : say? r <;> simp [hr]

/-- Nothing has been said last if no record says anything. -/
theorem lastSaid_eq_none_iff : lastSaid say? records = none ↔ ∀ r ∈ records, say? r = none := by
  rw [lastSaid, List.getLast?_eq_none_iff, List.filterMap_eq_nil_iff]

/-- What is said last is said by some record. -/
theorem exists_of_lastSaid {say? : Record → Option α} {records : List Record} {x : α}
    (h : lastSaid say? records = some x) : ∃ r ∈ records, say? r = some x :=
  List.mem_filterMap.mp (List.mem_of_getLast? h)

end

namespace Draft

/-- A part of a draft that each record replaces by what it says, if anything, is what has been
said last. -/
theorem eq_lastSaid (part : Draft → Option α) {say? : Record → Option α}
    (hstep : ∀ d r, part (push d r) = (say? r).or (part d)) (d : Draft) (records : List Record) :
    part (records.foldl push d) = (lastSaid say? records).or (part d) := by
  induction records using List.reverseRecOn with
  | nil => rfl
  | append_singleton records r ih =>
    rw [List.foldl_append, List.foldl_cons, List.foldl_nil, hstep, ih, lastSaid_concat,
      Option.or_assoc]

/-! ### One record more -/

/-- A table with an entry more, which replaces the one of its key. -/
theorem getElem?_insert_or [DecidableEq κ] {cmp : κ → κ → Ordering} [Std.TransCmp cmp]
    [Std.LawfulEqCmp cmp] (t : Std.ExtTreeMap κ α cmp) (k key : κ) (v : α) :
    (t.insert k v)[key]? = (if k = key then some v else none).or t[key]? := by
  rw [Std.ExtTreeMap.getElem?_insert]
  by_cases hkey : k = key <;> simp [hkey]

section

variable (d : Draft) (r : Record)

/-- What is skipped leaves all tables alone. -/
theorem tables_push_skipped (offset : Nat) (time : Option UInt32) (tag : UInt8) (length : Nat) :
    (d.push ⟨offset, time, .skipped tag length⟩).tables = d.tables := by
  rw [push]
  dsimp only
  cases Tag.ofCode? tag <;> rfl

theorem getElem?_strings_push (id : ObjectId) :
    (d.push r).strings[id]? = (r.string? id).or d.strings[id]? := by
  obtain ⟨offset, time, body⟩ := r
  cases body with
  | string id' value => exact getElem?_insert_or d.strings id' id value
  | heap record => exact congrArg (·.strings[id]?) (d.tables_pushHeapRecord record offset)
  | skipped tag length => exact congrArg (·.strings[id]?) (d.tables_push_skipped _ time _ _)
  | _ => rfl

theorem getElem?_loads_push (id : ObjectId) :
    (d.push r).loads[id]? = (r.classLoad? id).or d.loads[id]? := by
  obtain ⟨offset, time, body⟩ := r
  cases body with
  | loadClass serial classId stackSerial nameId => exact getElem?_insert_or d.loads classId id _
  | heap record => exact congrArg (·.loads[id]?) (d.tables_pushHeapRecord record offset)
  | skipped tag length => exact congrArg (·.loads[id]?) (d.tables_push_skipped _ time _ _)
  | _ => rfl

theorem getElem?_frames_push (id : ObjectId) :
    (d.push r).frames[id]? = (r.stackFrame? id).or d.frames[id]? := by
  obtain ⟨offset, time, body⟩ := r
  cases body with
  | stackFrame frame => exact getElem?_insert_or d.frames frame.frameId id frame
  | heap record => exact congrArg (·.frames[id]?) (d.tables_pushHeapRecord record offset)
  | skipped tag length => exact congrArg (·.frames[id]?) (d.tables_push_skipped _ time _ _)
  | _ => rfl

theorem getElem?_traces_push (serial : UInt32) :
    (d.push r).traces[serial]? = (r.stackTrace? serial).or d.traces[serial]? := by
  obtain ⟨offset, time, body⟩ := r
  cases body with
  | stackTrace trace => exact getElem?_insert_or d.traces trace.serial serial trace
  | heap record => exact congrArg (·.traces[serial]?) (d.tables_pushHeapRecord record offset)
  | skipped tag length => exact congrArg (·.traces[serial]?) (d.tables_push_skipped _ time _ _)
  | _ => rfl

/-- What belongs to a heap does not name it. -/
theorem nameId_entry_pushHeapRecord {record : HeapRecord} (h : record.heapId? = none)
    (offset : Nat) (k : UInt32) :
    ((d.pushHeapRecord record offset).entry k).nameId = (d.entry k).nameId := by
  rcases d.pushHeapRecord_cases record offset with htake | ⟨id, hreport⟩
  · rw [htake, entry_take]
    split
    · cases record with
      | heapInfo heapId nameId => cases h
      | _ => rfl
    · rfl
  · rw [hreport]
    rfl

theorem nameId_entry_push (k : UInt32) :
    ((d.push r).entry k).nameId = (r.heapNameId? k).or (d.entry k).nameId := by
  obtain ⟨offset, time, body⟩ := r
  cases body with
  | heap record =>
    cases record with
    | heapInfo heapId nameId =>
      show ((d.enterHeap heapId nameId).entry k).nameId = _
      rw [enterHeap, entry_inHeap]
      by_cases hk : heapId = k <;> simp [hk, Record.heapNameId?, entry]
    | _ => exact d.nameId_entry_pushHeapRecord rfl offset k
  | _ => exact congrArg HeapDraft.nameId ((d.untouched_push_of_heapRecord? rfl).entry k)

end

/-! ### All records -/

/-- The tables of a draft hold what records have said last. -/
structure Tabled (d : Draft) (records : List Record) : Prop where
  strings : ∀ id, d.strings[id]? = lastString records id
  loads : ∀ id, d.loads[id]? = lastSaid (Record.classLoad? id) records
  frames : ∀ id, d.frames[id]? = lastSaid (Record.stackFrame? id) records
  traces : ∀ serial, d.traces[serial]? = lastSaid (Record.stackTrace? serial) records
  heapNameIds : ∀ k, (d.entry k).nameId = lastSaid (Record.heapNameId? k) records

/-- **What the tables hold after some records.** -/
theorem tabled_foldl_push (header : Header) (log : Diagnostics) (records : List Record) :
    (records.foldl push { header, diagnostics := log }).Tabled records where
  strings id := by
    rw [eq_lastSaid (·.strings[id]?) (getElem?_strings_push · · id), lastString]
    simp
  loads id := by
    rw [eq_lastSaid (·.loads[id]?) (getElem?_loads_push · · id)]
    simp
  frames id := by
    rw [eq_lastSaid (·.frames[id]?) (getElem?_frames_push · · id)]
    simp
  traces serial := by
    rw [eq_lastSaid (·.traces[serial]?) (getElem?_traces_push · · serial)]
    simp
  heapNameIds k := by
    rw [eq_lastSaid (fun d => (d.entry k).nameId) (nameId_entry_push · · k)]
    simp [entry]

end Draft

end HeapDump
