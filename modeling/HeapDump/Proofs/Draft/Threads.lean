/-
HeapDump/Proofs/Draft/Threads.lean

What a draft knows of threads, told without a draft.

Records of two kinds tell of a thread: those of its start, and roots that are its
object.  Both say which object it is.  A start always names a stack trace and a root
only if it carries one, and only a start names the thread.  So what is known of a
thread is what was said last of each of the three (`threadKnown`), whatever stands
between.

A record of either kind adds to it, and all others leave it alone: that is one lemma
for each of the three cases (`getElem?_threads_push_of_start`,
`getElem?_threads_push_of_root`, `getElem?_threads_push_of_none`), and the induction
over the records follows them (`Draft.getElem?_threads_foldl_push`).  A start replaces
all that was known, and a root keeps the start that it finds and, if it carries none,
the trace; that is why the three have to be told apart.
-/
import HeapDump.Proofs.Draft.Tables

namespace HeapDump

/-! ### What a record tells of a thread -/

namespace Record

/-- The start of the thread with a serial number. -/
def threadStart? (serial : UInt32) (r : Record) : Option ThreadStart :=
  match r.body with
  | .startThread start => if start.serial = serial then some start else none
  | _ => none

/-- The root that is the object of the thread with a serial number. -/
def threadRoot? (serial : UInt32) (r : Record) : Option RootRecord :=
  match r.body with
  | .heap (.root root) =>
    if root.kind = .threadObject ∧ root.threadSerial = some serial then some root else none
  | _ => none

/-- The object that a record says a thread is. -/
def threadId? (serial : UInt32) (r : Record) : Option ObjectId :=
  ((r.threadStart? serial).map (·.threadId)).or ((r.threadRoot? serial).map (·.objectId))

/-- The stack trace that a record names for a thread. -/
def threadTrace? (serial : UInt32) (r : Record) : Option UInt32 :=
  ((r.threadStart? serial).map (·.stackSerial)).or ((r.threadRoot? serial).bind (·.stackSerial))

variable {r : Record} {serial : UInt32}

theorem threadStart?_eq_some_iff {start : ThreadStart} :
    r.threadStart? serial = some start ↔ r.body = .startThread start ∧ start.serial = serial := by
  rw [threadStart?]
  split
  · next start' hbody =>
    rw [hbody, Option.ite_none_right_eq_some, Option.some_inj, Body.startThread.injEq]
    exact ⟨fun ⟨hserial, heq⟩ => ⟨heq, heq ▸ hserial⟩, fun ⟨heq, hserial⟩ => ⟨heq ▸ hserial, heq⟩⟩
  · next hbody => exact ⟨nofun, fun h => absurd h.1 (hbody start)⟩

theorem threadRoot?_eq_some_iff {root : RootRecord} :
    r.threadRoot? serial = some root ↔ r.body = .heap (.root root)
      ∧ root.kind = .threadObject ∧ root.threadSerial = some serial := by
  rw [threadRoot?]
  split
  · next root' hbody =>
    rw [hbody, Option.ite_none_right_eq_some, Option.some_inj, Body.heap.injEq,
      HeapRecord.root.injEq]
    exact ⟨fun ⟨hthread, heq⟩ => ⟨heq, heq ▸ hthread⟩, fun ⟨heq, hthread⟩ => ⟨heq ▸ hthread, heq⟩⟩
  · next hbody => exact ⟨nofun, fun h => absurd h.1 (hbody root)⟩

/-- A record that says nothing of the object of a thread says nothing of the thread at all. -/
theorem threadId?_eq_none_iff : r.threadId? serial = none
    ↔ r.threadStart? serial = none ∧ r.threadRoot? serial = none := by
  simp [threadId?]

end Record

/-! ### One record more -/

namespace Draft

section

variable (d : Draft) {r : Record} {serial : UInt32}

/-- A start replaces what was known of its thread. -/
theorem getElem?_threads_push_of_start {start : ThreadStart}
    (h : r.threadStart? serial = some start) :
    (d.push r).threads[serial]? = some ⟨start.threadId, start.stackSerial, some start⟩ := by
  obtain ⟨hbody, rfl⟩ := Record.threadStart?_eq_some_iff.mp h
  rw [push, hbody]
  exact Std.ExtTreeMap.getElem?_insert_self

/-- A root says which object its thread is; it may name a stack trace, and keeps the start. -/
theorem getElem?_threads_push_of_root {root : RootRecord} (h : r.threadRoot? serial = some root) :
    (d.push r).threads[serial]? = some
      { id := root.objectId
        stackSerial := root.stackSerial.getD ((d.threads[serial]?.map (·.stackSerial)).getD 0)
        start := d.threads[serial]?.bind (·.start) } := by
  obtain ⟨hbody, hkind, hserial⟩ := Record.threadRoot?_eq_some_iff.mp h
  have hpush : (d.push r).threads = (d.noteThread root).threads := by
    rw [push, hbody]
    rfl
  rw [hpush, noteThread, hkind, hserial]
  dsimp only
  rw [Std.ExtTreeMap.getElem?_alter_self]
  cases d.threads[serial]? <;> rfl

/-- A root that is the object of another thread, or of none, leaves a thread as it was. -/
theorem getElem?_threads_noteThread {root : RootRecord}
    (h : ¬(root.kind = .threadObject ∧ root.threadSerial = some serial)) :
    (d.noteThread root).threads[serial]? = d.threads[serial]? := by
  rw [noteThread]
  split
  · next serial' hkind hserial =>
    have hne : serial' ≠ serial := fun heq => h ⟨hkind, heq ▸ hserial⟩
    simp [Std.ExtTreeMap.getElem?_alter, hne]
  · rfl

/-- A record that says nothing of a thread leaves it as it was. -/
theorem getElem?_threads_push_of_none (h : r.threadId? serial = none) :
    (d.push r).threads[serial]? = d.threads[serial]? := by
  obtain ⟨hstart, hroot⟩ := Record.threadId?_eq_none_iff.mp h
  obtain ⟨offset, time, body⟩ := r
  cases body with
  | startThread start =>
    have hne : start.serial ≠ serial := by simpa [Record.threadStart?] using hstart
    simp [push, Std.ExtTreeMap.getElem?_insert, hne]
  | skipped tag length =>
    rw [push]
    dsimp only
    cases Tag.ofCode? tag <;> rfl
  | heap record =>
    show (d.pushHeapRecord record offset).threads[serial]? = _
    rcases d.pushHeapRecord_cases record offset with htake | ⟨id, hreport⟩
    · rw [htake]
      cases record with
      | root root =>
        refine d.getElem?_threads_noteThread fun hthread => ?_
        simp [Record.threadRoot?, hthread] at hroot
      | _ => rfl
    · rw [hreport]
      rfl
  | _ => rfl

end

end Draft

/-! ### All records -/

/-- The stack trace that records have named last for a thread, 0 if none has named one. -/
def lastTrace (records : List Record) (serial : UInt32) : UInt32 :=
  (lastSaid (Record.threadTrace? serial) records).getD 0

/-- What is known of a thread from what records have told of it last. -/
def threadKnown (records : List Record) (serial : UInt32) : Option ThreadDraft :=
  (lastSaid (Record.threadId? serial) records).map fun id =>
    { id, stackSerial := lastTrace records serial
      start := lastSaid (Record.threadStart? serial) records }

section

variable {records : List Record} {serial : UInt32}

/-- Nothing has been said last if something else would have been said with it. -/
theorem lastSaid_eq_none_of_imp {say? : Record → Option α} {say'? : Record → Option β}
    (himp : ∀ r, say? r = none → say'? r = none) (h : lastSaid say? records = none) :
    lastSaid say'? records = none :=
  lastSaid_eq_none_iff .. |>.mpr fun r hr => himp r ((lastSaid_eq_none_iff ..).mp h r hr)

/-- The stack trace of a thread, known or not. -/
theorem getD_stackSerial_threadKnown :
    ((threadKnown records serial).map (·.stackSerial)).getD 0 = lastTrace records serial := by
  rw [threadKnown]
  cases h : lastSaid (Record.threadId? serial) records with
  | some id => rfl
  | none =>
    rw [lastTrace, lastSaid_eq_none_of_imp (fun r hr => ?_) h]
    · rfl
    · obtain ⟨hstart, hroot⟩ := Record.threadId?_eq_none_iff.mp hr
      rw [Record.threadTrace?, hstart, hroot]
      rfl

/-- The start of a thread, known or not. -/
theorem bind_start_threadKnown : (threadKnown records serial).bind (·.start)
    = lastSaid (Record.threadStart? serial) records := by
  rw [threadKnown]
  cases h : lastSaid (Record.threadId? serial) records with
  | some id => rfl
  | none =>
    exact (lastSaid_eq_none_of_imp (fun r hr => (Record.threadId?_eq_none_iff.mp hr).1) h).symm

end

/-- **What a draft knows of threads after some records.** -/
theorem Draft.getElem?_threads_foldl_push (header : Header) (log : Diagnostics)
    (records : List Record) (serial : UInt32) :
    (records.foldl push { header, diagnostics := log }).threads[serial]?
      = threadKnown records serial := by
  induction records using List.reverseRecOn with
  | nil => rfl
  | append_singleton records r ih =>
    rw [List.foldl_append, List.foldl_cons, List.foldl_nil]
    cases hstart : r.threadStart? serial with
    | some start =>
      rw [getElem?_threads_push_of_start _ hstart]
      simp [threadKnown, lastTrace, lastSaid_concat, Record.threadId?, Record.threadTrace?, hstart]
    | none =>
      cases hroot : r.threadRoot? serial with
      | some root =>
        rw [getElem?_threads_push_of_root _ hroot, ih, getD_stackSerial_threadKnown,
          bind_start_threadKnown]
        cases htrace : root.stackSerial <;>
          simp [threadKnown, lastTrace, lastSaid_concat, Record.threadId?, Record.threadTrace?,
            hstart, hroot, htrace]
      | none =>
        rw [getElem?_threads_push_of_none _ (Record.threadId?_eq_none_iff.mpr ⟨hstart, hroot⟩), ih]
        simp [threadKnown, lastTrace, lastSaid_concat, Record.threadId?, Record.threadTrace?,
          hstart, hroot]

end HeapDump
