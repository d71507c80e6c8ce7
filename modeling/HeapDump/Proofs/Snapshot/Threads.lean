/-
HeapDump/Proofs/Snapshot/Threads.lean

The threads of a finished snapshot.

A thread is there if it has been started or a root is its object, and it is what records
have told of it last (`Thread.LastTold`): which object it is and its stack trace by
records of either kind, its names by starts alone.  The names are those of the final string
table, wherever in the dump their strings stand.

Finishing makes a thread of each entry of the draft's table and adds none, so what remains
is to say what that table holds, which is `Draft.getElem?_threads_foldl_push`.  Main
statement: `threads_last_told`.
-/
import HeapDump.Proofs.Draft.Threads
import HeapDump.Proofs.Snapshot.Reordering

namespace HeapDump

/-- A thread is what records have told of it last.  A record that names no stack trace leaves the
one named before in place, which is 0 at first; a thread that has not been started has no names,
and a name is missing if it is the identifier of no string. -/
structure Thread.LastTold (records : List Record) (t : Thread) : Prop where
  id_eq : lastSaid (Record.threadId? t.serial) records = some t.id
  stackSerial_eq : t.stackSerial = lastTrace records t.serial
  name_eq : t.name = (lastSaid (Record.threadStart? t.serial) records).bind
    fun start => lastString records start.nameId
  groupName_eq : t.groupName = (lastSaid (Record.threadStart? t.serial) records).bind
    fun start => lastString records start.groupNameId
  parentGroupName_eq : t.parentGroupName = (lastSaid (Record.threadStart? t.serial) records).bind
    fun start => lastString records start.parentGroupNameId

/-- Some record tells of a thread. -/
theorem exists_threadId?_iff {records : List Record} {serial : UInt32} :
    lastSaid (Record.threadId? serial) records ≠ none
      ↔ ∃ r ∈ records, (∃ start, r.body = .startThread start ∧ start.serial = serial)
        ∨ ∃ root, r.body = .heap (.root root) ∧ root.kind = .threadObject
          ∧ root.threadSerial = some serial := by
  rw [Ne, lastSaid_eq_none_iff]
  push Not
  refine exists_congr fun r => and_congr_right fun _ => ?_
  rw [Ne, Record.threadId?_eq_none_iff, not_and_or, ← Ne, ← Ne, Option.ne_none_iff_exists',
    Option.ne_none_iff_exists']
  simp only [Record.threadStart?_eq_some_iff, Record.threadRoot?_eq_some_iff]

namespace Draft

/-- A thread of the snapshot is one of the draft. -/
theorem getElem?_threads_finish (d : Draft) (resolveFields : Bool) (serial : UInt32) :
    (d.finish resolveFields).threads[serial]? = d.threads[serial]?.map (d.thread serial) :=
  Std.ExtTreeMap.getElem?_map

/-- A thread that is known from the last records has the names that they give it. -/
theorem Tabled.lastTold_thread {d : Draft} {records : List Record} (h : d.Tabled records)
    {serial : UInt32} {known : ThreadDraft} (hknown : threadKnown records serial = some known) :
    (d.thread serial known).LastTold records := by
  obtain ⟨id, hid, rfl⟩ := Option.map_eq_some_iff.mp hknown
  exact {
    id_eq := hid
    stackSerial_eq := rfl
    name_eq := Option.bind_congr fun start _ => h.strings start.nameId
    groupName_eq := Option.bind_congr fun start _ => h.strings start.groupNameId
    parentGroupName_eq := Option.bind_congr fun start _ => h.strings start.parentGroupNameId }

end Draft

/-- **Threads are what records have told of them last.**  A thread is in the snapshot if some
record starts it or some root is its object, and whatever stands before, between or behind such
records, its object and its stack trace are those told last by a record of either kind, and its
names those of the last start alone. -/
theorem threads_last_told (header : Header) (log : Diagnostics) (records : List Record)
    (resolveFields : Bool) :
    let s := (records.foldl Draft.push { header, diagnostics := log }).finish resolveFields
    (∀ serial : UInt32, serial ∈ s.threads
      ↔ ∃ r ∈ records, (∃ start, r.body = .startThread start ∧ start.serial = serial)
        ∨ ∃ root, r.body = .heap (.root root) ∧ root.kind = .threadObject
          ∧ root.threadSerial = some serial)
    ∧ ∀ (serial : UInt32) (t : Thread), s.threads[serial]? = some t →
      t.serial = serial ∧ t.LastTold records := by
  intro s
  let d := records.foldl Draft.push { header, diagnostics := log }
  have htabled : d.Tabled records := Draft.tabled_foldl_push header log records
  have hthreads (serial : UInt32) :
      s.threads[serial]? = (threadKnown records serial).map (d.thread serial) := by
    rw [d.getElem?_threads_finish, Draft.getElem?_threads_foldl_push]
  refine ⟨fun serial => ?_, fun serial t ht => ?_⟩
  · rw [← exists_threadId?_iff, Std.ExtTreeMap.mem_iff_isSome_getElem?, hthreads, Option.isSome_map,
      threadKnown, Option.isSome_map, Option.isSome_iff_ne_none]
  · rw [hthreads] at ht
    obtain ⟨known, hknown, rfl⟩ := Option.map_eq_some_iff.mp ht
    exact ⟨rfl, htabled.lastTold_thread hknown⟩

/-- A thread told of by two starts and two roots, the last of which names no stack trace, with its
strings behind them. -/
def sampleThread : List Record :=
  [⟨31, some 0, .startThread ⟨5, 32, 7, 3, 3, 3⟩⟩,
    ⟨64, none, .heap (.root ⟨.threadObject, 48, some 5, none, some 9, none⟩)⟩,
    ⟨77, some 0, .startThread ⟨5, 32, 8, 1, 2, 4⟩⟩,
    ⟨110, none, .heap (.root ⟨.threadObject, 33, some 5, none, none, none⟩)⟩,
    ⟨123, some 0, .string 1 "thread"⟩, ⟨142, some 0, .string 2 "system"⟩,
    ⟨161, some 0, .string 1 "main"⟩]

theorem threads_last_told_sampleThread :
    let s := sampleSnapshot sampleThread
    (5 : UInt32) ∈ s.threads ∧ (6 : UInt32) ∉ s.threads
      ∧ ∃ t, s.threads[(5 : UInt32)]? = some t ∧ t.LastTold sampleThread
        ∧ t = ⟨5, 33, 8, some "main", some "system", none⟩ := by
  intro s
  obtain ⟨hmem, htold⟩ := threads_last_told ⟨"JAVA PROFILE 1.0.2", 4, 1700000000000, 31⟩ {}
    sampleThread true
  have hthread : s.threads[(5 : UInt32)]? = some ⟨5, 33, 8, some "main", some "system", none⟩ := by
    decide +kernel
  refine ⟨(hmem 5).mpr ⟨_, .head _, .inl ⟨_, rfl, rfl⟩⟩, ?_, _, hthread, (htold 5 _ hthread).2, rfl⟩
  decide +kernel

end HeapDump
