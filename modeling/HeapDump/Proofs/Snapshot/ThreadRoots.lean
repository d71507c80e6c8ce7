/-
HeapDump/Proofs/Snapshot/ThreadRoots.lean

Which roots of threads are reported for a missing stack trace.

A root that is the object of a thread names a stack trace, but it is judged by the one
named last for its thread (`Judged.byThread?`), and not by its own (`Judged.byItself?`).

The two agree if all records name one stack trace for a thread (`TracesAgree`).  When a
later record names another, a root whose own stack trace is missing may go unreported, and
one whose own is there may be reported.  Precisely, the roots that are reported are those
that should be just if for every root its own stack trace is missing exactly when the last
one of its thread is.

Well-formed dumps always carry the two numbers of such a root
(`RootRecord.WellFormed.carriesSerials`).  Main statement: `threadRoots_judged_by_thread`;
`threadRoots_wrong_sampleSharedThread` is a dump with a root that goes unreported.
-/
import HeapDump.Proofs.Draft.Threads
import HeapDump.Proofs.Record.WellFormed
import HeapDump.Proofs.Snapshot.Log
import HeapDump.Proofs.Snapshot.Reordering

namespace HeapDump

/-! ### Roots of threads -/

namespace RootRecord

/-- The thread whose object a root is. -/
def thread? (root : RootRecord) : Option UInt32 :=
  if root.kind = .threadObject then root.threadSerial else none

theorem thread?_eq_some_iff {root : RootRecord} {serial : UInt32} :
    root.thread? = some serial ↔ root.kind = .threadObject ∧ root.threadSerial = some serial :=
  Option.ite_none_right_eq_some

/-- A root that is the object of a thread carries the serial numbers of the thread and of a stack
trace. -/
def CarriesSerials (root : RootRecord) : Prop :=
  root.kind = .threadObject → root.threadSerial.isSome ∧ root.stackSerial.isSome

instance (root : RootRecord) : Decidable root.CarriesSerials :=
  inferInstanceAs (Decidable (_ → _))

theorem CarriesSerials.exists_trace {root : RootRecord} (h : root.CarriesSerials)
    {serial : UInt32} (hthread : root.thread? = some serial) :
    ∃ trace, root.stackSerial = some trace :=
  Option.isSome_iff_exists.mp (h (thread?_eq_some_iff.mp hthread).1).2

/-- A root that tells what its kind tells carries both, as any that is read. -/
theorem WellFormed.carriesSerials {idSize : Nat} {root : RootRecord} (h : root.WellFormed idSize) :
    root.CarriesSerials := fun hkind => by
  rw [h.hasThread, h.hasStack, hkind]
  decide

end RootRecord

section

variable {records : List Record} {r : Located RootRecord}

/-- A root has been said by a record. -/
theorem exists_record_of_mem_rootsOf (hr : r ∈ rootsOf records) :
    ∃ record ∈ records, record.body = .heap (.root r.value) := by
  obtain ⟨record, hmem, heapRecord, hbody, hpick⟩ := exists_of_mem_gathered hr
  refine ⟨record, hmem, ?_⟩
  cases heapRecord with
  | root root => rw [hbody, Option.some.inj hpick]
  | _ => cases hpick

/-- The roots of well-formed records carry their serial numbers. -/
theorem carriesSerials_of_mem_rootsOf {idSize : Nat}
    (hwf : ∀ r ∈ records, ∀ record, r.body = .heap record → record.WellFormed idSize)
    (hr : r ∈ rootsOf records) : r.value.CarriesSerials := by
  obtain ⟨record, hmem, hbody⟩ := exists_record_of_mem_rootsOf hr
  have hroot : r.value.WellFormed idSize := hwf record hmem _ hbody
  exact hroot.carriesSerials

/-- A root names the stack trace of its thread by its record. -/
theorem exists_threadTrace?_of_mem_rootsOf (hr : r ∈ rootsOf records) {serial trace : UInt32}
    (hthread : r.value.thread? = some serial) (htrace : r.value.stackSerial = some trace) :
    ∃ record ∈ records, record.threadTrace? serial = some trace := by
  obtain ⟨record, hmem, hbody⟩ := exists_record_of_mem_rootsOf hr
  have hroot : record.threadRoot? serial = some r.value :=
    Record.threadRoot?_eq_some_iff.mpr ⟨hbody, RootRecord.thread?_eq_some_iff.mp hthread⟩
  refine ⟨record, hmem, ?_⟩
  simp [Record.threadTrace?, Record.threadStart?, hbody, hroot, htrace]

end

/-- Records do not name different stack traces for a thread. -/
def TracesAgree (records : List Record) : Prop :=
  ∀ r ∈ records, ∀ r' ∈ records, ∀ serial trace trace',
    r.threadTrace? serial = some trace → r'.threadTrace? serial = some trace' → trace' = trace

/-- If the stack traces agree, any that is named for a thread is the one named last. -/
theorem TracesAgree.lastTrace_eq {records : List Record} (h : TracesAgree records) {r : Record}
    (hr : r ∈ records) {serial trace : UInt32} (htrace : r.threadTrace? serial = some trace) :
    lastTrace records serial = trace := by
  cases hlast : lastSaid (Record.threadTrace? serial) records with
  | none =>
    have hnone := (lastSaid_eq_none_iff ..).mp hlast r hr
    cases hnone.symm.trans htrace
  | some trace' =>
    obtain ⟨r', hr', htrace'⟩ := exists_of_lastSaid hlast
    rw [lastTrace, hlast, Option.getD_some, h r hr r' hr' serial trace trace' htrace htrace']

/-! ### Missing stack traces -/

/-- A serial number names a stack trace, and no record is it.  The number 0 names none. -/
def TraceMissing (records : List Record) (trace : UInt32) : Prop :=
  trace ≠ 0 ∧ ∀ r ∈ records, r.stackTrace? trace = none

instance (records : List Record) (trace : UInt32) : Decidable (TraceMissing records trace) :=
  inferInstanceAs (Decidable (trace ≠ 0 ∧ ∀ r ∈ records, r.stackTrace? trace = none))

/-- The warning about a root of a thread, if a stack trace is missing. -/
def traceWarning? (records : List Record) (r : Located RootRecord) (serial trace : UInt32) :
    Option Diagnostic :=
  if TraceMissing records trace then
    some { cause := .missingStackTrace serial trace, offset := some r.offset
           object := some r.value.objectId }
  else none

namespace Judged

section

variable (records : List Record) (r : Located RootRecord)

/-- The warning about a root, if it is judged by the stack trace named last for its thread. -/
def byThread? : Option Diagnostic :=
  r.value.thread?.bind fun serial => traceWarning? records r serial (lastTrace records serial)

/-- The warning about a root, if it is judged by the stack trace that it names itself. -/
def byItself? : Option Diagnostic :=
  r.value.thread?.bind fun serial => r.value.stackSerial.bind fun trace =>
    traceWarning? records r serial trace

end

variable {records : List Record} {r : Located RootRecord}

theorem isSome_traceWarning? {serial trace : UInt32} :
    (traceWarning? records r serial trace).isSome ↔ TraceMissing records trace := by
  rw [traceWarning?]
  split <;> simp [*]

theorem severity_of_byThread? {diagnostic : Diagnostic}
    (h : byThread? records r = some diagnostic) : diagnostic.severity = .warning := by
  obtain ⟨serial, -, hwarning⟩ := Option.bind_eq_some_iff.mp h
  obtain ⟨-, heq⟩ := Option.ite_none_right_eq_some.mp hwarning
  rw [← Option.some.inj heq]
  rfl

/-- Whether a root is reported is the same for both just if its own stack trace is missing when
the last of its thread is. -/
theorem isSome_byThread?_eq_iff (hcarry : r.value.CarriesSerials) :
    (byThread? records r).isSome = (byItself? records r).isSome
      ↔ ∀ serial trace, r.value.thread? = some serial → r.value.stackSerial = some trace →
        (TraceMissing records (lastTrace records serial) ↔ TraceMissing records trace) := by
  cases hthread : r.value.thread? with
  | none => simp [byThread?, byItself?, hthread]
  | some serial =>
    obtain ⟨trace, htrace⟩ := hcarry.exists_trace hthread
    rw [Bool.eq_iff_iff]
    simp [byThread?, byItself?, hthread, htrace, isSome_traceWarning?]

/-- If the stack traces agree, a root and its thread are judged alike. -/
theorem byThread?_eq_byItself? (hagree : TracesAgree records) (hr : r ∈ rootsOf records)
    (hcarry : r.value.CarriesSerials) : byThread? records r = byItself? records r := by
  refine Option.bind_congr fun serial hthread => ?_
  obtain ⟨trace, htrace⟩ := hcarry.exists_trace hthread
  obtain ⟨record, hrecord, hsaid⟩ := exists_threadTrace?_of_mem_rootsOf hr hthread htrace
  rw [htrace, Option.bind_some, hagree.lastTrace_eq hrecord hsaid]

end Judged

/-! ### What a draft finds missing -/

namespace Draft

/-- The stack traces that a draft lacks are those that no record is. -/
theorem Tabled.traceMissing_iff {d : Draft} {records : List Record} (h : d.Tabled records)
    (trace : UInt32) : TraceMissing records trace ↔ ¬(trace = 0 ∨ d.traces.contains trace) := by
  rw [TraceMissing, ← lastSaid_eq_none_iff, ← h.traces, Std.ExtTreeMap.contains_eq_isSome_getElem?,
    not_or, Bool.not_eq_true, Option.isSome_eq_false_iff, Option.isNone_iff_eq_none]

/-- The roots of threads are judged by what the records name last. -/
theorem missingTraces_foldl_push (header : Header) (log : Diagnostics) (records : List Record) :
    (records.foldl push { header, diagnostics := log }).missingTraces
      = (rootsOf records).filterMap (Judged.byThread? records) := by
  let d := records.foldl push { header, diagnostics := log }
  have htabled : d.Tabled records := tabled_foldl_push header log records
  show d.missingTraces = _
  rw [missingTraces, (holds_foldl_push header log records).roots]
  refine List.filterMap_congr fun r _ => ?_
  cases hthread : r.value.thread? with
  | none =>
    rw [Judged.byThread?, hthread]
    split
    · next serial hkind hserial =>
      have hsome := RootRecord.thread?_eq_some_iff.mpr ⟨hkind, hserial⟩
      cases hthread.symm.trans hsome
    · rfl
  | some serial =>
    obtain ⟨hkind, hserial⟩ := RootRecord.thread?_eq_some_iff.mp hthread
    -- the table of threads has the stack trace that was named last, by whichever record
    have hknown : d.threads[serial]? = threadKnown records serial :=
      getElem?_threads_foldl_push header log records serial
    have hlast : ((threadKnown records serial).map (·.stackSerial)).getD 0
        = lastTrace records serial := getD_stackSerial_threadKnown
    rw [Judged.byThread?, hthread, hkind, hserial, Option.bind_some, traceWarning?, ← hlast]
    dsimp only
    rw [hknown]
    cases threadKnown records serial with
    | none =>
      -- a thread that nothing is known of has the stack trace 0, which is never missing
      simp [TraceMissing]
    | some known =>
      dsimp only [Option.map_some, Option.getD_some]
      simp only [htabled.traceMissing_iff, ite_not]

/-- Only stack traces are missing of roots. -/
theorem namingSort_roots : NamingSort (·.category = .roots) false false true false where
  push _ h := by cases h <;> rfl
  resolving _ h := by cases h <;> rfl
  heaps _ _ _ := rfl
  classes _ := rfl
  traces _ _ := rfl
  dump := rfl

end Draft

/-! ### Finished snapshots -/

/-- Two selections from a list are the same just if they agree on its members. -/
theorem filter_eq_filter_iff {p q : α → Bool} {l : List α} :
    l.filter p = l.filter q ↔ ∀ x ∈ l, p x = q x := by
  refine ⟨fun h x hx => ?_, List.filter_congr⟩
  have hmem : x ∈ l.filter p ↔ x ∈ l.filter q := by rw [h]
  simpa [List.mem_filter, hx, ← Bool.eq_iff_iff] using hmem

/-- **Roots of threads are judged by their threads.**  What is new in the log of a finished
snapshot and about roots is a warning, with place and object, for each root of a thread whose
stack trace named last is missing, in the order of the roots.  Where the roots of threads carry
stack traces of their own, the roots reported are those whose own is missing just if, for each of
them, the last of its thread is missing if and only if its own is.  If records do not name
different stack traces for a thread, the warnings are those of roots judged by their own. -/
theorem threadRoots_judged_by_thread (header : Header) (log : Diagnostics) (records : List Record)
    (resolveFields : Bool) :
    let s := (records.foldl Draft.push { header, diagnostics := log }).finish resolveFields
    ∃ new, s.diagnostics.toList = log.toList ++ new
      ∧ new.filter (·.category = .roots) = (rootsOf records).filterMap (Judged.byThread? records)
      ∧ (∀ diagnostic ∈ new, diagnostic.category = .roots → diagnostic.severity = .warning)
      ∧ ((∀ r ∈ rootsOf records, r.value.CarriesSerials) →
        ((rootsOf records).filter (fun r => (Judged.byThread? records r).isSome)
            = (rootsOf records).filter (fun r => (Judged.byItself? records r).isSome)
          ↔ ∀ r ∈ rootsOf records, ∀ serial trace, r.value.thread? = some serial →
            r.value.stackSerial = some trace →
            (TraceMissing records (lastTrace records serial) ↔ TraceMissing records trace))
        ∧ (TracesAgree records → new.filter (·.category = .roots)
          = (rootsOf records).filterMap (Judged.byItself? records))) := by
  intro s
  obtain ⟨new, htoList, hsort⟩ := Draft.exists_new_finish header log records resolveFields
  have hnew : new.filter (·.category = .roots)
      = (rootsOf records).filterMap (Judged.byThread? records) := by
    rw [← Draft.missingTraces_foldl_push header log]
    exact (hsort Draft.namingSort_roots).trans (List.append_nil _)
  refine ⟨new, htoList, hnew, fun diagnostic hmem hcategory => ?_,
    fun hcarry => ⟨?_, fun hagree => ?_⟩⟩
  · have hroots : diagnostic ∈ new.filter (·.category = .roots) :=
      List.mem_filter.mpr ⟨hmem, decide_eq_true hcategory⟩
    rw [hnew] at hroots
    obtain ⟨r, -, hr⟩ := List.mem_filterMap.mp hroots
    exact Judged.severity_of_byThread? hr
  · rw [filter_eq_filter_iff]
    exact forall₂_congr fun r hr => Judged.isSome_byThread?_eq_iff (hcarry r hr)
  · rw [hnew]
    exact List.filterMap_congr fun r hr => Judged.byThread?_eq_byItself? hagree hr (hcarry r hr)

/-- Three threads with their roots: the stack trace of the first is missing, that of the second
stands behind its root, and the third has none. -/
def sampleThreadRoots : List Record :=
  [⟨31, some 0, .startThread ⟨1, 768, 4, 0, 0, 0⟩⟩, ⟨64, some 0, .heapDumpStart true 39⟩,
    ⟨73, none, .heap (.root ⟨.threadObject, 768, some 1, none, some 4, none⟩)⟩,
    ⟨86, none, .heap (.root ⟨.threadObject, 769, some 2, none, some 9, none⟩)⟩,
    ⟨99, none, .heap (.root ⟨.threadObject, 770, some 3, none, some 0, none⟩)⟩,
    ⟨112, some 0, .stackTrace ⟨9, 2, []⟩⟩]

/-- Two roots of one thread, of which the first names a stack trace that is missing and the second
none. -/
def sampleSharedThread : List Record :=
  [⟨31, some 0, .heapDumpStart true 26⟩,
    ⟨40, none, .heap (.root ⟨.threadObject, 768, some 1, none, some 4, none⟩)⟩,
    ⟨53, none, .heap (.root ⟨.threadObject, 769, some 1, none, some 0, none⟩)⟩]

theorem threadRoots_judged_by_thread_sampleThreadRoots :
    (∀ r ∈ rootsOf sampleThreadRoots, r.value.CarriesSerials) ∧ TracesAgree sampleThreadRoots
      ∧ ∃ new, (sampleSnapshot sampleThreadRoots).diagnostics.toList = new
        ∧ new.filter (·.category = .roots)
          = (rootsOf sampleThreadRoots).filterMap (Judged.byItself? sampleThreadRoots)
        ∧ (rootsOf sampleThreadRoots).filterMap (Judged.byItself? sampleThreadRoots)
          = [{ cause := .missingStackTrace 1 4, offset := some 73, object := some 768 }] := by
  have hcarry : ∀ r ∈ rootsOf sampleThreadRoots, r.value.CarriesSerials := by decide +kernel
  have htraces : ∀ r ∈ sampleThreadRoots, ∀ serial trace, r.threadTrace? serial = some trace →
      trace = if serial = 1 then 4 else if serial = 2 then 9 else 0 := by
    simp only [sampleThreadRoots, List.forall_mem_cons, Record.threadTrace?, Record.threadStart?,
      Record.threadRoot?]
    grind
  have hagree : TracesAgree sampleThreadRoots := by
    intro r hr r' hr' serial trace trace' htrace htrace'
    rw [htraces r hr serial trace htrace, htraces r' hr' serial trace' htrace']
  obtain ⟨new, htoList, -, -, hown⟩ := threadRoots_judged_by_thread
    ⟨"JAVA PROFILE 1.0.2", 4, 1700000000000, 31⟩ {} sampleThreadRoots true
  exact ⟨hcarry, hagree, new, htoList, (hown hcarry).2 hagree, by decide +kernel⟩

/-- The first root of a thread is not reported for its missing stack trace, as the second names
none. -/
theorem threadRoots_wrong_sampleSharedThread :
    (∀ r ∈ rootsOf sampleSharedThread, r.value.CarriesSerials)
      ∧ (sampleSnapshot sampleSharedThread).diagnostics.byCategory .roots = []
      ∧ (rootsOf sampleSharedThread).filterMap (Judged.byItself? sampleSharedThread)
        = [{ cause := .missingStackTrace 1 4, offset := some 40, object := some 768 }] := by
  decide +kernel

end HeapDump
