/-
HeapDump/Proofs/Snapshot/Log.lean

What the log of a finished snapshot holds of a sort.

Behind what was logged before there are the warnings of the records, what was found
missing while names were put in, and what was noted while references were looked up.
So diagnostics of a sort that the records and the lookups do not give rise to are those
found missing (`Draft.exists_new_finish`), heaps first, then classes, stack traces
and the heap dump itself.

A sort is a property `keep` of causes, and `NamingSort keep heaps classes traces dump`
says of each of the four groups of missing things whether the sort has it or not, and
that it has nothing else.  One list of new diagnostics serves for all sorts, so that
statements on several of them are about the same part of the log.
-/
import HeapDump.Proofs.Diagnostic.Selection
import HeapDump.Proofs.Draft.Warnings
import HeapDump.Snapshot.Load

namespace HeapDump

namespace Draft

/-- A sort of causes that come up only when names are put in.  It has the four sorts of what is
missing as a whole or not at all. -/
structure NamingSort (keep : Cause → Bool) (heaps classes traces dump : Bool) : Prop where
  push : ∀ cause, PushCause cause → keep cause = false
  resolving : ∀ cause, ResolvingCause cause → keep cause = false
  heaps : ∀ nameId heap fallback, keep (.missingHeapName nameId heap fallback) = heaps
  classes : ∀ id, keep (.unnamedClass id) = classes
  traces : ∀ thread trace, keep (.missingStackTrace thread trace) = traces
  dump : keep .noHeapDump = dump

section

variable {keep : Cause → Bool} {heaps classes traces dump : Bool}

/-- A selection by cause takes all diagnostics of a sort or none. -/
theorem filter_eq_cond {kept : Bool} {ds : List Diagnostic}
    (h : ∀ diagnostic ∈ ds, keep diagnostic.cause = kept) :
    ds.filter (keep ·.cause) = bif kept then ds else [] := by
  cases kept with
  | false => exact List.filter_eq_nil_iff.mpr fun diagnostic hmem => by simp [h diagnostic hmem]
  | true => exact List.filter_eq_self.mpr h

/-- A selection from what is missing takes each of its parts or leaves it out. -/
theorem NamingSort.filter_namingNotes (h : NamingSort keep heaps classes traces dump) (d : Draft) :
    d.namingNotes.filter (keep ·.cause)
      = (bif heaps then d.unnamedHeaps else []) ++ (bif classes then d.unnamedClasses else [])
        ++ (bif traces then d.missingTraces else [])
        ++ (bif dump then d.missingHeapDump else []) := by
  have hheaps : d.unnamedHeaps.filter (keep ·.cause) = bif heaps then d.unnamedHeaps else [] :=
    filter_eq_cond fun diagnostic hmem => by
      obtain ⟨nameId, heap, fallback, hcause⟩ := exists_cause_of_mem_unnamedHeaps hmem
      exact hcause ▸ h.heaps nameId heap fallback
  have hclasses : d.unnamedClasses.filter (keep ·.cause)
      = bif classes then d.unnamedClasses else [] :=
    filter_eq_cond fun diagnostic hmem => by
      obtain ⟨id, hcause⟩ := exists_cause_of_mem_unnamedClasses hmem
      exact hcause ▸ h.classes id
  have htraces : d.missingTraces.filter (keep ·.cause)
      = bif traces then d.missingTraces else [] :=
    filter_eq_cond fun diagnostic hmem => by
      obtain ⟨thread, trace, hcause⟩ := exists_cause_of_mem_missingTraces hmem
      exact hcause ▸ h.traces thread trace
  have hdump : d.missingHeapDump.filter (keep ·.cause)
      = bif dump then d.missingHeapDump else [] :=
    filter_eq_cond fun diagnostic hmem => cause_of_mem_missingHeapDump hmem ▸ h.dump
  simp only [namingNotes, List.filter_append, hheaps, hclasses, htraces, hdump]

/-- **What is new in the log of a finished snapshot**, of a sort that comes up only when names are
put in. -/
theorem exists_new_finish (header : Header) (log : Diagnostics) (records : List Record)
    (resolveFields : Bool) :
    let d := records.foldl push { header, diagnostics := log }
    ∃ new, (d.finish resolveFields).diagnostics.toList = log.toList ++ new
      ∧ ∀ {keep heaps classes traces dump}, NamingSort keep heaps classes traces dump →
        new.filter (keep ·.cause)
          = (bif heaps then d.unnamedHeaps else []) ++ (bif classes then d.unnamedClasses else [])
            ++ (bif traces then d.missingTraces else [])
            ++ (bif dump then d.missingHeapDump else []) := by
  intro d
  let later := (d.graph.resolve d.objects
    (ClassIndex.ofNames (d.graph.classes.toList.map (·.name))) d.header.idSize resolveFields).notes
  refine ⟨warnings records ++ (d.namingNotes ++ later), ?_, fun {keep _ _ _ _} hsort => ?_⟩
  · rw [finish]
    simp only [Diagnostics.toList_pushAll, d, diagnostics_foldl_push, List.append_assoc]
    rfl
  · have hwarnings : (warnings records).filter (keep ·.cause) = [] :=
      filter_eq_cond fun _ hmem => hsort.push _ (pushCause_of_mem_warnings hmem)
    have hlater : later.filter (keep ·.cause) = [] :=
      filter_eq_cond fun diagnostic hmem =>
        hsort.resolving _ ((Graph.resolving_resolve ..).of_mem diagnostic hmem)
    rw [List.filter_append, List.filter_append, hwarnings, hlater, List.nil_append,
      List.append_nil, hsort.filter_namingNotes]

end

end Draft

end HeapDump
