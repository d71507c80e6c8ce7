/-
HeapDump/Proofs/Snapshot/Relocation.lean

Snapshots of records that stand at other places.

Finishing a draft keeps the places of its records and decides nothing by them:

    (d.relocate φ).finish resolveFields = (d.finish resolveFields).relocate φ

(`Draft.relocate_finish`).  Naming and resolving commute with `φ` one after the other, and
so do the notes of both.  With what reading does to places, the snapshot of records at
other places is the same one with other places in it (`Draft.relocate_finish_foldl_push`).
-/
import HeapDump.Proofs.Draft.Relocation
import HeapDump.Snapshot.Load

namespace HeapDump

variable (φ : Nat → Nat)

/-- A snapshot of records that stand at other places. -/
def Snapshot.relocate (s : Snapshot) : Snapshot :=
  { s with
    graph := s.graph.relocate φ
    diagnostics := s.diagnostics.relocate φ }

namespace Draft

variable (d : Draft)

theorem graph_relocate : (d.relocate φ).graph = d.graph.relocate φ := by
  have hinstance (o : Located ObjectDump) :
      instanceObject (o.relocate φ) = (instanceObject o).relocate φ := by
    obtain ⟨value, heap, offset⟩ := o
    cases value <;> rfl
  rw [graph, graph, Graph.relocate, relocate, Array.map_map, Array.map_map, Array.map_map,
    Array.map_map, Array.map_map, Array.map_map]
  exact Graph.mk.injEq .. ▸ ⟨rfl, Array.map_congr_left fun o _ => hinstance o, rfl⟩

theorem unnamedClasses_relocate :
    (d.relocate φ).unnamedClasses = d.unnamedClasses.map (Diagnostic.relocate φ) := by
  have hclasses : (d.relocate φ).classes = d.classes.map (Located.relocate φ) := rfl
  have hname (id : ObjectId) : (d.relocate φ).className? id = d.className? id := rfl
  rw [unnamedClasses, unnamedClasses, hclasses, Array.toList_map, List.filterMap_map,
    List.map_filterMap]
  refine List.filterMap_congr fun c _ => ?_
  simp only [Function.comp_apply, Located.relocate, hname]
  cases d.className? c.value.classId <;> rfl

theorem missingTraces_relocate :
    (d.relocate φ).missingTraces = d.missingTraces.map (Diagnostic.relocate φ) := by
  have hroots : (d.relocate φ).roots = d.roots.map (Located.relocate φ) := rfl
  have hthreads : (d.relocate φ).threads = d.threads := rfl
  have htraces : (d.relocate φ).traces = d.traces := rfl
  rw [missingTraces, missingTraces, hroots, hthreads, htraces, Array.toList_map,
    List.filterMap_map, List.map_filterMap]
  refine List.filterMap_congr fun r _ => ?_
  simp only [Function.comp_apply, Located.relocate]
  split
  · split
    · split <;> rfl
    · rfl
  · rfl

/-- What is missing is missing wherever the records stand. -/
theorem namingNotes_relocate :
    (d.relocate φ).namingNotes = d.namingNotes.map (Diagnostic.relocate φ) := by
  have hheaps : d.unnamedHeaps.map (Diagnostic.relocate φ) = d.unnamedHeaps := by
    rw [unnamedHeaps, List.map_filterMap]
    refine List.filterMap_congr fun ⟨id, h⟩ _ => ?_
    dsimp only
    split
    · split <;> rfl
    · rfl
  have hdump : d.missingHeapDump.map (Diagnostic.relocate φ) = d.missingHeapDump := by
    rw [missingHeapDump]
    split <;> rfl
  rw [namingNotes, namingNotes, List.map_append, List.map_append, List.map_append,
    unnamedClasses_relocate, missingTraces_relocate, hheaps, hdump]
  rfl

/-- **Finishing a draft decides nothing by places.** -/
theorem relocate_finish (resolveFields : Bool) :
    (d.finish resolveFields).relocate φ = (d.relocate φ).finish resolveFields := by
  have hindex : (d.relocate φ).graph.classes.toList.map (·.name)
      = d.graph.classes.toList.map (·.name) := by
    rw [graph_relocate, Graph.relocate, Array.toList_map, List.map_map]
    rfl
  rw [finish, finish, hindex, namingNotes_relocate, graph_relocate, Snapshot.relocate]
  dsimp only
  rw [Diagnostics.relocate_pushAll, Diagnostics.relocate_pushAll,
    ← Graph.value_resolve_relocate, ← Graph.notes_resolve_relocate]
  rfl

/-- **The snapshot of records at other places is the same one with other places in it.** -/
theorem relocate_finish_foldl_push (header : Header) (attachSink : Bool) (records : List Record)
    (resolveFields : Bool) :
    ((records.foldl push { header, diagnostics := .start attachSink }).finish
        resolveFields).relocate φ
      = ((records.map (Record.relocate φ)).foldl push
          { header, diagnostics := .start attachSink }).finish resolveFields := by
  rw [relocate_finish, relocate_foldl_push, relocate_start]

end Draft

end HeapDump
