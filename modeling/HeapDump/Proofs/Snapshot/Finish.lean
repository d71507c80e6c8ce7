/-
HeapDump/Proofs/Snapshot/Finish.lean

What a finished snapshot consists of, item by item.

Finishing a draft puts names in, looks all references up and links classes, in one
function.  This module takes it apart: instances and roots are those of the draft,
resolved one by one (`Draft.instances_finish`, `Draft.roots_finish`).  So are classes,
but for the lists that linking fills in afterwards (`Draft.sameButLinks_finish`), and
the log is what it was with three groups of notes behind it
(`Draft.toList_diagnostics_finish`).

Classes and instances read back as the draft has them (`located_classes_finish`,
`located_instances_finish`).  The statements on finished snapshots are proved from
these equations and do not open `Draft.finish` again.
-/
import HeapDump.Proofs.Diagnostic.Log
import HeapDump.Proofs.Graph.Links
import HeapDump.Proofs.Graph.ReadBack
import HeapDump.Snapshot.Load

namespace HeapDump

namespace Draft

variable (d : Draft) (resolveFields : Bool)

/-- The classes of a draft with their references looked up. -/
def lookedUpClasses : Array ClassObject :=
  d.classes.map fun c => ((d.classObject c).lookup d.objects).value

/-- What the instances of a draft are resolved against. -/
def resolution : Resolution where
  objects := d.objects
  classes := d.lookedUpClasses
  index := ClassIndex.ofNames (d.graph.classes.toList.map (·.name))
  idSize := d.header.idSize
  resolveFields := resolveFields

theorem value_eachIn_lookup :
    (Noted.eachIn d.graph.classes (·.lookup d.objects)).value = d.lookedUpClasses := by
  rw [Noted.value_eachIn, graph, Array.map_map]
  rfl

theorem graph_finish :
    (d.finish resolveFields).graph
      = Graph.link ⟨d.lookedUpClasses,
          d.instances.map fun o => ((d.resolution resolveFields).resolveInstance
            (instanceObject o)).value,
          d.roots.map fun r => ((gcRoot r).lookup d.objects).value⟩ := by
  rw [finish]
  dsimp only
  rw [Graph.resolve]
  simp only [Noted.value_bind, Noted.value_pure, value_eachIn_lookup]
  rw [Noted.value_eachIn, Noted.value_eachIn, graph, Array.map_map, Array.map_map]
  rfl

/-- The log has in the end what was reported before, what is missing, and what is noted of
classes, instances and roots one by one. -/
theorem toList_diagnostics_finish :
    (d.finish resolveFields).diagnostics.toList = d.diagnostics.toList ++ d.namingNotes
      ++ (d.classes.toList.flatMap (fun c => ((d.classObject c).lookup d.objects).notes)
        ++ (d.instances.toList.flatMap (fun o =>
            ((d.resolution resolveFields).resolveInstance (instanceObject o)).notes)
          ++ d.roots.toList.flatMap fun r => ((gcRoot r).lookup d.objects).notes)) := by
  rw [finish]
  simp only [Diagnostics.toList_pushAll]
  refine (List.append_right_inj _).mpr ?_
  rw [Graph.resolve]
  simp only [Noted.notes_bind, Noted.notes_pure, Noted.notes_eachIn, value_eachIn_lookup,
    List.append_nil]
  simp only [resolution, graph, Array.toList_map, List.flatMap_map]

theorem instances_finish :
    (d.finish resolveFields).instances.toList
      = d.instances.toList.map fun o =>
        ((d.resolution resolveFields).resolveInstance (instanceObject o)).value := by
  rw [Snapshot.instances, graph_finish]
  exact Array.toList_map

theorem roots_finish :
    (d.finish resolveFields).roots.toList
      = d.roots.toList.map fun r => ((gcRoot r).lookup d.objects).value := by
  rw [Snapshot.roots, graph_finish]
  exact Array.toList_map

/-- The classes are those looked up, but for the lists that linking fills in. -/
theorem sameButLinks_finish :
    SameButLinks (d.finish resolveFields).classes d.lookedUpClasses := by
  rw [Snapshot.classes, graph_finish]
  exact Graph.sameButLinks_link _

/-! ### Reading records back -/

theorem located_classes_finish :
    (d.finish resolveFields).classes.toList.map ClassObject.located = d.classes.toList := by
  rw [← Array.toList_map, (d.sameButLinks_finish resolveFields).map_eq fun _ => rfl,
    lookedUpClasses, Array.toList_map, Array.toList_map, List.map_map]
  simp [Function.comp_def]

theorem located_instances_finish :
    (d.finish resolveFields).instances.toList.map Instance.located = d.instances.toList := by
  rw [instances_finish, List.map_map]
  simp [Function.comp_def]

end Draft

end HeapDump
