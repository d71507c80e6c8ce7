/-
HeapDump/Proofs/Snapshot/Layouts.lean

The layouts of a finished snapshot's objects, and what its log says of their data.

Objects are decoded before classes are linked, and layouts are stated for the linked classes; since
linking leaves declared fields and superclasses alone, the two have the same layouts, decode the
same fields and give the same notes (`layoutNote?_eq`, `value_decodeFields_eq`).  So fields are
those that the layout of the finished class demands (`Draft.fields_finish`).

Of all that finishing a draft reports, one thing at most is about the data of each object, in the
order of the objects, and nothing else is an error or about instances
(`Draft.exists_found_finish`).  The reports come in four groups: missing names, classes, instances,
roots.  Only the third has notes on data.
-/
import HeapDump.Proofs.Graph.Decoding
import HeapDump.Proofs.Graph.Undecoded
import HeapDump.Proofs.Snapshot.Finish

namespace HeapDump

/-! ### Links -/

namespace SameButLinks

variable {classes classes' : Array ClassObject} (h : SameButLinks classes classes')
include h

theorem layoutNote?_eq (idSize : Nat) (owner : FieldOwner) (i : Nat) :
    layoutNote? classes idSize owner i = layoutNote? classes' idSize owner i := by
  rw [layoutNote?, layoutNote?, h.superclassChain_eq, h.layout_eq, h.size_eq,
    h.map_getElem?_eq fun _ => rfl]

theorem layoutNote?_instance (idSize : Nat) (i : Instance) :
    i.layoutNote? classes idSize = i.layoutNote? classes' idSize := by
  rw [Instance.layoutNote?, Instance.layoutNote?]
  simp only [h.layoutNote?_eq]

theorem value_decodeFields_eq (objects : ObjectTable) (idSize : Nat) (owner : FieldOwner)
    (data : ByteArray) (i : Nat) :
    (decodeFields objects classes idSize owner data i).value
      = (decodeFields objects classes' idSize owner data i).value := by
  rw [value_decodeFields, value_decodeFields, h.superclassChain_eq, h.layout_eq]

end SameButLinks

namespace Draft

variable {d : Draft}

/-! ### The header -/

theorem header_push (d : Draft) (r : Record) : (d.push r).header = d.header := by
  obtain ⟨offset, time, body⟩ := r
  cases body with
  | heap record =>
    show (d.pushHeapRecord record offset).header = d.header
    rcases d.pushHeapRecord_cases record offset with htake | ⟨id, hreport⟩
    · rw [htake]
      cases record with
      | root root =>
        rw [take, addRoot, noteThread]
        split <;> rfl
      | _ => rfl
    · rw [hreport]
      rfl
  | skipped tag length =>
    rw [push]
    dsimp only
    split <;> rfl
  | _ => rfl

/-- Records leave the header alone. -/
theorem header_foldl_push (d : Draft) (records : List Record) :
    (records.foldl push d).header = d.header := by
  induction records generalizing d with
  | nil => rfl
  | cons r records ih => rw [List.foldl_cons, ih, header_push]

/-! ### Fields -/

/-- The fields of a plain object are decoded by the layout of its class as it is in the end. -/
theorem fields_finish (d : Draft) {o : Instance} (ho : o ∈ (d.finish true).instances)
    {data : ByteArray} {fields : List FieldValue} (hcontents : o.contents = .object data fields)
    {c : Nat} (hc : o.classRef.class? = some c) :
    fields = (decodeFields d.objects (d.finish true).classes d.header.idSize
      ⟨o.id, o.offset, data.size⟩ data c).value := by
  rw [← Array.mem_toList_iff, instances_finish] at ho
  obtain ⟨located, -, rfl⟩ := List.mem_map.mp ho
  rw [(d.sameButLinks_finish true).value_decodeFields_eq]
  have hfields : (d.resolution true).resolveFields = true := rfl
  exact Resolution.fields_resolveInstance hfields _ hcontents hc

/-! ### The log -/

theorem PushCause.not_aboutLayout {cause : Cause} (h : PushCause cause) : ¬cause.aboutLayout := by
  cases h <;> exact Bool.false_ne_true

theorem NamingCause.not_aboutLayout {cause : Cause} (h : NamingCause cause) :
    ¬cause.aboutLayout := by
  cases h <;> exact Bool.false_ne_true

theorem NamingCause.ne {cause : Cause} (h : NamingCause cause) :
    cause.severity ≠ .error ∧ cause.category ≠ .instances := by
  cases h <;> exact ⟨nofun, nofun⟩

/-- Of what is reported while references are looked up, only what is about data and superclasses
can be an error or about instances. -/
theorem ne_of_resolvingCause {cause : Cause} (h : ResolvingCause cause)
    (hlayout : ¬cause.aboutLayout) : cause.severity ≠ .error ∧ cause.category ≠ .instances := by
  cases h with
  | unresolved | notAClass => exact ⟨nofun, nofun⟩
  | _ => exact absurd rfl hlayout

/-- References of classes and roots have nothing to do with data. -/
theorem filter_aboutLayout_of_not_aboutFields {x : Noted α} (h : x.Every (¬ ·.aboutFields)) :
    x.notes.filter (·.cause.aboutLayout) = [] := by
  refine filter_aboutLayout_eq_nil ⟨fun diagnostic hmem hlayout => h.of_mem diagnostic hmem ?_⟩
  obtain ⟨cause, offset, object⟩ := diagnostic
  cases cause with
  | shortFieldData | excessFieldData | cyclicSuperclasses => rfl
  | _ => cases hlayout

/-- **What finishing a draft reports**: of the data of each object one thing at most, in the order
of the objects, and nothing else that is an error or about instances. -/
theorem exists_found_finish (d : Draft) (hid : d.header.idSize = 4 ∨ d.header.idSize = 8) :
    let s := d.finish true
    ∃ found, s.diagnostics.toList = d.diagnostics.toList ++ found
      ∧ found.filter (·.cause.aboutLayout)
        = s.instances.toList.filterMap (·.layoutNote? s.classes d.header.idSize)
      ∧ ∀ diagnostic ∈ found, ¬diagnostic.cause.aboutLayout →
        diagnostic.severity ≠ .error ∧ diagnostic.category ≠ .instances := by
  intro s
  let ctx := d.resolution true
  have hfields : ctx.resolveFields = true := rfl
  have hlog := d.toList_diagnostics_finish true
  rw [List.append_assoc] at hlog
  refine ⟨_, hlog, ?_, fun diagnostic hmem hlayout => ?_⟩
  -- group by group: only what is noted of instances is about their data
  · have hnaming : d.namingNotes.filter (·.cause.aboutLayout) = [] :=
      List.filter_eq_nil_iff.mpr fun _ hmem => (namingCause_of_mem hmem).not_aboutLayout
    have hclasses : (d.classes.toList.flatMap fun c =>
        ((d.classObject c).lookup d.objects).notes).filter (·.cause.aboutLayout) = [] := by
      rw [List.filter_flatMap]
      exact List.flatMap_eq_nil_iff.mpr fun c _ => filter_aboutLayout_of_not_aboutFields
        ((d.classObject c).every_lookup_not_aboutFields d.objects)
    have hinstances : (d.instances.toList.flatMap fun o =>
        (ctx.resolveInstance (instanceObject o)).notes).filter (·.cause.aboutLayout)
          = s.instances.toList.filterMap (·.layoutNote? s.classes d.header.idSize) := by
      rw [List.filter_flatMap, instances_finish, List.filterMap_map,
        List.filterMap_eq_flatMap_toList]
      refine List.flatMap_congr fun o _ => ?_
      rw [Resolution.filter_aboutLayout_resolveInstance hfields hid]
      exact congrArg Option.toList ((d.sameButLinks_finish true).layoutNote?_instance _ _).symm
    have hroots : (d.roots.toList.flatMap fun r =>
        ((gcRoot r).lookup d.objects).notes).filter (·.cause.aboutLayout) = [] := by
      rw [List.filter_flatMap]
      exact List.flatMap_eq_nil_iff.mpr fun r _ => filter_aboutLayout_of_not_aboutFields
        ((gcRoot r).every_lookup_not_aboutFields d.objects)
    rw [List.filter_append, List.filter_append, List.filter_append, hnaming, hclasses, hinstances,
      hroots, List.nil_append, List.nil_append, List.append_nil]
  · simp only [List.mem_append, List.mem_flatMap] at hmem
    -- and what is not about data is a missing name or a missing reference
    rcases hmem with hmem | ⟨c, -, hmem⟩ | ⟨o, -, hmem⟩ | ⟨r, -, hmem⟩
    · exact (namingCause_of_mem hmem).ne
    · exact ne_of_resolvingCause ((ClassObject.resolving_lookup ..).of_mem _ hmem) hlayout
    · exact ne_of_resolvingCause ((Resolution.resolving_resolveInstance ..).of_mem _ hmem) hlayout
    · exact ne_of_resolvingCause ((GcRoot.resolving_lookup ..).of_mem _ hmem) hlayout

end Draft

end HeapDump
