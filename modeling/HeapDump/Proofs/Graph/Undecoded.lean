/-
HeapDump/Proofs/Graph/Undecoded.lean

Resolving instances without decoding their fields.

What is noted while fields are decoded is about fields (`Cause.aboutFields`), and
nothing else is that is noted of classes, instances and roots.  So an instance that is
resolved without its fields is the one resolved with them, less the fields, and the
notes about fields are those that are missing (`Resolution.value_resolveInstance_undecoded`,
`Resolution.notes_resolveInstance_undecoded`).

Notes are compared as lists, and taking some away is a filter.  Each part of the graph
is noted either about fields throughout or not at all, which turns the filter into the
whole list or the empty one, part by part.  Linking looks at classes only and commutes with
dropping the fields, so the same holds of the whole graph.
-/
import HeapDump.Graph.Resolution
import HeapDump.Proofs.Diagnostic.Selection
import Mathlib.Data.List.Basic

namespace HeapDump

/-! ### Diagnostics about fields -/

/-- Whether a reference is held by a decoded field. -/
def Holder.isField : Holder → Bool
  | field .. => true
  | _ => false

/-- Whether a cause comes up only when the fields of an object are decoded: too few or too
many data, superclasses without end, and references in fields that refer to nothing. -/
def Cause.aboutFields : Cause → Bool
  | shortFieldData .. | excessFieldData .. | cyclicSuperclasses _ => true
  | unresolved _ holder | notAClass _ holder => holder.isField
  | _ => false

/-- Whether a diagnostic comes up only when the fields of an object are decoded. -/
def Diagnostic.aboutFields (d : Diagnostic) : Bool := d.cause.aboutFields

theorem every_readLayout (objects : ObjectTable) (idSize : Nat) (owner : FieldOwner)
    (fields : List LayoutField) (p : Parser) :
    (readLayout objects idSize owner fields p).Every (·.aboutFields) := by
  induction fields generalizing p with
  | nil => exact Noted.every_pure _
  | cons f rest ih =>
    rw [readLayout]
    rcases Value.parse f.field.type idSize p with ⟨e | raw, p⟩
    · exact Noted.Every.bind (Noted.every_note rfl) (Noted.every_pure _)
    · refine (Value.every_lookup objects owner.offset (fun _ => rfl) _).bind ?_
      exact (ih p).bind (Noted.every_pure _)

/-- All that is noted while fields are decoded is about fields. -/
theorem every_decodeFields (objects : ObjectTable) (classes : Array ClassObject) (idSize : Nat)
    (owner : FieldOwner) (data : ByteArray) (i : Nat) :
    (decodeFields objects classes idSize owner data i).Every (·.aboutFields) := by
  rw [decodeFields]
  refine Noted.Every.bind (every_readLayout _ _ _ _ _) ?_
  dsimp only
  split
  · exact Noted.every_pure _
  · split
    · split
      · exact Noted.Every.bind (Noted.every_note rfl) (Noted.every_pure _)
      · exact Noted.every_pure _
    · split
      · exact Noted.Every.bind (Noted.every_note rfl) (Noted.every_pure _)
      · exact Noted.every_pure _

/-- Nothing that is noted of the references of a class is about fields of objects. -/
theorem ClassObject.every_lookup_not_aboutFields (objects : ObjectTable) (c : ClassObject) :
    (c.lookup objects).Every (¬ ·.aboutFields) := by
  rw [lookup]
  refine (Reference.every_lookupClass _ _ (fun _ => Bool.false_ne_true) (fun _ => Bool.false_ne_true) _).bind ?_
  refine (Reference.every_lookup _ _ (fun _ => Bool.false_ne_true) _).bind ?_
  refine (Noted.every_each fun constant _ => ?_).bind ?_
  · exact (Value.every_lookup _ _ (fun _ => Bool.false_ne_true) _).bind (Noted.every_pure _)
  refine (Noted.every_each fun s _ => ?_).bind (Noted.every_pure _)
  exact (Value.every_lookup _ _ (fun _ => Bool.false_ne_true) _).bind (Noted.every_pure _)

theorem GcRoot.every_lookup_not_aboutFields (objects : ObjectTable) (r : GcRoot) :
    (r.lookup objects).Every (¬ ·.aboutFields) :=
  (Reference.every_lookup _ _ (fun _ => Bool.false_ne_true) _).bind (Noted.every_pure _)

/-! ### Instances without fields -/

/-- What an instance holds, less decoded fields. -/
def Contents.withoutFields : Contents → Contents
  | object data _ => object data []
  | contents => contents

/-- An instance less its decoded fields. -/
def Instance.withoutFields (i : Instance) : Instance :=
  { i with contents := i.contents.withoutFields }

@[simp] theorem Instance.fields_withoutFields (i : Instance) : i.withoutFields.fields = [] := by
  obtain ⟨_, _, _, _, _, contents, _⟩ := i
  cases contents <;> rfl

namespace Resolution

variable (ctx : Resolution)

/-- The same, but fields are not wanted. -/
def undecoded : Resolution := { ctx with resolveFields := false }

@[simp] theorem objectFields_undecoded (i : Instance) (classRef : Reference) (data : ByteArray) :
    ctx.undecoded.objectFields i classRef data = pure [] := by
  rw [objectFields]
  split <;> rfl

theorem every_objectFields (i : Instance) (classRef : Reference) (data : ByteArray) :
    (ctx.objectFields i classRef data).Every (·.aboutFields) := by
  rw [objectFields]
  split
  · split
    · exact every_decodeFields _ _ _ _ _ _
    · exact Noted.every_pure _
  · exact Noted.every_pure _

/-- An instance resolved without its fields is otherwise the same. -/
theorem value_resolveInstance_undecoded (i : Instance) :
    (ctx.undecoded.resolveInstance i).value = (ctx.resolveInstance i).value.withoutFields := by
  obtain ⟨id, heap, offset, classRef, stackSerial, contents, size⟩ := i
  cases contents with
  | object data fields =>
    simp only [resolveInstance, Noted.value_bind, Noted.value_pure, objectFields_undecoded]
    rfl
  | _ => rfl

/-- What is noted of it is what is noted otherwise, less what is about fields. -/
theorem notes_resolveInstance_undecoded (i : Instance) :
    (ctx.undecoded.resolveInstance i).notes
      = (ctx.resolveInstance i).notes.filter (¬ ·.aboutFields) := by
  obtain ⟨id, heap, offset, classRef, stackSerial, contents, size⟩ := i
  cases contents with
  | object data fields =>
    have hclass : (classRef.lookupClass ctx.objects offset (.classOfInstance id)).Every
        (¬ ·.aboutFields) :=
      Reference.every_lookupClass _ _ (fun _ => Bool.false_ne_true)
        (fun _ => Bool.false_ne_true) classRef
    simp only [resolveInstance, Noted.notes_bind, Noted.notes_pure, objectFields_undecoded,
      List.append_nil, List.filter_append]
    rw [hclass.filter_eq_self, (ctx.every_objectFields _ _ _).filter_not_eq_nil, List.append_nil]
    rfl
  | objectArray elements =>
    refine (Noted.Every.filter_eq_self ?_).symm
    refine (Reference.every_lookupClass _ _ (fun _ => Bool.false_ne_true)
      (fun _ => Bool.false_ne_true) _).bind ?_
    refine (Noted.every_each fun element _ => ?_).bind (Noted.every_pure _)
    exact Reference.every_lookup _ _ (fun _ => Bool.false_ne_true) _
  | primitiveArray elementType length data => rfl

end Resolution

/-! ### Graphs -/

namespace Graph

/-- A graph less the decoded fields of its instances. -/
def withoutFields (g : Graph) : Graph :=
  { g with instances := g.instances.map Instance.withoutFields }

/-- Linking goes by the classes of instances and does not look at their fields. -/
theorem link_withoutFields (g : Graph) : g.withoutFields.link = g.link.withoutFields := by
  have hkeys : g.withoutFields.instances.toList.map (·.classRef.class?)
      = g.instances.toList.map (·.classRef.class?) := by
    rw [withoutFields, Array.toList_map, List.map_map]
    rfl
  rw [link, hkeys]
  rfl

section

variable (objects : ObjectTable) (index : ClassIndex) (idSize : Nat) (resolveFields : Bool)
  (g : Graph)

/-- A graph resolved without fields is the one resolved with them, less the fields. -/
theorem value_resolve_undecoded : (g.resolve objects index idSize false).value
    = (g.resolve objects index idSize resolveFields).value.withoutFields := by
  let classes := (Noted.eachIn g.classes (·.lookup objects)).value
  let ctx : Resolution := { objects, classes, index, idSize, resolveFields }
  have hinstances : (Noted.eachIn g.instances ctx.undecoded.resolveInstance).value
      = (Noted.eachIn g.instances ctx.resolveInstance).value.map Instance.withoutFields := by
    rw [Noted.value_eachIn, Noted.value_eachIn, Array.map_map]
    exact Array.map_congr_left fun i _ => ctx.value_resolveInstance_undecoded i
  rw [resolve, resolve, Noted.value_bind, Noted.value_bind, Noted.value_bind, Noted.value_bind,
    Noted.value_bind, Noted.value_bind, Noted.value_pure, Noted.value_pure,
    ← link_withoutFields]
  exact congrArg (fun instances => Graph.link ⟨classes, instances, _⟩) hinstances

/-- What is noted is the same, less what is about fields. -/
theorem notes_resolve_undecoded : (g.resolve objects index idSize false).notes
    = (g.resolve objects index idSize resolveFields).notes.filter (¬ ·.aboutFields) := by
  let classes := (Noted.eachIn g.classes (·.lookup objects)).value
  let ctx : Resolution := { objects, classes, index, idSize, resolveFields }
  have hclasses : (Noted.eachIn g.classes (·.lookup objects)).Every (¬ ·.aboutFields) :=
    Noted.every_eachIn fun c _ => c.every_lookup_not_aboutFields objects
  have hroots : (Noted.eachIn g.roots (·.lookup objects)).Every (¬ ·.aboutFields) :=
    Noted.every_eachIn fun r _ => r.every_lookup_not_aboutFields objects
  have hinstances : (Noted.eachIn g.instances ctx.undecoded.resolveInstance).notes
      = (Noted.eachIn g.instances ctx.resolveInstance).notes.filter (¬ ·.aboutFields) := by
    rw [Noted.notes_eachIn, Noted.notes_eachIn, List.filter_flatMap]
    exact List.flatMap_congr fun i _ => ctx.notes_resolveInstance_undecoded i
  simp only [resolve, Noted.notes_bind, Noted.notes_pure, List.append_nil, List.filter_append]
  rw [hclasses.filter_eq_self, hroots.filter_eq_self, ← hinstances]
  rfl

end

end Graph

end HeapDump
