/-
HeapDump/Proofs/Graph/Relocation.lean

Graphs whose records stand at other places.

Places in the file are kept with objects, roots and diagnostics, but nothing is decided
by them.  If every place `p` is replaced by `φ p` before references are looked up, what
comes out is the same graph and the same notes with their places replaced
(`Graph.value_resolve_relocate`, `Graph.notes_resolve_relocate`).

For each function on the way there is one lemma, which says that it commutes with
`relocate`, in the order in which the graph is resolved: lookups of single references and
values, classes and roots, layouts and decoded fields, instances, the graph.  Values and
notes are separate lemmas where both are long.  Nothing is asked of `φ`.
-/
import HeapDump.Diagnostic.Log
import HeapDump.Graph.Resolution
import Mathlib.Data.List.Basic

namespace HeapDump

variable (φ : Nat → Nat)

/-! ### Diagnostics -/

/-- A diagnostic about another place. -/
def Diagnostic.relocate (d : Diagnostic) : Diagnostic := { d with offset := d.offset.map φ }

namespace Diagnostics

/-- A log about other places, and what its sink would have been told. -/
def relocate (log : Diagnostics) : Diagnostics :=
  { entries := log.entries.map (Diagnostic.relocate φ)
    sink := log.sink.map (·.map (Diagnostic.relocate φ)) }

@[simp] theorem relocate_start (attachSink : Bool) :
    (start attachSink).relocate φ = start attachSink := by
  cases attachSink <;> simp [start, relocate]

theorem relocate_push (log : Diagnostics) (d : Diagnostic) :
    (log.push d).relocate φ = (log.relocate φ).push (d.relocate φ) := by
  obtain ⟨entries, sink⟩ := log
  cases sink with
  | none => simp only [push, relocate, Array.map_push, Option.map_none]
  | some told => simp only [push, relocate, Array.map_push, Option.map_some]

theorem relocate_pushAll (log : Diagnostics) (ds : List Diagnostic) :
    (log.pushAll ds).relocate φ = (log.relocate φ).pushAll (ds.map (Diagnostic.relocate φ)) := by
  induction ds generalizing log with
  | nil => rfl
  | cons d ds ih =>
    rw [pushAll, List.foldl_cons, ← pushAll, ih, relocate_push]
    rfl

end Diagnostics

namespace Noted

/-- A result with notes about other places. -/
def relocate (x : Noted α) : Noted α := ⟨x.value, x.notes.map (Diagnostic.relocate φ)⟩

@[simp] theorem value_relocate (x : Noted α) : (x.relocate φ).value = x.value := rfl

@[simp] theorem notes_relocate (x : Noted α) :
    (x.relocate φ).notes = x.notes.map (Diagnostic.relocate φ) := rfl

theorem relocate_bind (x : Noted α) (f : α → Noted β) :
    (x >>= f).relocate φ = x.relocate φ >>= fun a => (f a).relocate φ := by
  show (⟨_, (x.notes ++ _).map _⟩ : Noted β) = ⟨_, x.notes.map _ ++ _⟩
  rw [List.map_append]
  rfl

theorem value_eachIn_map {xs : Array α} {place : α → α} {f f' : α → Noted β} {place' : β → β}
    (h : ∀ x, (f' (place x)).value = place' (f x).value) :
    (eachIn (xs.map place) f').value = (eachIn xs f).value.map place' := by
  rw [value_eachIn, value_eachIn, Array.map_map, Array.map_map]
  exact Array.map_congr_left fun x _ => h x

theorem notes_eachIn_map {xs : Array α} {place : α → α} {f f' : α → Noted β}
    (h : ∀ x, (f' (place x)).notes = (f x).notes.map (Diagnostic.relocate φ)) :
    (eachIn (xs.map place) f').notes = (eachIn xs f).notes.map (Diagnostic.relocate φ) := by
  rw [notes_eachIn, notes_eachIn, Array.toList_map, List.flatMap_map, List.map_flatMap]
  exact List.flatMap_congr fun x _ => h x

end Noted

/-! ### Lookups -/

section

variable (objects : ObjectTable) (offset : Nat) (holder : Holder)

theorem Reference.lookup_relocate (r : Reference) :
    r.lookup objects (φ offset) holder = (r.lookup objects offset holder).relocate φ := by
  cases r with
  | unresolved id =>
    rw [lookup, lookup]
    cases objects[id]? <;> rfl
  | _ => rfl

theorem Reference.lookupClass_relocate (r : Reference) :
    r.lookupClass objects (φ offset) holder = (r.lookupClass objects offset holder).relocate φ := by
  cases r with
  | unresolved id =>
    rw [lookupClass, lookupClass]
    rcases objects[id]? with _ | i | i <;> rfl
  | _ => rfl

theorem Value.lookup_relocate (v : Value Reference) :
    v.lookup objects (φ offset) holder = (v.lookup objects offset holder).relocate φ := by
  cases v with
  | object r =>
    rw [lookup, lookup, Noted.relocate_bind, Reference.lookup_relocate]
    rfl
  | _ => rfl

end

/-! ### Classes and roots -/

/-- A class whose record stands at another place. -/
def ClassObject.relocate (c : ClassObject) : ClassObject := { c with offset := φ c.offset }

/-- A root whose record stands at another place. -/
def GcRoot.relocate (r : GcRoot) : GcRoot := { r with offset := φ r.offset }

/-- What is looked up for a class does not depend on its place. -/
theorem ClassObject.value_lookup_relocate (objects : ObjectTable) (c : ClassObject) :
    ((c.relocate φ).lookup objects).value = (c.lookup objects).value.relocate φ := by
  simp only [lookup, relocate, Reference.lookupClass_relocate, Reference.lookup_relocate,
    Value.lookup_relocate, Noted.value_bind, Noted.value_relocate, Noted.value_each,
    Noted.value_pure]

theorem ClassObject.notes_lookup_relocate (objects : ObjectTable) (c : ClassObject) :
    ((c.relocate φ).lookup objects).notes
      = (c.lookup objects).notes.map (Diagnostic.relocate φ) := by
  simp only [lookup, relocate, Reference.lookupClass_relocate, Reference.lookup_relocate,
    Value.lookup_relocate, Noted.notes_bind, Noted.notes_relocate, Noted.notes_each,
    Noted.notes_pure, List.append_nil, List.map_append, List.map_flatMap]

theorem GcRoot.value_lookup_relocate (objects : ObjectTable) (r : GcRoot) :
    ((r.relocate φ).lookup objects).value = (r.lookup objects).value.relocate φ := by
  simp only [lookup, relocate, Reference.lookup_relocate, Noted.value_bind, Noted.value_relocate,
    Noted.value_pure]

theorem GcRoot.notes_lookup_relocate (objects : ObjectTable) (r : GcRoot) :
    ((r.relocate φ).lookup objects).notes
      = (r.lookup objects).notes.map (Diagnostic.relocate φ) := by
  simp only [lookup, relocate, Reference.lookup_relocate, Noted.notes_bind, Noted.notes_relocate,
    Noted.notes_pure, List.append_nil]

/-! ### Fields -/

section

variable (classes : Array ClassObject)

theorem superclassesFrom_relocate (fuel i : Nat) :
    superclassesFrom (classes.map (ClassObject.relocate φ)) fuel i
      = superclassesFrom classes fuel i := by
  induction fuel generalizing i with
  | zero => rfl
  | succ fuel ih =>
    rw [superclassesFrom, superclassesFrom, Array.getElem?_map, Option.bind_map]
    simp only [ih]
    rfl

theorem superclassChain_relocate (i : Nat) :
    superclassChain (classes.map (ClassObject.relocate φ)) i = superclassChain classes i := by
  rw [superclassChain, superclassChain, superclassesFrom_relocate, Array.size_map]

theorem layout_relocate (chain : List Nat) :
    layout (classes.map (ClassObject.relocate φ)) chain = layout classes chain := by
  rw [layout, layout]
  refine List.flatMap_congr fun i _ => ?_
  rw [layoutPart, layoutPart, Array.getElem?_map]
  cases classes[i]? <;> rfl

end

/-- The object whose fields are decoded, at another place. -/
def FieldOwner.relocate (owner : FieldOwner) : FieldOwner :=
  { owner with offset := φ owner.offset }

theorem readLayout_relocate (objects : ObjectTable) (idSize : Nat) (owner : FieldOwner)
    (fields : List LayoutField) (p : Parser) :
    readLayout objects idSize (owner.relocate φ) fields p
      = (readLayout objects idSize owner fields p).relocate φ := by
  induction fields generalizing p with
  | nil => rfl
  | cons f rest ih =>
    rw [readLayout, readLayout]
    rcases Value.parse f.field.type idSize p with ⟨e | raw, p⟩
    · rfl
    · simp only [Noted.relocate_bind, FieldOwner.relocate, Value.lookup_relocate] at ih ⊢
      simp only [ih]
      rfl

theorem decodeFields_relocate (objects : ObjectTable) (classes : Array ClassObject)
    (idSize : Nat) (owner : FieldOwner) (data : ByteArray) (i : Nat) :
    decodeFields objects (classes.map (ClassObject.relocate φ)) idSize (owner.relocate φ) data i
      = (decodeFields objects classes idSize owner data i).relocate φ := by
  rw [decodeFields, decodeFields, superclassChain_relocate, layout_relocate, readLayout_relocate,
    Array.size_map, Array.getElem?_map, Noted.relocate_bind]
  refine congrArg (_ >>= ·) (funext fun ⟨values, p?⟩ => ?_)
  cases p? with
  | none => rfl
  | some p =>
    dsimp only
    split
    · cases classes[i]? <;> rfl
    · split <;> rfl

/-! ### Instances -/

/-- An instance whose record stands at another place. -/
def Instance.relocate (i : Instance) : Instance := { i with offset := φ i.offset }

namespace Resolution

variable (ctx : Resolution)

/-- The same with classes whose records stand at other places. -/
def relocate : Resolution := { ctx with classes := ctx.classes.map (ClassObject.relocate φ) }

theorem arrayClass_relocate (t : BasicType) :
    (ctx.relocate φ).arrayClass t = ctx.arrayClass t := by
  rw [arrayClass, arrayClass]
  simp only [relocate, Array.getElem?_map]
  by_cases ht : t = .object
  · rw [if_pos ht, if_pos ht]
  · rw [if_neg ht, if_neg ht]
    rcases ctx.index[t.arrayClassName]?.bind (·[0]?) with _ | i
    · rfl
    · dsimp only
      cases ctx.classes[i]? <;> rfl

theorem objectSize_relocate (classRef : Reference) (data : ByteArray) :
    (ctx.relocate φ).objectSize classRef data = ctx.objectSize classRef data := by
  rw [objectSize, objectSize]
  simp only [relocate, Array.getElem?_map]
  cases classRef.class? with
  | none => rfl
  | some i => cases h : ctx.classes[i]? <;> simp [h, ClassObject.relocate]

theorem objectFields_relocate (i : Instance) (classRef : Reference) (data : ByteArray) :
    (ctx.relocate φ).objectFields (i.relocate φ) classRef data
      = (ctx.objectFields i classRef data).relocate φ := by
  obtain ⟨objects, classes, index, idSize, resolveFields⟩ := ctx
  rw [objectFields, objectFields]
  cases classRef.class? with
  | none => rfl
  | some c =>
    cases resolveFields with
    | false => rfl
    | true => exact decodeFields_relocate φ objects classes idSize ⟨i.id, i.offset, data.size⟩ data c

/-- What an instance is resolved to does not depend on places. -/
theorem value_resolveInstance_relocate (i : Instance) :
    ((ctx.relocate φ).resolveInstance (i.relocate φ)).value
      = (ctx.resolveInstance i).value.relocate φ := by
  obtain ⟨id, heap, offset, classRef, stackSerial, contents, size⟩ := i
  cases contents with
  | object data fields =>
    have hfields := fun classRef' => ctx.objectFields_relocate φ
      ⟨id, heap, offset, classRef, stackSerial, .object data fields, size⟩ classRef' data
    simp only [resolveInstance, Instance.relocate, Reference.lookupClass_relocate,
      objectSize_relocate, Noted.value_bind, Noted.value_relocate, Noted.value_pure] at hfields ⊢
    simp only [hfields]
    rfl
  | objectArray elements =>
    simp only [resolveInstance, Instance.relocate, Reference.lookupClass_relocate,
      Reference.lookup_relocate, Noted.value_bind, Noted.value_relocate, Noted.value_each,
      Noted.value_pure]
    rfl
  | primitiveArray elementType length data =>
    simp only [resolveInstance, Instance.relocate, arrayClass_relocate, Noted.value_pure]
    rfl

/-- Nor does what is noted of it, but for the place itself. -/
theorem notes_resolveInstance_relocate (i : Instance) :
    ((ctx.relocate φ).resolveInstance (i.relocate φ)).notes
      = (ctx.resolveInstance i).notes.map (Diagnostic.relocate φ) := by
  obtain ⟨id, heap, offset, classRef, stackSerial, contents, size⟩ := i
  cases contents with
  | object data fields =>
    have hfields := fun classRef' => ctx.objectFields_relocate φ
      ⟨id, heap, offset, classRef, stackSerial, .object data fields, size⟩ classRef' data
    simp only [resolveInstance, Instance.relocate, Reference.lookupClass_relocate,
      Noted.notes_bind, Noted.notes_relocate, Noted.notes_pure, List.append_nil,
      List.map_append] at hfields ⊢
    simp only [hfields]
    rfl
  | objectArray elements =>
    simp only [resolveInstance, Instance.relocate, Reference.lookupClass_relocate,
      Reference.lookup_relocate, Noted.notes_bind, Noted.notes_relocate, Noted.notes_each,
      Noted.notes_pure, List.append_nil, List.map_append, List.map_flatMap]
    rfl
  | primitiveArray elementType length data => rfl

end Resolution

/-! ### Graphs -/

namespace Graph

/-- A graph whose records stand at other places. -/
def relocate (g : Graph) : Graph :=
  ⟨g.classes.map (ClassObject.relocate φ), g.instances.map (Instance.relocate φ),
    g.roots.map (GcRoot.relocate φ)⟩

/-- Linking does not look at places. -/
theorem link_relocate (g : Graph) : (g.relocate φ).link = g.link.relocate φ := by
  have hsupers : (g.relocate φ).classes.toList.map (·.superclass.class?)
      = g.classes.toList.map (·.superclass.class?) := by
    rw [relocate, Array.toList_map, List.map_map]
    rfl
  have hclasses : (g.relocate φ).instances.toList.map (·.classRef.class?)
      = g.instances.toList.map (·.classRef.class?) := by
    rw [relocate, Array.toList_map, List.map_map]
    rfl
  have hsize : (g.relocate φ).classes.size = g.classes.size := Array.size_map
  rw [link, link, hsupers, hclasses, hsize]
  refine Graph.mk.injEq .. ▸ ⟨Array.ext_getElem? fun i => ?_, rfl, rfl⟩
  simp only [relocate, Array.getElem?_mapIdx, Array.getElem?_map, Option.map_map]
  rfl

section

variable (objects : ObjectTable) (index : ClassIndex) (idSize : Nat) (resolveFields : Bool)
  (g : Graph)

/-- **A graph is resolved to the same graph, whatever its places.** -/
theorem value_resolve_relocate :
    ((g.relocate φ).resolve objects index idSize resolveFields).value
      = (g.resolve objects index idSize resolveFields).value.relocate φ := by
  let classes := (Noted.eachIn g.classes (·.lookup objects)).value
  let ctx : Resolution := { objects, classes, index, idSize, resolveFields }
  have hclasses : (Noted.eachIn (g.relocate φ).classes (·.lookup objects)).value
      = classes.map (ClassObject.relocate φ) :=
    Noted.value_eachIn_map fun c => c.value_lookup_relocate φ objects
  have hinstances : (Noted.eachIn (g.relocate φ).instances (ctx.relocate φ).resolveInstance).value
      = (Noted.eachIn g.instances ctx.resolveInstance).value.map (Instance.relocate φ) :=
    Noted.value_eachIn_map (ctx.value_resolveInstance_relocate φ)
  have hroots : (Noted.eachIn (g.relocate φ).roots (·.lookup objects)).value
      = (Noted.eachIn g.roots (·.lookup objects)).value.map (GcRoot.relocate φ) :=
    Noted.value_eachIn_map fun r => r.value_lookup_relocate φ objects
  simp only [resolve, Noted.value_bind, Noted.value_pure, hclasses, hroots, ← link_relocate]
  exact congrArg (fun instances => Graph.link ⟨_, instances, _⟩) hinstances

/-- So are the notes, but for the places themselves. -/
theorem notes_resolve_relocate :
    ((g.relocate φ).resolve objects index idSize resolveFields).notes
      = (g.resolve objects index idSize resolveFields).notes.map (Diagnostic.relocate φ) := by
  let classes := (Noted.eachIn g.classes (·.lookup objects)).value
  let ctx : Resolution := { objects, classes, index, idSize, resolveFields }
  have hlookedUp : (Noted.eachIn (g.relocate φ).classes (·.lookup objects)).value
      = classes.map (ClassObject.relocate φ) :=
    Noted.value_eachIn_map fun c => c.value_lookup_relocate φ objects
  have hclasses : (Noted.eachIn (g.relocate φ).classes (·.lookup objects)).notes
      = (Noted.eachIn g.classes (·.lookup objects)).notes.map (Diagnostic.relocate φ) :=
    Noted.notes_eachIn_map φ fun c => c.notes_lookup_relocate φ objects
  have hinstances : (Noted.eachIn (g.relocate φ).instances (ctx.relocate φ).resolveInstance).notes
      = (Noted.eachIn g.instances ctx.resolveInstance).notes.map (Diagnostic.relocate φ) :=
    Noted.notes_eachIn_map φ (ctx.notes_resolveInstance_relocate φ)
  have hroots : (Noted.eachIn (g.relocate φ).roots (·.lookup objects)).notes
      = (Noted.eachIn g.roots (·.lookup objects)).notes.map (Diagnostic.relocate φ) :=
    Noted.notes_eachIn_map φ fun r => r.notes_lookup_relocate φ objects
  simp only [resolve, Noted.notes_bind, Noted.notes_pure, List.append_nil, List.map_append,
    hlookedUp, hclasses, hroots]
  exact congrArg (fun notes => _ ++ (notes ++ _)) hinstances

end

end Graph

end HeapDump
