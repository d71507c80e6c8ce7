/-
HeapDump/Proofs/Diagnostic/Selection.lean

Logs with some of their diagnostics left out, and notes that are all of one sort.

To leave diagnostics out of a log commutes with reporting them (`select_pushAll`), for the
sink as well as for the entries, so two readings that differ in what they report can be
compared by what is left of their logs.

What comes up on the way to a result is all of one sort if each part of the way notes
nothing else (`Noted.Every`): a sequence, a list or an array of steps keeps to a sort if its
steps do.  All that is noted while a graph is resolved is about a reference, or about the data
and the superclasses of an object.  Main statement: `Graph.resolving_resolve`, assembled from
one lemma for each function that notes something.
-/
import HeapDump.Graph.Resolution
import HeapDump.Proofs.Diagnostic.Log

namespace HeapDump

/-! ### Selected diagnostics -/

namespace Diagnostics

variable (keep : Diagnostic → Bool)

/-- The diagnostics that are to be kept, also of those that the sink was told. -/
def select (log : Diagnostics) : Diagnostics :=
  { entries := log.entries.filter keep, sink := log.sink.map (·.filter keep) }

@[simp] theorem toList_select (log : Diagnostics) :
    (log.select keep).toList = log.toList.filter keep := by
  simp [select, toList]

@[simp] theorem select_start (attachSink : Bool) :
    (start attachSink).select keep = start attachSink := by
  cases attachSink <;> rfl

theorem select_push (log : Diagnostics) (d : Diagnostic) :
    (log.push d).select keep = if keep d then (log.select keep).push d else log.select keep := by
  have hfilter : ∀ entries : Array Diagnostic, (entries.push d).filter keep
      = if keep d then (entries.filter keep).push d else entries.filter keep := by
    intro entries
    rw [Array.filter_push]
  obtain ⟨entries, sink⟩ := log
  cases sink with
  | none =>
    simp only [select, push, hfilter, Option.map_none]
    split <;> rfl
  | some told =>
    simp only [select, push, hfilter, Option.map_some]
    split <;> rfl

theorem select_pushAll (log : Diagnostics) (ds : List Diagnostic) :
    (log.pushAll ds).select keep = (log.select keep).pushAll (ds.filter keep) := by
  induction ds generalizing log with
  | nil => rfl
  | cons d ds ih =>
    rw [pushAll, List.foldl_cons, ← pushAll, ih, select_push]
    by_cases hd : keep d
    · rw [if_pos hd, List.filter_cons_of_pos hd]
      rfl
    · rw [if_neg hd, List.filter_cons_of_neg hd]

end Diagnostics

/-! ### Notes of one sort -/

namespace Noted

/-- All that is noted on the way to a result is of one sort. -/
structure Every (P : Diagnostic → Prop) (x : Noted α) : Prop where
  of_mem : ∀ d ∈ x.notes, P d

variable {P : Diagnostic → Prop}

theorem every_pure (a : α) : (pure a : Noted α).Every P where
  of_mem d hd := by cases hd

theorem every_singleton {a : α} {d : Diagnostic} (h : P d) : Every P ⟨a, [d]⟩ where
  of_mem d' hd' := by rwa [List.mem_singleton.mp hd']

theorem every_note {d : Diagnostic} (h : P d) : (note d).Every P := every_singleton h

theorem Every.bind {x : Noted α} {f : α → Noted β} (hx : x.Every P) (hf : (f x.value).Every P) :
    (x >>= f).Every P where
  of_mem d hd := by
    rcases List.mem_append.mp hd with hd | hd
    · exact hx.of_mem d hd
    · exact hf.of_mem d hd

theorem every_each {xs : List α} {f : α → Noted β} (h : ∀ x ∈ xs, (f x).Every P) :
    (each xs f).Every P where
  of_mem d hd := by
    rw [notes_each] at hd
    obtain ⟨x, hx, hd⟩ := List.mem_flatMap.mp hd
    exact (h x hx).of_mem d hd

theorem every_eachIn {xs : Array α} {f : α → Noted β} (h : ∀ x ∈ xs, (f x).Every P) :
    (eachIn xs f).Every P where
  of_mem d hd := by
    rw [notes_eachIn] at hd
    obtain ⟨x, hx, hd⟩ := List.mem_flatMap.mp hd
    exact (h x (Array.mem_toList_iff.mp hx)).of_mem d hd

/-- Nothing is left out of notes that are all of the sort to be kept. -/
theorem Every.filter_eq_self [DecidablePred P] {x : Noted α} (h : x.Every P) :
    x.notes.filter (P ·) = x.notes :=
  List.filter_eq_self.mpr fun d hd => decide_eq_true (h.of_mem d hd)

/-- All is left out of notes that are all of the sort to be left out. -/
theorem Every.filter_not_eq_nil [DecidablePred P] {x : Noted α} (h : x.Every P) :
    x.notes.filter (¬ P ·) = [] :=
  List.filter_eq_nil_iff.mpr fun d hd => by simpa using h.of_mem d hd

end Noted

/-! ### Lookups -/

section

variable {P : Diagnostic → Prop} (objects : ObjectTable) (offset : Nat) {holder : Holder}

theorem Reference.every_lookup
    (h : ∀ id, P { cause := .unresolved id holder, offset := some offset, object := some id })
    (r : Reference) : (r.lookup objects offset holder).Every P := by
  cases r with
  | unresolved id =>
    rw [lookup]
    split
    · exact Noted.every_pure _
    · exact Noted.every_singleton (h id)
  | _ => exact Noted.every_pure _

theorem Reference.every_lookupClass
    (h : ∀ id, P { cause := .unresolved id holder, offset := some offset, object := some id })
    (hclass : ∀ id, P { cause := .notAClass id holder, offset := some offset, object := some id })
    (r : Reference) : (r.lookupClass objects offset holder).Every P := by
  cases r with
  | unresolved id =>
    rw [lookupClass]
    split
    · exact Noted.every_pure _
    · exact Noted.every_singleton (hclass id)
    · exact Noted.every_singleton (h id)
  | _ => exact Noted.every_pure _

theorem Value.every_lookup
    (h : ∀ id, P { cause := .unresolved id holder, offset := some offset, object := some id })
    (v : Value Reference) : (v.lookup objects offset holder).Every P := by
  cases v with
  | object r => exact (r.every_lookup objects offset h).bind (Noted.every_pure _)
  | _ => exact Noted.every_pure _

end

/-! ### Resolving -/

/-- The causes of what is reported while a graph is resolved. -/
inductive ResolvingCause : Cause → Prop
  | unresolved (id : ObjectId) (holder : Holder) : ResolvingCause (.unresolved id holder)
  | notAClass (id : ObjectId) (holder : Holder) : ResolvingCause (.notAClass id holder)
  | shortFieldData (id : ObjectId) (size : Nat) (field declaring : String) :
      ResolvingCause (.shortFieldData id size field declaring)
  | excessFieldData (id : ObjectId) (rest : Nat) : ResolvingCause (.excessFieldData id rest)
  | cyclicSuperclasses (className : String) : ResolvingCause (.cyclicSuperclasses className)

/-- A result with notes about references, data and superclasses only. -/
abbrev Noted.Resolving (x : Noted α) : Prop := x.Every fun d => ResolvingCause d.cause

section

variable (objects : ObjectTable)

theorem Reference.resolving_lookup (offset : Nat) (holder : Holder) (r : Reference) :
    (r.lookup objects offset holder).Resolving :=
  r.every_lookup objects offset fun _ => .unresolved ..

theorem Reference.resolving_lookupClass (offset : Nat) (holder : Holder) (r : Reference) :
    (r.lookupClass objects offset holder).Resolving :=
  r.every_lookupClass objects offset (fun _ => .unresolved ..) fun _ => .notAClass ..

theorem Value.resolving_lookup (offset : Nat) (holder : Holder) (v : Value Reference) :
    (v.lookup objects offset holder).Resolving :=
  v.every_lookup objects offset fun _ => .unresolved ..

theorem ClassObject.resolving_lookup (c : ClassObject) : (c.lookup objects).Resolving := by
  rw [lookup]
  refine (Reference.resolving_lookupClass ..).bind ?_
  refine (Reference.resolving_lookup ..).bind ?_
  refine (Noted.every_each fun constant _ => ?_).bind ?_
  · exact (Value.resolving_lookup ..).bind (Noted.every_pure _)
  refine (Noted.every_each fun s _ => ?_).bind (Noted.every_pure _)
  exact (Value.resolving_lookup ..).bind (Noted.every_pure _)

theorem GcRoot.resolving_lookup (r : GcRoot) : (r.lookup objects).Resolving :=
  (Reference.resolving_lookup ..).bind (Noted.every_pure _)

theorem resolving_readLayout (idSize : Nat) (owner : FieldOwner) (fields : List LayoutField)
    (p : Parser) : (readLayout objects idSize owner fields p).Resolving := by
  induction fields generalizing p with
  | nil => exact Noted.every_pure _
  | cons f rest ih =>
    -- the data end in this field, which is noted, or the field is looked up and the rest is read
    rw [readLayout]
    rcases Value.parse f.field.type idSize p with ⟨e | raw, p⟩
    · exact Noted.Every.bind (Noted.every_note (.shortFieldData ..)) (Noted.every_pure _)
    · exact (Value.resolving_lookup ..).bind ((ih p).bind (Noted.every_pure _))

theorem resolving_decodeFields (classes : Array ClassObject) (idSize : Nat) (owner : FieldOwner)
    (data : ByteArray) (i : Nat) :
    (decodeFields objects classes idSize owner data i).Resolving := by
  rw [decodeFields]
  -- behind the fields come a cycle of superclasses and bytes that are left over
  refine Noted.Every.bind (resolving_readLayout ..) ?_
  dsimp only
  split
  · exact Noted.every_pure _
  · split
    · split
      · exact Noted.Every.bind (Noted.every_note (.cyclicSuperclasses _)) (Noted.every_pure _)
      · exact Noted.every_pure _
    · split
      · exact Noted.Every.bind (Noted.every_note (.excessFieldData ..)) (Noted.every_pure _)
      · exact Noted.every_pure _

end

theorem Resolution.resolving_objectFields (ctx : Resolution) (i : Instance)
    (classRef : Reference) (data : ByteArray) : (ctx.objectFields i classRef data).Resolving := by
  rw [objectFields]
  split
  · split
    · exact resolving_decodeFields ..
    · exact Noted.every_pure _
  · exact Noted.every_pure _

theorem Resolution.resolving_resolveInstance (ctx : Resolution) (i : Instance) :
    (ctx.resolveInstance i).Resolving := by
  rw [resolveInstance]
  split
  · exact (Reference.resolving_lookupClass ..).bind
      ((ctx.resolving_objectFields ..).bind (Noted.every_pure _))
  · refine (Reference.resolving_lookupClass ..).bind ?_
    refine (Noted.every_each fun element _ => ?_).bind (Noted.every_pure _)
    exact Reference.resolving_lookup ..
  · exact Noted.every_pure _

/-- **All that is noted while a graph is resolved** is about references, data and superclasses. -/
theorem Graph.resolving_resolve (objects : ObjectTable) (index : ClassIndex) (idSize : Nat)
    (resolveFields : Bool) (g : Graph) :
    (g.resolve objects index idSize resolveFields).Resolving := by
  rw [resolve]
  -- classes, then instances, then roots
  refine (Noted.every_eachIn fun c _ => c.resolving_lookup objects).bind ?_
  refine (Noted.every_eachIn fun i _ => Resolution.resolving_resolveInstance _ i).bind ?_
  exact (Noted.every_eachIn fun r _ => r.resolving_lookup objects).bind (Noted.every_pure _)

end HeapDump
