/-
HeapDump/Proofs/Graph/Holders.lean

Which instances the diagnostics about references name as their holders.

While a graph is resolved these are plain objects and arrays of references, but no
array of a primitive type (`Graph.heldBy_resolve`).  Nothing else that is reported
about a dump names a holder at all, so the same holds of all that a finished snapshot
reports (`exists_toList_diagnostics_finish`).

`x.HeldBy held` says that each holder among the notes of a computation satisfies
`held`.  It goes through sequences and repetitions, so there is one lemma for each
function that notes something, and the bound is narrowed on the way: the fields of an
instance and its elements name this instance only.
-/
import HeapDump.Proofs.Diagnostic.Log
import HeapDump.Snapshot.Load

namespace HeapDump

/-! ### Holders -/

/-- The instance that holds a reference, if it is one. -/
def Holder.instance? : Holder → Option ObjectId
  | classOfInstance id | classOfArray id | element _ id | field _ id => some id
  | superclass _ | classLoader _ | constant _ _ | staticField _ _ | root _ => none

/-- The holder of the reference that a cause is about. -/
def Cause.holder? : Cause → Option Holder
  | unresolved _ holder | notAClass _ holder => some holder
  | _ => none

/-- The instance that a diagnostic names as the holder of a reference. -/
def Diagnostic.holderId? (d : Diagnostic) : Option ObjectId :=
  d.cause.holder?.bind Holder.instance?

/-! ### Notes about the references of some instances -/

namespace Noted

/-- The notes that name instances as holders name only some. -/
def HeldBy (x : Noted α) (held : ObjectId → Prop) : Prop :=
  ∀ d ∈ x.notes, ∀ id, d.holderId? = some id → held id

variable {held : ObjectId → Prop}

theorem heldBy_pure (a : α) : (pure a : Noted α).HeldBy held := by
  intro d hd
  cases hd

theorem heldBy_note {d : Diagnostic} (h : d.cause.holder? = none) : (note d).HeldBy held := by
  intro d' hd' id hid
  obtain rfl := List.mem_singleton.mp hd'
  rw [Diagnostic.holderId?, h] at hid
  cases hid

theorem HeldBy.bind {x : Noted α} {f : α → Noted β} (hx : x.HeldBy held)
    (hf : ∀ a, (f a).HeldBy held) : (x >>= f).HeldBy held := by
  intro d hd
  rcases List.mem_append.mp hd with hd | hd
  · exact hx d hd
  · exact hf x.value d hd

theorem heldBy_each {xs : List α} {f : α → Noted β} (h : ∀ x ∈ xs, (f x).HeldBy held) :
    (each xs f).HeldBy held := by
  intro d hd
  rw [notes_each] at hd
  obtain ⟨x, hx, hd⟩ := List.mem_flatMap.mp hd
  exact h x hx d hd

theorem heldBy_eachIn {xs : Array α} {f : α → Noted β} (h : ∀ x ∈ xs, (f x).HeldBy held) :
    (eachIn xs f).HeldBy held := by
  intro d hd
  rw [notes_eachIn] at hd
  obtain ⟨x, hx, hd⟩ := List.mem_flatMap.mp hd
  exact h x (Array.mem_toList_iff.mp hx) d hd

end Noted

/-! ### Lookups -/

section

variable {held : ObjectId → Prop} (objects : ObjectTable) (offset : Nat) {holder : Holder}

theorem Reference.heldBy_missing (id : ObjectId) (h : ∀ id, holder.instance? = some id → held id) :
    (missing id offset holder).HeldBy held := by
  intro d hd
  obtain rfl := List.mem_singleton.mp hd
  exact h

theorem Reference.heldBy_lookup (h : ∀ id, holder.instance? = some id → held id)
    (r : Reference) : (r.lookup objects offset holder).HeldBy held := by
  cases r with
  | unresolved id =>
    rw [lookup]
    split
    · exact Noted.heldBy_pure _
    · exact heldBy_missing offset id h
  | _ => exact Noted.heldBy_pure _

theorem Reference.heldBy_lookupClass (h : ∀ id, holder.instance? = some id → held id)
    (r : Reference) : (r.lookupClass objects offset holder).HeldBy held := by
  cases r with
  | unresolved id =>
    rw [lookupClass]
    split
    · exact Noted.heldBy_pure _
    · intro d hd
      obtain rfl := List.mem_singleton.mp hd
      exact h
    · exact heldBy_missing offset id h
  | _ => exact Noted.heldBy_pure _

theorem Value.heldBy_lookup (h : ∀ id, holder.instance? = some id → held id)
    (v : Value Reference) : (v.lookup objects offset holder).HeldBy held := by
  cases v with
  | object r => exact (r.heldBy_lookup objects offset h).bind fun _ => Noted.heldBy_pure _
  | _ => exact Noted.heldBy_pure _

end

/-- No note about a class names an instance as the holder. -/
theorem ClassObject.heldBy_lookup (objects : ObjectTable) (c : ClassObject)
    (held : ObjectId → Prop) : (c.lookup objects).HeldBy held := by
  rw [lookup]
  refine (Reference.heldBy_lookupClass _ _ (by simp [Holder.instance?]) _).bind fun _ => ?_
  refine (Reference.heldBy_lookup _ _ (by simp [Holder.instance?]) _).bind fun _ => ?_
  refine (Noted.heldBy_each fun constant _ => ?_).bind fun _ => ?_
  · exact (Value.heldBy_lookup _ _ (by simp [Holder.instance?]) _).bind fun _ =>
      Noted.heldBy_pure _
  refine (Noted.heldBy_each fun s _ => ?_).bind fun _ => Noted.heldBy_pure _
  exact (Value.heldBy_lookup _ _ (by simp [Holder.instance?]) _).bind fun _ =>
    Noted.heldBy_pure _

theorem GcRoot.heldBy_lookup (objects : ObjectTable) (r : GcRoot) (held : ObjectId → Prop) :
    (r.lookup objects).HeldBy held :=
  (Reference.heldBy_lookup _ _ (by simp [Holder.instance?]) _).bind fun _ => Noted.heldBy_pure _

/-! ### Instances -/

theorem heldBy_readLayout (objects : ObjectTable) (idSize : Nat) (owner : FieldOwner)
    (fields : List LayoutField) (p : Parser) {held : ObjectId → Prop} (h : held owner.id) :
    (readLayout objects idSize owner fields p).HeldBy held := by
  induction fields generalizing p with
  | nil => exact Noted.heldBy_pure _
  | cons f rest ih =>
    rw [readLayout]
    rcases Value.parse f.field.type idSize p with ⟨(e | raw), p⟩
    · exact (Noted.heldBy_note rfl).bind fun _ => Noted.heldBy_pure _
    · refine (Value.heldBy_lookup _ _ (by simpa [Holder.instance?] using h) _).bind fun _ => ?_
      exact (ih p).bind fun _ => Noted.heldBy_pure _

theorem heldBy_decodeFields (objects : ObjectTable) (classes : Array ClassObject) (idSize : Nat)
    (owner : FieldOwner) (data : ByteArray) (i : Nat) {held : ObjectId → Prop}
    (h : held owner.id) :
    (decodeFields objects classes idSize owner data i).HeldBy held := by
  rw [decodeFields]
  refine (heldBy_readLayout objects idSize owner _ _ h).bind fun result => ?_
  obtain ⟨values, p?⟩ := result
  cases p? with
  | none => exact Noted.heldBy_pure _
  | some p =>
    dsimp only
    split
    · split
      · exact (Noted.heldBy_note rfl).bind fun _ => Noted.heldBy_pure _
      · exact Noted.heldBy_pure _
    · split
      · exact (Noted.heldBy_note rfl).bind fun _ => Noted.heldBy_pure _
      · exact Noted.heldBy_pure _

/-- Whether an instance is an array of a primitive type. -/
def Instance.IsPrimitiveArray (i : Instance) : Prop :=
  ∃ t length data, i.contents = .primitiveArray t length data

/-- The notes about an instance name it only, and those about an array of a primitive type
name nothing. -/
theorem Resolution.heldBy_resolveInstance (ctx : Resolution) (i : Instance) :
    (ctx.resolveInstance i).HeldBy fun id => i.id = id ∧ ¬i.IsPrimitiveArray := by
  rw [resolveInstance]
  split
  · next data fields hcontents =>
    have hheld : ¬i.IsPrimitiveArray := by simp [Instance.IsPrimitiveArray, hcontents]
    refine (Reference.heldBy_lookupClass _ _ (fun _ hid => ⟨Option.some.inj hid, hheld⟩) _).bind
      fun classRef => ?_
    refine Noted.HeldBy.bind ?_ fun _ => Noted.heldBy_pure _
    rw [objectFields]
    split
    · split
      · exact heldBy_decodeFields _ _ _ _ _ _ ⟨rfl, hheld⟩
      · exact Noted.heldBy_pure _
    · exact Noted.heldBy_pure _
  · next elements hcontents =>
    have hheld : ¬i.IsPrimitiveArray := by simp [Instance.IsPrimitiveArray, hcontents]
    refine (Reference.heldBy_lookupClass _ _ (fun _ hid => ⟨Option.some.inj hid, hheld⟩) _).bind
      fun _ => ?_
    refine (Noted.heldBy_each fun element _ => ?_).bind fun _ => Noted.heldBy_pure _
    exact Reference.heldBy_lookup _ _ (fun _ hid => ⟨Option.some.inj hid, hheld⟩) _
  · exact Noted.heldBy_pure _

/-! ### Graphs -/

/-- What is noted of a graph names no array of a primitive type as the holder. -/
theorem Graph.heldBy_resolve (objects : ObjectTable) (index : ClassIndex) (idSize : Nat)
    (resolveFields : Bool) (g : Graph) :
    (g.resolve objects index idSize resolveFields).HeldBy fun id =>
      ∃ i ∈ g.instances, i.id = id ∧ ¬i.IsPrimitiveArray := by
  rw [resolve]
  refine (Noted.heldBy_eachIn fun c _ => c.heldBy_lookup objects _).bind fun _ => ?_
  refine (Noted.heldBy_eachIn fun i hi => ?_).bind fun _ => ?_
  · intro d hd id hid
    exact ⟨i, hi, Resolution.heldBy_resolveInstance _ i d hd id hid⟩
  refine (Noted.heldBy_eachIn fun r _ => r.heldBy_lookup objects _).bind fun _ => ?_
  exact Noted.heldBy_pure _

/-! ### The whole log -/

namespace Draft

theorem holder?_eq_none_of_pushCause {cause : Cause} (h : PushCause cause) :
    cause.holder? = none := by
  cases h <;> rfl

theorem holder?_eq_none_of_namingCause {cause : Cause} (h : NamingCause cause) :
    cause.holder? = none := by
  cases h <;> rfl

/-- What is reported while records are read names no holder. -/
theorem exists_toList_diagnostics_foldl_push (d : Draft) (records : List Record) :
    ∃ new, (records.foldl push d).diagnostics.toList = d.diagnostics.toList ++ new
      ∧ ∀ diagnostic ∈ new, diagnostic.cause.holder? = none := by
  induction records generalizing d with
  | nil => exact ⟨[], (List.append_nil _).symm, by simp⟩
  | cons r records ih =>
    obtain ⟨new, hnew, hnone⟩ := ih (d.push r)
    rw [List.foldl_cons, hnew]
    rcases d.diagnostics_push r with hsame | ⟨diagnostic, hcause, hpush⟩
    · exact ⟨new, by rw [hsame], hnone⟩
    · refine ⟨diagnostic :: new, ?_, ?_⟩
      · rw [hpush, Diagnostics.toList_push, List.append_assoc]
        rfl
      · exact List.forall_mem_cons.mpr ⟨holder?_eq_none_of_pushCause hcause, hnone⟩

/-- What is reported about a dump names no array of a primitive type as the holder. -/
theorem exists_toList_diagnostics_finish (d : Draft) (records : List Record)
    (resolveFields : Bool) :
    ∃ new, ((records.foldl push d).finish resolveFields).diagnostics.toList
        = d.diagnostics.toList ++ new
      ∧ ∀ diagnostic ∈ new, ∀ id, diagnostic.holderId? = some id →
        ∃ i ∈ (records.foldl push d).graph.instances, i.id = id ∧ ¬i.IsPrimitiveArray := by
  obtain ⟨pushed, hpushed, hnone⟩ := d.exists_toList_diagnostics_foldl_push records
  generalize records.foldl push d = draft at hpushed ⊢
  refine ⟨pushed ++ (draft.namingNotes ++ (draft.graph.resolve draft.objects
    (ClassIndex.ofNames (draft.graph.classes.toList.map (·.name))) draft.header.idSize
    resolveFields).notes), ?_, ?_⟩
  · rw [finish]
    simp only [Diagnostics.toList_pushAll, hpushed, List.append_assoc]
  · intro diagnostic hmem id hid
    rcases List.mem_append.mp hmem with hmem | hmem
    · rw [Diagnostic.holderId?, hnone diagnostic hmem] at hid
      cases hid
    rcases List.mem_append.mp hmem with hmem | hmem
    · rw [Diagnostic.holderId?, holder?_eq_none_of_namingCause (namingCause_of_mem hmem)] at hid
      cases hid
    · exact Graph.heldBy_resolve _ _ _ _ _ diagnostic hmem id hid

end Draft

end HeapDump
