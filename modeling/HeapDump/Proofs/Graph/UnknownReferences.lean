/-
HeapDump/Proofs/Graph/UnknownReferences.lean

Each unknown reference has exactly one diagnostic, and they come in order.

A lookup accounts for what its result holds (`Noted.Accounts`): of the notes, those
about references are one for each unknown reference of the result, with its
identifier and the place of its holder,

    referenceReports x.notes = (unknowns (held x.value)).map unknownReport.

An equation of lists says all at once that no reference is passed over, that none is
reported twice, and in which order they come.  It is passed on from single references
to classes, decoded fields, instances and the whole graph, always in the same way: the
notes of a sequence are those of its parts one after the other, and so are the
references that it holds.

A draft holds no unknown reference, since nothing has been looked up, and what is
reported before that is about no reference.  Main statement:
`reference_diagnostics_finish`.
-/
import HeapDump.Proofs.Diagnostic.Log
import HeapDump.Proofs.Graph.Held
import HeapDump.Snapshot.Load
import Mathlib.Data.List.Basic

namespace HeapDump

/-! ### Unknown references and their reports -/

/-- The identifier of a reference that was looked up and not found. -/
def Reference.unknown? : Reference → Option ObjectId
  | unknown id => some id
  | _ => none

/-- The unknown ones of some references, each with the place of its holder. -/
def unknowns (held : List (Reference × Nat)) : List (ObjectId × Nat) :=
  held.filterMap fun (r, offset) => r.unknown?.map (·, offset)

@[simp] theorem unknowns_append (xs ys : List (Reference × Nat)) :
    unknowns (xs ++ ys) = unknowns xs ++ unknowns ys :=
  List.filterMap_append

@[simp] theorem unknowns_flatMap (xs : List α) (held : α → List (Reference × Nat)) :
    unknowns (xs.flatMap held) = xs.flatMap fun x => unknowns (held x) :=
  List.filterMap_flatMap

/-- What a diagnostic tells of a reference: how much it matters, object and place. -/
def Diagnostic.report (d : Diagnostic) : Severity × Option ObjectId × Option Nat :=
  (d.severity, d.object, d.offset)

/-- What is to be reported of an unknown reference. -/
def unknownReport : ObjectId × Nat → Severity × Option ObjectId × Option Nat
  | (id, offset) => (.warning, some id, some offset)

/-- What diagnostics tell of references. -/
def referenceReports (ds : List Diagnostic) : List (Severity × Option ObjectId × Option Nat) :=
  (ds.filter (·.category = .references)).map Diagnostic.report

@[simp] theorem referenceReports_append (ds es : List Diagnostic) :
    referenceReports (ds ++ es) = referenceReports ds ++ referenceReports es := by
  rw [referenceReports, List.filter_append, List.map_append]
  rfl

@[simp] theorem referenceReports_flatMap (xs : List α) (notes : α → List Diagnostic) :
    referenceReports (xs.flatMap notes) = xs.flatMap fun x => referenceReports (notes x) := by
  rw [referenceReports, List.filter_flatMap, List.map_flatMap]
  rfl

/-! ### Accounting -/

namespace Noted

/-- What is noted about references are the unknown ones that the result holds. -/
def Accounts (x : Noted α) (held : α → List (Reference × Nat)) : Prop :=
  referenceReports x.notes = (unknowns (held x.value)).map unknownReport

/-- A result that holds no unknown reference and with which nothing is noted. -/
theorem accounts_pure {a : α} {held : α → List (Reference × Nat)} (h : unknowns (held a) = []) :
    (pure a : Noted α).Accounts held := by
  rw [Accounts, value_pure, h]
  rfl

/-- Going on without a note about references and with the same references. -/
theorem Accounts.bind_quiet {x : Noted α} {f : α → Noted β} {held : α → List (Reference × Nat)}
    {held' : β → List (Reference × Nat)} (hx : x.Accounts held)
    (hf : ∀ a, referenceReports (f a).notes = [] ∧ held' (f a).value = held a) :
    (x >>= f).Accounts held' := by
  obtain ⟨hnotes, hheld⟩ := hf x.value
  rw [Accounts, notes_bind, referenceReports_append, hnotes, List.append_nil, value_bind, hheld,
    hx]

/-- Putting a result into another form. -/
theorem Accounts.map {x : Noted α} {g : α → β} {held : β → List (Reference × Nat)}
    (hx : x.Accounts fun a => held (g a)) : (x >>= fun a => pure (g a)).Accounts held :=
  hx.bind_quiet fun _ => ⟨rfl, rfl⟩

/-- The items of a list one after the other. -/
theorem accounts_each {xs : List α} {f : α → Noted β} {held : β → List (Reference × Nat)}
    (h : ∀ x ∈ xs, (f x).Accounts held) : (each xs f).Accounts (·.flatMap held) := by
  rw [Accounts, notes_each, value_each, referenceReports_flatMap, List.flatMap_map,
    unknowns_flatMap, List.map_flatMap]
  exact List.flatMap_congr h

/-- The items of an array one after the other. -/
theorem accounts_eachIn {xs : Array α} {f : α → Noted β} {held : β → List (Reference × Nat)}
    (h : ∀ x ∈ xs, (f x).Accounts held) :
    (eachIn xs f).Accounts (·.toList.flatMap held) := by
  rw [Accounts, notes_eachIn, value_eachIn, referenceReports_flatMap, Array.toList_map,
    List.flatMap_map, unknowns_flatMap, List.map_flatMap]
  exact List.flatMap_congr fun x hx => h x (Array.mem_toList_iff.mp hx)

end Noted

/-! ### Single references -/

/-- A reference that is looked up is known or noted. -/
theorem Reference.accounts_lookup (objects : ObjectTable) (offset : Nat) (holder : Holder)
    {r : Reference} (h : r.unknown? = none) :
    (r.lookup objects offset holder).Accounts fun r => [(r, offset)] := by
  cases r with
  | unresolved id =>
    rw [lookup]
    cases objects[id]? with
    | some target => exact Noted.accounts_pure rfl
    | none => rfl
  | unknown id => cases h
  | null => exact Noted.accounts_pure rfl
  | resolved id target => exact Noted.accounts_pure rfl

/-- A reference that must be to a class and is to an instance is noted as well. -/
theorem Reference.accounts_lookupClass (objects : ObjectTable) (offset : Nat) (holder : Holder)
    {r : Reference} (h : r.unknown? = none) :
    (r.lookupClass objects offset holder).Accounts fun r => [(r, offset)] := by
  cases r with
  | unresolved id =>
    rw [lookupClass]
    cases objects[id]? with
    | some target =>
      cases target with
      | classAt i => exact Noted.accounts_pure rfl
      | instanceAt i => rfl
    | none => rfl
  | unknown id => cases h
  | null => exact Noted.accounts_pure rfl
  | resolved id target => exact Noted.accounts_pure rfl

/-- Values other than references are left alone. -/
theorem Value.accounts_lookup (objects : ObjectTable) (offset : Nat) (holder : Holder)
    {v : Value Reference} (h : ∀ r, v.reference? = some r → r.unknown? = none) :
    (v.lookup objects offset holder).Accounts fun v => v.reference?.toList.map (·, offset) := by
  cases v with
  | object r => exact (r.accounts_lookup objects offset holder (h r rfl)).map
  | _ => exact Noted.accounts_pure rfl

/-! ### Classes -/

/-- Places can be put in before or after the references are picked out. -/
theorem flatMap_places (xs : List α) (reference? : α → Option Reference) (offset : Nat) :
    (xs.flatMap fun x => (reference? x).toList.map (·, offset))
      = (xs.filterMap reference?).map (·, offset) := by
  rw [List.filterMap_eq_flatMap_toList, List.map_flatMap]

/-- A class accounts for its superclass, its class loader, its constants and its statics. -/
theorem ClassObject.accounts_lookup (objects : ObjectTable) {c : ClassObject}
    (h : ∀ r ∈ c.references, r.unknown? = none) :
    (c.lookup objects).Accounts ClassObject.held := by
  -- each part is accounted for on its own; the notes come in the order of the parts
  have hsuperclass := c.superclass.accounts_lookupClass objects c.offset (.superclass c.name)
    (h _ (by simp [references]))
  have hloader := c.classLoader.accounts_lookup objects c.offset (.classLoader c.name)
    (h _ (by simp [references]))
  have hconstants : (Noted.each c.constants fun constant => do
      return (constant.1, ← constant.2.lookup objects c.offset
        (.constant constant.1 c.name))).Accounts
        fun constants => constants.flatMap fun constant =>
          constant.2.reference?.toList.map (·, c.offset) := by
    refine Noted.accounts_each fun constant hmem => ?_
    refine (Value.accounts_lookup objects c.offset _ fun r hr => h r ?_).map
    simp only [references, List.mem_cons, List.mem_append, List.mem_filterMap]
    exact .inr (.inr (.inl ⟨constant, hmem, hr⟩))
  have hstatics : (Noted.each c.statics fun s => do
      return { s with
        value := ← s.value.lookup objects c.offset (.staticField s.name c.name) }).Accounts
        fun statics => statics.flatMap fun s => s.value.reference?.toList.map (·, c.offset) := by
    refine Noted.accounts_each fun s hmem => ?_
    refine (Value.accounts_lookup objects c.offset _ fun r hr => h r ?_).map
    simp only [references, List.mem_cons, List.mem_append, List.mem_filterMap]
    exact .inr (.inr (.inr ⟨s, hmem, hr⟩))
  rw [Noted.Accounts] at hsuperclass hloader hconstants hstatics
  rw [flatMap_places] at hconstants hstatics
  rw [Noted.Accounts, lookup]
  simp only [Noted.notes_bind, Noted.value_bind, Noted.notes_pure, Noted.value_pure,
    referenceReports_append, List.append_nil]
  rw [hsuperclass, hloader, hconstants, hstatics, ← List.map_append, ← List.map_append,
    ← List.map_append, ← unknowns_append, ← unknowns_append, ← unknowns_append]
  congr 2
  simp only [held, references, List.map_cons, List.map_append]
  rfl

/-! ### Instances -/

/-- An identifier is not unknown before it has been looked up. -/
theorem Reference.unknown?_ofId (id : ObjectId) : (ofId id).unknown? = none := by
  rw [ofId]
  split <;> rfl

/-- The references in decoded fields, with the place of their object. -/
def heldByFields (offset : Nat) (values : List FieldValue) : List (Reference × Nat) :=
  (values.filterMap (·.value.reference?)).map (·, offset)

theorem heldByFields_cons (offset : Nat) (value : FieldValue) (values : List FieldValue) :
    heldByFields offset (value :: values)
      = value.value.reference?.toList.map (·, offset) ++ heldByFields offset values := by
  rw [heldByFields, List.filterMap_cons]
  cases value.value.reference? <;> rfl

/-- The fields decoded so far are accounted for, whether or not the data suffice. -/
theorem accounts_readLayout (objects : ObjectTable) (idSize : Nat) (owner : FieldOwner)
    (fields : List LayoutField) (p : Parser) :
    (readLayout objects idSize owner fields p).Accounts
      fun result => heldByFields owner.offset result.1 := by
  induction fields generalizing p with
  | nil => exact Noted.accounts_pure rfl
  | cons f rest ih =>
    rw [readLayout]
    generalize Value.parse f.field.type idSize p = result
    obtain ⟨outcome, p⟩ := result
    cases outcome with
    -- the data end here: what is noted is about the instance
    | error e => rfl
    | ok raw =>
      have hvalue := Value.accounts_lookup objects owner.offset (.field f.field.name owner.id)
        (v := raw.map Reference.ofId) fun r hr => by
          obtain ⟨id, rfl⟩ := Value.exists_ofId hr
          exact Reference.unknown?_ofId id
      have hrest := ih p
      rw [Noted.Accounts] at hvalue hrest ⊢
      simp only [Noted.notes_bind, Noted.value_bind, Noted.notes_pure, Noted.value_pure,
        referenceReports_append, List.append_nil]
      rw [hvalue, hrest, ← List.map_append, ← unknowns_append]
      rw [heldByFields_cons]

/-- The decoded fields of an object are accounted for.  Of what else can be noted about
them nothing is about references. -/
theorem accounts_decodeFields (objects : ObjectTable) (classes : Array ClassObject) (idSize : Nat)
    (owner : FieldOwner) (data : ByteArray) (i : Nat) :
    (decodeFields objects classes idSize owner data i).Accounts (heldByFields owner.offset) := by
  have hread := accounts_readLayout objects idSize owner
    (layout classes (superclassChain classes i)) { data }
  rw [decodeFields]
  refine hread.bind_quiet fun result => ?_
  obtain ⟨values, p?⟩ := result
  cases p? with
  | none => exact ⟨rfl, rfl⟩
  | some p =>
    dsimp only
    split
    · -- the chain of superclasses has no end
      split
      · exact ⟨rfl, rfl⟩
      · exact ⟨rfl, rfl⟩
    · split
      · -- data is left over
        exact ⟨rfl, rfl⟩
      · exact ⟨rfl, rfl⟩

/-- The fields of an object are accounted for, also where they are not decoded. -/
theorem Resolution.accounts_objectFields (ctx : Resolution) (i : Instance) (classRef : Reference)
    (data : ByteArray) :
    (ctx.objectFields i classRef data).Accounts (heldByFields i.offset) := by
  rw [objectFields]
  split
  · split
    · exact accounts_decodeFields ..
    · exact Noted.accounts_pure rfl
  · exact Noted.accounts_pure rfl

/-- The class of the arrays of a primitive type is never unknown. -/
theorem Resolution.unknown?_arrayClass (ctx : Resolution) (t : BasicType) :
    (ctx.arrayClass t).unknown? = none := by
  rw [arrayClass]
  split
  · rfl
  · split
    · rfl
    · split <;> rfl

/-- An instance accounts for its class and for what it refers to. -/
theorem Resolution.accounts_resolveInstance (ctx : Resolution) {i : Instance}
    (h : ∀ r ∈ i.classRef :: i.references, r.unknown? = none) :
    (ctx.resolveInstance i).Accounts Instance.held := by
  have hclass (holder : Holder) := i.classRef.accounts_lookupClass ctx.objects i.offset holder
    (h _ List.mem_cons_self)
  rw [resolveInstance]
  split
  · rename_i data fields hcontents
    -- a plain object holds its class and the references among its decoded fields
    have hclass := hclass (.classOfInstance i.id)
    have hfields := ctx.accounts_objectFields i
      (i.classRef.lookupClass ctx.objects i.offset (.classOfInstance i.id)).value data
    rw [Noted.Accounts] at hclass hfields ⊢
    simp only [Noted.notes_bind, Noted.value_bind, Noted.notes_pure, Noted.value_pure,
      referenceReports_append, List.append_nil]
    rw [hclass, hfields, ← List.map_append, ← unknowns_append, Instance.held,
      Instance.references_of_object rfl]
    rfl
  · rename_i elements hcontents
    -- an array of references holds its class and its elements
    rw [Instance.references_of_objectArray hcontents] at h
    have hclass := hclass (.classOfArray i.id)
    have helements : (Noted.each elements.zipIdx fun element =>
        element.1.lookup ctx.objects i.offset (.element element.2 i.id)).Accounts
          fun elements => elements.map (·, i.offset) := by
      simp only [List.map_eq_flatMap]
      refine Noted.accounts_each fun element hmem => ?_
      exact element.1.accounts_lookup ctx.objects i.offset _
        (h _ (List.mem_cons_of_mem _ (List.fst_mem_of_mem_zipIdx hmem)))
    rw [Noted.Accounts] at hclass helements ⊢
    simp only [Noted.notes_bind, Noted.value_bind, Noted.notes_pure, Noted.value_pure,
      referenceReports_append, List.append_nil]
    rw [hclass, helements, ← List.map_append, ← unknowns_append, Instance.held,
      Instance.references_of_objectArray rfl]
    rfl
  · rename_i t length data hcontents
    -- nothing is noted of an array of a primitive type, and its class is found or null
    refine Noted.accounts_pure ?_
    have hnone := Instance.references_of_primitiveArray
      (i := { i with classRef := ctx.arrayClass t, size := length.toNat * t.size ctx.idSize })
      hcontents
    rw [Instance.held, hnone]
    simp [unknowns, ctx.unknown?_arrayClass t]

/-! ### Roots and graphs -/

/-- A root accounts for its object. -/
theorem GcRoot.accounts_lookup (objects : ObjectTable) {r : GcRoot} (h : r.target.unknown? = none) :
    (r.lookup objects).Accounts GcRoot.held :=
  (r.target.accounts_lookup objects r.offset (.root r.kind) h).map

/-- **A graph accounts for all its references**, in the order in which it holds them. -/
theorem Graph.accounts_resolve (objects : ObjectTable) (index : ClassIndex) (idSize : Nat)
    (resolveFields : Bool) {g : Graph} (h : ∀ p ∈ g.held, p.1.unknown? = none) :
    (g.resolve objects index idSize resolveFields).Accounts Graph.held := by
  have hclasses : (Noted.eachIn g.classes (·.lookup objects)).Accounts
      (·.toList.flatMap ClassObject.held) := by
    refine Noted.accounts_eachIn fun c hc => c.accounts_lookup objects fun r hr => ?_
    exact h (r, c.offset) (mem_held_iff.mpr (.inl ⟨c, hc, List.mem_map_of_mem hr⟩))
  have hinstances (ctx : Resolution) : (Noted.eachIn g.instances ctx.resolveInstance).Accounts
      (·.toList.flatMap Instance.held) := by
    refine Noted.accounts_eachIn fun i hi => ctx.accounts_resolveInstance fun r hr => ?_
    exact h (r, i.offset) (mem_held_iff.mpr (.inr (.inl ⟨i, hi, List.mem_map_of_mem hr⟩)))
  have hroots : (Noted.eachIn g.roots (·.lookup objects)).Accounts
      (·.toList.flatMap GcRoot.held) := by
    refine Noted.accounts_eachIn fun r hr => r.accounts_lookup objects ?_
    exact h (r.target, r.offset)
      (mem_held_iff.mpr (.inr (.inr ⟨r, hr, List.mem_singleton_self _⟩)))
  -- linking comes last and changes no reference
  rw [Noted.Accounts, resolve]
  simp only [Noted.notes_bind, Noted.value_bind, Noted.notes_pure, Noted.value_pure,
    referenceReports_append, List.append_nil]
  rw [hclasses, hinstances, hroots, ← List.map_append, ← List.map_append, ← unknowns_append,
    ← unknowns_append, held_link, held, List.append_assoc]

/-! ### Snapshots -/

/-- **Every unknown reference of a finished snapshot has exactly one diagnostic**, a warning
with the identifier and the place of the holder, and no other reference has one.  They come
in the order of the references, behind those that the log held at first. -/
theorem reference_diagnostics_finish (header : Header) (log : Diagnostics) (records : List Record)
    (resolveFields : Bool) :
    let draft := records.foldl Draft.push { header, diagnostics := log }
    let snapshot := draft.finish resolveFields
    (snapshot.diagnostics.byCategory .references).map
        (fun d => (d.severity, d.object, d.offset))
      = (log.byCategory .references).map (fun d => (d.severity, d.object, d.offset))
        ++ (unknowns snapshot.graph.held).map
          fun (id, offset) => (.warning, some id, some offset) := by
  intro draft snapshot
  have hresolve := draft.graph.accounts_resolve draft.objects
    (ClassIndex.ofNames (draft.graph.classes.toList.map (·.name))) draft.header.idSize
    resolveFields fun p hp => by
      obtain ⟨id, hid⟩ := Draft.exists_ofId_of_mem_held hp
      rw [hid, Reference.unknown?_ofId]
  -- nothing that is reported while records are read is about references
  have hlog : draft.diagnostics.byCategory .references = log.byCategory .references :=
    Draft.byCategory_references_foldl_push _ records
  show ((draft.finish resolveFields).diagnostics.byCategory .references).map Diagnostic.report = _
  rw [Draft.finish]
  simp only [Diagnostics.byCategory_pushAll]
  rw [hlog, Draft.filter_references_namingNotes, List.append_nil, List.map_append]
  exact congrArg _ hresolve

end HeapDump
