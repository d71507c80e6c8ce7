/-
HeapDump/Proofs/Diagnostic/Log.lean

What a log contains after something has been reported, and what the records of a
dump report while they are read: skipped records and objects defined twice, but
nothing about references.

Two stages report before the graph is resolved, and for each there is a predicate
on causes that holds of everything it reports:

* `Draft.PushCause`, of what single records report (`diagnostics_push`: one
  diagnostic at most for each record);
* `Draft.NamingCause`, of names, stack traces and heap dumps that are missing when
  the draft is finished (`namingCause_of_mem`).

Neither of them is about references, so all diagnostics about references come from
resolving the graph (`byCategory_references_foldl_push`,
`filter_references_namingNotes`).
-/
import HeapDump.Draft.Naming
import HeapDump.Proofs.Draft.Push

namespace HeapDump

/-! ### Reporting -/

namespace Diagnostics

@[simp] theorem toList_push (log : Diagnostics) (d : Diagnostic) :
    (log.push d).toList = log.toList ++ [d] := by
  simp [push, toList]

/-- The diagnostics of a category are those there were and the new one, if it is of it. -/
theorem byCategory_push (log : Diagnostics) (d : Diagnostic) (c : Category) :
    (log.push d).byCategory c = log.byCategory c ++ [d].filter (·.category = c) := by
  rw [byCategory, toList_push, List.filter_append, byCategory]

@[simp] theorem toList_pushAll (log : Diagnostics) (ds : List Diagnostic) :
    (log.pushAll ds).toList = log.toList ++ ds := by
  induction ds generalizing log with
  | nil => simp [pushAll]
  | cons d ds ih =>
    rw [pushAll, List.foldl_cons, ← pushAll, ih, toList_push, List.append_assoc]
    rfl

/-- The diagnostics of a category are those there were and the new ones. -/
theorem byCategory_pushAll (log : Diagnostics) (ds : List Diagnostic) (c : Category) :
    (log.pushAll ds).byCategory c = log.byCategory c ++ ds.filter (·.category = c) := by
  rw [byCategory, toList_pushAll, List.filter_append, byCategory]

/-- Diagnostics whose causes are of other categories. -/
theorem filter_category_eq_nil {ds : List Diagnostic} {c : Category}
    (h : ∀ d ∈ ds, d.cause.category ≠ c) : ds.filter (·.category = c) = [] := by
  refine List.filter_eq_nil_iff.mpr fun d hd => ?_
  rw [decide_eq_true_iff]
  exact h d hd

end Diagnostics

/-! ### Reading records -/

namespace Draft

/-- The causes of what is reported while records are read. -/
inductive PushCause : Cause → Prop
  | skippedRecord (tag : UInt8) (length : Nat) : PushCause (.skippedRecord tag length)
  | duplicateClass (id : ObjectId) : PushCause (.duplicateClass id)
  | duplicateInstance (id : ObjectId) : PushCause (.duplicateInstance id)

theorem PushCause.category_ne {cause : Cause} (h : PushCause cause) :
    cause.category ≠ .references := by
  cases h <;> simp [Cause.category]

/-- What is noted of a second definition is not about records. -/
theorem category_duplicate_ne (record : HeapRecord) (id : ObjectId) (offset : Nat) :
    (duplicate record id offset).category ≠ .records := by
  rw [duplicate]
  split <;> simp [Diagnostic.category, Cause.category]

theorem pushCause_duplicate (record : HeapRecord) (id : ObjectId) (offset : Nat) :
    PushCause (duplicate record id offset).cause := by
  rw [duplicate]
  split
  · exact .duplicateClass id
  · exact .duplicateInstance id

theorem diagnostics_take (d : Draft) (record : HeapRecord) (offset : Nat) :
    (d.take record offset).diagnostics = d.diagnostics := by
  cases record with
  | root root =>
    rw [take, addRoot, noteThread]
    split <;> rfl
  | _ => rfl

/-- A record gives rise to one diagnostic at most. -/
theorem diagnostics_push (d : Draft) (record : Record) :
    (d.push record).diagnostics = d.diagnostics
      ∨ ∃ diagnostic, PushCause diagnostic.cause
        ∧ (d.push record).diagnostics = d.diagnostics.push diagnostic := by
  obtain ⟨offset, time, body⟩ := record
  cases body with
  | skipped tag length =>
    simp only [push]
    cases Tag.ofCode? tag with
    | some _ => exact .inl rfl
    | none => exact .inr ⟨_, .skippedRecord tag length, rfl⟩
  | heap heapRecord =>
    -- a sub-record is taken in and says nothing, or its identifier is taken
    rcases d.pushHeapRecord_cases heapRecord offset with htake | ⟨id, hreport⟩
    · left
      show (d.pushHeapRecord heapRecord offset).diagnostics = d.diagnostics
      rw [htake, diagnostics_take]
    · exact .inr ⟨_, pushCause_duplicate heapRecord id offset, congrArg diagnostics hreport⟩
  | _ => exact .inl rfl

/-- A record reports nothing about references. -/
theorem byCategory_references_push (d : Draft) (record : Record) :
    (d.push record).diagnostics.byCategory .references
      = d.diagnostics.byCategory .references := by
  rcases diagnostics_push d record with hsame | ⟨diagnostic, hcause, hpush⟩
  · rw [hsame]
  · have hnone : [diagnostic].filter (·.category = .references) = [] := by
      refine Diagnostics.filter_category_eq_nil fun d hd => ?_
      obtain rfl := List.mem_singleton.mp hd
      exact hcause.category_ne
    rw [hpush, Diagnostics.byCategory_push, hnone, List.append_nil]

/-- Records report nothing about references. -/
theorem byCategory_references_foldl_push (d : Draft) (records : List Record) :
    (records.foldl push d).diagnostics.byCategory .references
      = d.diagnostics.byCategory .references := by
  induction records generalizing d with
  | nil => rfl
  | cons record records ih => rw [List.foldl_cons, ih, byCategory_references_push]

/-! ### Putting names in -/

/-- The causes of what is reported while names are put in. -/
inductive NamingCause : Cause → Prop
  | missingHeapName (nameId : ObjectId) (heap : UInt32) (fallback : String) :
      NamingCause (.missingHeapName nameId heap fallback)
  | unnamedClass (id : ObjectId) : NamingCause (.unnamedClass id)
  | missingStackTrace (thread trace : UInt32) : NamingCause (.missingStackTrace thread trace)
  | noHeapDump : NamingCause .noHeapDump

theorem NamingCause.category_ne {cause : Cause} (h : NamingCause cause) :
    cause.category ≠ .references := by
  cases h <;> simp [Cause.category]

section

variable {d : Draft} {diagnostic : Diagnostic}

theorem exists_cause_of_mem_unnamedHeaps (h : diagnostic ∈ d.unnamedHeaps) :
    ∃ nameId heap fallback, diagnostic.cause = .missingHeapName nameId heap fallback := by
  obtain ⟨⟨id, h⟩, -, hsome⟩ := List.mem_filterMap.mp h
  dsimp only at hsome
  split at hsome
  · split at hsome <;> cases hsome
    exact ⟨_, _, _, rfl⟩
  · cases hsome

theorem exists_cause_of_mem_unnamedClasses (h : diagnostic ∈ d.unnamedClasses) :
    ∃ id, diagnostic.cause = .unnamedClass id := by
  obtain ⟨c, -, hsome⟩ := List.mem_filterMap.mp h
  dsimp only at hsome
  split at hsome <;> cases hsome
  exact ⟨_, rfl⟩

theorem exists_cause_of_mem_missingTraces (h : diagnostic ∈ d.missingTraces) :
    ∃ thread trace, diagnostic.cause = .missingStackTrace thread trace := by
  obtain ⟨r, -, hsome⟩ := List.mem_filterMap.mp h
  -- a thread with a stack trace of its own that the dump does not have
  split at hsome
  · split at hsome
    · split at hsome <;> cases hsome
      exact ⟨_, _, rfl⟩
    · cases hsome
  · cases hsome

theorem cause_of_mem_missingHeapDump (h : diagnostic ∈ d.missingHeapDump) :
    diagnostic.cause = .noHeapDump := by
  rw [missingHeapDump] at h
  split at h
  · exact congrArg Diagnostic.cause (List.mem_singleton.mp h)
  · cases h

/-- Something missing is the name of a heap or of a class, a stack trace, or all. -/
theorem namingCause_of_mem (hmem : diagnostic ∈ d.namingNotes) :
    NamingCause diagnostic.cause := by
  simp only [namingNotes, List.mem_append] at hmem
  rcases hmem with ((hheap | hclass) | htrace) | hdump
  · obtain ⟨nameId, heap, fallback, hcause⟩ := exists_cause_of_mem_unnamedHeaps hheap
    exact hcause ▸ .missingHeapName nameId heap fallback
  · obtain ⟨id, hcause⟩ := exists_cause_of_mem_unnamedClasses hclass
    exact hcause ▸ .unnamedClass id
  · obtain ⟨thread, trace, hcause⟩ := exists_cause_of_mem_missingTraces htrace
    exact hcause ▸ .missingStackTrace thread trace
  · exact cause_of_mem_missingHeapDump hdump ▸ .noHeapDump

end

/-- What is found missing while names are put in is nothing about references. -/
theorem filter_references_namingNotes (d : Draft) :
    d.namingNotes.filter (·.category = .references) = [] :=
  Diagnostics.filter_category_eq_nil fun _ hmem => (namingCause_of_mem hmem).category_ne

end Draft

end HeapDump
