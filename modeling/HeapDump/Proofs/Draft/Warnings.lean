/-
HeapDump/Proofs/Draft/Warnings.lean

What is reported while records are read, told without a draft.

A record is reported if its tag is unknown, or if it defines an identifier that a record
before it has defined (`Record.warning?`).  Reading reports just these, in the order of the
records:

    (records.foldl push { header, diagnostics := log }).diagnostics = log.pushAll (warnings records)

(`Draft.diagnostics_foldl_push`); the step from one record to the next is
`Holds.diagnostics_push`, where the table of objects says which identifiers are taken.

A sink is told each diagnostic as it comes up.  A log that begins empty with its sink has
therefore always told the sink what it holds (`Diagnostics.pushAll_start`), whatever is
reported afterwards.
-/
import HeapDump.Proofs.Diagnostic.Log
import HeapDump.Proofs.Draft.Objects

namespace HeapDump

/-! ### Records -/

/-- What is reported of a record, given those before it: that its tag is unknown, or that it
defines an identifier once more. -/
def Record.warning? (past : List Record) (r : Record) : Option Diagnostic :=
  match r.body with
  | .skipped tag length =>
    if Tag.ofCode? tag = none then
      some { cause := .skippedRecord tag length, offset := some r.offset }
    else none
  | .heap record =>
    match record.definedId? with
    | some id => if Defined past id then some (Draft.duplicate record id r.offset) else none
    | none => none
  | _ => none

/-- What is reported of records, one after the other. -/
def warnings (records : List Record) : List Diagnostic :=
  (withPast [] records).filterMap fun (past, r) => r.warning? past

theorem warnings_concat (records : List Record) (r : Record) :
    warnings (records ++ [r]) = warnings records ++ (r.warning? records).toList := by
  rw [warnings, withPast_concat, List.filterMap_append, List.nil_append, warnings,
    List.filterMap_cons, List.filterMap_nil]
  dsimp only
  cases r.warning? records <;> rfl

theorem Draft.PushCause.severity_eq {cause : Cause} (h : PushCause cause) :
    cause.severity = .warning := by
  cases h <;> rfl

/-- A record is reported as one of an unknown tag or as a second definition. -/
theorem Record.eq_of_warning? {past : List Record} {r : Record} {diagnostic : Diagnostic}
    (h : r.warning? past = some diagnostic) :
    (∃ tag length, diagnostic = { cause := .skippedRecord tag length, offset := some r.offset })
      ∨ ∃ record id, diagnostic = Draft.duplicate record id r.offset := by
  obtain ⟨offset, time, body⟩ := r
  cases body with
  | skipped tag length =>
    obtain ⟨-, h⟩ := Option.ite_none_right_eq_some.mp h
    exact .inl ⟨tag, length, (Option.some.inj h).symm⟩
  | heap record =>
    rw [warning?] at h
    dsimp only at h
    split at h
    · next id _ =>
      obtain ⟨-, h⟩ := Option.ite_none_right_eq_some.mp h
      exact .inr ⟨record, id, (Option.some.inj h).symm⟩
    · cases h
  | _ => cases h

section

variable {records : List Record} {diagnostic : Diagnostic} (h : diagnostic ∈ warnings records)
include h

/-- All that is reported of records are skipped records and second definitions. -/
theorem pushCause_of_mem_warnings : Draft.PushCause diagnostic.cause := by
  obtain ⟨⟨past, r⟩, -, hwarning⟩ := List.mem_filterMap.mp h
  obtain ⟨tag, length, rfl⟩ | ⟨record, id, rfl⟩ := Record.eq_of_warning? hwarning
  · exact .skippedRecord tag length
  · exact Draft.pushCause_duplicate record id r.offset

/-- What is reported of records about instances are second definitions, each of the object that
it names. -/
theorem exists_duplicateInstance_of_mem_warnings (hcategory : diagnostic.category = .instances) :
    ∃ id, diagnostic.cause = .duplicateInstance id ∧ diagnostic.object = some id := by
  obtain ⟨⟨past, r⟩, -, hwarning⟩ := List.mem_filterMap.mp h
  obtain ⟨tag, length, rfl⟩ | ⟨record, id, rfl⟩ := Record.eq_of_warning? hwarning
  · cases hcategory
  · by_cases hclass : record.classDump?.isSome
    · rw [Draft.duplicate, if_pos hclass] at hcategory
      cases hcategory
    · exact ⟨id, if_neg hclass, rfl⟩

/-- All that is reported of records are warnings. -/
theorem severity_of_mem_warnings : diagnostic.severity = .warning :=
  (pushCause_of_mem_warnings h).severity_eq

end

/-! ### Drafts -/

theorem Diagnostics.pushAll_append (log : Diagnostics) (ds es : List Diagnostic) :
    log.pushAll (ds ++ es) = (log.pushAll ds).pushAll es :=
  List.foldl_append

namespace Draft

/-- **One record more is reported as its past demands.** -/
theorem Holds.diagnostics_push {d : Draft} {records : List Record} (h : d.Holds records)
    (r : Record) : (d.push r).diagnostics = d.diagnostics.pushAll (r.warning? records).toList := by
  obtain ⟨offset, time, body⟩ := r
  cases body with
  | skipped tag length =>
    rw [Record.warning?, Draft.push]
    dsimp only
    cases Tag.ofCode? tag <;> rfl
  | heap record =>
    show (d.pushHeapRecord record offset).diagnostics = _
    rw [Record.warning?]
    dsimp only
    -- an identifier that is taken is reported, and anything else is taken in without a word
    by_cases hid : ∃ id, record.definedId? = some id ∧ id ∈ d.objects
    · obtain ⟨id, hid, hmem⟩ := hid
      rw [d.pushHeapRecord_of_defined hid hmem, hid]
      simp only [if_pos ((h.mem_objects_iff id).mp hmem)]
      rfl
    · have hfresh : ∀ id, record.definedId? = some id → id ∉ d.objects :=
        fun id hid' hmem => hid ⟨id, hid', hmem⟩
      rw [d.pushHeapRecord_of_fresh hfresh, diagnostics_take]
      cases hid' : record.definedId? with
      | none => rfl
      | some id =>
        have hpast : ¬Defined records id := fun hpast =>
          hfresh id hid' ((h.mem_objects_iff id).mpr hpast)
        simp only [if_neg hpast]
        rfl
  | _ => rfl

/-- **What has been reported after some records** are their warnings. -/
theorem diagnostics_foldl_push (header : Header) (log : Diagnostics) (records : List Record) :
    (records.foldl push { header, diagnostics := log }).diagnostics
      = log.pushAll (warnings records) := by
  induction records using List.reverseRecOn with
  | nil => rfl
  | append_singleton records r ih =>
    have hholds := holds_foldl_push header log records
    rw [List.foldl_append, List.foldl_cons, List.foldl_nil, hholds.diagnostics_push, ih,
      warnings_concat, Diagnostics.pushAll_append]

end Draft

/-! ### The sink -/

/-- A log of some diagnostics, all of which the sink has been told if there is one. -/
def Diagnostics.told (attachSink : Bool) (ds : List Diagnostic) : Diagnostics :=
  { entries := ds.toArray, sink := if attachSink then some ds.toArray else none }

/-- A log that is begun anew tells its sink all that is reported. -/
theorem Diagnostics.pushAll_start (attachSink : Bool) (ds : List Diagnostic) :
    (start attachSink).pushAll ds = told attachSink ds := by
  induction ds using List.reverseRecOn with
  | nil => rfl
  | append_singleton ds d ih =>
    rw [pushAll_append, ih]
    cases attachSink <;> simp [pushAll, push, told]

end HeapDump
