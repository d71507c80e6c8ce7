/-
HeapDump/Proofs/Snapshot/Undecoded.lean

Turning the decoding of fields off changes nothing else.

A snapshot that is finished without fields is the one finished with them, less the
fields and less the diagnostics about fields:

    d.finish false = (d.finish true).withoutFields

Everything else is the same, identifiers, links, sizes and the order of the other
diagnostics included, and so is what a sink has been told.  While records are read
and names are put in nothing is about fields, so only resolving is to be looked at.
Main statement: `decoding_adds_fields`.
-/
import HeapDump.Proofs.Graph.Undecoded
import HeapDump.Snapshot.Load

namespace HeapDump

/-- A snapshot less the decoded fields of its instances, and less what came up while they
were decoded. -/
def Snapshot.withoutFields (s : Snapshot) : Snapshot :=
  { s with
    graph := s.graph.withoutFields
    diagnostics := s.diagnostics.select (¬ ·.aboutFields) }

namespace Draft

theorem PushCause.not_aboutFields {cause : Cause} (h : PushCause cause) : ¬ cause.aboutFields := by
  cases h <;> exact Bool.false_ne_true

theorem NamingCause.not_aboutFields {cause : Cause} (h : NamingCause cause) :
    ¬ cause.aboutFields := by
  cases h <;> exact Bool.false_ne_true

/-- Nothing that is reported of a record is about fields of objects. -/
theorem select_not_aboutFields_push {d : Draft}
    (h : d.diagnostics.select (¬ ·.aboutFields) = d.diagnostics) (r : Record) :
    (d.push r).diagnostics.select (¬ ·.aboutFields) = (d.push r).diagnostics := by
  rcases diagnostics_push d r with hsame | ⟨diagnostic, hcause, hpush⟩
  · rw [hsame, h]
  · have hkeep : ¬ diagnostic.aboutFields := hcause.not_aboutFields
    rw [hpush, Diagnostics.select_push, if_pos (decide_eq_true hkeep), h]

theorem select_not_aboutFields_foldl_push {d : Draft}
    (h : d.diagnostics.select (¬ ·.aboutFields) = d.diagnostics) (records : List Record) :
    (records.foldl push d).diagnostics.select (¬ ·.aboutFields)
      = (records.foldl push d).diagnostics := by
  induction records generalizing d with
  | nil => exact h
  | cons r records ih => exact ih (select_not_aboutFields_push h r)

/-- Nothing that is found missing while names are put in is about fields of objects. -/
theorem filter_not_aboutFields_namingNotes (d : Draft) :
    d.namingNotes.filter (¬ ·.aboutFields) = d.namingNotes :=
  List.filter_eq_self.mpr fun _ hmem => decide_eq_true (namingCause_of_mem hmem).not_aboutFields

/-- A draft finished without fields is the one finished with them, less the fields. -/
theorem finish_undecoded {d : Draft}
    (h : d.diagnostics.select (¬ ·.aboutFields) = d.diagnostics) (resolveFields : Bool) :
    d.finish false = (d.finish resolveFields).withoutFields := by
  rw [finish, finish, Snapshot.withoutFields]
  dsimp only
  rw [Graph.value_resolve_undecoded _ _ _ resolveFields,
    Graph.notes_resolve_undecoded _ _ _ resolveFields, Diagnostics.select_pushAll,
    Diagnostics.select_pushAll, filter_not_aboutFields_namingNotes, h]

end Draft

/-- **Decoding adds fields and nothing else.**  Whatever the records, the snapshot finished
without decoding fields is the one finished with it, but that no instance has decoded fields
and the diagnostics about fields are missing. -/
theorem decoding_adds_fields (header : Header) (attachSink : Bool) (records : List Record) :
    let d := records.foldl Draft.push { header, diagnostics := .start attachSink }
    d.finish false = (d.finish true).withoutFields
      ∧ ∀ i ∈ (d.finish false).instances, i.fields = [] := by
  intro d
  have hlog : d.diagnostics.select (¬ ·.aboutFields) = d.diagnostics :=
    Draft.select_not_aboutFields_foldl_push (Diagnostics.select_start _ attachSink) records
  have hundecoded := Draft.finish_undecoded hlog true
  refine ⟨hundecoded, fun i hi => ?_⟩
  rw [hundecoded] at hi
  obtain ⟨decoded, -, rfl⟩ := Array.mem_map.mp hi
  exact decoded.fields_withoutFields

end HeapDump
