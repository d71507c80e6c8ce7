/-
HeapDump/Proofs/Draft/Interleaving.lean

Records of different kinds that write different parts of a draft.

Strings, loadings of classes, frames and traces each fill a table of their own, and
everything else that counts changes heaps, objects, roots, threads and the log; these
are the tracks (`Body.track`), with one more for records that change nothing but the
number of heap dumps.

`Agree t d d'` says that two drafts are alike in the part of track `t`.  A record leaves
the parts of the other tracks alone (`agree_push_of_ne`), and what it writes on its own
depends on that part only (`Agree.push_of_track`).  By induction a draft is known from the
records of each track in their order, whatever stands between them:

    Agree t d d' → records.filter (·.body.track = t) = records'.filter (·.body.track = t) →
      Agree t (records.foldl push d) (records'.foldl push d')

(`Draft.agree_foldl_push`), and two drafts that agree on all tracks and have begun equally
many heap dumps are equal.  Of the records on no track only the number of heap dumps is kept
(`Draft.heapDumps_foldl_push`).
-/
import HeapDump.Proofs.Draft.Push
import Mathlib.Data.List.Induction

namespace HeapDump

/-! ### Tracks -/

/-- The parts of a draft that are written apart from each other. -/
inductive Track where
  | strings | loads | frames | traces
  /-- Heaps, objects, roots, threads and the log. -/
  | graph
  /-- No part that depends on the order of records. -/
  | idle
  deriving DecidableEq, Repr

/-- The part of a draft that a record writes. -/
def Body.track : Body → Track
  | string .. => .strings
  | loadClass .. => .loads
  | stackFrame _ => .frames
  | stackTrace _ => .traces
  | startThread _ | heap _ => .graph
  | skipped tag _ => if (Tag.ofCode? tag).isSome then .idle else .graph
  | unloadClass _ | endThread _ | heapDumpStart .. | heapDumpEnd => .idle

/-- Whether a record begins a heap dump. -/
def Body.isHeapDumpStart : Body → Bool
  | heapDumpStart .. => true
  | _ => false

namespace Draft

/-- A draft with the tables of the other tracks left empty, and no heap dumps counted. -/
def untabled (d : Draft) : Draft :=
  { d with strings := ∅, loads := ∅, frames := ∅, traces := ∅, heapDumps := 0 }

/-- The tables of a draft, and the number of heap dumps. -/
structure Tables where
  strings : Std.ExtTreeMap ObjectId String
  loads : Std.ExtTreeMap ObjectId ClassLoad
  frames : Std.ExtTreeMap ObjectId StackFrameRecord
  traces : Std.ExtTreeMap UInt32 StackTrace
  heapDumps : Nat

/-- The tables of a draft, and the number of heap dumps. -/
def tables (d : Draft) : Tables := ⟨d.strings, d.loads, d.frames, d.traces, d.heapDumps⟩

/-- Two drafts agree in what the records of a track write. -/
def Agree : Track → Draft → Draft → Prop
  | .strings, d, d' => d.strings = d'.strings
  | .loads, d, d' => d.loads = d'.loads
  | .frames, d, d' => d.frames = d'.frames
  | .traces, d, d' => d.traces = d'.traces
  | .graph, d, d' => d.untabled = d'.untabled
  | .idle, _, _ => True

namespace Agree

variable {t : Track} {d d' d'' : Draft}

theorem refl (t : Track) (d : Draft) : Agree t d d := by
  cases t with
  | idle => trivial
  | _ => rfl

theorem symm (h : Agree t d d') : Agree t d' d := by
  cases t with
  | idle => trivial
  | _ => exact Eq.symm h

theorem trans (h : Agree t d d') (h' : Agree t d' d'') : Agree t d d'' := by
  cases t with
  | idle => trivial
  | _ => exact Eq.trans h h'

end Agree

/-- Drafts that agree in all parts differ in the number of heap dumps at most. -/
theorem eq_of_agree {d d' : Draft} (h : ∀ t, Agree t d d') :
    d' = { d with heapDumps := d'.heapDumps } := by
  have hgraph : d.untabled = d'.untabled := h .graph
  have hrestore : ∀ d : Draft, d = { d.untabled with
      strings := d.strings, loads := d.loads, frames := d.frames, traces := d.traces
      heapDumps := d.heapDumps } := fun _ => rfl
  have hstrings : d.strings = d'.strings := h .strings
  have hloads : d.loads = d'.loads := h .loads
  have hframes : d.frames = d'.frames := h .frames
  have htraces : d.traces = d'.traces := h .traces
  rw [hrestore d', ← hgraph, ← hstrings, ← hloads, ← hframes, ← htraces]
  rfl

/-! ### One record -/

/-- What is taken in of a sub-record does not depend on tables. -/
theorem untabled_pushHeapRecord (d : Draft) (record : HeapRecord) (offset : Nat) :
    (d.pushHeapRecord record offset).untabled = d.untabled.pushHeapRecord record offset := by
  refine d.map_pushHeapRecord (F := untabled) rfl ?_ fun id => rfl
  cases record with
  | root root =>
    rw [take, take, addRoot, addRoot, noteThread, noteThread]
    split <;> rfl
  | _ => rfl

/-- A record of the graph does to it what it does without the tables. -/
theorem untabled_push (d : Draft) {r : Record} (h : r.body.track = .graph) :
    (d.push r).untabled = d.untabled.push r := by
  obtain ⟨offset, time, body⟩ := r
  cases body with
  | heap record => exact d.untabled_pushHeapRecord record offset
  | startThread start => rfl
  | skipped tag length =>
    rw [push, push]
    dsimp only
    cases Tag.ofCode? tag <;> rfl
  | _ => cases h

/-- What is taken in of a sub-record leaves tables and the number of heap dumps alone. -/
theorem tables_pushHeapRecord (d : Draft) (record : HeapRecord) (offset : Nat) :
    (d.pushHeapRecord record offset).tables = d.tables := by
  rcases d.pushHeapRecord_cases record offset with htake | ⟨id, hreport⟩
  · rw [htake]
    cases record with
    | root root =>
      rw [take, addRoot, noteThread]
      split <;> rfl
    | _ => rfl
  · rw [hreport]
    rfl

/-- So does every record of the graph. -/
theorem tables_push (d : Draft) {r : Record} (h : r.body.track = .graph) :
    (d.push r).tables = d.tables := by
  obtain ⟨offset, time, body⟩ := r
  cases body with
  | heap record => exact d.tables_pushHeapRecord record offset
  | startThread start => rfl
  | skipped tag length =>
    rw [push]
    dsimp only
    cases Tag.ofCode? tag <;> rfl
  | _ => cases h

/-- A record on no track counts if it begins a heap dump, and that is all. -/
theorem push_of_idle (d : Draft) {r : Record} (h : r.body.track = .idle) :
    d.push r
      = { d with heapDumps := d.heapDumps + if r.body.isHeapDumpStart then 1 else 0 } := by
  obtain ⟨offset, time, body⟩ := r
  cases body with
  | skipped tag length =>
    rw [Body.track] at h
    rw [push]
    dsimp only
    cases htag : Tag.ofCode? tag with
    | some known => rfl
    | none => simp [htag] at h
  | unloadClass | endThread | heapDumpStart | heapDumpEnd => rfl
  | _ => cases h

/-- **A record leaves the parts of other tracks alone.** -/
theorem agree_push_of_ne {t : Track} (d : Draft) {r : Record} (h : r.body.track ≠ t) :
    Agree t (d.push r) d := by
  by_cases hgraph : r.body.track = .graph
  · have htables := d.tables_push hgraph
    cases t with
    | graph => exact absurd hgraph h
    | strings => exact congrArg Tables.strings htables
    | loads => exact congrArg Tables.loads htables
    | frames => exact congrArg Tables.frames htables
    | traces => exact congrArg Tables.traces htables
    | idle => trivial
  by_cases hidle : r.body.track = .idle
  · rw [d.push_of_idle hidle]
    cases t with
    | idle => trivial
    | _ => rfl
  -- what is left are the records that fill a table, each its own
  obtain ⟨offset, time, body⟩ := r
  cases body with
  | string id value =>
    cases t with
    | strings => exact absurd rfl h
    | idle => trivial
    | _ => rfl
  | loadClass serial classId stackSerial nameId =>
    cases t with
    | loads => exact absurd rfl h
    | idle => trivial
    | _ => rfl
  | stackFrame frame =>
    cases t with
    | frames => exact absurd rfl h
    | idle => trivial
    | _ => rfl
  | stackTrace trace =>
    cases t with
    | traces => exact absurd rfl h
    | idle => trivial
    | _ => rfl
  | startThread | heap => exact absurd rfl hgraph
  | unloadClass | endThread | heapDumpStart | heapDumpEnd => exact absurd rfl hidle
  | skipped tag length =>
    rw [Body.track] at hgraph hidle
    cases htag : Tag.ofCode? tag <;> simp [htag] at hgraph hidle

/-- A record of the graph depends on the graph only. -/
theorem Agree.push_of_graph {d d' : Draft} (h : Agree .graph d d') {r : Record}
    (hr : r.body.track = .graph) : Agree .graph (d.push r) (d'.push r) := by
  have huntabled : d.untabled = d'.untabled := h
  show (d.push r).untabled = (d'.push r).untabled
  rw [d.untabled_push hr, d'.untabled_push hr, huntabled]

/-- What a record writes on its own track depends on that track only. -/
theorem Agree.push_of_track {d d' : Draft} {r : Record} (h : Agree r.body.track d d') :
    Agree r.body.track (d.push r) (d'.push r) := by
  obtain ⟨offset, time, body⟩ := r
  cases body with
  | string id value =>
    exact congrArg (·.insert id value) (show d.strings = d'.strings from h)
  | loadClass serial classId stackSerial nameId =>
    exact congrArg (·.insert classId ⟨serial, nameId⟩) (show d.loads = d'.loads from h)
  | stackFrame frame =>
    exact congrArg (·.insert frame.frameId frame) (show d.frames = d'.frames from h)
  | stackTrace trace =>
    exact congrArg (·.insert trace.serial trace) (show d.traces = d'.traces from h)
  | startThread | heap => exact Agree.push_of_graph h rfl
  | unloadClass | endThread | heapDumpStart | heapDumpEnd => trivial
  | skipped tag length =>
    cases htrack : (Body.skipped tag length).track with
    | graph => exact Agree.push_of_graph (htrack ▸ h) htrack
    | idle => trivial
    | _ =>
      rw [Body.track] at htrack
      split at htrack <;> cases htrack

/-- **What a record writes on a track depends on that track only.** -/
theorem Agree.push {t : Track} {d d' : Draft} (h : Agree t d d') (r : Record) :
    Agree t (d.push r) (d'.push r) := by
  by_cases hr : r.body.track = t
  · subst hr
    exact h.push_of_track
  · exact (d.agree_push_of_ne hr).trans (h.trans (d'.agree_push_of_ne hr).symm)

/-! ### All records -/

/-- Records of other tracks can be left out. -/
theorem agree_foldl_push_filter (t : Track) (d : Draft) (records : List Record) :
    Agree t (records.foldl Draft.push d)
      ((records.filter (·.body.track = t)).foldl Draft.push d) := by
  induction records using List.reverseRecOn with
  | nil => exact .refl t d
  | append_singleton records r ih =>
    rw [List.filter_append, List.foldl_append, List.foldl_append]
    by_cases hr : r.body.track = t
    · rw [List.filter_cons_of_pos (by simpa using hr)]
      exact ih.push r
    · rw [List.filter_cons_of_neg (by simpa using hr)]
      exact (agree_push_of_ne _ hr).trans ih

/-- The same records go on with what drafts agree in. -/
theorem Agree.foldl_push {t : Track} {d d' : Draft} (h : Agree t d d') (records : List Record) :
    Agree t (records.foldl Draft.push d) (records.foldl Draft.push d') := by
  induction records generalizing d d' with
  | nil => exact h
  | cons r records ih => exact ih (h.push r)

/-- **A part of a draft comes from the records of its track, in their order**, whatever
stands between them. -/
theorem agree_foldl_push {t : Track} {d d' : Draft} {records records' : List Record}
    (h : Agree t d d')
    (horder : records.filter (·.body.track = t) = records'.filter (·.body.track = t)) :
    Agree t (records.foldl Draft.push d) (records'.foldl Draft.push d') := by
  have hfiltered := h.foldl_push (records.filter (·.body.track = t))
  rw [horder] at hfiltered
  exact ((horder ▸ agree_foldl_push_filter t d records).trans hfiltered).trans
    (agree_foldl_push_filter t d' records').symm

theorem heapDumps_push (d : Draft) (r : Record) :
    (d.push r).heapDumps = d.heapDumps + if r.body.isHeapDumpStart then 1 else 0 := by
  obtain ⟨offset, time, body⟩ := r
  cases body with
  | heap record => exact congrArg Tables.heapDumps (d.tables_pushHeapRecord record offset)
  | skipped tag length =>
    rw [push]
    dsimp only
    cases Tag.ofCode? tag <;> rfl
  | _ => rfl

/-- Every record that begins a heap dump is counted. -/
theorem heapDumps_foldl_push (d : Draft) (records : List Record) :
    (records.foldl Draft.push d).heapDumps
      = d.heapDumps + records.countP (·.body.isHeapDumpStart) := by
  induction records generalizing d with
  | nil => rfl
  | cons r records ih =>
    rw [List.foldl_cons, ih, heapDumps_push, List.countP_cons]
    omega

end Draft

end HeapDump
