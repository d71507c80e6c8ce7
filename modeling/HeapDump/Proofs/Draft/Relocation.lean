/-
HeapDump/Proofs/Draft/Relocation.lean

Records that stand at other places.

A draft takes in a record in the same way wherever it stands, and keeps its place: if
every place `p` of the records is replaced by `φ p`, so is every place that the draft
keeps, in its classes, instances and roots and in what it has reported.  Nothing else
changes:

    (records.map (·.relocate φ)).foldl push (d.relocate φ) = (records.foldl push d).relocate φ

(`Draft.relocate_foldl_push`).  Nothing is asked of `φ`, since no decision depends on a
place; with a constant function the statement says that a draft without its places is
known from the records without theirs.
-/
import HeapDump.Proofs.Draft.Push
import HeapDump.Proofs.Graph.Relocation

namespace HeapDump

variable (φ : Nat → Nat)

/-- A record at another place. -/
def Record.relocate (r : Record) : Record := { r with offset := φ r.offset }

/-- Something whose record stands at another place. -/
def Located.relocate (x : Located α) : Located α := { x with offset := φ x.offset }

namespace Draft

/-- A draft whose records stand at other places. -/
def relocate (d : Draft) : Draft :=
  { d with
    classes := d.classes.map (Located.relocate φ)
    instances := d.instances.map (Located.relocate φ)
    roots := d.roots.map (Located.relocate φ)
    diagnostics := d.diagnostics.relocate φ }

variable (d : Draft)

theorem relocate_start (header : Header) (attachSink : Bool) :
    relocate φ { header, diagnostics := .start attachSink }
      = { header, diagnostics := .start attachSink } := by
  simp [relocate]

theorem relocate_report (diagnostic : Diagnostic) :
    (d.report diagnostic).relocate φ = (d.relocate φ).report (diagnostic.relocate φ) := by
  rw [report, relocate, Diagnostics.relocate_push]
  rfl

theorem relocate_addRoot (root : RootRecord) (offset : Nat) :
    (d.addRoot root offset).relocate φ = (d.relocate φ).addRoot root (φ offset) := by
  have hthread : (d.noteThread root).relocate φ = (d.relocate φ).noteThread root := by
    rw [noteThread, noteThread]
    split <;> rfl
  rw [addRoot, addRoot, ← hthread]
  simp only [relocate, inHeap, locate, Array.map_push, Array.size_map]
  rfl

/-- What is taken in of a sub-record is so wherever it stands. -/
theorem relocate_take (record : HeapRecord) (offset : Nat) :
    (d.take record offset).relocate φ = (d.relocate φ).take record (φ offset) := by
  cases record with
  | heapInfo heapId nameId => rfl
  | root root => exact d.relocate_addRoot φ root offset
  | classDump dump | object dump =>
    simp only [take, relocate, inHeap, locate, Array.map_push, Array.size_map]
    rfl

theorem relocate_pushHeapRecord (record : HeapRecord) (offset : Nat) :
    (d.pushHeapRecord record offset).relocate φ
      = (d.relocate φ).pushHeapRecord record (φ offset) :=
  d.map_pushHeapRecord (F := relocate φ) rfl (d.relocate_take φ record offset)
    fun _ => d.relocate_report φ _

/-- **A record is taken in alike at every place.** -/
theorem relocate_push (r : Record) :
    (d.push r).relocate φ = (d.relocate φ).push (r.relocate φ) := by
  obtain ⟨offset, time, body⟩ := r
  cases body with
  | heap record => exact d.relocate_pushHeapRecord φ record offset
  | skipped tag length =>
    rw [push, push]
    simp only [Record.relocate]
    cases Tag.ofCode? tag with
    | some known => rfl
    | none => exact d.relocate_report φ _
  | _ => rfl

theorem relocate_foldl_push (records : List Record) :
    (records.foldl push d).relocate φ
      = (records.map (Record.relocate φ)).foldl push (d.relocate φ) := by
  induction records generalizing d with
  | nil => rfl
  | cons r records ih => rw [List.foldl_cons, ih, relocate_push, List.map_cons, List.foldl_cons]

end Draft

end HeapDump
