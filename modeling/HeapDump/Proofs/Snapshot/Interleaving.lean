/-
HeapDump/Proofs/Snapshot/Interleaving.lean

Tables may stand anywhere in a dump.

Names, loadings of classes, frames and traces are looked up when all records have been
read, so it does not matter where between the objects, roots and threads their records
stand; that heap dumps begin and end, and records that say nothing, do not matter at
all.

Records are sorted into tracks (`Body.track`), and two sequences of records with the same
records on each track, in the same order there, give drafts that agree on every track.
Such drafts differ in the number of heap dumps at most, and finishing asks only whether
there is one (`Draft.finish_heapDumps`).  If the sequences are permutations of each other,
the numbers are even equal.  Main statement: `interleaving_irrelevant`.
-/
import HeapDump.Proofs.Draft.Interleaving
import HeapDump.Proofs.Snapshot.Reordering

namespace HeapDump

namespace Draft

/-- The number of heap dumps makes a difference only if it is none. -/
theorem finish_heapDumps {d : Draft} {n : Nat} (h : d.heapDumps = 0 ↔ n = 0)
    (resolveFields : Bool) : { d with heapDumps := n }.finish resolveFields = d.finish resolveFields := by
  have hmissing : { d with heapDumps := n }.missingHeapDump = d.missingHeapDump := by
    simp only [missingHeapDump, h]
  have hnotes : { d with heapDumps := n }.namingNotes = d.namingNotes := by
    rw [namingNotes, hmissing]
    rfl
  rw [finish, hnotes]
  rfl

/-- Drafts that agree on all tracks finish alike, unless one has heap dumps and the other
has none. -/
theorem finish_eq_of_agree {d d' : Draft} (h : ∀ t, Agree t d d')
    (hdumps : d.heapDumps = 0 ↔ d'.heapDumps = 0) (resolveFields : Bool) :
    d.finish resolveFields = d'.finish resolveFields := by
  rw [eq_of_agree h, finish_heapDumps hdumps]

end Draft

/-- **Tables may stand anywhere.**  Records may be moved if the names stay in order among
themselves, and so do the loadings of classes, the frames, the traces, and all other records
that count: the snapshot is the same in all of its parts. -/
theorem interleaving_irrelevant (d : Draft) {records records' : List Record}
    (resolveFields : Bool) (hperm : records.Perm records')
    (horder : ∀ t ≠ Track.idle,
      records.filter (·.body.track = t) = records'.filter (·.body.track = t)) :
    (records.foldl Draft.push d).finish resolveFields
      = (records'.foldl Draft.push d).finish resolveFields := by
  have hagree : ∀ t, Draft.Agree t (records.foldl Draft.push d) (records'.foldl Draft.push d) := by
    intro t
    by_cases hidle : t = .idle
    · exact hidle ▸ trivial
    · exact Draft.agree_foldl_push (.refl t d) (horder t hidle)
  refine Draft.finish_eq_of_agree hagree ?_ resolveFields
  rw [Draft.heapDumps_foldl_push, Draft.heapDumps_foldl_push, hperm.countP_eq]

/-! ### A dump with its tables in front or behind -/

/-- A thread with its stack, and records that say nothing. -/
def sampleStack : List Record :=
  [⟨320, some 0, .stackTrace ⟨7, 5, [64]⟩⟩, ⟨345, some 0, .stackFrame ⟨64, 1, 2, 9, 1, -2⟩⟩,
    ⟨378, some 0, .startThread ⟨5, 32, 7, 1, 1, 9⟩⟩, ⟨411, some 0, .unloadClass 2⟩,
    ⟨424, some 0, .skipped 6 4⟩, ⟨437, some 0, .skipped 66 4⟩, ⟨450, some 0, .heapDumpEnd⟩]

theorem interleaving_irrelevant_sample :
    let records := sampleOthers ++ sampleDefinitions ++ sampleStack
    let records' := [Track.graph, .idle, .traces, .frames, .loads, .strings].flatMap fun t =>
      records.filter (·.body.track = t)
    records ≠ records'
      ∧ records.Perm records'
      ∧ (∀ t ≠ Track.idle,
        records.filter (·.body.track = t) = records'.filter (·.body.track = t))
      ∧ (sampleSnapshot records').classes.map (·.name) = #["Node", "[I"]
      ∧ (sampleSnapshot records').threads[(5 : UInt32)]?.bind (·.name) = some "Node"
      ∧ sampleSnapshot records = sampleSnapshot records' := by
  intro records records'
  have hperm : records.Perm records' := by decide +kernel
  have horder : ∀ t ≠ Track.idle,
      records.filter (·.body.track = t) = records'.filter (·.body.track = t) := by
    intro t hidle
    cases t with
    | idle => exact absurd rfl hidle
    | _ => decide +kernel
  exact ⟨by decide +kernel, hperm, horder, by decide +kernel, by decide +kernel,
    interleaving_irrelevant _ true hperm horder⟩

end HeapDump
