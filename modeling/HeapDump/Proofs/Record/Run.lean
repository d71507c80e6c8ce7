/-
HeapDump/Proofs/Record/Run.lean

Whole readings as sequences of steps.

`Runs data s trace t` says that a stream gives the records of `trace`, each with
the stream behind it, and arrives at `t`.  What a step keeps, a run keeps, by
induction over the run: the stream stays valid (`Runs.valid`), its settings are
those of the start (`Runs.frame`), and its sub-records are well formed
(`Runs.wellFormed`).

Every step moves on, so a run has no more records than there are bytes left
(`Runs.length_le`) and the fuel of a reading is enough.  `Completes` is a run that
goes as far as the stream gives records, together with the way it ends; every
stream has one (`exists_completes`), and the fold over the records of a stream is
the fold over its trace:

    s.fold f state = ⟨trace.foldl (fun state x => f state x.1 x.2) state, error, t⟩

(`Completes.fold_eq`).  From here on no proof mentions fuel.
-/
import HeapDump.Proofs.Record.Step

namespace HeapDump

namespace RecordStream

variable {data : ByteArray} {s t u : RecordStream} {r : Record}

/-! ### Runs -/

/-- The stream gives the records of a trace one after the other. -/
inductive Runs (data : ByteArray) :
    RecordStream → List (Record × RecordStream) → RecordStream → Prop where
  | done (s : RecordStream) : Runs data s [] s
  | step {s t u : RecordStream} {r : Record} {trace : List (Record × RecordStream)}
      (h : Step data s r t) (rest : Runs data t trace u) : Runs data s ((r, t) :: trace) u

variable {trace trace' : List (Record × RecordStream)}

theorem Runs.append (h : Runs data s trace t) (h' : Runs data t trace' u) :
    Runs data s (trace ++ trace') u := by
  induction h with
  | done s => exact h'
  | step h rest ih => exact .step h (ih h')

theorem Runs.valid (h : Runs data s trace t) (hv : s.Valid data) : t.Valid data := by
  induction h with
  | done s => exact hv
  | step h rest ih => exact ih (h.valid hv)

/-- A run has no more records than bytes. -/
theorem Runs.length_le (h : Runs data s trace t) : s.position + trace.length ≤ t.position := by
  induction h with
  | done s => exact Nat.le_refl _
  | step h rest ih =>
    have hlt := h.position_lt
    rw [List.length_cons]
    omega

theorem Runs.frame (h : Runs data s trace t) :
    t.store = s.store ∧ t.header = s.header ∧ t.skipUnknown = s.skipUnknown
      ∧ t.finished = s.finished ∧ t.count = s.count + trace.length := by
  induction h with
  | done s => exact ⟨rfl, rfl, rfl, rfl, rfl⟩
  | step h rest ih =>
    obtain ⟨h1, h2, h3, h4, h5⟩ := h.frame
    obtain ⟨i1, i2, i3, i4, i5⟩ := ih
    refine ⟨i1.trans h1, i2.trans h2, i3.trans h3, i4.trans h4, ?_⟩
    rw [i5, h5, List.length_cons]
    omega

/-! ### What is read is well formed -/

/-- A sub-record that a stream gives is well formed. -/
theorem Step.wellFormed (h : Step data s r t) {record : HeapRecord}
    (hr : r.body = .heap record) : record.WellFormed s.header.idSize := by
  cases h with
  | subRecord hopen hlt hq hwf hbs hspan =>
    obtain rfl := Body.heap.inj hr
    exact hwf
  | heapDump | unknown => cases hr
  | topLevel htop htag hframe hbody =>
    -- no payload of a top-level record is a sub-record
    obtain rfl : _ = Body.heap record := hr
    exact hbody.1.elim

theorem Runs.wellFormed (h : Runs data s trace t) {x : Record × RecordStream} (hx : x ∈ trace)
    {record : HeapRecord} (hr : x.1.body = .heap record) : record.WellFormed s.header.idSize := by
  induction h with
  | done s => cases hx
  | @step s u t r trace hstep rest ih =>
    rcases List.mem_cons.mp hx with rfl | hx
    · exact hstep.wellFormed hr
    · rw [← hstep.frame.2.1]
      exact ih hx

/-! ### Folds over runs -/

/-- A run that a loop has fuel for is taken as a whole. -/
theorem Runs.foldFrom_eq {σ : Type} (f : σ → Record → RecordStream → σ)
    (h : Runs data s trace t) (hv : s.Valid data) (hf : s.finished = false) (fuel : Nat)
    (state : σ) :
    foldFrom f (trace.length + fuel) state s
      = foldFrom f fuel (trace.foldl (fun state x => f state x.1 x.2) state) t := by
  induction h generalizing state with
  | done s => rw [List.length_nil, Nat.zero_add, List.foldl_nil]
  | @step s t u r trace h rest ih =>
    -- one round of the loop is one step of the run
    have hnext := (next_eq_some_iff hv hf).mpr h
    have hstep : foldFrom f (trace.length + fuel + 1) state s
        = foldFrom f (trace.length + fuel) (f state r t) t := by
      rw [foldFrom, hnext]
    rw [List.length_cons, Nat.add_right_comm, hstep, ih (h.valid hv) (h.frame.2.2.2.1.trans hf),
      List.foldl_cons]

/-- A stream that gives no record ends a loop. -/
theorem foldFrom_succ_of_error {σ : Type} (f : σ → Record → RecordStream → σ) {e : Error}
    (h : s.next = (.error e, t)) (fuel : Nat) (state : σ) :
    foldFrom f (fuel + 1) state s = ⟨state, some e, t⟩ := by
  rw [foldFrom, h]

theorem foldFrom_succ_of_none {σ : Type} (f : σ → Record → RecordStream → σ)
    (h : s.next = (.ok none, t)) (fuel : Nat) (state : σ) :
    foldFrom f (fuel + 1) state s = ⟨state, none, t⟩ := by
  rw [foldFrom, h]

/-- A run that goes as far as the stream gives records, and the way it ends. -/
structure Completes (data : ByteArray) (s : RecordStream) (trace : List (Record × RecordStream))
    (error : Option Error) (t : RecordStream) : Prop where
  intro ::
  exists_last : ∃ last, Runs data s trace last
    ∧ last.next = (match error with | none => .ok none | some e => .error e, t)

theorem next_finished (hf : s.finished = false) {result : Except Error (Option Record)}
    (h : s.next = (result, t)) (hne : ∀ r, result ≠ .ok (some r)) : t.finished = true := by
  rw [next, hf] at h
  simp only [Bool.false_eq_true, if_false] at h
  split at h
  · cases h
    exact absurd rfl (hne _)
  · cases h
    rfl
  · cases h
    rfl

/-- Every stream over `data` has a complete run. -/
theorem exists_completes (hv : s.Valid data) (hf : s.finished = false) :
    ∃ trace error t, Completes data s trace error t := by
  -- every step leaves fewer bytes
  induction hn : data.size - s.position using Nat.strong_induction_on generalizing s with
  | _ n ih =>
    rcases hnext : s.next with ⟨e | _ | r, t⟩
    · exact ⟨[], some e, t, s, .done s, hnext⟩
    · exact ⟨[], none, t, s, .done s, hnext⟩
    · have hstep := (next_eq_some_iff hv hf).mp hnext
      have hv' := hstep.valid hv
      have hlt := hstep.position_lt
      have hle := hv'.position_le
      obtain ⟨trace, error, u, last, hruns, hlast⟩ :=
        ih (data.size - t.position) (by omega) hv' (hstep.frame.2.2.2.1.trans hf) rfl
      exact ⟨(r, t) :: trace, error, u, last, .step hstep hruns, hlast⟩

/-- **A fold over the records of a stream is the fold over the trace of its complete run.** -/
theorem Completes.fold_eq {σ : Type} {error : Option Error} (h : Completes data s trace error t)
    (hv : s.Valid data) (hf : s.finished = false) (f : σ → Record → RecordStream → σ) (state : σ) :
    s.fold f state = ⟨trace.foldl (fun state x => f state x.1 x.2) state, error, t⟩ := by
  obtain ⟨last, hruns, hlast⟩ := h.exists_last
  have hlen := hruns.length_le
  have hle := (hruns.valid hv).position_le
  have hsize := hv.serves.size_eq
  -- a record has a byte at least, so a round is left for the end of the run
  obtain ⟨fuel, hfuel⟩ : ∃ fuel, s.store.size - s.position + 2 = trace.length + (fuel + 1) :=
    ⟨s.store.size - s.position + 1 - trace.length, by omega⟩
  rw [fold, hfuel, hruns.foldFrom_eq f hv hf]
  cases error with
  | none => exact foldFrom_succ_of_none f hlast fuel _
  | some e => exact foldFrom_succ_of_error f hlast fuel _

/-- The records of a complete run, each with the place behind it. -/
theorem Completes.readAll_eq {error : Option Error} (h : Completes data s trace error t)
    (hv : s.Valid data) (hf : s.finished = false) :
    s.readAll = ⟨(trace.map fun x => (x.1, x.2.position)).toArray, error, t⟩ := by
  rw [readAll, h.fold_eq hv hf]
  congr 1
  -- the fold pushes each record behind those before it, so it is a map
  have hpush : ∀ (front : Array (Record × Nat)) (trace : List (Record × RecordStream)),
      trace.foldl (fun records x => records.push (x.1, x.2.position)) front
        = front ++ (trace.map fun x => (x.1, x.2.position)).toArray := by
    intro front trace
    induction trace generalizing front with
    | nil => simp
    | cons x trace ih => simp [ih]
  rw [hpush, Array.empty_append]

end RecordStream

end HeapDump
