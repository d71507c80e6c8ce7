/-
HeapDump/Proofs/Record/Leniency.lean

Reading with and without records of unknown tags.

A lenient stream passes over top-level records with unknown tags, a strict one fails at
them.  Everything else they do alike, which is said twice:

* where a lenient stream gives a record that is not unknown, the strict one gives the same
  (`Step.strict`), and where it gives an unknown one, the strict one fails
  (`next_strict_of_isUnknown`);
* where a lenient stream gives no record, the strict one ends in the same way
  (`next_strict`).

By induction over a run, both give the same records up to the first unknown one, and end in
the same way if there is none (`Completes.strict`, `Completes.strict_of_isUnknown`).  In
terms of whole readings: `reading_strict` and `reading_strict_of_isUnknown`.
-/
import HeapDump.Proofs.Record.Tiling

namespace HeapDump

/-- Whether a record is one that was passed over because its tag is unknown. -/
def Body.isUnknown : Body → Bool
  | skipped tag _ => (Tag.ofCode? tag).isNone
  | _ => false

/-- Whether a record is one that was passed over because its tag is unknown. -/
def Record.isUnknown (r : Record) : Bool := r.body.isUnknown

/-- The payload of a known record spells no unknown one. -/
theorem Body.Spells.isUnknown_eq_false {idSize : Nat} {tag : Tag} {b : Body} {bs : List UInt8}
    (h : b.Spells idSize tag bs) : b.isUnknown = false := by
  cases b with
  | skipped code length =>
    obtain ⟨-, rfl, -⟩ := h
    rw [isUnknown, Tag.ofCode?_code]
    rfl
  | _ => rfl

namespace RecordStream

/-- The stream that fails at unknown tags. -/
def strict (s : RecordStream) : RecordStream := { s with skipUnknown := false }

variable {data : ByteArray} {s t last : RecordStream} {r : Record}
  {trace : List (Record × RecordStream)} {error : Option Error}

theorem Valid.strict (hv : s.Valid data) : s.strict.Valid data :=
  ⟨hv.serves, hv.idSize_le, hv.position_le, hv.segment_le⟩

/-! ### One record -/

/-- A known record is given by a strict stream as well. -/
theorem Step.strict (h : Step data s r t) (hknown : r.isUnknown = false) :
    Step data s.strict r t.strict := by
  cases h with
  | subRecord hopen hlt hq hwf hbs hspan => exact .subRecord hopen hlt hq hwf hbs hspan
  | heapDump htop hframe => exact .heapDump htop hframe
  | topLevel htop htag hframe hbody => exact .topLevel htop htag hframe hbody
  | unknown htop hskip htag hframe =>
    rw [Record.isUnknown, Body.isUnknown, htag] at hknown
    cases hknown

/-- An unknown record stands at the top level. -/
theorem Step.of_isUnknown (h : Step data s r t) (hunknown : r.isUnknown) :
    s.AtTopLevel ∧ ∃ code time payload, Tag.ofCode? code = none
      ∧ Framed data s.position code time payload
      ∧ r = ⟨s.position, some time, .skipped code payload.length⟩
      ∧ t = { s with
        position := s.position + recordHeaderLength + payload.length
        segmentEnd := none
        count := s.count + 1 } := by
  cases h with
  | subRecord => cases hunknown
  | heapDump => cases hunknown
  | topLevel _ _ _ hbody =>
    rw [Record.isUnknown, hbody.isUnknown_eq_false] at hunknown
    cases hunknown
  | unknown htop _ htag hframe => exact ⟨htop, _, _, _, htag, hframe, rfl, rfl⟩

/-- At an unknown record a strict stream fails with its tag and its place. -/
theorem next_strict_of_isUnknown (hv : s.Valid data) (hf : s.finished = false)
    (h : Step data s r t) (hunknown : r.isUnknown) :
    ∃ tag length u, r.body = .skipped tag length
      ∧ s.strict.next = (.error (.unknownTag tag r.offset), u) := by
  obtain ⟨htop, code, time, payload, htag, hframe, rfl, -⟩ := h.of_isUnknown hunknown
  have hadvance : s.strict.advance
      = (.error (.unknownTag code s.position), { s.strict with segmentEnd := none }) := by
    have htop' : s.strict.AtTopLevel := htop
    have hframe' : Framed data { s.strict with segmentEnd := none }.position code time payload :=
      hframe
    rw [advance_of_atTopLevel htop', nextTopLevel_of_framed hv.strict.close hframe', nextBody, htag]
    rfl
  refine ⟨code, payload.length, { s.strict with segmentEnd := none, finished := true }, rfl, ?_⟩
  rw [next, show s.strict.finished = false from hf, hadvance]
  rfl

/-! ### Everything else -/

theorem nextBody_strict {h : RecordHeader} (hne : ∀ r, (s.nextBody h).1 ≠ .ok (some r)) :
    s.strict.nextBody h = ((s.nextBody h).1, (s.nextBody h).2.strict) := by
  rw [nextBody, nextBody]
  rw [nextBody] at hne
  cases htag : Tag.ofCode? h.tag with
  | some tag =>
    dsimp only
    split <;> rfl
  | none =>
    -- a lenient stream would have given a record
    have hstrict : ¬ s.skipUnknown = true := by
      intro hskip
      simp only [htag, if_pos hskip] at hne
      exact hne _ rfl
    simp only [if_neg hstrict]
    rfl

theorem nextTopLevel_strict (hne : ∀ r, s.nextTopLevel.1 ≠ .ok (some r)) :
    s.strict.nextTopLevel = (s.nextTopLevel.1, s.nextTopLevel.2.strict) := by
  rw [nextTopLevel] at hne
  rw [nextTopLevel, nextTopLevel]
  by_cases hend : s.store.size ≤ s.position
  · rw [if_pos hend, if_pos (show s.strict.store.size ≤ s.strict.position from hend)]
  · rw [if_neg hend] at hne ⊢
    rw [if_neg (show ¬ s.strict.store.size ≤ s.strict.position from hend)]
    have hread : RecordHeader.read s.strict.store s.strict.position
        = RecordHeader.read s.store s.position := rfl
    rw [hread]
    cases h : RecordHeader.read s.store s.position with
    | ok header =>
      rw [h] at hne
      exact nextBody_strict hne
    | error e => rfl

theorem nextSubRecord_strict (stop : Nat) :
    s.strict.nextSubRecord stop = ((s.nextSubRecord stop).1, (s.nextSubRecord stop).2.strict) := by
  have hrun : Layout.subRecord.runOn s.strict.store s.strict.header.idSize s.strict.position
      s.strict.position stop
      = Layout.subRecord.runOn s.store s.header.idSize s.position s.position stop := rfl
  rw [nextSubRecord, nextSubRecord, hrun]
  rcases Layout.subRecord.runOn s.store s.header.idSize s.position s.position stop with
    e | ⟨record, q⟩
  · rfl
  · rfl

theorem advance_strict (hne : ∀ r, s.advance.1 ≠ .ok (some r)) :
    s.strict.advance = (s.advance.1, s.advance.2.strict) := by
  rcases s.open_or_atTopLevel with ⟨stop, hopen, hlt⟩ | htop
  · rw [advance_of_open hopen hlt, advance_of_open (s := s.strict) hopen hlt]
    exact nextSubRecord_strict stop
  · rw [advance_of_atTopLevel htop] at hne ⊢
    rw [advance_of_atTopLevel (s := s.strict) htop]
    exact nextTopLevel_strict hne

/-- What is no record is the same to a strict stream. -/
theorem next_strict (hf : s.finished = false) (hne : ∀ r, s.next.1 ≠ .ok (some r)) :
    s.strict.next = (s.next.1, s.next.2.strict) := by
  rw [next, if_neg (Bool.eq_false_iff.mp hf)] at hne
  rw [next, next, if_neg (Bool.eq_false_iff.mp hf),
    if_neg (show ¬ s.strict.finished = true from Bool.eq_false_iff.mp hf)]
  rcases hadvance : s.advance with ⟨e | _ | r, u⟩
  · have hstrict := advance_strict (s := s) (by rw [hadvance]; simp)
    rw [hstrict, hadvance]
    rfl
  · have hstrict := advance_strict (s := s) (by rw [hadvance]; simp)
    rw [hstrict, hadvance]
    rfl
  · rw [hadvance] at hne
    exact absurd rfl (hne r)

/-! ### Runs -/

/-- A run through known records is one of a strict stream. -/
theorem Runs.strict (h : Runs data s trace t) (hknown : ∀ x ∈ trace, x.1.isUnknown = false) :
    Runs data s.strict (trace.map fun x => (x.1, x.2.strict)) t.strict := by
  induction h with
  | done s => exact .done _
  | step hstep rest ih =>
    obtain ⟨hhead, htail⟩ := List.forall_mem_cons.mp hknown
    exact .step (hstep.strict hhead) (ih htail)

/-- **Without unknown records a strict stream does what a lenient one does.** -/
theorem Completes.strict (h : Completes data s trace error t)
    (hf : s.finished = false) (hknown : ∀ x ∈ trace, x.1.isUnknown = false) :
    Completes data s.strict (trace.map fun x => (x.1, x.2.strict)) error t.strict := by
  obtain ⟨last, hruns, hlast⟩ := h.exists_last
  refine ⟨last.strict, hruns.strict hknown, ?_⟩
  rw [next_strict (hruns.frame.2.2.2.1.trans hf), hlast]
  rw [hlast]
  cases error <;> simp

/-- A run can be taken apart in front of any of its records. -/
theorem Runs.exists_step {front back : List (Record × RecordStream)} {x : Record × RecordStream}
    (h : Runs data s (front ++ x :: back) t) :
    ∃ mid, Runs data s front mid ∧ Step data mid x.1 x.2 ∧ Runs data x.2 back t := by
  induction front generalizing s with
  | nil =>
    cases h with
    | step hstep rest => exact ⟨s, .done s, hstep, rest⟩
  | cons y front ih =>
    cases h with
    | step hstep rest =>
      obtain ⟨mid, hfront, hx, hback⟩ := ih rest
      exact ⟨mid, .step hstep hfront, hx, hback⟩

/-- **At the first unknown record a strict stream fails**, after the records in front. -/
theorem Completes.strict_of_isUnknown {front back : List (Record × RecordStream)}
    {x : Record × RecordStream} (h : Completes data s (front ++ x :: back) error t)
    (hv : s.Valid data) (hf : s.finished = false)
    (hknown : ∀ y ∈ front, y.1.isUnknown = false) (hunknown : x.1.isUnknown) :
    ∃ tag length u, x.1.body = .skipped tag length
      ∧ Completes data s.strict (front.map fun y => (y.1, y.2.strict))
        (some (.unknownTag tag x.1.offset)) u := by
  obtain ⟨last, hruns, -⟩ := h.exists_last
  obtain ⟨mid, hfront, hstep, -⟩ := hruns.exists_step
  obtain ⟨tag, length, u, hbody, hnext⟩ := next_strict_of_isUnknown (hfront.valid hv)
    (hfront.frame.2.2.2.1.trans hf) hstep hunknown
  exact ⟨tag, length, u, hbody, mid.strict, hfront.strict hknown, hnext⟩

end RecordStream

/-! ### Readings -/

namespace ByteStore

open RecordStream

variable {data : ByteArray} {store : ByteStore}

/-- Both readings of a dump begin behind its header, if it has one. -/
theorem reading_of_header_error {e : Error} (h : Header.read store = .error e)
    (skipUnknown : Bool) : store.reading skipUnknown = ([], some e) := by
  rw [reading, ofStore, h]
  rfl

theorem exists_completes_of_header (hs : store.Serves data) {header : Header}
    (h : Header.read store = .ok header) :
    ∃ s trace error t, s = RecordStream.mk store header true header.length none 0 false
      ∧ s.Valid data ∧ Completes data s trace error t
      ∧ store.reading true = (trace.map place, error)
      ∧ ofStore store false = .ok s.strict := by
  have hstream := ofStore_eq_ok_iff.mpr
    ⟨header, h, (rfl : _ = RecordStream.mk store header true header.length none 0 false)⟩
  have hv := valid_of_ofStore hs hstream
  obtain ⟨trace, error, t, hcompletes⟩ := exists_completes hv rfl
  exact ⟨_, trace, error, t, rfl, hv, hcompletes, hcompletes.reading_eq hstream hv rfl,
    ofStore_eq_ok_iff.mpr ⟨header, h, rfl⟩⟩

/-- **If a lenient reading comes upon no unknown record, the strict reading is the same.** -/
theorem reading_strict (hs : store.Serves data)
    (hknown : ∀ x ∈ (store.reading true).1, x.1.isUnknown = false) :
    store.reading false = store.reading true := by
  cases hheader : Header.read store with
  | error e => rw [reading_of_header_error hheader, reading_of_header_error hheader]
  | ok header =>
    obtain ⟨s, trace, error, t, rfl, hv, hcompletes, hread, hstream⟩ :=
      exists_completes_of_header hs hheader
    rw [hread] at hknown ⊢
    have hstrict := hcompletes.strict rfl fun x hx => hknown _ (List.mem_map_of_mem hx)
    rw [hstrict.reading_eq hstream hv.strict rfl, List.map_map]
    rfl

/-- **If it comes upon one, the strict reading is the same up to the first, and fails there.** -/
theorem reading_strict_of_isUnknown (hs : store.Serves data) {front back : List (Record × Nat)}
    {x : Record × Nat} (h : (store.reading true).1 = front ++ x :: back)
    (hknown : ∀ y ∈ front, y.1.isUnknown = false) (hunknown : x.1.isUnknown) :
    ∃ tag length, x.1.body = .skipped tag length
      ∧ store.reading false = (front, some (.unknownTag tag x.1.offset)) := by
  cases hheader : Header.read store with
  | error e =>
    rw [reading_of_header_error hheader] at h
    exact absurd h (by simp)
  | ok header =>
    obtain ⟨s, trace, error, t, rfl, hv, hcompletes, hread, hstream⟩ :=
      exists_completes_of_header hs hheader
    rw [hread] at h
    -- the records are those of a run, so the run falls apart at the unknown one
    obtain ⟨front, rest, rfl, rfl, hrest⟩ := List.map_eq_append_iff.mp h
    obtain ⟨x, back, rfl, rfl, rfl⟩ := List.map_eq_cons_iff.mp hrest
    obtain ⟨tag, length, u, hbody, hstrict⟩ := hcompletes.strict_of_isUnknown hv rfl
      (fun y hy => hknown _ (List.mem_map_of_mem hy)) hunknown
    refine ⟨tag, length, hbody, ?_⟩
    rw [hstrict.reading_eq hstream hv.strict rfl, List.map_map]
    rfl

end ByteStore

end HeapDump
