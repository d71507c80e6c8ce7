/-
HeapDump/Proofs/Record/Deletion.lean

Dumps from which the records of unknown tags are deleted.

The bytes of a record of an unknown tag are its own: no other record and no heap dump
reaches into them.  If they are deleted, a strict stream over what is left does what the
lenient one does, except that it stands still where the lenient one passes over such a
record.

Design.  `Follows kept s u` relates the two streams: `u` stands at the new place of `s`, and
both are at the top level, or in heap dumps of which all bytes are kept up to the end.  A step
of `s` that gives a known record is one of `u` (`Step.keep`); one that gives an unknown
record leaves `u` where it is (`Follows.of_isUnknown`).  The run follows by induction
(`Runs.keep`), with the deleted bytes behind the current place as a part of the
statement (`DeletesUnknown`), as the bytes in front have been dealt with.

Main statement: `ByteStore.reading_withoutUnknown`, where every place is reduced by the number
of deleted bytes in front of it.
-/
import HeapDump.Proofs.Bytes.Deletion
import HeapDump.Proofs.Draft.Relocation
import HeapDump.Proofs.Record.Leniency

namespace HeapDump

variable {kept : Nat → Prop} [DecidablePred kept] {data : ByteArray}

/-! ### Frames and headers -/

/-- A kept record ends as far behind its start as before. -/
theorem count_record {p n : Nat}
    (hkept : ∀ i, p ≤ i → i < p + recordHeaderLength + n → kept i) :
    Nat.count kept (p + recordHeaderLength) = Nat.count kept p + recordHeaderLength
      ∧ Nat.count kept (p + recordHeaderLength + n)
        = Nat.count kept p + recordHeaderLength + n := by
  constructor
  · exact count_add_of_kept fun i hi hlt => hkept i hi (by omega)
  · rw [Nat.add_assoc, Nat.add_assoc]
    exact count_add_of_kept fun i hi hlt => hkept i hi (by omega)

theorem Framed.keep {p : Nat} {code : UInt8} {time : UInt32} {payload : List UInt8}
    (h : Framed data p code time payload)
    (hkept : ∀ i, p ≤ i → i < p + recordHeaderLength + payload.length → kept i) :
    Framed (keepBytes kept data) (Nat.count kept p) code time payload := by
  have hspan := h.span.keep hkept
  rw [(count_record hkept).2] at hspan
  exact ⟨h.length_lt, hspan⟩

/-- A header is read as before if none of its bytes is deleted. -/
theorem Header.read_keepBytes {store store' : ByteStore} (hs : store.Serves data)
    (hs' : store'.Serves (keepBytes kept data)) {header : Header}
    (h : Header.read store = .ok header) (hkept : ∀ i < header.length, kept i) :
    Header.read store' = .ok header := by
  obtain ⟨name, hhead, hformat, hlength⟩ := (read_eq_ok_iff hs).mp h
  have hspan := hhead.span.keep fun i _ hi => hkept i (hlength ▸ hi)
  rw [Nat.count_zero, Nat.count_of_forall fun i hi => hkept i (hlength ▸ hi)] at hspan
  exact (read_eq_ok_iff hs').mpr ⟨name, { hhead with span := hspan }, hformat, hlength⟩

namespace RecordStream

variable {store : ByteStore} {s t u last : RecordStream} {r : Record}
  {trace : List (Record × RecordStream)}

/-! ### Streams over what is left -/

/-- A strict stream over what is left of a dump stands where a stream over the dump does, and
is inside the same heap dump. -/
structure Follows (kept : Nat → Prop) [DecidablePred kept] (s u : RecordStream) : Prop where
  header_eq : u.header = s.header
  position_eq : u.position = Nat.count kept s.position
  segment : (s.AtTopLevel ∧ u.AtTopLevel) ∨ ∃ stop, s.segmentEnd = some stop
    ∧ u.segmentEnd = some (Nat.count kept stop) ∧ ∀ i, s.position ≤ i → i < stop → kept i

theorem Follows.atTopLevel (h : Follows kept s u) (htop : s.AtTopLevel) : u.AtTopLevel := by
  rcases h.segment with ⟨-, htop'⟩ | ⟨stop, hstop, hstop', -⟩
  · exact htop'
  · intro stop'' hstop''
    rw [hstop'] at hstop''
    obtain rfl := Option.some.inj hstop''
    rw [h.position_eq]
    exact Nat.count_monotone kept (htop stop hstop)

theorem Follows.of_open (h : Follows kept s u) {stop : Nat} (hopen : s.segmentEnd = some stop)
    (hlt : s.position < stop) :
    u.segmentEnd = some (Nat.count kept stop) ∧ ∀ i, s.position ≤ i → i < stop → kept i := by
  rcases h.segment with ⟨htop, -⟩ | ⟨stop', hstop, hstop', hkept⟩
  · exact absurd (htop stop hopen) (Nat.not_le.mpr hlt)
  · obtain rfl : stop' = stop := Option.some.inj (hstop.symm.trans hopen)
    exact ⟨hstop', hkept⟩

/-! ### One record -/

/-- The end of the heap dump that a stream is inside of or has read, and otherwise its place. -/
def reach (s : RecordStream) : Nat := s.segmentEnd.getD s.position

theorem AtTopLevel.reach_le (h : s.AtTopLevel) : s.reach ≤ s.position := by
  rw [reach]
  cases hstop : s.segmentEnd with
  | none => exact Nat.le_refl _
  | some stop => exact h stop hstop

/-- **A known record is read from what is left**, in the place that it has there. -/
theorem Step.keep (h : Step data s r t) (hknown : r.isUnknown = false) (hu : Follows kept s u)
    (hkept : ∀ i, s.position ≤ i → i < t.reach → kept i) :
    ∃ u', Step (keepBytes kept data) u (r.relocate (Nat.count kept)) u' ∧ Follows kept t u' := by
  have hplace := hu.position_eq
  have hrecord : r.relocate (Nat.count kept) = { r with offset := u.position } := by
    rw [Record.relocate, h.offset_eq, hplace]
  rw [hrecord]
  cases h with
  -- a sub-record is inside of a heap dump that is kept as a whole
  | @subRecord stop q record bs hopen hlt hq hwf hbs hspan =>
    obtain ⟨hopen', hinside⟩ := hu.of_open hopen hlt
    have hlt' : u.position < Nat.count kept stop :=
      hplace ▸ Nat.count_strict_mono (hinside _ (Nat.le_refl _) hlt) hlt
    have hspan' := hspan.keep fun i hi hiq => hinside i hi (Nat.lt_of_lt_of_le hiq hq)
    rw [← hplace] at hspan'
    exact ⟨_, .subRecord hopen' hlt' (Nat.count_monotone kept hq) (hu.header_eq ▸ hwf)
        (hu.header_eq ▸ hbs) hspan', hu.header_eq, rfl,
      .inr ⟨stop, hopen, hopen', fun i hi => hinside i (Nat.le_trans hspan.start_le hi)⟩⟩
  -- with a heap dump its payload is kept, which the stream is inside of from here on
  | @heapDump segment time payload htop hframe =>
    have hframe' := hframe.keep hkept
    obtain ⟨hpayload, hstop⟩ := count_record hkept
    rw [← hplace] at hframe' hpayload hstop
    exact ⟨_, .heapDump (hu.atTopLevel htop) hframe', hu.header_eq, hpayload.symm,
      .inr ⟨_, rfl, congrArg some hstop.symm, fun i hi =>
        hkept i (Nat.le_trans (Nat.le_add_right _ _) hi)⟩⟩
  | @topLevel tag time payload body htop htag hframe hbody =>
    have hframe' := hframe.keep hkept
    obtain ⟨-, hstop⟩ := count_record hkept
    rw [← hplace] at hframe' hstop
    exact ⟨_, .topLevel (hu.atTopLevel htop) htag hframe' (hu.header_eq ▸ hbody), hu.header_eq,
      hstop.symm, .inl ⟨atTopLevel_of_none rfl, atTopLevel_of_none rfl⟩⟩
  | unknown _ _ htag _ =>
    rw [Record.isUnknown, Body.isUnknown, htag] at hknown
    cases hknown

/-- Where an unknown record was, a stream over what is left stands still. -/
theorem Follows.of_isUnknown (hu : Follows kept s u) (h : Step data s r t)
    (hunknown : r.isUnknown) (hdeleted : ∀ i, s.position ≤ i → i < t.position → ¬ kept i) :
    Follows kept t u := by
  have hlt := h.position_lt
  obtain ⟨htop, code, time, payload, -, -, -, rfl⟩ := h.of_isUnknown hunknown
  exact ⟨hu.header_eq, by rw [hu.position_eq, count_eq_of_not_kept (Nat.le_of_lt hlt) hdeleted],
    .inl ⟨atTopLevel_of_none rfl, hu.atTopLevel htop⟩⟩

/-! ### Runs -/

/-- No unknown record begins inside a heap dump. -/
theorem Runs.reach_le (h : Runs data s trace t) {x : Record × RecordStream} (hx : x ∈ trace)
    (hunknown : x.1.isUnknown) : s.reach ≤ x.1.offset := by
  have hbounds := (h.offset_bounds hx).1
  induction h with
  | done s => cases hx
  | @step s t last r trace hstep rest ih =>
    by_cases htop : s.AtTopLevel
    · exact Nat.le_trans htop.reach_le hbounds
    · rcases List.mem_cons.mp hx with rfl | hx
      · exact absurd (hstep.of_isUnknown hunknown).1 htop
      · have hsame : t.reach = s.reach := by
          cases hstep with
          | subRecord hopen => simp [reach, hopen]
          | heapDump htop' | topLevel htop' | unknown htop' => exact absurd htop' htop
        exact hsame ▸ ih hx (rest.offset_bounds hx).1

/-- The bytes of unknown records are those that are deleted behind the place of a stream. -/
def DeletesUnknown (kept : Nat → Prop) (p : Nat) (trace : List (Record × RecordStream)) : Prop :=
  ∀ i, p ≤ i → (¬ kept i ↔ ∃ x ∈ trace, x.1.isUnknown ∧ x.1.offset ≤ i ∧ i < x.2.position)

omit [DecidablePred kept] in
theorem DeletesUnknown.tail {x : Record × RecordStream} (h : DeletesUnknown kept s.position (x :: trace))
    (hle : s.position ≤ x.2.position) : DeletesUnknown kept x.2.position trace := by
  intro i hi
  rw [h i (Nat.le_trans hle hi)]
  constructor
  · rintro ⟨y, hy, hunknown, hoffset, hlt⟩
    rcases List.mem_cons.mp hy with rfl | hy
    · exact absurd hlt (Nat.not_lt.mpr hi)
    · exact ⟨y, hy, hunknown, hoffset, hlt⟩
  · rintro ⟨y, hy, hrest⟩
    exact ⟨y, List.mem_cons_of_mem _ hy, hrest⟩

/-- **A run over what is left gives all known records**, in the places that they have there. -/
theorem Runs.keep (h : Runs data s trace t) (hdeleted : DeletesUnknown kept s.position trace)
    (hu : Follows kept s u) :
    ∃ trace' u', Runs (keepBytes kept data) u trace' u' ∧ Follows kept t u'
      ∧ trace'.map place = (trace.filter fun x => !x.1.isUnknown).map fun x =>
          (x.1.relocate (Nat.count kept), Nat.count kept x.2.position) := by
  induction h generalizing u with
  | done s => exact ⟨[], u, .done u, hu, rfl⟩
  | @step s t last r trace hstep rest ih =>
    have hlt := hstep.position_lt
    have htail := hdeleted.tail (Nat.le_of_lt hlt)
    cases hunknown : r.isUnknown with
    -- the bytes of this record are deleted
    | true =>
      have hgone : ∀ i, s.position ≤ i → i < t.position → ¬ kept i := fun i hi hit =>
        (hdeleted i hi).mpr ⟨(r, t), List.mem_cons_self, hunknown, hstep.offset_eq ▸ hi, hit⟩
      obtain ⟨trace', u', hruns, hfollows, hmap⟩ :=
        ih htail (hu.of_isUnknown hstep hunknown hgone)
      refine ⟨trace', u', hruns, hfollows, ?_⟩
      rw [hmap, List.filter_cons_of_neg (by simp [hunknown])]
    | false =>
      -- no byte of a known record is one of an unknown record behind it
      have hkept : ∀ i, s.position ≤ i → i < t.reach → kept i := by
        intro i hi hreach
        by_contra hgone
        obtain ⟨x, hx, hunknown', hoffset, -⟩ := (hdeleted i hi).mp hgone
        rcases List.mem_cons.mp hx with rfl | hx
        · rw [hunknown] at hunknown'
          cases hunknown'
        · have hle := rest.reach_le hx hunknown'
          omega
      obtain ⟨u₁, hstep', hfollows⟩ := hstep.keep hunknown hu hkept
      obtain ⟨trace', u', hruns, hfollows', hmap⟩ := ih htail hfollows
      refine ⟨_, u', .step hstep' hruns, hfollows', ?_⟩
      rw [List.filter_cons_of_pos (by simp [hunknown]), List.map_cons, List.map_cons, hmap, place,
        hfollows.position_eq]

end RecordStream

/-! ### Readings -/

/-- A byte belongs to an unknown record. -/
def UnknownAt (records : List (Record × Nat)) (i : Nat) : Prop :=
  ∃ x ∈ records, x.1.isUnknown ∧ x.1.offset ≤ i ∧ i < x.2

instance (records : List (Record × Nat)) : DecidablePred (UnknownAt records) := fun i =>
  inferInstanceAs (Decidable (∃ x ∈ records, x.1.isUnknown ∧ x.1.offset ≤ i ∧ i < x.2))

/-- A place in what is left when the unknown records are deleted: the deleted bytes in front of
it are missing. -/
def placeWithoutUnknown (records : List (Record × Nat)) (p : Nat) : Nat :=
  p - Nat.count (UnknownAt records) p

/-- What is left of a dump when the bytes of its unknown records are deleted. -/
def withoutUnknown (data : ByteArray) (records : List (Record × Nat)) : ByteArray :=
  keepBytes (fun i => ¬ UnknownAt records i) data

open RecordStream

/-- **What is left when the unknown records are deleted is read by a strict reading**, which
gives all other records. -/
theorem ByteStore.reading_withoutUnknown {store store' : ByteStore} (hs : store.Serves data)
    {header : Header} (hheader : Header.read store = .ok header) {records : List (Record × Nat)}
    (hread : store.reading true = (records, none))
    (hs' : store'.Serves (withoutUnknown data records)) :
    Header.read store' = .ok header
      ∧ store'.reading false = ((records.filter fun x => !x.1.isUnknown).map fun x =>
          (x.1.relocate (placeWithoutUnknown records), placeWithoutUnknown records x.2), none) := by
  obtain ⟨s, trace, error, t, rfl, hv, hcompletes, hreading, -⟩ :=
    exists_completes_of_header hs hheader
  obtain ⟨rfl, rfl⟩ := Prod.mk.inj (hreading.symm.trans hread)
  obtain ⟨last, hruns, hlast⟩ := hcompletes.exists_last
  obtain ⟨htop, hend, -⟩ :=
    (next_eq_none_iff (hruns.valid hv) (hruns.frame.2.2.2.1.trans rfl)).mp hlast
  -- the unknown records are those of the run
  have hdeleted : DeletesUnknown (fun i => ¬ UnknownAt (trace.map place) i) header.length trace := by
    intro i _
    rw [not_not]
    constructor
    · rintro ⟨x, hx, hrest⟩
      obtain ⟨y, hy, rfl⟩ := List.mem_map.mp hx
      exact ⟨y, hy, hrest⟩
    · rintro ⟨y, hy, hrest⟩
      exact ⟨place y, List.mem_map_of_mem hy, hrest⟩
  have hfront : ∀ i < header.length, ¬ UnknownAt (trace.map place) i := by
    rintro i hi ⟨x, hx, -, hoffset, -⟩
    obtain ⟨y, hy, rfl⟩ := List.mem_map.mp hx
    have hle : header.length ≤ y.1.offset := (hruns.offset_bounds hy).1
    exact absurd hoffset (by show ¬ y.1.offset ≤ i; omega)
  -- all unknown records are behind the header, so this is read as before
  have hheader' := Header.read_keepBytes hs hs' hheader hfront
  have hstream' := ofStore_eq_ok_iff.mpr
    ⟨header, hheader', (rfl : _ = RecordStream.mk store' header false header.length none 0 false)⟩
  have hv' := valid_of_ofStore hs' hstream'
  -- both streams begin behind the header
  have hfollows : Follows (fun i => ¬ UnknownAt (trace.map place) i)
      (RecordStream.mk store header true header.length none 0 false)
      (RecordStream.mk store' header false header.length none 0 false) :=
    ⟨rfl, (Nat.count_of_forall hfront).symm,
      .inl ⟨atTopLevel_of_none rfl, atTopLevel_of_none rfl⟩⟩
  obtain ⟨trace', last', hruns', hfollows', hmap⟩ := hruns.keep hdeleted hfollows
  have hlast' := (next_eq_none_iff (hruns'.valid hv') (hruns'.frame.2.2.2.1.trans rfl)).mpr
    ⟨hfollows'.atTopLevel htop, by rw [hfollows'.position_eq, hend, size_keepBytes], rfl⟩
  have hcompletes' : Completes _ _ trace' none _ := ⟨last', hruns', hlast'⟩
  have hplace : placeWithoutUnknown (trace.map place)
      = Nat.count fun i => ¬ UnknownAt (trace.map place) i :=
    funext fun p => (count_not_eq_sub _ p).symm
  refine ⟨hheader', ?_⟩
  rw [hcompletes'.reading_eq hstream' hv' rfl, hmap, hplace, List.filter_map, List.map_map]
  rfl

end HeapDump
