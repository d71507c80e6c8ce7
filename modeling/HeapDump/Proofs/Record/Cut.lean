/-
HeapDump/Proofs/Record/Cut.lean

Reading the first bytes of a dump only.

What stands in front of the cut stands there still (`Span.front`), so the header, the
frames of records and whole runs are as before as far as they end in front of it
(`Header.read_of_le`, `Framed.front`, `Step.front`).

A header or a frame that the cut falls into is found to be truncated
(`Header.read_of_cut`, `RecordHeader.read_of_cut`).  Nothing else can be said of it, as
every reading of it asks for all its bytes first: the header for its tail, a record for
the length that it declares.  A cut inside of a payload is therefore found out before
the payload is looked at, and it does not matter what the bytes in front of the cut say.
-/
import HeapDump.Proofs.Record.Header
import HeapDump.Proofs.Record.Run

namespace HeapDump

variable {data : ByteArray} {store : ByteStore} {cut : Nat}

/-! ### Bytes in front of the cut -/

theorem size_extract_zero (h : cut ≤ data.size) : (data.extract 0 cut).size = cut := by
  rw [ByteArray.size_extract, Nat.min_eq_left h, Nat.sub_zero]

/-- Bytes that end in front of the cut stand where they stood. -/
theorem Span.front {p q : Nat} {bs : List UInt8} (h : Span data p q bs) (hq : q ≤ cut)
    (hcut : cut ≤ data.size) : Span (data.extract 0 cut) p q bs where
  length_eq := h.length_eq
  stop_le := by rwa [size_extract_zero hcut]
  extract_eq := by
    rw [ByteArray.extract_extract, Nat.zero_add, Nat.zero_add, Nat.min_eq_left hq, h.extract_eq]

theorem Framed.front {p : Nat} {code : UInt8} {time : UInt32} {payload : List UInt8}
    (h : Framed data p code time payload) (hq : p + recordHeaderLength + payload.length ≤ cut)
    (hcut : cut ≤ data.size) : Framed (data.extract 0 cut) p code time payload :=
  ⟨h.length_lt, h.span.front hq hcut⟩

/-! ### Headers -/

namespace Header

/-- A header in front of the cut is read. -/
theorem read_of_le (hs : store.Serves data) {store' : ByteStore}
    (hs' : store'.Serves (data.extract 0 cut)) (hcut : cut ≤ data.size) {h : Header}
    (hread : Header.read store = .ok h) (hle : h.length ≤ cut) : Header.read store' = .ok h := by
  obtain ⟨name, hhead, hformat, hlength⟩ := (read_eq_ok_iff hs).mp hread
  have hspan := hhead.span.front (hlength ▸ hle) hcut
  exact (read_eq_ok_iff hs').mpr ⟨name, { hhead with span := hspan }, hformat, hlength⟩

/-- A header that the cut falls into is found to be truncated. -/
theorem read_of_cut (hs : store.Serves data) {store' : ByteStore}
    (hs' : store'.Serves (data.extract 0 cut)) {h : Header}
    (hread : Header.read store = .ok h) (hlt : cut < h.length) :
    ∃ offset needed available,
      Header.read store' = .error (.truncated offset needed available) := by
  obtain ⟨name, hhead, -, hlength⟩ := (read_eq_ok_iff hs).mp hread
  obtain ⟨needed, herror⟩ :=
    (read_eq_truncated_iff hs').mpr (unfinished_extract hhead (hlength ▸ hlt))
  exact ⟨0, needed, _, herror⟩

end Header

namespace RecordHeader

/-- A record that the cut falls into is found to be truncated. -/
theorem read_of_cut {store : ByteStore} (hs : store.Serves (data.extract 0 cut))
    (hcut : cut ≤ data.size) {p : Nat} {code : UInt8} {time : UInt32} {payload : List UInt8}
    (hframe : Framed data p code time payload)
    (hstop : cut < p + recordHeaderLength + payload.length) :
    ∃ offset needed available,
      RecordHeader.read store p = .error (.truncated offset needed available) := by
  obtain ⟨hlt, hcode, htime, hlength, -⟩ := framed_iff.mp hframe
  have hsize : (data.extract 0 cut).size = cut := size_extract_zero hcut
  -- the cut is in front of the end of the record header, or in the payload
  by_cases hshort : cut - p < recordHeaderLength
  · exact ⟨_, _, _, read_of_short hs (hsize.symm ▸ hshort)⟩
  · -- the length is there and says more than there is
    have hfields : p + 9 ≤ cut := by
      rw [recordHeaderLength] at hshort
      omega
    have hlong : cut - p < recordHeaderLength + payload.length := by omega
    have hn : (UInt32.ofNat payload.length).toNat = payload.length :=
      UInt32.toNat_ofNat_of_lt' hlt
    have hcode := hs.readNumber_span (hcode.front (by omega) hcut)
    have htime := hs.readNumber_span (htime.front (by omega) hcut)
    have hlength := hs.readNumber_span (hlength.front (by omega) hcut)
    refine ⟨p, recordHeaderLength + payload.length, cut - p, ?_⟩
    rw [read_of_numbers hs (hsize.symm ▸ hfields) hcode htime hlength, hsize, hn, if_pos hlong]

end RecordHeader

/-! ### Runs -/

namespace RecordStream

/-- A stream as it stands, on another store. -/
def on (s : RecordStream) (store : ByteStore) : RecordStream := { s with store }

variable {s t : RecordStream} {r : Record} {trace : List (Record × RecordStream)}

/-- A step that stays in front of the cut, as does the heap dump that it is in. -/
theorem Step.front (h : Step data s r t) (hposition : t.position ≤ cut)
    (hsegment : ∀ stop ∈ t.segmentEnd, stop ≤ cut) (hcut : cut ≤ data.size) :
    Step (data.extract 0 cut) (s.on store) r (t.on store) := by
  cases h with
  | subRecord hopen hlt hq hwf hbs hspan =>
    exact .subRecord hopen hlt hq hwf hbs (hspan.front hposition hcut)
  | heapDump htop hframe =>
    exact .heapDump htop (hframe.front (hsegment _ rfl) hcut)
  | topLevel htop htag hframe hbody =>
    exact .topLevel htop htag (hframe.front hposition hcut) hbody
  | unknown htop hskip htag hframe =>
    exact .unknown htop hskip htag (hframe.front hposition hcut)

/-- A run to the top level has left the heap dump that was open. -/
theorem Runs.stop_le (h : Runs data s trace t) (ht : t.AtTopLevel) :
    ∀ stop ∈ s.segmentEnd, stop ≤ t.position := by
  induction h with
  | done s => exact ht
  | @step s u t r trace hstep rest ih =>
    intro stop hstop
    have hle := rest.length_le
    have hlt := hstep.position_lt
    cases hstep with
    | subRecord hopen => exact ih ht stop hstop
    | heapDump htop | topLevel htop | unknown htop =>
      have := htop stop hstop
      omega

/-- **A run to a top-level record in front of the cut** is one on the first bytes alone. -/
theorem Runs.front (h : Runs data s trace t) (ht : t.AtTopLevel) (hposition : t.position ≤ cut)
    (hcut : cut ≤ data.size) :
    Runs (data.extract 0 cut) (s.on store) (trace.map fun x => (x.1, x.2.on store))
      (t.on store) := by
  induction h with
  | done s => exact .done _
  | @step s u t r trace hstep rest ih =>
    have hle := rest.length_le
    have hsegment : ∀ stop ∈ u.segmentEnd, stop ≤ cut := fun stop hstop =>
      (rest.stop_le ht stop hstop).trans hposition
    exact .step (hstep.front (by omega) hsegment hcut) (ih ht hposition)

/-- A stream on the first bytes alone that has come to the cut. -/
theorem next_of_position_eq {s : RecordStream} (hv : s.Valid (data.extract 0 cut))
    (hcut : cut ≤ data.size) (hf : s.finished = false) (htop : s.AtTopLevel)
    (hposition : s.position = cut) :
    s.next = (.ok none, { s with segmentEnd := none, finished := true }) :=
  (next_eq_none_iff hv hf).mpr ⟨htop, by rw [size_extract_zero hcut, hposition], rfl⟩

/-- A stream on the first bytes alone at a top-level record that the cut falls into. -/
theorem next_of_cut {s : RecordStream} (hv : s.Valid (data.extract 0 cut))
    (hcut : cut ≤ data.size) (hf : s.finished = false) (htop : s.AtTopLevel)
    (hlt : s.position < cut) {code : UInt8} {time : UInt32} {payload : List UInt8}
    (hframe : Framed data s.position code time payload)
    (hstop : cut < s.position + recordHeaderLength + payload.length) :
    ∃ offset needed available t, s.next = (.error (.truncated offset needed available), t) := by
  obtain ⟨offset, needed, available, hread⟩ :=
    RecordHeader.read_of_cut hv.serves hcut hframe hstop
  have hsize : s.store.size = cut := by rw [hv.serves.size_eq, size_extract_zero hcut]
  refine ⟨offset, needed, available, { s with segmentEnd := none, finished := true }, ?_⟩
  rw [next, hf, if_neg Bool.false_ne_true, advance_of_atTopLevel htop, nextTopLevel,
    if_neg (by show ¬s.store.size ≤ s.position; omega), hread]

end RecordStream

end HeapDump
