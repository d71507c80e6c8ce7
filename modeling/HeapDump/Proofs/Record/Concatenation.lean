/-
HeapDump/Proofs/Record/Concatenation.lean

Dumps whose records are put one behind the other.

Bytes that are appended to a dump change nothing in front of them (`Runs.append_right`),
and records stand further behind in a longer dump (`Completes.shift`).  Where a run has come
to the end of its dump, a stream goes on at the top level, and nothing of the records in front
has a part in that, not even the end of the last heap dump (`next_eq_of_atTopLevel`).  So
complete runs are put one behind the other (`Completes.append`).

Main statement: if a header with records behind it can be read to the end,

    reading (front ++ mid ++ back)
      = reading (front ++ mid) ++ (reading (front ++ back) shifted by the size of mid)

(`reading_append`).  Only the part in front has to end well: the one behind may end in any
way, and the whole ends as it does, with the places of the error shifted.  The two have to
have the same header, since the header decides how wide identifiers are.
-/
import HeapDump.Proofs.Record.Shift
import HeapDump.Proofs.Record.Tiling

namespace HeapDump

variable {data data' : ByteArray} {store : ByteStore}

/-! ### Bytes behind the others -/

/-- Bytes stand where they stood if others are put behind them. -/
theorem Span.append_right {p q : Nat} {bs : List UInt8} (h : Span data p q bs)
    (data' : ByteArray) : Span (data ++ data') p q bs where
  length_eq := h.length_eq
  stop_le := by
    rw [ByteArray.size_append]
    exact Nat.le_add_right_of_le h.stop_le
  extract_eq := by
    have hstop := h.stop_le
    have hnone : data'.extract (p - data.size) (q - data.size) = ByteArray.empty :=
      ByteArray.extract_eq_empty_iff.mpr (by omega)
    rw [ByteArray.extract_append, hnone, ByteArray.append_empty, h.extract_eq]

theorem Framed.append_right {p : Nat} {code : UInt8} {time : UInt32} {payload : List UInt8}
    (h : Framed data p code time payload) (data' : ByteArray) :
    Framed (data ++ data') p code time payload :=
  ⟨h.length_lt, h.span.append_right data'⟩

/-- A header is read as it was if bytes are put behind it. -/
theorem Header.read_append {store' : ByteStore} (hs : store.Serves data)
    (hs' : store'.Serves (data ++ data')) {header : Header}
    (h : Header.read store = .ok header) : Header.read store' = .ok header := by
  obtain ⟨name, hhead, hformat, hlength⟩ := (read_eq_ok_iff hs).mp h
  have hspan := hhead.span.append_right data'
  exact (read_eq_ok_iff hs').mpr ⟨name, { hhead with span := hspan }, hformat, hlength⟩

/-- Behind a common front, the bytes of a dump stand in one that has other bytes in between. -/
theorem standsIn_append (front mid back : ByteArray) :
    StandsIn (front ++ back) (front ++ mid ++ back) front.size mid.size where
  size_eq := by
    simp only [ByteArray.size_append]
    omega
  extract_eq := by
    intro i j hi hj
    have hfront : ∀ a b : Nat, front.size ≤ a → front.extract a b = ByteArray.empty :=
      fun a b ha => ByteArray.extract_eq_empty_iff.mpr (by omega)
    have hmid : mid.extract (i + mid.size - front.size) (j + mid.size - front.size)
        = ByteArray.empty := ByteArray.extract_eq_empty_iff.mpr (by omega)
    simp only [ByteArray.extract_append, hfront i j hi,
      hfront (i + mid.size) (j + mid.size) (by omega), hmid, ByteArray.size_append]
    congr 2 <;> omega

namespace RecordStream

variable {s t u : RecordStream} {r : Record} {trace trace' : List (Record × RecordStream)}

/-! ### Runs with bytes behind them -/

theorem Valid.append_right (hv : s.Valid data) (data' : ByteArray)
    (hs : store.Serves (data ++ data')) : (s.on store).Valid (data ++ data') where
  serves := hs
  idSize_le := hv.idSize_le
  position_le := by
    rw [ByteArray.size_append]
    exact Nat.le_add_right_of_le hv.position_le
  segment_le stop hstop := by
    obtain ⟨hposition, hsize⟩ := hv.segment_le stop hstop
    rw [ByteArray.size_append]
    exact ⟨hposition, Nat.le_add_right_of_le hsize⟩

theorem Step.append_right (h : Step data s r t) (data' : ByteArray) (store : ByteStore) :
    Step (data ++ data') (s.on store) r (t.on store) := by
  cases h with
  | subRecord hopen hlt hq hwf hbs hspan =>
    exact .subRecord hopen hlt hq hwf hbs (hspan.append_right data')
  | heapDump htop hframe => exact .heapDump htop (hframe.append_right data')
  | topLevel htop htag hframe hbody =>
    exact .topLevel htop htag (hframe.append_right data') hbody
  | unknown htop hskip htag hframe => exact .unknown htop hskip htag (hframe.append_right data')

/-- **A run stays one if bytes are put behind it.** -/
theorem Runs.append_right (h : Runs data s trace t) (data' : ByteArray) (store : ByteStore) :
    Runs (data ++ data') (s.on store) (trace.map fun x => (x.1, x.2.on store)) (t.on store) := by
  induction h with
  | done s => exact .done _
  | step hstep rest ih => exact .step (hstep.append_right data' store) ih

/-! ### Going on at the top level -/

/-- At the top level the end of the last heap dump is of no account. -/
theorem next_eq_of_atTopLevel (hf : s.finished = false) (htop : s.AtTopLevel) :
    s.next = { s with segmentEnd := none }.next := by
  have hgoing : ¬ s.finished = true := Bool.eq_false_iff.mp hf
  rw [next, next, if_neg hgoing, if_neg hgoing, advance_of_atTopLevel htop,
    advance_of_atTopLevel (atTopLevel_of_none rfl)]

/-- What a stream without an open heap dump gives, one that has come to the end of its heap
dump gives, too. -/
theorem Completes.of_close {error : Option Error}
    (h : Completes data { s with segmentEnd := none } trace error t) (hv : s.Valid data)
    (hf : s.finished = false) (htop : s.AtTopLevel) : Completes data s trace error t := by
  obtain ⟨last, hruns, hlast⟩ := h.exists_last
  have hnext := next_eq_of_atTopLevel hf htop
  cases hruns with
  | done => exact ⟨s, .done s, hnext.trans hlast⟩
  -- the first step is the same from both streams, and behind it they are the same
  | @step _ u _ r trace hstep rest =>
    have hstep' := (next_eq_some_iff hv hf).mp
      (hnext.trans ((next_eq_some_iff hv.close hf).mpr hstep))
    exact ⟨last, .step hstep' rest, hlast⟩

/-- A run, and behind it a complete run. -/
theorem Runs.completes {error : Option Error} (h : Runs data s trace t)
    (h' : Completes data t trace' error u) : Completes data s (trace ++ trace') error u := by
  obtain ⟨last, hruns, hlast⟩ := h'.exists_last
  exact ⟨last, h.append hruns, hlast⟩

/-- **Complete runs are put one behind the other.**  Of two runs that begin behind the same
bytes, one to the end of its dump, the other goes on where the one ends: as many places
further behind as there are bytes in between. -/
theorem Completes.append {front mid back : ByteArray} {storeBack : ByteStore}
    {error : Option Error} (h : Completes (front ++ mid) s trace none t)
    (h' : Completes (front ++ back) (s.on storeBack) trace' error u)
    (hv : s.Valid (front ++ mid)) (hr : (s.on storeBack).Reached (front ++ back))
    (hs : store.Serves (front ++ mid ++ back)) (hposition : s.position = front.size)
    (hsegment : s.segmentEnd = none) (hf : s.finished = false) :
    Completes (front ++ mid ++ back) (s.on store)
      ((trace.map fun x => (x.1, x.2.on store))
        ++ trace'.map fun x => (x.1.shift mid.size, x.2.shift mid.size store trace.length))
      (error.map (Error.shift mid.size)) (u.shift mid.size store trace.length) := by
  -- the run in front ends at the top level
  obtain ⟨last, hruns, hlast⟩ := h.exists_last
  obtain ⟨-, hlastHeader, hlastSkip, hlastFinished, hlastCount⟩ := hruns.frame
  obtain ⟨htop, hend, -⟩ :=
    (next_eq_none_iff (hruns.valid hv) (hlastFinished.trans hf)).mp hlast
  have hwhole := hruns.append_right back store
  -- and the run behind begins there
  have hshift := h'.shift (standsIn_append front mid back) hs trace.length hr hf
    (Nat.le_of_eq hposition.symm)
  have hjoin : (s.on storeBack).shift mid.size store trace.length
      = { last.on store with segmentEnd := none } := by
    have hplace : s.position + mid.size = last.position := by
      rw [hend, hposition, ByteArray.size_append]
    have hclosed : s.segmentEnd.map (· + mid.size) = none := by
      rw [hsegment]
      rfl
    exact RecordStream.mk.injEq .. ▸ ⟨rfl, hlastHeader.symm, hlastSkip.symm, hplace, hclosed,
      hlastCount.symm, hlastFinished.symm⟩
  -- where the first run ends the second one begins, with as many records behind it
  rw [hjoin] at hshift
  exact hwhole.completes (hshift.of_close (hwhole.valid (hv.append_right back hs))
    (hlastFinished.trans hf) htop)

end RecordStream

/-! ### Dumps -/

open RecordStream

/-- A store over a run of bytes serves it. -/
theorem ByteStore.serves_ofBytes (bytes : ByteArray) : (ofBytes bytes).Serves bytes where
  size_eq := rfl
  read_eq {start length} h := by
    show (Bytes.readAt bytes start length).map (·.1) = _
    rw [Bytes.readAt, if_pos h]
    rfl

/-- Behind one header, the reading of records and then more records is both readings one
after the other. -/
theorem ByteStore.reading_concat {front mid back : ByteArray} {store storeMid storeBack : ByteStore}
    (hs : store.Serves (front ++ mid ++ back)) (hsMid : storeMid.Serves (front ++ mid))
    (hsBack : storeBack.Serves (front ++ back)) (hsizeBack : (front ++ back).size < UInt64.size)
    {header : Header} (hheader : Header.read (.ofBytes front) = .ok header)
    (hlength : header.length = front.size) {skipUnknown : Bool} {records : List (Record × Nat)}
    (hread : storeMid.reading skipUnknown = (records, none)) :
    store.reading skipUnknown
      = (records ++ (storeBack.reading skipUnknown).1.map fun x =>
            (x.1.shift mid.size, x.2 + mid.size),
          (storeBack.reading skipUnknown).2.map (Error.shift mid.size)) := by
  have hfront := ByteStore.serves_ofBytes front
  -- all three readings begin behind the same header
  let s (store : ByteStore) : RecordStream :=
    { store, header, skipUnknown, position := header.length }
  have hstream {data : ByteArray} {store : ByteStore} (hs : store.Serves (front ++ data)) :
      RecordStream.ofStore store skipUnknown = .ok (s store) :=
    ofStore_eq_ok_iff.mpr ⟨header, Header.read_append hfront hs hheader, rfl⟩
  have hstreamMid := hstream hsMid
  have hstreamBack := hstream hsBack
  have hreached := reached_of_ofStore hsBack hsizeBack hstreamBack
  have hvMid := valid_of_ofStore hsMid hstreamMid
  -- the complete runs of the part in front and of the part behind
  obtain ⟨traceMid, errorMid, t, hcompletesMid⟩ := exists_completes hvMid rfl
  obtain ⟨rfl, rfl⟩ := Prod.mk.inj
    ((hcompletesMid.reading_eq hstreamMid hvMid rfl).symm.trans hread)
  obtain ⟨traceBack, errorBack, u, hcompletesBack⟩ := exists_completes hreached.valid rfl
  have hcompletes := hcompletesMid.append hcompletesBack hvMid hreached hs hlength rfl rfl
  rw [hcompletes.reading_eq (hstream (ByteArray.append_assoc ▸ hs))
      (hvMid.append_right back hs) rfl,
    hcompletesBack.reading_eq hstreamBack hreached.valid rfl, List.map_append, List.map_map,
    List.map_map, List.map_map]
  rfl

/-- **Reading is compositional.**  If a header with records behind it is read to the end, more
records are read behind them as they are behind the header alone, as many places further
behind as there are bytes in between, and the reading ends in the same way. -/
theorem reading_append {front mid back : ByteArray} {header : Header} {skipUnknown : Bool}
    {shards shardsMid shardsBack : Shards} {records : List (Record × Nat)}
    (hheader : Header.read (.ofBytes front) = .ok header) (hlength : header.length = front.size)
    (hmid : shardsMid.source.bytes = front ++ mid)
    (hback : shardsBack.source.bytes = front ++ back)
    (hwhole : shards.source.bytes = front ++ mid ++ back)
    (hread : shardsMid.store.reading skipUnknown = (records, none)) :
    shards.store.reading skipUnknown
      = (records ++ (shardsBack.store.reading skipUnknown).1.map fun x =>
            (x.1.shift mid.size, x.2 + mid.size),
          (shardsBack.store.reading skipUnknown).2.map (Error.shift mid.size)) := by
  have hs := hwhole ▸ shards.store_serves
  have hsMid := hmid ▸ shardsMid.store_serves
  have hsBack := hback ▸ shardsBack.store_serves
  have hsizeBack := hback ▸ shardsBack.source.size_lt
  exact ByteStore.reading_concat hs hsMid hsBack hsizeBack hheader hlength hread

/-- The bytes of a header. -/
def sampleFront : ByteArray := ⟨sampleHeader.written.toArray⟩

/-- A string record and an empty heap dump. -/
def sampleMid : ByteArray :=
  ⟨#[0x01, 0, 0, 0, 5, 0, 0, 0, 6, 0, 0, 0, 1, 0xC3, 0xB6, 0x0C, 0, 0, 0, 5, 0, 0, 0, 0]⟩

/-- The end of a dump, and a heap dump segment with a byte that is no tag. -/
def sampleBack : ByteArray :=
  ⟨#[0x2C, 0, 0, 0, 5, 0, 0, 0, 0, 0x1C, 0, 0, 0, 5, 0, 0, 0, 1, 0xEE]⟩

/-- Bytes in memory behind windows of thirteen bytes that overlap by four. -/
def inMemory (bytes : ByteArray) (h : bytes.size < UInt64.size) : Shards where
  source := ⟨.memory, bytes, h⟩
  geometry := ⟨UInt64.ofNat bytes.size, 9, 4, by decide, by decide⟩
  length_eq := rfl

theorem reading_append_sample :
    Header.read (.ofBytes sampleFront) = .ok sampleHeader
      ∧ sampleHeader.length = sampleFront.size
      ∧ ∃ shards shardsMid shardsBack : Shards,
          shardsMid.source.bytes = sampleFront ++ sampleMid
            ∧ shardsBack.source.bytes = sampleFront ++ sampleBack
            ∧ shards.source.bytes = sampleFront ++ sampleMid ++ sampleBack
            ∧ ∃ records, shardsMid.store.reading false = (records, none)
              ∧ shards.store.reading false
                = (records ++ (shardsBack.store.reading false).1.map fun x =>
                      (x.1.shift sampleMid.size, x.2 + sampleMid.size),
                    (shardsBack.store.reading false).2.map (Error.shift sampleMid.size))
              ∧ (shards.store.reading false).2 = some (.unknownTag 0xEE 73) := by
  have hheader : Header.read (.ofBytes sampleFront) = .ok sampleHeader := by decide +kernel
  have hlength : sampleHeader.length = sampleFront.size := by decide +kernel
  let shards := inMemory (sampleFront ++ sampleMid ++ sampleBack) (by decide +kernel)
  let shardsMid := inMemory (sampleFront ++ sampleMid) (by decide +kernel)
  let shardsBack := inMemory (sampleFront ++ sampleBack) (by decide +kernel)
  have herror : (shardsMid.store.reading false).2 = none := by decide +kernel
  have hread : shardsMid.store.reading false = ((shardsMid.store.reading false).1, none) :=
    Prod.ext rfl herror
  refine ⟨hheader, hlength, shards, shardsMid, shardsBack, rfl, rfl, rfl, _, hread, ?_, ?_⟩
  · exact reading_append hheader hlength rfl rfl rfl hread
  · decide +kernel

end HeapDump
