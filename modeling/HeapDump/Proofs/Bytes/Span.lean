/-
HeapDump/Proofs/Bytes/Span.lean

Runs of bytes inside a larger run, and the stores that serve them.

`Span data start stop bs` says that the bytes `bs` are those of `data` between
two positions.  Spans are put together and taken apart at any point,

    Span data start stop (bs ++ cs)
      ↔ ∃ mid, Span data start mid bs ∧ Span data mid stop cs     (`span_append_iff`),

which is how the fields of a record follow each other, and the two ends determine
the bytes (`Span.unique`).  Grammars are stated with spans and not with slices: a
span has its bytes as a list, so what is written and what is read meet in one notion
without arithmetic on lengths.

A store serves `data` if it has the size of `data` and gives the bytes of every
range inside; nothing else about a store matters to a reading that stays inside.
-/
import Mathlib
import HeapDump.Bytes.Store
import HeapDump.Proofs.Number.Scalar

namespace HeapDump

/-! ### Spans -/

/-- The bytes `bs` stand in `data` from `start` to `stop`. -/
structure Span (data : ByteArray) (start stop : Nat) (bs : List UInt8) : Prop where
  length_eq : start + bs.length = stop
  stop_le : stop ≤ data.size
  extract_eq : data.extract start stop = ⟨bs.toArray⟩

variable {data : ByteArray} {start stop : Nat} {bs cs : List UInt8}

theorem Span.start_le (h : Span data start stop bs) : start ≤ stop := by
  have := h.length_eq
  omega

/-- The ends of a span determine its bytes. -/
theorem Span.unique (h : Span data start stop bs) (h' : Span data start stop cs) : bs = cs := by
  have heq := h.extract_eq.symm.trans h'.extract_eq
  simpa using heq

/-- The `n` bytes at a position, one by one. -/
theorem toList_extract (data : ByteArray) (start n : Nat) :
    (data.extract start (start + n)).data.toList = (data.data.toList.drop start).take n := by
  rw [ByteArray.data_extract, Array.toList_extract]
  show (data.data.toList.drop _).take _ = _
  rw [Nat.add_sub_cancel_left]

/-- The bytes between two positions of `data`. -/
theorem span_extract (hle : start ≤ stop) (hstop : stop ≤ data.size) :
    Span data start stop (data.extract start stop).data.toList where
  length_eq := by
    have hsize : (data.extract start stop).data.size = stop - start := by
      rw [← ByteArray.size, ByteArray.size_extract, Nat.min_eq_left hstop]
    rw [Array.length_toList, hsize]
    omega
  stop_le := hstop
  extract_eq := rfl

/-- All bytes of `data`. -/
theorem span_whole (data : ByteArray) : Span data 0 data.size data.data.toList := by
  have h := span_extract (Nat.zero_le data.size) (Nat.le_refl data.size)
  rwa [ByteArray.extract_zero_size] at h

/-- No bytes stand at any position. -/
theorem span_nil_iff : Span data start stop [] ↔ start = stop ∧ stop ≤ data.size := by
  constructor
  · intro h
    exact ⟨by simpa using h.length_eq, h.stop_le⟩
  · rintro ⟨rfl, hstop⟩
    exact ⟨rfl, hstop, by simp [ByteArray.extract_same]; rfl⟩

/-- Where there are `n` bytes, they are a span. -/
theorem exists_span {n : Nat} (h : start + n ≤ data.size) :
    ∃ bs, bs.length = n ∧ Span data start (start + n) bs := by
  have hspan := span_extract (Nat.le_add_right start n) h
  exact ⟨_, Nat.add_left_cancel hspan.length_eq, hspan⟩

/-- A span can be cut between any two of its bytes. -/
theorem span_append_iff :
    Span data start stop (bs ++ cs) ↔ ∃ mid, Span data start mid bs ∧ Span data mid stop cs := by
  constructor
  · intro h
    have hlen := h.length_eq
    have hstop := h.stop_le
    rw [List.length_append] at hlen
    have h1 := span_extract (Nat.le_add_right start bs.length) (by omega : _ ≤ data.size)
    have h2 := span_extract (by omega : start + bs.length ≤ stop) hstop
    -- the extract of the whole is the extracts of both parts
    have hcat : bs ++ cs = (data.extract start (start + bs.length)).data.toList
        ++ (data.extract (start + bs.length) stop).data.toList := by
      have hsplit := ByteArray.extract_eq_extract_append_extract (a := data) (i := start)
        (k := stop) (start + bs.length) (by omega) (by omega)
      rw [h.extract_eq] at hsplit
      have hlists := congrArg (fun b => b.data.toList) hsplit
      rwa [ByteArray.data_append, Array.toList_append] at hlists
    -- both parts have the length of what they are compared with, so they are equal one by one
    obtain ⟨e1, e2⟩ := List.append_inj hcat (by have := h1.length_eq; omega)
    rw [← e1] at h1
    rw [← e2] at h2
    exact ⟨_, h1, h2⟩
  · rintro ⟨mid, h1, h2⟩
    refine ⟨?_, h2.stop_le, ?_⟩
    · rw [List.length_append, ← h2.length_eq, ← h1.length_eq, Nat.add_assoc]
    · rw [ByteArray.extract_eq_extract_append_extract mid h1.start_le h2.start_le, h1.extract_eq,
        h2.extract_eq]
      apply ByteArray.ext
      simp

theorem Span.append {mid : Nat} (h : Span data start mid bs) (h' : Span data mid stop cs) :
    Span data start stop (bs ++ cs) :=
  span_append_iff.mpr ⟨mid, h, h'⟩

/-- The end of a span. -/
theorem Span.drop (h : Span data start stop bs) {n : Nat} (hn : n ≤ bs.length) :
    Span data (start + n) stop (bs.drop n) := by
  have hsplit := h
  rw [← List.take_append_drop n bs] at hsplit
  obtain ⟨mid, hfront, hback⟩ := span_append_iff.mp hsplit
  have hmid : start + n = mid := by
    rw [← hfront.length_eq, List.length_take_of_le hn]
  rwa [hmid]

/-- Of two spans from one start the shorter is the beginning of the longer. -/
theorem Span.isPrefix {mid : Nat} (h : Span data start mid bs) (h' : Span data start stop cs)
    (hle : mid ≤ stop) : bs <+: cs :=
  ⟨_, (h.append (span_extract hle h'.stop_le)).unique h'⟩

/-! ### Stores -/

/-- The store gives the bytes of `data` wherever it is asked for some. -/
structure ByteStore.Serves (store : ByteStore) (data : ByteArray) : Prop where
  size_eq : store.size = data.size
  read_eq : ∀ {start length : Nat}, start + length ≤ data.size →
    store.read start length = .ok (data.extract start (start + length))

/-- A store serves each span of its data. -/
theorem ByteStore.Serves.read_span {store : ByteStore} (hs : store.Serves data)
    (h : Span data start stop bs) : store.read start bs.length = .ok ⟨bs.toArray⟩ := by
  have hlen := h.length_eq
  rw [hs.read_eq (by rw [hlen]; exact h.stop_le), hlen, h.extract_eq]

/-- A number is read from the span that encodes it. -/
theorem ByteStore.Serves.readNumber_span {store : ByteStore} (hs : store.Serves data)
    {k : Scalar} {x : k.Carrier} (h : Span data start stop (k.encode x)) :
    store.readNumber k start = .ok x := by
  have hread := hs.read_span h
  rw [k.length_encode] at hread
  rw [readNumber, hread]
  show Except.ok (k.decode _) = _
  rw [k.decode_encode]

/-- Where there are enough bytes, they encode some number. -/
theorem ByteStore.Serves.exists_readNumber {store : ByteStore} (hs : store.Serves data)
    (k : Scalar) (h : start + k.size ≤ data.size) :
    ∃ x, store.readNumber k start = .ok x ∧ Span data start (start + k.size) (k.encode x) := by
  obtain ⟨bs, hlen, hspan⟩ := exists_span h
  rw [← k.encode_decode hlen] at hspan
  exact ⟨_, hs.readNumber_span hspan, hspan⟩

/-- Where there are enough bytes, a number is read exactly if they encode it. -/
theorem ByteStore.Serves.readNumber_eq_ok_iff {store : ByteStore} (hs : store.Serves data)
    {k : Scalar} {x : k.Carrier} (h : start + k.size ≤ data.size) :
    store.readNumber k start = .ok x ↔ Span data start (start + k.size) (k.encode x) := by
  constructor
  · intro hread
    obtain ⟨y, hy, hspan⟩ := hs.exists_readNumber k h
    obtain rfl : y = x := Except.ok.inj (hy.symm.trans hread)
    exact hspan
  · intro hspan
    exact hs.readNumber_span hspan

end HeapDump
