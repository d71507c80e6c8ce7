/-
HeapDump/Proofs/Bytes/Read.lean

What a plain read gives.

A number or an identifier is read where there are as many bytes as it has, and is then the number
that these bytes spell with the most significant byte first (`Bytes.readNumberAt_eq`,
`Bytes.readIdAt_eq`).  No bit of that number is lost (`Scalar.toBits_decode_extract`,
`Bytes.toNat_ofNat_extract`).

Identifiers are read by the number that has their width, and there is one for widths of one, two,
four and eight bytes only (`Scalar.exists_ofIdWidth?_iff`).  Reads of shards, of parsers and of
cursors all go back to these two equations, each of which says at once when a read is refused.
-/
import HeapDump.Bytes.Read
import HeapDump.Proofs.Number.Scalar

namespace HeapDump

namespace Scalar

/-- Identifiers are one, two, four or eight bytes wide. -/
theorem exists_ofIdWidth?_iff {width : Nat} :
    (∃ k, ofIdWidth? width = some k) ↔ width ∈ [1, 2, 4, 8] := by
  unfold ofIdWidth?
  split
  · simp
  · simp
  · simp
  · simp
  · next h1 h2 h4 h8 => simpa using ⟨h1, h2, h4, h8⟩

/-- No kind of number stands for any other width. -/
theorem ofIdWidth?_eq_none_iff {width : Nat} : ofIdWidth? width = none ↔ width ∉ [1, 2, 4, 8] := by
  rw [← exists_ofIdWidth?_iff, ← Option.isSome_iff_exists, Bool.not_eq_true,
    Option.isSome_eq_false_iff, Option.isNone_iff_eq_none]

/-- The kind of an identifier has its width. -/
theorem size_of_ofIdWidth? {width : Nat} {k : Scalar} (h : ofIdWidth? width = some k) :
    k.size = width := by
  unfold ofIdWidth? at h
  split at h <;> cases h <;> rfl

end Scalar

variable {data : ByteArray} {start : Nat}

/-- A run of bytes spells a number that has no more digits than there are bytes. -/
theorem BigEndian.ofBytes_extract_lt {n : Nat} (h : start + n ≤ data.size) :
    ofBytes (data.extract start (start + n)) < 256 ^ n := by
  have hlength : (data.extract start (start + n)).data.toList.length = n := by
    rw [Array.length_toList, ← ByteArray.size, ByteArray.size_extract]
    omega
  have hlt := ofList_lt (data.extract start (start + n)).data.toList
  rwa [hlength] at hlt

/-- A number has the bit pattern that its bytes spell. -/
theorem Scalar.toBits_decode_extract (k : Scalar) (h : start + k.size ≤ data.size) :
    k.toBits (k.decode (data.extract start (start + k.size)))
      = BigEndian.ofBytes (data.extract start (start + k.size)) :=
  k.toBits_ofBits (BigEndian.ofBytes_extract_lt h)

namespace Bytes

theorem readNumberAt_eq (k : Scalar) (data : ByteArray) (start : Nat) :
    (readNumberAt k data start).map (·.1)
      = if start + k.size ≤ data.size then .ok (k.decode (data.extract start (start + k.size)))
        else .error (.outOfBounds start k.size data.size) := by
  rw [readNumberAt, readAt]
  split <;> rfl

theorem readIdAt_eq {width : Nat} {k : Scalar} (h : Scalar.ofIdWidth? width = some k)
    (data : ByteArray) (start : Nat) :
    (readIdAt data start width).map (·.1)
      = if start + width ≤ data.size then
          .ok (UInt64.ofNat (BigEndian.ofBytes (data.extract start (start + width))))
        else .error (.outOfBounds start width data.size) := by
  have hsize := Scalar.size_of_ofIdWidth? h
  subst hsize
  rw [readIdAt, h]
  simp only [readAt]
  split <;> rfl

/-- An identifier that takes up all bytes. -/
theorem readIdAt_zero {width : Nat} {k : Scalar} (h : Scalar.ofIdWidth? width = some k)
    (hsize : data.size = width) :
    (readIdAt data 0 width).map (·.1) = .ok (UInt64.ofNat (BigEndian.ofBytes data)) := by
  subst hsize
  rw [readIdAt_eq h, Nat.zero_add, if_pos (Nat.le_refl _), ByteArray.extract_zero_size]

/-- An identifier is the number that its bytes spell. -/
theorem toNat_ofNat_extract {width : Nat} {k : Scalar} (h : Scalar.ofIdWidth? width = some k)
    (hin : start + width ≤ data.size) :
    (UInt64.ofNat (BigEndian.ofBytes (data.extract start (start + width)))).toNat
      = BigEndian.ofBytes (data.extract start (start + width)) := by
  -- no identifier is wider than the word that holds it
  have hle : 256 ^ width ≤ 256 ^ 8 := by
    refine Nat.pow_le_pow_right (by decide) ?_
    rw [← Scalar.size_of_ofIdWidth? h]
    cases k <;> decide
  exact UInt64.toNat_ofNat_of_lt' ((BigEndian.ofBytes_extract_lt hin).trans_le hle)

end Bytes

end HeapDump
