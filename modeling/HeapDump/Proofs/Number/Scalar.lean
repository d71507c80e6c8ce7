/-
HeapDump/Proofs/Number/Scalar.lean

Encoding a fixed-width number and decoding its bytes undo each other, for every
kind of number:

    k.decode (k.encode x) = x          (`decode_encode`)
    k.encode (k.decode bs) = bs        (`encode_decode`)

the second for bytes of the right number.  Both go through the bit pattern of the
number, which is a natural number below `256 ^ k.size`: a kind keeps all bits of
such a pattern (`toBits_ofBits`), and what is left is that big-endian digits are
unique.  Together they say that a number has one spelling (`eq_encode_iff`), which
is how the grammar of records uses them.
-/
import Mathlib
import HeapDump.Number.BigEndian.Lemmas
import HeapDump.Number.Scalar

namespace HeapDump.Scalar

theorem size_pos (k : Scalar) : 0 < k.size := by
  cases k <;> decide

/-- A bit pattern takes up no more bytes than its kind has. -/
theorem toBits_lt (k : Scalar) (x : k.Carrier) : k.toBits x < 256 ^ k.size := by
  cases k with
  | uint8 => exact UInt8.toNat_lt x
  | int8 => exact UInt8.toNat_lt _
  | uint16 => exact UInt16.toNat_lt x
  | int16 => exact UInt16.toNat_lt _
  | uint32 => exact UInt32.toNat_lt x
  | int32 => exact UInt32.toNat_lt _
  | uint64 => exact UInt64.toNat_lt x
  | int64 => exact UInt64.toNat_lt _
  | float32 => exact UInt32.toNat_lt _
  | float64 => exact UInt64.toNat_lt _

/-- A number keeps every bit of a pattern that its kind has room for. -/
theorem toBits_ofBits (k : Scalar) {n : Nat} (h : n < 256 ^ k.size) :
    k.toBits (k.ofBits n) = n := by
  cases k with
  | uint8 => exact UInt8.toNat_ofNat_of_lt' h
  | int8 => exact UInt8.toNat_ofNat_of_lt' h
  | uint16 => exact UInt16.toNat_ofNat_of_lt' h
  | int16 => exact UInt16.toNat_ofNat_of_lt' h
  | uint32 => exact UInt32.toNat_ofNat_of_lt' h
  | int32 => exact UInt32.toNat_ofNat_of_lt' h
  | uint64 => exact UInt64.toNat_ofNat_of_lt' h
  | int64 => exact UInt64.toNat_ofNat_of_lt' h
  | float32 => exact UInt32.toNat_ofNat_of_lt' h
  | float64 => exact UInt64.toNat_ofNat_of_lt' h

/-- A number is read back from the bytes that spell it. -/
theorem decode_encode (k : Scalar) (x : k.Carrier) : k.decode ⟨(k.encode x).toArray⟩ = x := by
  show k.ofBits (BigEndian.ofList (BigEndian.toList k.size (k.toBits x))) = x
  rw [BigEndian.ofList_toList _ _ (k.toBits_lt x), ofBits_toBits]

/-- Bytes of the right number spell the number that is read from them. -/
theorem encode_decode (k : Scalar) {bs : List UInt8} (h : bs.length = k.size) :
    k.encode (k.decode ⟨bs.toArray⟩) = bs := by
  have hlt : BigEndian.ofList bs < 256 ^ k.size := h ▸ BigEndian.ofList_lt bs
  show BigEndian.toList k.size (k.toBits (k.ofBits (BigEndian.ofList bs))) = bs
  rw [k.toBits_ofBits hlt, ← h, BigEndian.toList_ofList]

/-- A number has one spelling. -/
theorem eq_encode_iff (k : Scalar) {x : k.Carrier} {bs : List UInt8} :
    bs.length = k.size ∧ x = k.decode ⟨bs.toArray⟩ ↔ bs = k.encode x := by
  constructor
  · rintro ⟨hlen, rfl⟩
    exact (k.encode_decode hlen).symm
  · rintro rfl
    exact ⟨k.length_encode x, (k.decode_encode x).symm⟩

/-- A byte is its own spelling. -/
theorem encode_uint8 (b : UInt8) : uint8.encode b = [b] := by
  show [UInt8.ofNat b.toNat] = [b]
  rw [UInt8.ofNat_toNat]

end HeapDump.Scalar
