/-
HeapDump/Number/Scalar.lean

The fixed-width numbers that a dump holds: integers of one to eight bytes with
or without a sign, and floats of four and eight bytes.

A kind of number is a value of `Scalar`, and `Carrier` is the type of its numbers,
so one reader serves all ten kinds.  All of them go through bit patterns: a signed
integer is the unsigned one of its pattern, a float is the pattern itself.  That
writing and reading agree is then one lemma about patterns, `ofBits_toBits`, and
one about big-endian digits.
-/
import HeapDump.Number.BigEndian
import HeapDump.Number.Binary

namespace HeapDump

/-- A kind of fixed-width number. -/
inductive Scalar where
  | uint8 | int8 | uint16 | int16 | uint32 | int32 | uint64 | int64 | float32 | float64
  deriving DecidableEq, Repr

/-- The two orders in which the bytes of a number can be written. -/
inductive ByteOrder where
  | bigEndian
  | littleEndian
  deriving DecidableEq, Repr

namespace Scalar

/-- Width in bytes. -/
def size : Scalar → Nat
  | uint8 | int8 => 1
  | uint16 | int16 => 2
  | uint32 | int32 | float32 => 4
  | uint64 | int64 | float64 => 8

/-- The type of the numbers of a kind. -/
abbrev Carrier : Scalar → Type
  | uint8 => UInt8
  | int8 => Int8
  | uint16 => UInt16
  | int16 => Int16
  | uint32 => UInt32
  | int32 => Int32
  | uint64 => UInt64
  | int64 => Int64
  | float32 => Binary32
  | float64 => Binary64

/-- The number whose bit pattern is the low bits of `n`. -/
def ofBits : (s : Scalar) → Nat → s.Carrier
  | uint8, n => UInt8.ofNat n
  | int8, n => (UInt8.ofNat n).toInt8
  | uint16, n => UInt16.ofNat n
  | int16, n => (UInt16.ofNat n).toInt16
  | uint32, n => UInt32.ofNat n
  | int32, n => (UInt32.ofNat n).toInt32
  | uint64, n => UInt64.ofNat n
  | int64, n => (UInt64.ofNat n).toInt64
  | float32, n => ⟨UInt32.ofNat n⟩
  | float64, n => ⟨UInt64.ofNat n⟩

/-- The bit pattern of a number. -/
def toBits : (s : Scalar) → s.Carrier → Nat
  | uint8, x => x.toNat
  | int8, x => x.toUInt8.toNat
  | uint16, x => x.toNat
  | int16, x => x.toUInt16.toNat
  | uint32, x => x.toNat
  | int32, x => x.toUInt32.toNat
  | uint64, x => x.toNat
  | int64, x => x.toUInt64.toNat
  | float32, x => x.bits.toNat
  | float64, x => x.bits.toNat

@[simp] theorem ofBits_toBits (s : Scalar) (x : s.Carrier) : s.ofBits (s.toBits x) = x := by
  cases s <;> simp [ofBits, toBits]

/-- The bytes of a number, most significant byte first. -/
def encode (s : Scalar) (x : s.Carrier) : List UInt8 := BigEndian.toList s.size (s.toBits x)

@[simp] theorem length_encode (s : Scalar) (x : s.Carrier) : (s.encode x).length = s.size := by
  simp [encode]

/-- The number written in `bytes`, most significant byte first. -/
def decode (s : Scalar) (bytes : ByteArray) : s.Carrier := s.ofBits (BigEndian.ofBytes bytes)

/-- The number that exactly the bytes `bytes` spell in the given order. -/
def ofBytes? (s : Scalar) (order : ByteOrder) (bytes : ByteArray) : Option s.Carrier :=
  if bytes.size = s.size then
    let digits := bytes.data.toList
    some <| s.ofBits <| BigEndian.ofList <| match order with
      | .bigEndian => digits
      | .littleEndian => digits.reverse
  else none

/-- The unsigned integer kind of a width, for the four widths that an object
identifier can have. -/
def ofIdWidth? : Nat → Option Scalar
  | 1 => some uint8
  | 2 => some uint16
  | 4 => some uint32
  | 8 => some uint64
  | _ => none

end Scalar

end HeapDump
