/-
HeapDump/Number/Binary.lean

Binary floating-point numbers, kept as the bit patterns that a dump holds, so
that a NaN keeps its payload and two zeros stay apart.

`Shape.read` says what a pattern stands for: nothing, an infinity, or a signed
integer times a power of two.  Both widths are one definition with the widths of
their parts as parameters.  Only what the text of a number needs is read off; no
arithmetic on floats is done anywhere.
-/

namespace HeapDump

/-- A 32-bit floating-point number by its bit pattern. -/
structure Binary32 where
  bits : UInt32
  deriving DecidableEq, Repr

/-- A 64-bit floating-point number by its bit pattern. -/
structure Binary64 where
  bits : UInt64
  deriving DecidableEq, Repr

namespace Binary

/-- A layout of sign, exponent and fraction bits. -/
structure Shape where
  /-- Width of the fraction, the lowest bits. -/
  fractionBits : Nat
  /-- Width of the exponent, the bits above the fraction. -/
  exponentBits : Nat
  deriving DecidableEq, Repr

/-- One sign bit, 8 exponent bits, 23 fraction bits. -/
def Shape.binary32 : Shape := ⟨23, 8⟩

/-- One sign bit, 11 exponent bits, 52 fraction bits. -/
def Shape.binary64 : Shape := ⟨52, 11⟩

/-- What a bit pattern stands for. -/
inductive Content where
  | nan
  | infinite (negative : Bool)
  /-- The number `mantissa * 2 ^ exponent`.  `narrowBelow` says that its lower
  neighbour is half as far away as its upper one. -/
  | finite (negative : Bool) (mantissa : Nat) (exponent : Int) (narrowBelow : Bool)
  deriving DecidableEq, Repr

/-- What the pattern `bits` stands for. -/
def Shape.read (s : Shape) (bits : Nat) : Content :=
  let fraction := bits % (1 <<< s.fractionBits)
  let exponent := (bits >>> s.fractionBits) % (1 <<< s.exponentBits)
  let negative := bits.testBit (s.fractionBits + s.exponentBits)
  let bias : Nat := (1 <<< (s.exponentBits - 1)) - 1
  -- The exponent of a unit in the last place of the smallest numbers.
  let least : Int := 1 - (bias + s.fractionBits : Nat)
  if exponent = (1 <<< s.exponentBits) - 1 then
    if fraction = 0 then .infinite negative else .nan
  -- Numbers without the implicit leading bit, and both zeros.
  else if exponent = 0 then .finite negative fraction least false
  else
    .finite negative ((1 <<< s.fractionBits) + fraction) (least + (exponent - 1 : Nat))
      -- Below a power of two the spacing halves, except right above the numbers without a leading
      -- bit.
      (decide (fraction = 0 ∧ 1 < exponent))

end Binary

/-- What a 32-bit pattern stands for. -/
def Binary32.content (x : Binary32) : Binary.Content := Binary.Shape.binary32.read x.bits.toNat

/-- What a 64-bit pattern stands for. -/
def Binary64.content (x : Binary64) : Binary.Content := Binary.Shape.binary64.read x.bits.toNat

/-- Whether a 32-bit pattern stands for no number. -/
def Binary32.isNaN (x : Binary32) : Bool := x.content = .nan

/-- Whether a 64-bit pattern stands for no number. -/
def Binary64.isNaN (x : Binary64) : Bool := x.content = .nan

end HeapDump
