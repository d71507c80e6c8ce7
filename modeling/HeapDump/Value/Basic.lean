/-
HeapDump/Value/Basic.lean

Single typed values.

The form of references is left open: a decoded record holds identifiers, a
finished snapshot references, and `map` goes from one to the other.

There are two ways from bytes to a value.  `parse` reads at a parser, as field
data is read; `ofBits` takes the number that the bytes spell, as the decoder of
records does.  That they agree is a theorem, so each can be used where it fits.
-/
import HeapDump.Bytes.Parser
import HeapDump.Number.Shortest
import HeapDump.Value.BasicType

namespace HeapDump

/-- A value of one of the basic types, with references of type `ρ`. -/
inductive Value (ρ : Type) where
  | object (reference : ρ)
  | boolean (value : Bool)
  | char (unit : UInt16)
  | float (value : Binary32)
  | double (value : Binary64)
  | byte (value : Int8)
  | short (value : Int16)
  | int (value : Int32)
  | long (value : Int64)
  deriving DecidableEq, Repr

namespace Value

/-- The type of a value. -/
def type : Value ρ → BasicType
  | object _ => .object
  | boolean _ => .boolean
  | char _ => .char
  | float _ => .float
  | double _ => .double
  | byte _ => .byte
  | short _ => .short
  | int _ => .int
  | long _ => .long

/-- The reference, if the value is one. -/
def reference? : Value ρ → Option ρ
  | object r => some r
  | _ => none

/-- The value with its reference put into another form. -/
def map (f : ρ → σ) : Value ρ → Value σ
  | object r => object (f r)
  | boolean v => boolean v
  | char v => char v
  | float v => float v
  | double v => double v
  | byte v => byte v
  | short v => short v
  | int v => int v
  | long v => long v

/-- The number that an integral value stands for; a character counts as its code. -/
def integer? : Value ρ → Option Int
  | byte v => some v.toInt
  | char v => some v.toNat
  | short v => some v.toInt
  | int v => some v.toInt
  | long v => some v.toInt
  | _ => none

/-- The text of a character: quoted, a lone surrogate by its code. -/
def charText (unit : UInt16) : String :=
  if 0xD800 ≤ unit ∧ unit ≤ 0xDFFF then
    let digits := Hex.padded 4 unit.toNat
    s!"'\\u{digits}'"
  else
    let c := Char.ofNat unit.toNat
    s!"'{c}'"

/-- The text of a value, given that of a reference. -/
def text (referenceText : ρ → String) : Value ρ → String
  | object r => referenceText r
  | boolean v => if v then "true" else "false"
  | char v => charText v
  | float v => v.text
  | double v => v.text
  | byte v => toString v.toInt
  | short v => toString v.toInt
  | int v => toString v.toInt
  | long v => toString v.toInt

/-- The value of type `t` whose bit pattern is the low bits of `n`. -/
def ofBits (t : BasicType) (n : Nat) : Value ObjectId :=
  match t with
  | .object => object (UInt64.ofNat n)
  | .boolean => boolean (UInt8.ofNat n ≠ 0)
  | .char => char (Scalar.uint16.ofBits n)
  | .float => float (Scalar.float32.ofBits n)
  | .double => double (Scalar.float64.ofBits n)
  | .byte => byte (Scalar.int8.ofBits n)
  | .short => short (Scalar.int16.ofBits n)
  | .int => int (Scalar.int32.ofBits n)
  | .long => long (Scalar.int64.ofBits n)

/-- The bit pattern of a value; a boolean is one or zero. -/
def toBits : Value ObjectId → Nat
  | object r => r.toNat
  | boolean v => if v then 1 else 0
  | char v => Scalar.uint16.toBits v
  | float v => Scalar.float32.toBits v
  | double v => Scalar.float64.toBits v
  | byte v => Scalar.int8.toBits v
  | short v => Scalar.int16.toBits v
  | int v => Scalar.int32.toBits v
  | long v => Scalar.int64.toBits v

@[simp] theorem ofBits_toBits (v : Value ObjectId) : ofBits v.type v.toBits = v := by
  cases v with
  | boolean v => cases v <;> rfl
  | _ => simp [ofBits, toBits, type]

/-- The next value of type `t` at a parser, identifiers having `idSize` bytes. -/
def parse (t : BasicType) (idSize : Nat) (p : Parser) : Except Error (Value ObjectId) × Parser :=
  match t with
  | .object => Parser.answering object (p.readId idSize)
  -- Any byte but zero is true, so a boolean does not keep the byte that it was read from.
  | .boolean => Parser.answering (fun b => boolean (b ≠ 0)) (p.readNumber .uint8)
  | .char => Parser.answering char (p.readNumber .uint16)
  | .float => Parser.answering float (p.readNumber .float32)
  | .double => Parser.answering double (p.readNumber .float64)
  | .byte => Parser.answering byte (p.readNumber .int8)
  | .short => Parser.answering short (p.readNumber .int16)
  | .int => Parser.answering int (p.readNumber .int32)
  | .long => Parser.answering long (p.readNumber .int64)

end Value

end HeapDump
