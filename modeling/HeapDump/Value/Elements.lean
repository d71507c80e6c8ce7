/-
HeapDump/Value/Elements.lean

The elements of an array of a primitive type, decoded from its packed bytes.

They are decoded when asked for, and a snapshot keeps the bytes.  The result is a
list of plain numbers with the type said once, which a caller can use as it is;
`toList` gives the same elements as single values, for comparison with the other
ways to read them.
-/
import HeapDump.Value.Basic

namespace HeapDump

/-- The elements of a primitive array. -/
inductive Elements where
  | boolean (values : List Bool)
  | char (values : List UInt16)
  | float (values : List Binary32)
  | double (values : List Binary64)
  | byte (values : List Int8)
  | short (values : List Int16)
  | int (values : List Int32)
  | long (values : List Int64)
  deriving DecidableEq, Repr

namespace Elements

/-- The element type. -/
def type : Elements → BasicType
  | boolean _ => .boolean
  | char _ => .char
  | float _ => .float
  | double _ => .double
  | byte _ => .byte
  | short _ => .short
  | int _ => .int
  | long _ => .long

/-- The elements as values. -/
def toList : Elements → List (Value ObjectId)
  | boolean vs => vs.map .boolean
  | char vs => vs.map .char
  | float vs => vs.map .float
  | double vs => vs.map .double
  | byte vs => vs.map .byte
  | short vs => vs.map .short
  | int vs => vs.map .int
  | long vs => vs.map .long

/-- The number of elements. -/
def length : Elements → Nat
  | boolean vs => vs.length
  | char vs => vs.length
  | float vs => vs.length
  | double vs => vs.length
  | byte vs => vs.length
  | short vs => vs.length
  | int vs => vs.length
  | long vs => vs.length

@[simp] theorem length_toList (e : Elements) : e.toList.length = e.length := by
  cases e <;> exact List.length_map _

/-- The numbers of kind `s` that stand one after the other in `data`. -/
def numbers (s : Scalar) (data : ByteArray) : List s.Carrier :=
  (List.range (data.size / s.size)).map fun i =>
    s.decode (data.extract (i * s.size) (i * s.size + s.size))

/-- The elements of type `t` packed in `data`: none for references, and none
unless the bytes are a whole number of elements. -/
def decode (t : BasicType) (data : ByteArray) : Option Elements :=
  -- The width of identifiers does not matter, as references are refused first.
  if t = .object ∨ data.size % t.size 0 ≠ 0 then none
  else match t with
    | .object => none
    | .boolean => some (boolean ((numbers .uint8 data).map (· ≠ 0)))
    | .char => some (char (numbers .uint16 data))
    | .float => some (float (numbers .float32 data))
    | .double => some (double (numbers .float64 data))
    | .byte => some (byte (numbers .int8 data))
    | .short => some (short (numbers .int16 data))
    | .int => some (int (numbers .int32 data))
    | .long => some (long (numbers .int64 data))

end Elements

end HeapDump
