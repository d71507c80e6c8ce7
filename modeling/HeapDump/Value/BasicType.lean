/-
HeapDump/Value/BasicType.lean

The nine types of fields, static values and array elements, with the codes by
which a dump names them.

The codes leave gaps: zero, one and three are no types, and neither is anything
above eleven.  References are a type among the others, whose width is that of the
dump's identifiers; the other widths are fixed.  Where only primitive types may
stand, the code of references is refused by who reads it.
-/
import HeapDump.Number.Code

namespace HeapDump

/-- A type of field, static value or array element. -/
inductive BasicType where
  | object | boolean | char | float | double | byte | short | int | long
  deriving DecidableEq, Repr

namespace BasicType

/-- The code that stands for a type. -/
def code : BasicType → UInt8
  | object => 2
  | boolean => 4
  | char => 5
  | float => 6
  | double => 7
  | byte => 8
  | short => 9
  | int => 10
  | long => 11

/-- All types, by code. -/
def all : List BasicType := [object, boolean, char, float, double, byte, short, int, long]

/-- The type that a code stands for. -/
def ofCode? (c : UInt8) : Option BasicType := all.find? (·.code = c)

@[simp] theorem ofCode?_code (t : BasicType) : ofCode? t.code = some t := by
  cases t <;> rfl

/-- A code stands for the one type that has it. -/
theorem ofCode?_eq_some_iff {c : UInt8} {t : BasicType} : ofCode? c = some t ↔ t.code = c :=
  find?_code_eq_some_iff ofCode?_code

/-- Width in bytes of a value, in a dump whose identifiers have `idSize` bytes. -/
def size (idSize : Nat) : BasicType → Nat
  | object => idSize
  | boolean | byte => 1
  | char | short => 2
  | float | int => 4
  | double | long => 8

/-- The name of a type in source text. -/
def name : BasicType → String
  | object => "java.lang.Object"
  | boolean => "boolean"
  | char => "char"
  | float => "float"
  | double => "double"
  | byte => "byte"
  | short => "short"
  | int => "int"
  | long => "long"

/-- The name of the class of arrays of a type. -/
def arrayClassName (t : BasicType) : String := t.name ++ "[]"

/-- The types other than references. -/
def primitives : List BasicType := [boolean, char, float, double, byte, short, int, long]

end BasicType

end HeapDump
