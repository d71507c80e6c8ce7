/-
HeapDump/Text/Hex.lean

Hexadecimal text of numbers: lowercase digits, bare or filled up with zeros.
Identifiers are written bare; tags, the codes of lone surrogates and the places of
diagnostics are filled up.
-/

namespace HeapDump.Hex

/-- The lowercase hexadecimal digits of `n`, without leading zeros. -/
def digits (n : Nat) : List Char := Nat.toDigits 16 n

/-- The hexadecimal text of `n`. -/
def text (n : Nat) : String := String.ofList (digits n)

/-- The hexadecimal text of `n`, filled up with zeros to at least `width` digits. -/
def padded (width n : Nat) : String :=
  String.ofList (List.replicate (width - (digits n).length) '0' ++ digits n)

end HeapDump.Hex
