/-
HeapDump/Number/BigEndian.lean

Bytes as numbers, most significant byte first, and back.

A dump writes all its numbers in this order.  Both directions are between lists
of bytes and natural numbers of any size: the width of a number is the length of
its list, and what a fixed-width type makes of it is said in `Scalar`.
-/

namespace HeapDump.BigEndian

/-- The number whose base-256 digits are `bytes`, most significant first. -/
def ofList (bytes : List UInt8) : Nat := bytes.foldl (fun n b => n * 256 + b.toNat) 0

/-- The number written in `bytes`. -/
def ofBytes (bytes : ByteArray) : Nat := ofList bytes.data.toList

/-- The last `width` base-256 digits of `n`, most significant first. -/
def toList : Nat → Nat → List UInt8
  | 0, _ => []
  | width + 1, n => toList width (n / 256) ++ [UInt8.ofNat n]

@[simp] theorem ofList_nil : ofList [] = 0 := rfl

@[simp] theorem ofList_concat (bytes : List UInt8) (b : UInt8) :
    ofList (bytes ++ [b]) = ofList bytes * 256 + b.toNat := by
  simp [ofList]

@[simp] theorem length_toList (width n : Nat) : (toList width n).length = width := by
  induction width generalizing n with
  | zero => rfl
  | succ width ih => simp [toList, ih]

end HeapDump.BigEndian
