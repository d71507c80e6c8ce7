/-
HeapDump/Number/BigEndian/Lemmas.lean

The laws of reading and writing big-endian numbers.

`ofList_append` says how the value of two runs of bytes is put together.
Writing a number that fits and reading it gives it back (`ofList_toList`), and
so does reading a run of bytes and writing its value (`toList_ofList`).

Reading runs from the front and writing from the back.  So the first law goes
by induction on the width with the number left general, and the second by
induction on the bytes from their end.
-/
import Mathlib
import HeapDump.Number.BigEndian

namespace HeapDump.BigEndian

/-- A number that has at most `width` digits is read back from them. -/
theorem ofList_toList (width n : Nat) (h : n < 256 ^ width) : ofList (toList width n) = n := by
  induction width generalizing n with
  | zero => simp_all [toList]
  | succ width ih =>
    have hq : n / 256 < 256 ^ width := by
      rw [Nat.div_lt_iff_lt_mul (by decide)]
      simpa [Nat.pow_succ] using h
    have hb : (UInt8.ofNat n).toNat = n % 256 := by simp
    rw [toList, ofList_concat, ih _ hq, hb]
    omega

/-- Reading on after a number `n` shifts it past the digits that follow. -/
theorem foldl_eq (bytes : List UInt8) (n : Nat) :
    bytes.foldl (fun n b => n * 256 + b.toNat) n = n * 256 ^ bytes.length + ofList bytes := by
  induction bytes generalizing n with
  | nil => simp
  | cons b bytes ih =>
    rw [ofList, List.foldl_cons, List.foldl_cons, ih, ih (0 * 256 + b.toNat), List.length_cons,
      Nat.pow_succ']
    rw [Nat.add_mul, Nat.mul_assoc, Nat.zero_mul, Nat.zero_add, Nat.add_assoc]

/-- The value of two runs of bytes, one after the other. -/
theorem ofList_append (xs ys : List UInt8) :
    ofList (xs ++ ys) = ofList xs * 256 ^ ys.length + ofList ys := by
  rw [ofList, List.foldl_append, foldl_eq ys, ← ofList]

/-- A run of bytes is less than the power of 256 that its length names. -/
theorem ofList_lt (bytes : List UInt8) : ofList bytes < 256 ^ bytes.length := by
  induction bytes with
  | nil => simp
  | cons b bytes ih =>
    have hb : b.toNat < 256 := b.toNat_lt
    -- A first digit of at most 255 leaves room for everything behind it.
    have hs : b.toNat * 256 ^ bytes.length ≤ 255 * 256 ^ bytes.length :=
      Nat.mul_le_mul_right _ (by omega)
    rw [← List.singleton_append, ofList_append, List.length_append, Nat.pow_add]
    have h1 : ofList [b] = b.toNat := by simp [ofList]
    rw [h1, List.length_singleton]
    omega

/-- A run of bytes is what its value is written as in as many digits. -/
theorem toList_ofList (bytes : List UInt8) : toList bytes.length (ofList bytes) = bytes := by
  induction bytes using List.reverseRecOn with
  | nil => rfl
  | append_singleton bytes b ih =>
    have hb : b.toNat < 256 := b.toNat_lt
    -- Dividing by 256 takes off the last byte again.
    have hq : (ofList bytes * 256 + b.toNat) / 256 = ofList bytes := by omega
    have hr : UInt8.ofNat (ofList bytes * 256 + b.toNat) = b := by
      rw [← UInt8.toNat_inj, UInt8.toNat_ofNat']
      omega
    rw [List.length_append, List.length_singleton, toList, ofList_concat, hq, hr, ih]

end HeapDump.BigEndian
