/-
HeapDump/Proofs/Bytes/Deletion.lean

Bytes that are left when others are deleted.

Of the bytes of a file those at certain places are kept.  A kept byte then stands as many
places further in front as bytes in front of it are deleted, that is at `Nat.count kept p`
instead of `p`.  So the new place of a byte is one function of the old one, for all bytes of
the file, and needs no list of what has been deleted.

Where all bytes are kept, places are as far apart as before (`count_add_of_kept`), and where
all are deleted they fall together (`count_eq_of_not_kept`).  Main statement: bytes that are
all kept stand side by side as before, at their new places (`Span.keep`).
-/
import HeapDump.Proofs.Bytes.Span
import Mathlib.Data.Nat.Count

namespace HeapDump

variable (kept : Nat → Prop) [DecidablePred kept]

/-! ### Runs of bytes -/

/-- Those of some bytes that are kept, the first of them being at `start`. -/
def keepFrom (start : Nat) (bs : List UInt8) : List UInt8 :=
  ((bs.zipIdx start).filter fun x => kept x.2).map Prod.fst

theorem keepFrom_append (start : Nat) (bs cs : List UInt8) :
    keepFrom kept start (bs ++ cs)
      = keepFrom kept start bs ++ keepFrom kept (start + bs.length) cs := by
  rw [keepFrom, List.zipIdx_append, List.filter_append, List.map_append]
  rfl

theorem keepFrom_cons (start : Nat) (b : UInt8) (bs : List UInt8) :
    keepFrom kept start (b :: bs)
      = (if kept start then [b] else []) ++ keepFrom kept (start + 1) bs := by
  rw [← List.singleton_append, keepFrom_append]
  by_cases h : kept start <;> simp [keepFrom, h]

/-- Every place in front of a kept byte counts if it is kept itself. -/
theorem count_add_length_keepFrom (start : Nat) (bs : List UInt8) :
    Nat.count kept start + (keepFrom kept start bs).length
      = Nat.count kept (start + bs.length) := by
  -- induction on the bytes: each one is counted if it is kept, and is left just then
  induction bs generalizing start with
  | nil => rfl
  | cons b bs ih =>
    have hhead : (if kept start then [b] else []).length = if kept start then 1 else 0 := by
      split <;> rfl
    have hnext := Nat.count_succ kept start
    have htail := ih (start + 1)
    have hplace : start + (bs.length + 1) = start + 1 + bs.length := by omega
    rw [keepFrom_cons, List.length_append, hhead, List.length_cons, hplace]
    omega

variable {kept}

/-- Bytes that are all kept stay as they are. -/
theorem keepFrom_eq_self {start : Nat} {bs : List UInt8}
    (h : ∀ i, start ≤ i → i < start + bs.length → kept i) : keepFrom kept start bs = bs := by
  induction bs generalizing start with
  | nil => rfl
  | cons b bs ih =>
    have hhead : kept start := h start (Nat.le_refl _) (by simp)
    have htail : keepFrom kept (start + 1) bs = bs := by
      refine ih fun i hi hlt => h i (by omega) ?_
      rw [List.length_cons]
      omega
    rw [keepFrom_cons, if_pos hhead, htail]
    rfl

/-! ### Places -/

/-- Where all bytes are kept, places are as far apart as before. -/
theorem count_add_of_kept {p n : Nat} (h : ∀ i, p ≤ i → i < p + n → kept i) :
    Nat.count kept (p + n) = Nat.count kept p + n := by
  rw [Nat.count_add, Nat.count_of_forall fun i hi => h (p + i) (by omega) (by omega)]

/-- Where all bytes are deleted, one place is left. -/
theorem count_eq_of_not_kept {p q : Nat} (hle : p ≤ q) (h : ∀ i, p ≤ i → i < q → ¬ kept i) :
    Nat.count kept q = Nat.count kept p := by
  obtain ⟨n, rfl⟩ := Nat.exists_eq_add_of_le hle
  rw [Nat.count_add, Nat.count_of_forall_not fun i hi => h (p + i) (by omega) (by omega),
    Nat.add_zero]

/-- A place is reduced by the number of deleted bytes in front of it. -/
theorem count_not_eq_sub (deleted : Nat → Prop) [DecidablePred deleted] (p : Nat) :
    Nat.count (fun i => ¬ deleted i) p = p - Nat.count deleted p := by
  have hsum : Nat.count (fun i => ¬ deleted i) p + Nat.count deleted p = p := by
    induction p with
    | zero => rfl
    | succ p ih =>
      rw [Nat.count_succ, Nat.count_succ]
      by_cases hp : deleted p
      · rw [if_neg (not_not_intro hp), if_pos hp]
        omega
      · rw [if_pos hp, if_neg hp]
        omega
  omega

/-! ### Files -/

variable (kept) in
/-- The bytes of a file that are kept. -/
def keepBytes (data : ByteArray) : ByteArray := ⟨(keepFrom kept 0 data.data.toList).toArray⟩

theorem size_keepBytes (data : ByteArray) : (keepBytes kept data).size = Nat.count kept data.size := by
  have hcount := count_add_length_keepFrom kept 0 data.data.toList
  rw [Nat.count_zero, Nat.zero_add, Nat.zero_add] at hcount
  exact hcount

/-- **Bytes that are all kept stand side by side**, as far in front as kept bytes are in front
of them. -/
theorem Span.keep {data : ByteArray} {p q : Nat} {bs : List UInt8} (h : Span data p q bs)
    (hkept : ∀ i, p ≤ i → i < q → kept i) :
    Span (keepBytes kept data) (Nat.count kept p) (Nat.count kept q) bs := by
  have hlength := h.length_eq
  -- what stands in front and behind
  have hle : p ≤ data.size := Nat.le_trans h.start_le h.stop_le
  have hfront := span_extract (Nat.zero_le p) hle
  have hback := span_extract h.stop_le (Nat.le_refl data.size)
  have hsize := hfront.length_eq
  have hwhole := ((hfront.append h).append hback).unique (span_whole data)
  generalize (data.extract 0 p).data.toList = front at hwhole hsize
  generalize (data.extract q data.size).data.toList = back at hwhole
  have hbytes : (keepBytes kept data).data.toList
      = keepFrom kept 0 front ++ (bs ++ keepFrom kept q back) := by
    have hsame : keepFrom kept p bs = bs := keepFrom_eq_self (by rwa [hlength])
    rw [keepBytes, ← hwhole, List.append_assoc, keepFrom_append, keepFrom_append, hsize, hlength,
      hsame]
  have hcount := count_add_length_keepFrom kept 0 front
  rw [Nat.count_zero, Nat.zero_add, hsize] at hcount
  have hspan := span_whole (keepBytes kept data)
  rw [hbytes] at hspan
  obtain ⟨start, hspan1, hspan2⟩ := span_append_iff.mp hspan
  obtain ⟨stop, hspan3, -⟩ := span_append_iff.mp hspan2
  -- both ends are counts: of what is left in front, and of that with the span
  obtain rfl : Nat.count kept p = start := by
    rw [← hspan1.length_eq, Nat.zero_add, hcount]
  have hstop : Nat.count kept q = stop := by
    rw [← hspan3.length_eq, ← hlength, count_add_of_kept (by rwa [hlength])]
  rwa [hstop]

end HeapDump
