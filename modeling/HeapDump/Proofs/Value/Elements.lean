/-
HeapDump/Proofs/Value/Elements.lean

Two ways to decode values that stand one after the other.

A record is read value by value, by a parser that moves on; the bytes of a primitive array are
cut into elements.  `Value.Exhausts` says what values the parser gives until no byte remains.
Both ways are compared with a third notion, the values that are packed in the bytes
(`Value.packed`): the parser exhausts its bytes with just these (`Value.exhausts_iff`, induction
on the reading and on the number of values), and cutting gives them by a map over the same
positions (`Elements.exists_decode`).  So an array decodes to just those elements that the parser
gives (`Elements.decode_eq_some_iff`).

References are left out throughout: no array of this kind has them, and all other types have one
width, whatever the identifiers of the dump.

Cutting divides by the size of an element.  `Elements.decodeChecked` has no result as soon as
something is divided by zero, and is the decoding all the same (`Elements.decodeChecked_eq`).
-/
import HeapDump.Proofs.Value.Parsing
import HeapDump.Value.Elements

namespace HeapDump

namespace BasicType

variable {t : BasicType}

/-- The width of identifiers matters to references only. -/
theorem size_eq_size_zero (h : t ≠ .object) (idSize : Nat) : t.size idSize = t.size 0 := by
  cases t with
  | object => exact absurd rfl h
  | _ => rfl

theorem size_zero_pos (h : t ≠ .object) : 0 < t.size 0 := by
  cases t with
  | object => exact absurd rfl h
  | _ => decide

end BasicType

namespace Value

variable {t : BasicType} {idSize : Nat} {p : Parser} {vs : List (Value ObjectId)}

/-! ### Values one after the other -/

/-- Reading value after value of a type gives these until no byte remains. -/
inductive Exhausts (t : BasicType) (idSize : Nat) : Parser → List (Value ObjectId) → Prop where
  | done {p : Parser} (h : p.remaining = 0) : Exhausts t idSize p []
  | step {p q : Parser} {v : Value ObjectId} {vs : List (Value ObjectId)}
      (h : parse t idSize p = (.ok v, q)) (rest : Exhausts t idSize q vs) :
      Exhausts t idSize p (v :: vs)

/-- The values of a type other than references that the bytes from `start` on spell, one after
the other. -/
def packed (t : BasicType) (data : ByteArray) (start count : Nat) : List (Value ObjectId) :=
  (List.range count).map fun i =>
    let place := start + i * t.size 0
    ofBits t (BigEndian.ofBytes (data.extract place (place + t.size 0)))

@[simp] theorem length_packed (data : ByteArray) (start count : Nat) :
    (packed t data start count).length = count := by
  simp [packed]

theorem packed_succ (data : ByteArray) (start count : Nat) :
    packed t data start (count + 1)
      = ofBits t (BigEndian.ofBytes (data.extract start (start + t.size 0)))
        :: packed t data (start + t.size 0) count := by
  rw [packed, List.range_succ_eq_map, List.map_cons, List.map_map, Nat.zero_mul, Nat.add_zero]
  refine congrArg _ (List.map_congr_left fun i _ => ?_)
  have hplace : start + i.succ * t.size 0 = start + t.size 0 + i * t.size 0 := by
    rw [Nat.succ_mul]
    omega
  rw [Function.comp_apply, hplace]

/-- A value of a type other than references is read if its bytes are there, and it takes them with
it. -/
theorem parse_eq_ok_iff (h : t ≠ .object) {v : Value ObjectId} {q : Parser} :
    parse t idSize p = (.ok v, q) ↔ t.size 0 ≤ p.remaining
      ∧ v = ofBits t (BigEndian.ofBytes (p.ahead (t.size 0))) ∧ q = p.behind (t.size 0) := by
  rw [parse_eq (fun ht => absurd ht h), BasicType.size_eq_size_zero h]
  split
  · next hle => simp [hle, eq_comm]
  · next hlt => simp [hlt]

/-- As many values as have room are read. -/
theorem exhausts_packed (h : t ≠ .object) {count : Nat} (hcount : p.remaining = count * t.size 0) :
    Exhausts t idSize p (packed t p.data p.position count) := by
  induction count generalizing p with
  | zero => exact .done (hcount.trans (Nat.zero_mul _))
  | succ count ih =>
    rw [Nat.succ_mul] at hcount
    rw [packed_succ]
    -- one value is read, and the room left is that of the values behind it
    refine .step ((parse_eq_ok_iff h).mpr ⟨by omega, rfl, rfl⟩) (ih ?_)
    rw [Parser.remaining_behind]
    omega

/-- **What a parser gives until no byte remains**: the bytes are those of the values, and each
value is what its bytes spell. -/
theorem exhausts_iff (h : t ≠ .object) :
    Exhausts t idSize p vs
      ↔ p.remaining = vs.length * t.size 0 ∧ vs = packed t p.data p.position vs.length := by
  constructor
  · intro hvs
    -- induction on the reading: each value takes its bytes with it, and the values behind it are
    -- packed in those that are left
    induction hvs with
    | done hp => exact ⟨by rw [hp, List.length_nil, Nat.zero_mul], rfl⟩
    | step hparse rest ih =>
      obtain ⟨hle, rfl, rfl⟩ := (parse_eq_ok_iff h).mp hparse
      obtain ⟨hremaining, hpacked⟩ := ih
      rw [Parser.remaining_behind] at hremaining
      rw [List.length_cons, packed_succ, Nat.succ_mul]
      exact ⟨by omega, congrArg _ hpacked⟩
  · rintro ⟨hremaining, hpacked⟩
    rw [hpacked]
    exact exhausts_packed h hremaining

end Value

namespace Elements

open Value

variable {t : BasicType} {data : ByteArray} {e e' : Elements}

/-! ### Elements of an array -/

/-- Elements are told apart by their type and their values. -/
theorem ext_toList (htype : e.type = e'.type) (h : e.toList = e'.toList) : e = e' := by
  cases e <;> cases e' <;> simp only [type, reduceCtorEq] at htype <;>
    simpa [toList, List.map_inj_right] using h

/-- Numbers that are cut out are the values packed in the bytes. -/
theorem map_numbers (s : Scalar) {make : s.Carrier → Value ObjectId} (hsize : s.size = t.size 0)
    (hmake : ∀ n, make (s.ofBits n) = ofBits t n) :
    (numbers s data).map make = packed t data 0 (data.size / t.size 0) := by
  rw [numbers, packed, List.map_map, ← hsize]
  refine List.map_congr_left fun i _ => ?_
  rw [Nat.zero_add]
  exact hmake _

/-- A whole number of elements decodes to the values that are packed in the bytes. -/
theorem exists_decode (h : t ≠ .object) (hdvd : t.size 0 ∣ data.size) :
    ∃ e, decode t data = some e ∧ e.type = t
      ∧ e.toList = packed t data 0 (data.size / t.size 0) := by
  have hguard : ¬(t = .object ∨ data.size % t.size 0 ≠ 0) := by
    simp [h, Nat.mod_eq_zero_of_dvd hdvd]
  unfold decode
  rw [if_neg hguard]
  cases t with
  | object => exact absurd rfl h
  -- a boolean is stored as a byte and is compared with zero; the other types are numbers
  | boolean =>
    refine ⟨_, rfl, rfl, ?_⟩
    rw [toList, List.map_map]
    exact map_numbers .uint8 rfl fun _ => rfl
  | char => exact ⟨_, rfl, rfl, map_numbers .uint16 rfl fun _ => rfl⟩
  | float => exact ⟨_, rfl, rfl, map_numbers .float32 rfl fun _ => rfl⟩
  | double => exact ⟨_, rfl, rfl, map_numbers .float64 rfl fun _ => rfl⟩
  | byte => exact ⟨_, rfl, rfl, map_numbers .int8 rfl fun _ => rfl⟩
  | short => exact ⟨_, rfl, rfl, map_numbers .int16 rfl fun _ => rfl⟩
  | int => exact ⟨_, rfl, rfl, map_numbers .int32 rfl fun _ => rfl⟩
  | long => exact ⟨_, rfl, rfl, map_numbers .int64 rfl fun _ => rfl⟩

/-- Bytes decode if and only if they are a whole number of elements. -/
theorem isSome_decode_iff (h : t ≠ .object) : (decode t data).isSome ↔ t.size 0 ∣ data.size := by
  constructor
  · intro hsome
    by_contra hdvd
    have hnone : decode t data = none :=
      if_pos (.inr fun hmod => hdvd (Nat.dvd_of_mod_eq_zero hmod))
    rw [hnone] at hsome
    cases hsome
  · intro hdvd
    obtain ⟨e, he, -⟩ := exists_decode h hdvd
    exact Option.isSome_of_eq_some he

/-- What an array decodes to: as many elements of its type as have room, each of them being what
its bytes spell. -/
theorem decode_eq_some_iff_packed (h : t ≠ .object) :
    decode t data = some e ↔ e.type = t ∧ data.size = e.length * t.size 0
      ∧ e.toList = packed t data 0 e.length := by
  constructor
  · intro he
    have hdvd := (isSome_decode_iff h).mp (Option.isSome_of_eq_some he)
    obtain ⟨e', he', htype, hlist⟩ := exists_decode h hdvd
    obtain rfl : e = e' := Option.some.inj (he.symm.trans he')
    have hlength : data.size / t.size 0 = e.length := by
      rw [← length_toList, hlist, length_packed]
    rw [hlength] at hlist
    exact ⟨htype, by rw [← hlength, Nat.div_mul_cancel hdvd], hlist⟩
  · rintro ⟨htype, hsize, hlist⟩
    obtain ⟨e', he', htype', hlist'⟩ := exists_decode h (Dvd.intro_left _ hsize.symm)
    rw [hsize, Nat.mul_div_cancel _ (BasicType.size_zero_pos h)] at hlist'
    rw [he', ext_toList (htype'.trans htype.symm) (hlist'.trans hlist.symm)]

/-- **An array decodes to those elements of its type that a parser gives** when it reads value
after value until no byte remains. -/
theorem decode_eq_some_iff (h : t ≠ .object) (idSize base : Nat) :
    decode t data = some e ↔ e.type = t ∧ Exhausts t idSize { data, base } e.toList := by
  rw [decode_eq_some_iff_packed h, exhausts_iff h, length_toList]
  rfl

/-! ### Division -/

/-- A remainder, unless the divisor is zero. -/
def checkedMod (n m : Nat) : Option Nat := if m = 0 then none else some (n % m)

/-- A quotient, unless the divisor is zero. -/
def checkedDiv (n m : Nat) : Option Nat := if m = 0 then none else some (n / m)

/-- Cuts the numbers of kind `s` out of `data`.  There is no result if this divides by zero. -/
def numbersChecked (s : Scalar) (data : ByteArray) : Option (List s.Carrier) := do
  let count ← checkedDiv data.size s.size
  return (List.range count).map fun i =>
    s.decode (data.extract (i * s.size) (i * s.size + s.size))

/-- Decodes elements, the type being looked at before the number of bytes.  There is no result
if this divides by zero. -/
def decodeChecked (t : BasicType) (data : ByteArray) : Option (Option Elements) := do
  if t = .object then return none
  let rest ← checkedMod data.size (t.size 0)
  if rest ≠ 0 then return none
  match t with
  | .object => return none
  | .boolean => return boolean ((← numbersChecked .uint8 data).map (· ≠ 0))
  | .char => return char (← numbersChecked .uint16 data)
  | .float => return float (← numbersChecked .float32 data)
  | .double => return double (← numbersChecked .float64 data)
  | .byte => return byte (← numbersChecked .int8 data)
  | .short => return short (← numbersChecked .int16 data)
  | .int => return int (← numbersChecked .int32 data)
  | .long => return long (← numbersChecked .int64 data)

theorem numbersChecked_eq (s : Scalar) (data : ByteArray) :
    numbersChecked s data = some (numbers s data) := by
  rw [numbersChecked, checkedDiv, if_neg s.size_pos.ne']
  rfl

/-- **Decoding never divides by zero.** -/
theorem decodeChecked_eq (t : BasicType) (data : ByteArray) :
    decodeChecked t data = some (decode t data) := by
  unfold decodeChecked decode
  by_cases h : t = .object
  · rw [if_pos h, if_pos (.inl h)]
    rfl
  · rw [if_neg h, checkedMod, if_neg (BasicType.size_zero_pos h).ne']
    simp only [numbersChecked_eq]
    -- the size of the type is not zero, so no guard of a division fails
    by_cases hrest : data.size % t.size 0 = 0
    · rw [if_neg (by simp [h, hrest])]
      cases t <;> simp_all
    · rw [if_pos (.inr hrest)]
      simp [hrest]

end Elements

end HeapDump
