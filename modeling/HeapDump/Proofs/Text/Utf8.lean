/-
HeapDump/Proofs/Text/Utf8.lean

Bytes that are text are read as that text:

    decodeLossy s.toUTF8 = s        (`decodeLossy_toUTF8`).

The machine is followed through the one to four bytes of a character.  What the
first byte leaves behind is the code point without its lower bits, and bounds
for the second byte that the character keeps to (`first_two`, `first_three`,
`first_four`); each further byte adds six bits (`run_inside`, `run_last`).

The bounds are what makes the machine refuse overlong forms, surrogates and codes
that are no characters.  A character is none of these, and this is the only place
where its validity is used; all other steps are arithmetic of base 64.
-/
import Mathlib
import HeapDump.Text.Utf8

namespace HeapDump.Utf8

/-! ### First bytes -/

variable {v : Nat}

/-- Below 128 a byte is its own character. -/
theorem first_one (h : v ≤ 0x7F) :
    first (UInt8.ofNat v) = ([Char.ofNat v], .between) := by
  have hb : (UInt8.ofNat v).toNat = v := UInt8.toNat_ofNat_of_lt' (show v < 256 by omega)
  rw [first, if_pos (UInt8.lt_iff_toNat_lt.mpr ?_), hb]
  rw [hb]
  exact Nat.lt_succ_of_le h

theorem first_two (h : 0x7F < v) (h' : v ≤ 0x7FF) :
    first (UInt8.ofNat (v / 64 % 0x20 + 0xC0)) = ([], .inside (v / 64) 1 0x80 0xBF) := by
  have hb : (UInt8.ofNat (v / 64 % 0x20 + 0xC0)).toNat = v / 64 + 0xC0 := by
    rw [UInt8.toNat_ofNat_of_lt' (show _ < 256 by omega)]
    omega
  have hcode : v / 64 + 0xC0 - 0xC0 = v / 64 := Nat.add_sub_cancel ..
  simp only [first, UInt8.lt_iff_toNat_lt, hb, hcode, UInt8.reduceToNat]
  rw [if_neg (by omega), if_neg (by omega), if_pos (by omega)]

/-- The second byte of three is never an overlong form or a surrogate. -/
theorem first_three (h : 0x7FF < v) (h' : v ≤ 0xFFFF) (hv : v < 0xD800 ∨ 0xDFFF < v) :
    ∃ least greatest : UInt8,
      first (UInt8.ofNat (v / 4096 % 0x10 + 0xE0)) = ([], .inside (v / 4096) 2 least greatest)
        ∧ least.toNat ≤ v / 64 % 0x40 + 0x80 ∧ v / 64 % 0x40 + 0x80 ≤ greatest.toNat := by
  have hb : (UInt8.ofNat (v / 4096 % 0x10 + 0xE0)).toNat = v / 4096 + 0xE0 := by
    rw [UInt8.toNat_ofNat_of_lt' (show _ < 256 by omega)]
    omega
  simp only [first, UInt8.lt_iff_toNat_lt, ← UInt8.toNat_inj, hb, UInt8.reduceToNat]
  rw [if_neg (by omega), if_neg (by omega), if_neg (by omega)]
  -- behind 0xE0 overlong forms are left out, behind 0xED surrogates
  by_cases h0 : v / 4096 = 0
  · rw [if_pos (by omega), h0]
    refine ⟨_, _, rfl, ?_, ?_⟩
    · show 0xA0 ≤ _
      omega
    · show _ ≤ 0xBF
      omega
  · rw [if_neg (by omega)]
    by_cases hD : v / 4096 = 0xD
    · rw [if_pos (by omega), hD]
      exact ⟨_, _, rfl, by simp, by simp; omega⟩
    · rw [if_neg (by omega), if_pos (by omega)]
      exact ⟨_, _, by rw [Nat.add_sub_cancel], by simp, by simp; omega⟩

theorem first_four (h : 0xFFFF < v) (h' : v < 0x110000) :
    ∃ least greatest : UInt8,
      first (UInt8.ofNat (v / 262144 % 0x08 + 0xF0))
          = ([], .inside (v / 262144) 3 least greatest)
        ∧ least.toNat ≤ v / 4096 % 0x40 + 0x80 ∧ v / 4096 % 0x40 + 0x80 ≤ greatest.toNat := by
  have hb : (UInt8.ofNat (v / 262144 % 0x08 + 0xF0)).toNat = v / 262144 + 0xF0 := by
    rw [UInt8.toNat_ofNat_of_lt' (show _ < 256 by omega)]
    omega
  simp only [first, UInt8.lt_iff_toNat_lt, ← UInt8.toNat_inj, hb, UInt8.reduceToNat]
  rw [if_neg (by omega), if_neg (by omega), if_neg (by omega),
    if_neg (by omega), if_neg (by omega), if_neg (by omega)]
  -- behind 0xF0 overlong forms are left out, behind 0xF4 what is no character
  by_cases h0 : v / 262144 = 0
  · rw [if_pos (by omega), h0]
    refine ⟨_, _, rfl, ?_, ?_⟩
    · show 0x90 ≤ _
      omega
    · show _ ≤ 0xBF
      omega
  · rw [if_neg (by omega)]
    by_cases h4 : v / 262144 < 4
    · rw [if_pos (by omega)]
      exact ⟨_, _, by rw [Nat.add_sub_cancel], by simp, by simp; omega⟩
    · have h4' : v / 262144 = 4 := by omega
      rw [if_neg (by omega), if_pos (by omega), h4']
      exact ⟨_, _, rfl, by simp, by simp; omega⟩

/-! ### Further bytes -/

/-- A further byte adds its six bits and owes one byte less. -/
theorem run_inside {code owed n : Nat} {least greatest : UInt8} (hn : n < 0x40)
    (hl : least.toNat ≤ n + 0x80) (hg : n + 0x80 ≤ greatest.toNat) (howed : 1 < owed)
    (read : String) (rest : List UInt8) :
    run read (.inside code owed least greatest) (UInt8.ofNat (n + 0x80) :: rest)
      = run read (.inside (code * 64 + n) (owed - 1) 0x80 0xBF) rest := by
  have hb : (UInt8.ofNat (n + 0x80)).toNat = n + 0x80 :=
    UInt8.toNat_ofNat_of_lt' (show _ < 256 by omega)
  rw [run, step, if_pos ⟨UInt8.le_iff_toNat_le.mpr (hl.trans_eq hb.symm),
      UInt8.le_iff_toNat_le.mpr (hb.trans_le hg)⟩,
    if_neg (Nat.not_le.mpr howed), hb, Nat.add_sub_cancel]
  rfl

/-- The last byte finishes the character. -/
theorem run_last {code n : Nat} {least greatest : UInt8} (hn : n < 0x40)
    (hl : least.toNat ≤ n + 0x80) (hg : n + 0x80 ≤ greatest.toNat)
    (read : String) (rest : List UInt8) :
    run read (.inside code 1 least greatest) (UInt8.ofNat (n + 0x80) :: rest)
      = run (read.push (Char.ofNat (code * 64 + n))) .between rest := by
  have hb : (UInt8.ofNat (n + 0x80)).toNat = n + 0x80 :=
    UInt8.toNat_ofNat_of_lt' (show _ < 256 by omega)
  rw [run, step, if_pos ⟨UInt8.le_iff_toNat_le.mpr (hl.trans_eq hb.symm),
      UInt8.le_iff_toNat_le.mpr (hb.trans_le hg)⟩,
    if_pos (Nat.le_refl 1), hb, Nat.add_sub_cancel]
  rfl

theorem run_first {b : UInt8} {s : State} (h : first b = ([], s)) (read : String)
    (rest : List UInt8) : run read .between (b :: rest) = run read s rest := by
  rw [run, step, h]
  rfl

/-! ### Text -/

/-- The bytes of a character are read as that character. -/
theorem run_utf8EncodeChar (c : Char) (read : String) (rest : List UInt8) :
    run read .between (String.utf8EncodeChar c ++ rest) = run (read.push c) .between rest := by
  have hvalid : c.val.toNat < 0xD800 ∨ 0xDFFF < c.val.toNat ∧ c.val.toNat < 0x110000 := c.valid
  have hchar : Char.ofNat c.val.toNat = c := Char.ofNat_toNat c
  have hmod : ∀ n, n % 0x40 < 0x40 := fun n => Nat.mod_lt n (by decide)
  have hlow : ∀ n, (0x80 : UInt8).toNat ≤ n % 0x40 + 0x80 := fun n => Nat.le_add_left ..
  have hhigh : ∀ n, n % 0x40 + 0x80 ≤ (0xBF : UInt8).toNat := fun n => by
    have := hmod n
    show _ ≤ 0xBF
    omega
  rw [String.utf8EncodeChar]
  -- by the number of bytes; the code is put together again from its digits
  generalize c.val.toNat = v at hvalid hchar ⊢
  by_cases h1 : v ≤ 0x7F
  · rw [if_pos h1, List.singleton_append, run, step, first_one h1, hchar]
    rfl
  by_cases h2 : v ≤ 0x7FF
  · rw [if_neg h1, if_pos h2]
    have hc : v / 64 * 64 + v % 0x40 = v := by omega
    show run read .between (_ :: _ :: rest) = _
    rw [run_first (first_two (Nat.not_le.mp h1) h2), run_last (hmod _) (hlow _) (hhigh _), hc,
      hchar]
  by_cases h3 : v ≤ 0xFFFF
  · rw [if_neg h1, if_neg h2, if_pos h3]
    obtain ⟨least, greatest, hfirst, hl, hg⟩ :=
      first_three (Nat.not_le.mp h2) h3 (hvalid.imp_right And.left)
    have hc : (v / 4096 * 64 + v / 64 % 0x40) * 64 + v % 0x40 = v := by
      omega
    show run read .between (_ :: _ :: _ :: rest) = _
    rw [run_first hfirst, run_inside (hmod _) hl hg (by decide),
      run_last (hmod _) (hlow _) (hhigh _), hc, hchar]
  · rw [if_neg h1, if_neg h2, if_neg h3]
    obtain ⟨least, greatest, hfirst, hl, hg⟩ := first_four (Nat.not_le.mp h3) (by omega)
    have hc : ((v / 262144 * 64 + v / 4096 % 0x40) * 64 + v / 64 % 0x40) * 64
        + v % 0x40 = v := by
      omega
    show run read .between (_ :: _ :: _ :: _ :: rest) = _
    rw [run_first hfirst, run_inside (hmod _) hl hg (by decide),
      run_inside (hmod _) (hlow _) (hhigh _) (by decide), run_last (hmod _) (hlow _) (hhigh _), hc,
      hchar]

theorem run_utf8Encode (cs : List Char) (read : String) :
    run read .between (cs.flatMap String.utf8EncodeChar) = cs.foldl String.push read := by
  -- each character is pushed onto what has been read, and leaves the machine between characters
  induction cs generalizing read with
  | nil => rfl
  | cons c cs ih => rw [List.flatMap_cons, run_utf8EncodeChar, ih, List.foldl_cons]

theorem toList_foldl_push (cs : List Char) (read : String) :
    (cs.foldl String.push read).toList = read.toList ++ cs := by
  induction cs generalizing read with
  | nil => simp
  | cons c cs ih => rw [List.foldl_cons, ih, String.toList_push, List.append_assoc]; rfl

/-- **Text is read back from its bytes.** -/
theorem decodeLossy_toUTF8 (s : String) : decodeLossy s.toUTF8 = s := by
  have hbytes : s.toUTF8.data.toList = s.toList.flatMap String.utf8EncodeChar := by
    rw [String.toUTF8_eq_toByteArray, ← String.utf8Encode_toList, List.utf8Encode,
      List.data_toByteArray]
  rw [decodeLossy, hbytes, run_utf8Encode]
  apply String.ext
  rw [toList_foldl_push]
  rfl

/-- Bytes that are text are the bytes of what is read from them. -/
theorem toUTF8_decodeLossy {bytes : ByteArray} (h : bytes.IsValidUTF8) :
    (decodeLossy bytes).toUTF8 = bytes := by
  have htext : (String.fromUTF8 bytes h).toUTF8 = bytes := rfl
  rw [← htext, decodeLossy_toUTF8]

end HeapDump.Utf8
