/-
HeapDump/Proofs/Record/Framing.lean

Where headers and frames are found.

A dump begins with a format identifier, a zero byte and twelve bytes of numbers;
`Headed data name idSize time` says that the bytes of `data` do.  A top-level
record is a tag, a time, a length and as many bytes as the length says;
`Framed data p code time payload` says that one stands at `p`.

Both are single spans of bytes.  They fall apart into the spans of their fields
(`framed_iff`, `headed_span_iff`), and a number is read where its bytes stand, so
a header is read exactly where there is one (`Header.read_eq_ok_iff`), and so is
the frame of a record (`RecordHeader.read_eq_ok_iff`).  In each case a first lemma
says what is read and what is checked (`read_eq_ok_iff_fields`), with the numbers
still as the store gives them, and the main one puts the spans in their places.
-/
import HeapDump.Proofs.Bytes.Span
import HeapDump.Proofs.Record.WellFormed

namespace HeapDump

open Written

variable {store : ByteStore} {data : ByteArray}

/-! ### Readings in steps -/

/-- A reading in two steps gives what the second step gives. -/
theorem andThen_eq_ok_iff {α β : Type} {x : Except Error α} {f : α → Except Error β} {b : β} :
    (x >>= f) = .ok b ↔ ∃ a, x = .ok a ∧ f a = .ok b := by
  cases x with
  | error e => simp [bind, Except.bind]
  | ok a => simp [bind, Except.bind]

/-- A reading behind a check succeeds only if nothing is wrong. -/
theorem guard_eq_ok_iff {α : Type} {c : Prop} [Decidable c] {e : Error} {x : Except Error α}
    {a : α} : (if c then throw e else x) = .ok a ↔ ¬ c ∧ x = .ok a := by
  by_cases hc : c
  · simp [hc, throw, throwThe, MonadExceptOf.throw]
  · simp [hc]

/-! ### Frames of top-level records -/

/-- A top-level record stands at `p`. -/
structure Framed (data : ByteArray) (p : Nat) (code : UInt8) (time : UInt32)
    (payload : List UInt8) : Prop where
  length_lt : payload.length < UInt32.size
  span : Span data p (p + recordHeaderLength + payload.length)
    (code :: word time ++ count payload.length ++ payload)

/-- A record stands where its tag, its time, its length and its payload do. -/
theorem framed_iff {p : Nat} {code : UInt8} {time : UInt32} {payload : List UInt8} :
    Framed data p code time payload ↔ payload.length < UInt32.size
      ∧ Span data p (p + 1) (Scalar.uint8.encode code) ∧ Span data (p + 1) (p + 5) (word time)
      ∧ Span data (p + 5) (p + 9) (count payload.length)
      ∧ Span data (p + 9) (p + 9 + payload.length) payload := by
  have hbytes : code :: word time ++ count payload.length ++ payload
      = Scalar.uint8.encode code ++ (word time ++ (count payload.length ++ payload)) := by
    rw [Scalar.encode_uint8]
    simp
  constructor
  · rintro ⟨hlt, hspan⟩
    rw [hbytes] at hspan
    -- each field ends where its length says
    obtain ⟨_, hcode, hspan⟩ := span_append_iff.mp hspan
    obtain ⟨_, htime, hspan⟩ := span_append_iff.mp hspan
    obtain ⟨_, hlength, hpayload⟩ := span_append_iff.mp hspan
    obtain rfl := hcode.length_eq
    obtain rfl := htime.length_eq
    obtain rfl := hlength.length_eq
    exact ⟨hlt, hcode, htime, hlength, hpayload⟩
  · rintro ⟨hlt, hcode, htime, hlength, hpayload⟩
    refine ⟨hlt, ?_⟩
    rw [hbytes]
    exact hcode.append (htime.append (hlength.append hpayload))

/-- The payload of a record. -/
theorem Framed.payload_span {p : Nat} {code : UInt8} {time : UInt32} {payload : List UInt8}
    (h : Framed data p code time payload) :
    Span data (p + recordHeaderLength) (p + recordHeaderLength + payload.length) payload :=
  (framed_iff.mp h).2.2.2.2

namespace RecordHeader

/-- What is read of the header of a record, and what is checked. -/
theorem read_eq_ok_iff_fields {p : Nat} {h : RecordHeader} :
    RecordHeader.read store p = .ok h ↔ ¬ store.size - p < recordHeaderLength
      ∧ store.readNumber .uint8 p = .ok h.tag ∧ store.readNumber .uint32 (p + 1) = .ok h.time
      ∧ ∃ length : UInt32, store.readNumber .uint32 (p + 5) = .ok length
        ∧ ¬ store.size - p < recordHeaderLength + length.toNat
        ∧ h = ⟨h.tag, h.time, length.toNat, p + recordHeaderLength,
            p + recordHeaderLength + length.toNat⟩ := by
  unfold RecordHeader.read
  simp only [guard_eq_ok_iff, andThen_eq_ok_iff]
  constructor
  · rintro ⟨hshort, code, hcode, time, htime, length, hlength, hcut, hok⟩
    obtain rfl := Except.ok.inj hok
    exact ⟨hshort, hcode, htime, length, hlength, hcut, rfl⟩
  · rintro ⟨hshort, hcode, htime, length, hlength, hcut, heq⟩
    exact ⟨hshort, _, hcode, _, htime, length, hlength, hcut, congrArg Except.ok heq.symm⟩

/-- **The header of a record is read exactly where a whole record stands.** -/
theorem read_eq_ok_iff (hs : store.Serves data) {p : Nat} {h : RecordHeader} :
    RecordHeader.read store p = .ok h ↔ ∃ payload : List UInt8, Framed data p h.tag h.time payload
      ∧ h = ⟨h.tag, h.time, payload.length, p + recordHeaderLength,
          p + recordHeaderLength + payload.length⟩ := by
  rw [read_eq_ok_iff_fields, recordHeaderLength, hs.size_eq]
  constructor
  · rintro ⟨hshort, hcode, htime, length, hlength, hcut, heq⟩
    have hcode := (hs.readNumber_eq_ok_iff (show p + 1 ≤ data.size by omega)).mp hcode
    have htime := (hs.readNumber_eq_ok_iff (show p + 1 + 4 ≤ data.size by omega)).mp htime
    have hlength := (hs.readNumber_eq_ok_iff (show p + 5 + 4 ≤ data.size by omega)).mp hlength
    -- the payload is as many bytes as the length says, whatever they are
    obtain ⟨payload, hlen, hpayload⟩ := exists_span
      (show p + 9 + length.toNat ≤ data.size by omega)
    refine ⟨payload, framed_iff.mpr ⟨?_, hcode, htime, ?_, ?_⟩, ?_⟩
    · rw [hlen]
      exact length.toNat_lt
    · rw [hlen, count, UInt32.ofNat_toNat]
      exact hlength
    · rw [hlen]
      exact hpayload
    · rw [hlen]
      exact heq
  -- a frame ends inside the data, so both checks of the length pass
  · rintro ⟨payload, hframe, heq⟩
    obtain ⟨hlt, hcode, htime, hlength, hpayload⟩ := framed_iff.mp hframe
    have hstop := hpayload.stop_le
    have hn : (UInt32.ofNat payload.length).toNat = payload.length :=
      UInt32.toNat_ofNat_of_lt' hlt
    refine ⟨by omega, hs.readNumber_span hcode, hs.readNumber_span htime,
      UInt32.ofNat payload.length, hs.readNumber_span hlength, ?_, ?_⟩
    · rw [hn]
      omega
    · rw [hn]
      exact heq

/-- No header is read where there are not nine bytes. -/
theorem read_of_short (hs : store.Serves data) {p : Nat}
    (h : data.size - p < recordHeaderLength) :
    RecordHeader.read store p
      = .error (.truncated p recordHeaderLength (data.size - p)) := by
  unfold RecordHeader.read
  rw [hs.size_eq, if_pos h]
  rfl

/-- Where nine bytes are there, so are the three numbers of a header. -/
theorem exists_numbers (hs : store.Serves data) {p : Nat}
    (h : p + recordHeaderLength ≤ data.size) :
    ∃ tag time length, store.readNumber .uint8 p = .ok tag
      ∧ store.readNumber .uint32 (p + 1) = .ok time
      ∧ store.readNumber .uint32 (p + 5) = .ok length := by
  rw [recordHeaderLength] at h
  obtain ⟨tag, htag, -⟩ := hs.exists_readNumber .uint8 (show p + 1 ≤ data.size by omega)
  obtain ⟨time, htime, -⟩ := hs.exists_readNumber .uint32 (show p + 1 + 4 ≤ data.size by omega)
  obtain ⟨length, hlength, -⟩ :=
    hs.exists_readNumber .uint32 (show p + 5 + 4 ≤ data.size by omega)
  exact ⟨tag, time, length, htag, htime, hlength⟩

/-- Behind the three numbers of a header, its length decides. -/
theorem read_of_numbers (hs : store.Serves data) {p : Nat}
    (h : p + recordHeaderLength ≤ data.size) {tag : UInt8} {time length : UInt32}
    (htag : store.readNumber .uint8 p = .ok tag)
    (htime : store.readNumber .uint32 (p + 1) = .ok time)
    (hlength : store.readNumber .uint32 (p + 5) = .ok length) :
    RecordHeader.read store p
      = if data.size - p < recordHeaderLength + length.toNat then
          .error (.truncated p (recordHeaderLength + length.toNat) (data.size - p))
        else .ok ⟨tag, time, length.toNat, p + recordHeaderLength,
          p + recordHeaderLength + length.toNat⟩ := by
  -- the first check passes, and what is left is the second
  have hnine : ¬ data.size - p < recordHeaderLength := by omega
  unfold RecordHeader.read
  rw [hs.size_eq, if_neg hnine]
  simp only [htag, htime, hlength, bind, Except.bind]
  rfl

end RecordHeader

/-! ### Headers -/

namespace Header

/-- The format identifier is what stands before the first zero byte. -/
theorem identifier_eq_true_iff {scan name : List UInt8} :
    identifier scan = (name, true) ↔ 0 ∉ name ∧ ∃ rest, scan = name ++ 0 :: rest := by
  -- induction on the bytes that are looked through, as the search goes
  induction scan generalizing name with
  | nil =>
    constructor
    · intro h
      cases h
    · rintro ⟨-, rest, h⟩
      cases name <;> cases h
  | cons b scan ih =>
    by_cases hb : b = 0
    -- the zero byte ends the identifier
    · subst hb
      constructor
      · intro h
        obtain rfl : [] = name := congrArg Prod.fst h
        exact ⟨List.not_mem_nil, scan, rfl⟩
      · rintro ⟨hname, rest, h⟩
        cases name with
        | nil => rfl
        | cons c name =>
          cases h
          exact absurd List.mem_cons_self hname
    · have hstep : identifier (b :: scan) = (b :: (identifier scan).1, (identifier scan).2) := by
        simp [identifier, hb, Ne.symm hb]
      rw [hstep]
      constructor
      · intro h
        obtain ⟨rfl, hrest⟩ := Prod.mk.inj h
        obtain ⟨hmem, rest, heq⟩ := ih.mp (Prod.ext rfl hrest)
        refine ⟨?_, rest, ?_⟩
        · rw [List.mem_cons, not_or]
          exact ⟨Ne.symm hb, hmem⟩
        · rw [List.cons_append, ← heq]
      · rintro ⟨hmem, rest, heq⟩
        cases name with
        | nil => exact absurd (List.cons.inj heq).1 hb
        | cons c name =>
          obtain ⟨rfl, htail⟩ := List.cons.inj heq
          rw [ih.mpr ⟨fun h => hmem (List.mem_cons_of_mem b h), rest, htail⟩]

/-- Runs that agree and of which the second is no longer begin with it. -/
theorem agree_iff_isPrefix {xs ys : List UInt8} :
    agree xs ys = true ∧ ¬ xs.length < ys.length ↔ ys <+: xs := by
  induction xs generalizing ys with
  | nil => cases ys <;> simp [agree]
  | cons x xs ih =>
    cases ys with
    | nil => simp [agree]
    | cons y ys =>
      rw [List.cons_prefix_cons, ← ih, eq_comm (a := y)]
      simp only [agree, List.zip_cons_cons, List.all_cons, Bool.and_eq_true, decide_eq_true_eq,
        List.length_cons, Nat.add_lt_add_iff_right, and_assoc]

end Header

/-- A dump begins with a header. -/
structure Headed (data : ByteArray) (name : List UInt8) (idSize : Nat) (time : UInt64) :
    Prop where
  magic_prefix : Header.magic <+: name
  zero_notMem : 0 ∉ name
  name_lt : name.length < Header.scanLimit
  idSize_eq : idSize = 4 ∨ idSize = 8
  span : Span data 0 (name.length + Header.tailLength)
    (name ++ 0 :: count idSize ++ Scalar.uint64.encode time)

/-- A header stands where its identifier, the width of identifiers and the time do. -/
theorem headed_span_iff {name : List UInt8} {idSize : Nat} {time : UInt64} :
    Span data 0 (name.length + Header.tailLength)
        (name ++ 0 :: count idSize ++ Scalar.uint64.encode time)
      ↔ Span data 0 (name.length + 1) (name ++ [0])
        ∧ Span data (name.length + 1) (name.length + 5) (count idSize)
        ∧ Span data (name.length + 5) (name.length + 13) (Scalar.uint64.encode time) := by
  have hbytes : name ++ 0 :: count idSize ++ Scalar.uint64.encode time
      = (name ++ [0]) ++ (count idSize ++ Scalar.uint64.encode time) := by simp
  rw [hbytes, Header.tailLength]
  constructor
  · intro hspan
    obtain ⟨mid, hname, hspan⟩ := span_append_iff.mp hspan
    obtain ⟨_, hidSize, htime⟩ := span_append_iff.mp hspan
    obtain rfl : name.length + 1 = mid := by
      rw [← hname.length_eq, List.length_append, List.length_singleton, Nat.zero_add]
    obtain rfl := hidSize.length_eq
    exact ⟨hname, hidSize, htime⟩
  · rintro ⟨hname, hidSize, htime⟩
    exact hname.append (hidSize.append htime)

namespace Header

/-- What is read of a header, and what is checked. -/
theorem read_eq_ok_iff_fields {h : Header} :
    Header.read store = .ok h ↔ ∃ (scan : ByteArray) (name : List UInt8) (idSize : UInt32),
      store.read 0 (min store.size scanLimit) = .ok scan
      ∧ identifier scan.data.toList = (name, true)
      ∧ (agree name magic = true ∧ ¬ name.length < magic.length)
      ∧ ¬ store.size < name.length + tailLength
      ∧ store.readNumber .uint32 (name.length + 1) = .ok idSize ∧ (idSize = 4 ∨ idSize = 8)
      ∧ store.readNumber .uint64 (name.length + 5) = .ok h.timestamp
      ∧ h = ⟨Utf8.decodeLossy ⟨name.toArray⟩, idSize.toNat, h.timestamp,
          name.length + tailLength⟩ := by
  unfold Header.read
  rw [andThen_eq_ok_iff]
  constructor
  · rintro ⟨scan, hscan, hok⟩
    rcases hid : identifier scan.data.toList with ⟨name, terminated⟩
    simp only [hid] at hok
    rw [guard_eq_ok_iff, not_not] at hok
    obtain ⟨hagree, hok⟩ := hok
    cases terminated with
    | false =>
      -- no end of the identifier: either fault is an error
      rw [if_pos Bool.false_ne_true] at hok
      split at hok <;> cases hok
    | true =>
      rw [if_neg (not_not_intro rfl)] at hok
      simp only [guard_eq_ok_iff, andThen_eq_ok_iff] at hok
      obtain ⟨hlong, hfull, idSize, hidSize, hwidth, time, htime, hok⟩ := hok
      obtain rfl := Except.ok.inj hok
      exact ⟨scan, name, idSize, hscan, hid, ⟨hagree, hlong⟩, hfull, hidSize,
        Decidable.or_iff_not_not_and_not.mpr hwidth, htime, rfl⟩
  · rintro ⟨scan, name, idSize, hscan, hid, ⟨hagree, hlong⟩, hfull, hidSize, hwidth, htime, heq⟩
    refine ⟨scan, hscan, ?_⟩
    simp only [hid]
    rw [guard_eq_ok_iff, if_neg (not_not_intro trivial)]
    simp only [guard_eq_ok_iff, andThen_eq_ok_iff]
    exact ⟨not_not_intro hagree, hlong, hfull, idSize, hidSize,
      Decidable.or_iff_not_not_and_not.mp hwidth, _, htime, congrArg Except.ok heq.symm⟩

/-- The bytes that are looked through for the end of the identifier. -/
theorem exists_scan (hs : store.Serves data) :
    ∃ scan, store.read 0 (min store.size scanLimit) = .ok scan
      ∧ Span data 0 (min store.size scanLimit) scan.data.toList := by
  have hle : min store.size scanLimit ≤ data.size := by
    have hsize := hs.size_eq
    omega
  have hread := hs.read_eq (show 0 + min store.size scanLimit ≤ data.size by omega)
  rw [Nat.zero_add] at hread
  exact ⟨_, hread, span_extract (Nat.zero_le _) hle⟩

/-- **A header is read exactly where there is one.** -/
theorem read_eq_ok_iff (hs : store.Serves data) {h : Header} :
    Header.read store = .ok h ↔ ∃ name : List UInt8, Headed data name h.idSize h.timestamp
      ∧ h.format = Utf8.decodeLossy ⟨name.toArray⟩ ∧ h.length = name.length + tailLength := by
  have hsize := hs.size_eq
  obtain ⟨scan, hscan, hspan⟩ := exists_scan hs
  rw [read_eq_ok_iff_fields]
  constructor
  · rintro ⟨scan', name, idSize, hscan', hid, hagree, hfull, hidSize, hwidth, htime, heq⟩
    -- what was looked through begins the data, so the identifier and its zero byte stand there
    obtain rfl : scan = scan' := Except.ok.inj (hscan.symm.trans hscan')
    rw [tailLength] at hfull
    obtain ⟨hmem, rest, hrest⟩ := identifier_eq_true_iff.mp hid
    have hlen := hspan.length_eq
    rw [hrest, List.append_cons] at hspan
    rw [hrest, List.length_append, List.length_cons, scanLimit] at hlen
    obtain ⟨mid, hname, -⟩ := span_append_iff.mp hspan
    obtain rfl : name.length + 1 = mid := by
      rw [← hname.length_eq, List.length_append, List.length_singleton, Nat.zero_add]
    have hidSize := (hs.readNumber_eq_ok_iff
      (show name.length + 1 + 4 ≤ data.size by omega)).mp hidSize
    have htime := (hs.readNumber_eq_ok_iff
      (show name.length + 5 + 8 ≤ data.size by omega)).mp htime
    rw [heq]
    refine ⟨name, ⟨agree_iff_isPrefix.mp hagree, hmem, ?_, ?_, headed_span_iff.mpr ⟨hname, ?_,
      htime⟩⟩, rfl, rfl⟩
    · rw [scanLimit]
      omega
    · rcases hwidth with rfl | rfl
      · exact .inl rfl
      · exact .inr rfl
    · rw [count, UInt32.ofNat_toNat]
      exact hidSize
  · rintro ⟨name, hhead, hformat, hlength⟩
    obtain ⟨hname, hidSize, htime⟩ := headed_span_iff.mp hhead.span
    have hstop := htime.stop_le
    have hlt := hhead.name_lt
    -- the identifier ends among the bytes that are looked through
    obtain ⟨rest, hrest⟩ := hname.isPrefix hspan (by
      rw [scanLimit] at hlt ⊢
      omega)
    have hid : identifier scan.data.toList = (name, true) :=
      identifier_eq_true_iff.mpr ⟨hhead.zero_notMem, rest, by rw [← hrest]; simp⟩
    obtain ⟨format, idSize, timestamp, length⟩ := h
    obtain rfl : format = _ := hformat
    obtain rfl : length = _ := hlength
    refine ⟨scan, name, UInt32.ofNat idSize, hscan, hid,
      agree_iff_isPrefix.mpr hhead.magic_prefix, by rw [tailLength]; omega,
      hs.readNumber_span hidSize, ?_, hs.readNumber_span htime, ?_⟩
    · rcases hhead.idSize_eq with rfl | rfl
      · exact .inl rfl
      · exact .inr rfl
    · rcases hhead.idSize_eq with rfl | rfl
      · rfl
      · rfl

end Header

end HeapDump
