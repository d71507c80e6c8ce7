/-
HeapDump/Proofs/Record/Header.lean

What the first bytes of a file decide.

A header is read exactly where one stands, and that is told by the place `n` where its
identifier ends (`Header.Begins data n`).  The header itself is then a function of the bytes,
so reading is described by an equation and not only by a relation:

    Header.read store = .ok h ↔ ∃ n, Begins data n ∧ h = endingAt data n

(`Header.read_eq_ok_iff_begins`).

A file is too short exactly if its bytes are `Unfinished`: the identifier has no end and is
right as far as it goes, or the identifier is complete and the rest is not
(`Header.read_eq_truncated_iff`; the proof splits on whether the end of the identifier is
found among the bytes that are looked through).  The beginnings of unfinished bytes are
unfinished (`Unfinished.of_append`), so a file that is no dump does not become one when it
grows, and the beginnings of a header are all unfinished (`unfinished_extract`).
-/
import HeapDump.Proofs.Bytes.Read
import HeapDump.Proofs.Record.Framing

namespace HeapDump

variable {data : ByteArray} {store : ByteStore}

/-! ### Numbers in place -/

/-- A number is read from the bytes that spell it. -/
theorem Span.decode_extract {start stop : Nat} {k : Scalar} {x : k.Carrier}
    (h : Span data start stop (k.encode x)) : k.decode (data.extract start stop) = x := by
  rw [h.extract_eq, k.decode_encode]

/-- Bytes spell the number that is read from them. -/
theorem span_encode_decode {start : Nat} (k : Scalar) (h : start + k.size ≤ data.size) :
    Span data start (start + k.size) (k.encode (k.decode (data.extract start (start + k.size)))) := by
  obtain ⟨bs, hlength, hspan⟩ := exists_span h
  rw [hspan.extract_eq, k.encode_decode hlength]
  exact hspan

/-! ### The end of the identifier -/

/-- A first place splits a run into what is in front of it and what is behind. -/
theorem idxOf?_eq_some_iff_append {xs : List UInt8} {a : UInt8} {n : Nat} :
    xs.idxOf? a = some n ↔ ∃ front back, xs = front ++ a :: back ∧ a ∉ front
      ∧ front.length = n := by
  rw [List.idxOf?_eq_some_iff]
  constructor
  · rintro ⟨hlt, ha, hfirst⟩
    refine ⟨xs.take n, xs.drop (n + 1), ?_, fun hmem => ?_, List.length_take_of_le hlt.le⟩
    · rw [← ha, List.getElem_cons_drop, List.take_append_drop]
    · obtain ⟨i, hi, heq⟩ := List.mem_take_iff_getElem.mp hmem
      exact hfirst i (by omega) heq
  · rintro ⟨front, back, rfl, hmem, rfl⟩
    refine ⟨by simp, by simp, fun i hi heq => hmem ?_⟩
    rw [List.getElem_append_left hi] at heq
    exact heq ▸ List.getElem_mem hi

namespace Header

/-- The bytes of a dump whose identifier ends at a place. -/
structure Begins (data : ByteArray) (n : Nat) : Prop where
  magic_prefix : magic <+: data.data.toList
  /-- The first zero stands there. -/
  end_eq : data.data.toList.idxOf? 0 = some n
  le_end : 16 ≤ n
  end_le : n ≤ 63
  le_size : n + 13 ≤ data.size
  idSize_eq : BigEndian.ofBytes (data.extract (n + 1) (n + 5)) = 4
    ∨ BigEndian.ofBytes (data.extract (n + 1) (n + 5)) = 8

/-- The header whose identifier ends at a place. -/
def endingAt (data : ByteArray) (n : Nat) : Header where
  format := Utf8.decodeLossy (data.extract 0 n)
  idSize := BigEndian.ofBytes (data.extract (n + 1) (n + 5))
  timestamp := UInt64.ofNat (BigEndian.ofBytes (data.extract (n + 5) (n + 13)))
  length := n + 13

end Header

/-- The identifier of a header ends in front of the width of identifiers. -/
theorem Headed.begins {name : List UInt8} {idSize : Nat} {time : UInt64}
    (h : Headed data name idSize time) :
    Header.Begins data name.length ∧ (data.extract 0 name.length).data.toList = name
      ∧ BigEndian.ofBytes (data.extract (name.length + 1) (name.length + 5)) = idSize
      ∧ UInt64.ofNat (BigEndian.ofBytes (data.extract (name.length + 5) (name.length + 13)))
        = time := by
  obtain ⟨hname, hidSize, htime⟩ := headed_span_iff.mp h.span
  obtain ⟨rest, hrest⟩ := hname.isPrefix (span_whole data) hname.stop_le
  rw [List.append_assoc, List.singleton_append] at hrest
  obtain ⟨mid, hfront, -⟩ := span_append_iff.mp hname
  obtain rfl : name.length = mid := by rw [← hfront.length_eq, Nat.zero_add]
  have hid : BigEndian.ofBytes (data.extract (name.length + 1) (name.length + 5)) = idSize := by
    -- the four bytes are decoded to the number they were written from, which is small
    have hdecode := hidSize.decode_extract (k := .uint32)
    have hbits := Scalar.toBits_decode_extract .uint32 hidSize.stop_le
    rw [show name.length + 1 + Scalar.uint32.size = name.length + 5 from rfl, hdecode] at hbits
    rw [← hbits]
    rcases h.idSize_eq with rfl | rfl
    · rfl
    · rfl
  refine ⟨⟨?_, ?_, ?_, Nat.le_of_lt_succ h.name_lt, htime.stop_le, ?_⟩, ?_, hid,
    htime.decode_extract (k := .uint64)⟩
  · exact h.magic_prefix.trans ⟨_, hrest⟩
  · exact idxOf?_eq_some_iff_append.mpr ⟨name, rest, hrest.symm, h.zero_notMem, rfl⟩
  · exact h.magic_prefix.length_le
  · rw [hid]
    exact h.idSize_eq
  · rw [hfront.extract_eq]

/-- Where an identifier ends in front of a width of identifiers, a header stands. -/
theorem Header.Begins.headed {n : Nat} (h : Header.Begins data n) :
    Headed data (data.extract 0 n).data.toList
      (BigEndian.ofBytes (data.extract (n + 1) (n + 5)))
      (UInt64.ofNat (BigEndian.ofBytes (data.extract (n + 5) (n + 13)))) := by
  obtain ⟨front, back, hdata, hmem, hlength⟩ := idxOf?_eq_some_iff_append.mp h.end_eq
  have hsize := h.le_size
  have hend := h.end_le
  have hname : Span data 0 n (data.extract 0 n).data.toList :=
    span_extract (Nat.zero_le n) (by omega)
  have hwhole := span_whole data
  rw [hdata, List.append_cons] at hwhole
  -- the bytes up to the first zero are a front of the data, and `n` is their number
  obtain ⟨mid, hfront, -⟩ := span_append_iff.mp hwhole
  obtain rfl : n + 1 = mid := by
    rw [← hfront.length_eq, List.length_append, List.length_singleton, hlength, Nat.zero_add]
  obtain ⟨mid, hfront', -⟩ := span_append_iff.mp hfront
  obtain rfl : n = mid := by rw [← hfront'.length_eq, hlength, Nat.zero_add]
  -- the first bytes are those in front of the first zero
  obtain rfl := hname.unique hfront'
  refine ⟨?_, hmem, ?_, h.idSize_eq, headed_span_iff.mpr ?_⟩
  · refine List.prefix_of_prefix_length_le h.magic_prefix ⟨_, hdata.symm⟩ ?_
    rw [hlength]
    exact h.le_end
  · rw [hlength]
    exact Nat.lt_succ_of_le hend
  · rw [hlength]
    exact ⟨hfront, span_encode_decode .uint32 (by show n + 1 + 4 ≤ _; omega),
      span_encode_decode .uint64 (by show n + 5 + 8 ≤ _; omega)⟩

/-- **A header is read exactly if one stands there**, by the place where its identifier ends. -/
theorem Header.read_eq_ok_iff_begins (hs : store.Serves data) {h : Header} :
    Header.read store = .ok h ↔ ∃ n, Begins data n ∧ h = endingAt data n := by
  rw [read_eq_ok_iff hs]
  constructor
  · rintro ⟨name, hhead, hformat, hlength⟩
    obtain ⟨hbegins, hname, hidSize, htime⟩ := hhead.begins
    refine ⟨name.length, hbegins, ?_⟩
    obtain ⟨format, idSize, timestamp, length⟩ := h
    obtain rfl : format = _ := hformat
    obtain rfl : length = _ := hlength
    rw [endingAt, hidSize, htime]
    congr 2
    exact ByteArray.ext (Array.toList_inj.mp hname.symm)
  · rintro ⟨n, hbegins, rfl⟩
    -- the identifier is what stands in front of its end, so its length is the place
    have hlength : (data.extract 0 n).data.toList.length = n := by
      rw [Array.length_toList, ← ByteArray.size, ByteArray.size_extract, Nat.sub_zero]
      exact Nat.min_eq_left (by have := hbegins.le_size; omega)
    refine ⟨_, hbegins.headed, rfl, ?_⟩
    rw [hlength]
    rfl

/-! ### Files that are too short -/

namespace Header

/-- Bytes without a zero are all of an identifier that has no end. -/
theorem identifier_of_notMem {scan : List UInt8} (h : 0 ∉ scan) :
    identifier scan = (scan, false) := by
  rw [identifier, List.takeWhile_eq_self_iff.mpr fun b hb => ?_, List.contains_eq_mem]
  · exact congrArg (scan, ·) (decide_eq_false h)
  · exact decide_eq_true fun hzero => h (hzero ▸ hb)

theorem identifier_eq_false_iff {scan name : List UInt8} :
    identifier scan = (name, false) ↔ name = scan ∧ 0 ∉ scan := by
  constructor
  · intro h
    have hmem : 0 ∉ scan := by
      have hcontains : scan.contains 0 = false := congrArg Prod.snd h
      rwa [List.contains_eq_mem, decide_eq_false_iff_not] at hcontains
    rw [identifier_of_notMem hmem] at h
    exact ⟨(congrArg Prod.fst h).symm, hmem⟩
  · rintro ⟨rfl, hmem⟩
    exact identifier_of_notMem hmem

/-- Two beginnings of the same bytes agree. -/
theorem agree_of_isPrefix {xs ys zs : List UInt8} (hx : xs <+: zs) (hy : ys <+: zs) :
    agree xs ys = true := by
  induction xs generalizing ys zs with
  | nil => rfl
  | cons x xs ih =>
    cases ys with
    | nil => rfl
    | cons y ys =>
      cases zs with
      | nil => cases List.prefix_nil.mp hx
      | cons z zs =>
        obtain ⟨rfl, hxs⟩ := List.cons_prefix_cons.mp hx
        obtain ⟨rfl, hys⟩ := List.cons_prefix_cons.mp hy
        have hrest := ih hxs hys
        rw [agree] at hrest ⊢
        rw [List.zip_cons_cons, List.all_cons, hrest, Bool.and_true]
        exact decide_eq_true rfl

/-- What agrees with other bytes does so from its beginning on. -/
theorem agree_of_append {xs ys zs : List UInt8} (h : agree (xs ++ ys) zs = true) :
    agree xs zs = true := by
  induction xs generalizing zs with
  | nil => rfl
  | cons x xs ih =>
    cases zs with
    | nil => rfl
    | cons z zs =>
      rw [agree, List.cons_append, List.zip_cons_cons, List.all_cons, Bool.and_eq_true] at h
      rw [agree, List.zip_cons_cons, List.all_cons, Bool.and_eq_true]
      exact ⟨h.1, ih h.2⟩

/-- The bytes of a file that is too short for its header. -/
inductive Unfinished : List UInt8 → Prop where
  /-- The identifier has no end yet. -/
  | identifier {bytes : List UInt8} (zero_notMem : 0 ∉ bytes) (length_lt : bytes.length < scanLimit)
      (agree_magic : agree bytes magic = true) : Unfinished bytes
  /-- What is behind the identifier is not complete. -/
  | tail {name rest : List UInt8} (zero_notMem : 0 ∉ name) (name_lt : name.length < scanLimit)
      (magic_begins : magic <+: name) (rest_lt : rest.length + 1 < tailLength) :
      Unfinished (name ++ 0 :: rest)

/-- The beginnings of unfinished bytes are unfinished. -/
theorem Unfinished.of_append {front back : List UInt8} (h : Unfinished (front ++ back)) :
    Unfinished front := by
  generalize hbytes : front ++ back = bytes at h
  cases h with
  | identifier hmem hlt hagree =>
    subst hbytes
    rw [List.length_append] at hlt
    exact .identifier (fun h => hmem (List.mem_append_left _ h)) (by omega) (agree_of_append hagree)
  | @tail name rest hmem hlt hmagic hrest =>
    rcases List.append_eq_append_iff.mp hbytes with ⟨mid, rfl, -⟩ | ⟨mid, rfl, hmid⟩
    · -- the front ends in the identifier
      rw [List.length_append] at hlt
      exact .identifier (fun h => hmem (List.mem_append_left _ h)) (by omega)
        (agree_of_isPrefix (List.prefix_append _ _) hmagic)
    -- the front goes on behind the identifier, or ends with it
    · cases mid with
      | nil =>
        rw [List.append_nil]
        exact .identifier hmem hlt (agree_of_isPrefix (List.prefix_refl _) hmagic)
      | cons b mid =>
        obtain ⟨rfl, rfl⟩ : 0 = b ∧ rest = mid ++ back := List.cons.inj hmid
        rw [List.length_append] at hrest
        exact .tail hmem hlt hmagic (by omega)

/-- The bytes that are looked through for the end of the identifier are the first ones. -/
theorem exists_scan_eq_take (hs : store.Serves data) :
    ∃ scan, store.read 0 (min data.size scanLimit) = .ok scan
      ∧ scan.data.toList = data.data.toList.take scanLimit := by
  obtain ⟨scan, hscan, hspan⟩ := exists_scan hs
  rw [hs.size_eq] at hscan hspan
  refine ⟨scan, hscan, ?_⟩
  have hprefix := hspan.isPrefix (span_whole data) (Nat.min_le_left _ _)
  have hlength : scan.data.toList.length = min data.size scanLimit := by
    rw [← hspan.length_eq, Nat.zero_add]
  have hsize : data.data.toList.length = data.size := Array.length_toList
  rw [List.prefix_iff_eq_take.mp hprefix, hlength, List.take_eq_take_iff, hsize]
  omega

/-- Bytes among which the identifier has no end are unfinished if they agree with the magic bytes
and there are no more of them. -/
theorem unfinished_iff_of_open {bytes : List UInt8} (h : 0 ∉ bytes.take scanLimit) :
    Unfinished bytes ↔ agree (bytes.take scanLimit) magic = true ∧ bytes.length < scanLimit := by
  constructor
  · rintro (⟨hmem, hlt, hagree⟩ | ⟨hmem, hlt, hmagic, hrest⟩)
    · rw [List.take_of_length_le hlt.le]
      exact ⟨hagree, hlt⟩
    · refine absurd ?_ h
      rw [List.take_append, List.take_of_length_le hlt.le,
        List.take_cons (Nat.sub_pos_of_lt hlt)]
      simp
  · rintro ⟨hagree, hlt⟩
    rw [List.take_of_length_le hlt.le] at h hagree
    exact .identifier h hlt hagree

/-- Bytes with the end of the identifier are unfinished if it begins with the magic bytes and too
few are behind it. -/
theorem unfinished_iff_of_closed {name rest : List UInt8} (hmem : 0 ∉ name)
    (hlt : name.length < scanLimit) :
    Unfinished (name ++ 0 :: rest) ↔ magic <+: name ∧ rest.length + 1 < tailLength := by
  constructor
  · intro h
    generalize hbytes : name ++ 0 :: rest = bytes at h
    cases h with
    | identifier hmem' => exact absurd (by simp [← hbytes]) hmem'
    | @tail name' rest' hmem' _ hmagic hrest =>
      -- the identifier ends at the first zero
      have hlength := congrArg (List.idxOf 0) hbytes
      rw [List.idxOf_append_of_notMem hmem, List.idxOf_append_of_notMem hmem'] at hlength
      simp only [List.idxOf_cons_self, Nat.add_zero] at hlength
      obtain ⟨rfl, hcons⟩ := List.append_inj hbytes hlength
      obtain rfl : rest = rest' := (List.cons.inj hcons).2
      exact ⟨hmagic, hrest⟩
  · rintro ⟨hmagic, hrest⟩
    exact .tail hmem hlt hmagic hrest

section

variable {scan : ByteArray} {name : List UInt8}

/-- Which files are too short if the end of the identifier is not found. -/
theorem read_eq_truncated_iff_of_open (hs : store.Serves data)
    (hscan : store.read 0 (min data.size scanLimit) = .ok scan)
    (hid : identifier scan.data.toList = (name, false)) :
    (∃ needed, Header.read store = .error (.truncated 0 needed data.size))
      ↔ agree name magic = true ∧ data.size < scanLimit := by
  unfold Header.read
  simp only [hs.size_eq, hscan, hid, bind, Except.bind]
  by_cases hagree : agree name magic = true
  · rw [if_neg (not_not_intro hagree), if_pos Bool.false_ne_true]
    by_cases hlt : data.size < scanLimit
    · rw [if_pos (by omega)]
      exact iff_of_true ⟨_, rfl⟩ ⟨hagree, hlt⟩
    · rw [if_neg (by omega)]
      exact iff_of_false (fun ⟨_, h⟩ => by cases h) fun h => hlt h.2
  · rw [if_pos hagree]
    exact iff_of_false (fun ⟨_, h⟩ => by cases h) fun h => hagree h.1

/-- Which files are too short if the end of the identifier is found. -/
theorem read_eq_truncated_iff_of_closed (hs : store.Serves data)
    (hscan : store.read 0 (min data.size scanLimit) = .ok scan)
    (hid : identifier scan.data.toList = (name, true)) :
    (∃ needed, Header.read store = .error (.truncated 0 needed data.size))
      ↔ magic <+: name ∧ data.size < name.length + tailLength := by
  rw [← agree_iff_isPrefix]
  unfold Header.read
  simp only [hs.size_eq, hscan, hid, bind, Except.bind]
  by_cases hagree : agree name magic = true
  · rw [if_neg (not_not_intro hagree), if_neg (not_not_intro trivial)]
    by_cases hshort : name.length < magic.length
    · rw [if_pos hshort]
      exact iff_of_false (fun ⟨_, h⟩ => by cases h) fun h => h.1.2 hshort
    · rw [if_neg hshort]
      by_cases hlt : data.size < name.length + tailLength
      · rw [if_pos hlt]
        exact iff_of_true ⟨_, rfl⟩ ⟨⟨hagree, hshort⟩, hlt⟩
      · rw [if_neg hlt]
        refine iff_of_false (fun ⟨_, h⟩ => ?_) fun h => hlt h.2
        -- the numbers behind the identifier are there
        rw [tailLength] at hlt
        obtain ⟨idSize, hidSize, -⟩ :=
          hs.exists_readNumber .uint32 (show name.length + 1 + 4 ≤ data.size by omega)
        obtain ⟨time, htime, -⟩ :=
          hs.exists_readNumber .uint64 (show name.length + 5 + 8 ≤ data.size by omega)
        simp only [hidSize, htime] at h
        split at h
        · cases h
        · cases h
  · rw [if_pos hagree]
    exact iff_of_false (fun ⟨_, h⟩ => by cases h) fun h => hagree h.1.1

end

/-- **A file is too short for a header** exactly if its bytes are unfinished. -/
theorem read_eq_truncated_iff (hs : store.Serves data) :
    (∃ needed, Header.read store = .error (.truncated 0 needed data.size))
      ↔ Unfinished data.data.toList := by
  have hsize : data.data.toList.length = data.size := Array.length_toList
  obtain ⟨scan, hscan, htake⟩ := exists_scan_eq_take hs
  rcases hid : identifier scan.data.toList with ⟨name, _ | _⟩
  · obtain ⟨rfl, hmem⟩ := identifier_eq_false_iff.mp hid
    rw [read_eq_truncated_iff_of_open hs hscan hid, htake, ← hsize,
      unfinished_iff_of_open (htake ▸ hmem)]
  · obtain ⟨hmem, rest, hrest⟩ := identifier_eq_true_iff.mp hid
    -- what was looked through begins the file, so the identifier ends there in the file too
    obtain ⟨back, hbytes⟩ : ∃ back, data.data.toList = name ++ 0 :: back :=
      ⟨rest ++ data.data.toList.drop scanLimit, by
        rw [← List.cons_append, ← List.append_assoc, ← hrest, htake, List.take_append_drop]⟩
    have hlt : name.length < scanLimit := by
      have hscanned := List.length_take_le scanLimit data.data.toList
      rw [← htake, hrest, List.length_append, List.length_cons] at hscanned
      omega
    rw [read_eq_truncated_iff_of_closed hs hscan hid, hbytes, unfinished_iff_of_closed hmem hlt,
      ← hsize, hbytes, List.length_append, List.length_cons, Nat.add_lt_add_iff_left]

/-- The bytes of a header without the last ones are unfinished. -/
theorem unfinished_extract {name : List UInt8} {idSize : Nat} {time : UInt64}
    (h : Headed data name idSize time) {cut : Nat} (hcut : cut < name.length + tailLength) :
    Unfinished (data.extract 0 cut).data.toList := by
  obtain ⟨hname, -, htime⟩ := headed_span_iff.mp h.span
  have hsize := htime.stop_le
  rw [tailLength] at hcut
  -- all of them but one are a tail that is not complete, and what is shorter begins it
  obtain ⟨rest, hlength, hrest⟩ :=
    exists_span (show name.length + 1 + 11 ≤ data.size by omega)
  have hfront := span_extract (Nat.zero_le cut) (show cut ≤ data.size by omega)
  obtain ⟨back, hback⟩ := hfront.isPrefix (hname.append hrest) (by omega)
  have hall : Unfinished (name ++ [0] ++ rest) := by
    rw [List.append_assoc, List.singleton_append]
    exact .tail h.zero_notMem h.name_lt h.magic_prefix (by rw [tailLength]; omega)
  rw [← hback] at hall
  exact hall.of_append

end Header

end HeapDump
