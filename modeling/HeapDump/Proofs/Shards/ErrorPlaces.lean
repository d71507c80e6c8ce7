/-
HeapDump/Proofs/Shards/ErrorPlaces.lean

Where the errors of byte accesses point.

A parser that knows where its bytes lie in the file says of bytes that are not there where in the
file they would be, and windows say at which place of the file they were asked for some.  There is
one exception to both.  That identifiers are never as wide as they are asked for is found out by the
plain read underneath, which counts from the first byte that it was given: for a parser that is the
first of its run (`Parser.Op.offset?_of_unsupported`), and for windows the first of the read itself
(`Session.Call.offset?_of_refusedLate`).

For a parser it is enough to look at single operations: the error of a block is that of one of the
operations in it, performed in a state that a block can be in (`exists_performs_of_error`), and all
these states have the base and the bytes of the first (`Parser.Inside`).  For windows, an
identifier of such a width that lies outside of the source is refused by the windows, before its
width is looked at.

Main statement: `errors_point_at_request`; `unsupported_width_misplaced` shows an error of the
exceptional kind that points elsewhere.
-/
import HeapDump.Proofs.Bytes.Atomicity
import HeapDump.Proofs.Shards.Mapping

namespace HeapDump

/-! ### Parsers -/

namespace Parser

variable {p : Parser} {e : Error}

/-- The error of bytes that are not there points at the position in the file. -/
theorem offset?_outOfBounds (p : Parser) (length : Nat) :
    (p.outOfBounds length).offset? = some (p.base + p.position) := rfl

/-- What is refused on a condition has the error of the refusal. -/
theorem eq_of_ite_fst_eq_error {c : Prop} [Decidable c] {a : α} {e e' : Error} {q : Parser}
    (h : (if c then (.ok a, q) else (.error e', p) : Except Error α × Parser).1 = .error e) :
    e = e' := by
  split at h
  · cases h
  · exact (Except.error.inj h).symm

namespace Op

/-- An identifier is asked for of a width that no identifier has. -/
def Unsupported : Op → Prop
  | .readId width => width ∉ [1, 2, 4, 8]
  | _ => False

/-- An operation that is no block fails since bytes are not there, unless it asks for an identifier
of a width that no identifier has. -/
theorem exists_outOfBounds_of_error {op : Op} (hleaf : op.IsLeaf) (hop : ¬op.Unsupported)
    (h : (op.run p).1 = .error e) : ∃ length, e = p.outOfBounds length := by
  cases op with
  | readNumber s =>
    rw [run, answering_fst_eq_error_iff, readNumber_eq] at h
    exact ⟨_, eq_of_ite_fst_eq_error h⟩
  | readId width =>
    rw [run, answering_fst_eq_error_iff, readId_eq p (not_not.mp hop)] at h
    exact ⟨_, eq_of_ite_fst_eq_error h⟩
  | readBytes length =>
    rw [run, answering_fst_eq_error_iff] at h
    exact ⟨_, eq_of_ite_fst_eq_error h⟩
  | seek position =>
    rw [run, answering_fst_eq_error_iff] at h
    exact ⟨_, eq_of_ite_fst_eq_error h⟩
  | advance step =>
    rw [run, answering_fst_eq_error_iff] at h
    exact ⟨_, eq_of_ite_fst_eq_error h⟩
  -- a byte that is not there is reported by hand and not by the read underneath
  | peek =>
    rw [run, answering_fst_eq_error_iff, Parser.peek] at h
    split at h
    · cases h
    · exact ⟨_, (Except.error.inj h).symm⟩
  | transaction ops => exact hleaf.elim

theorem offset?_of_error {op : Op} (hleaf : op.IsLeaf) (hop : ¬op.Unsupported)
    (h : (op.run p).1 = .error e) : e.offset? = some (p.base + p.position) := by
  obtain ⟨length, rfl⟩ := exists_outOfBounds_of_error hleaf hop h
  exact p.offset?_outOfBounds length

/-- That a width is refused is said of the position in the run of bytes, not of that in the
file. -/
theorem offset?_of_unsupported {op : Op} (hop : op.Unsupported) (h : (op.run p).1 = .error e) :
    e.offset? = some p.position := by
  cases op with
  | readId width =>
    rw [run, answering_fst_eq_error_iff, readId_of_unsupported p hop] at h
    cases h
    rfl
  | _ => exact hop.elim

end Op

end Parser

/-- A value is refused where it would begin in the file. -/
theorem Value.offset?_of_parse_error {t : BasicType} {idSize : Nat} {p : Parser} {e : Error}
    (hid : t = .object → idSize ∈ [1, 2, 4, 8]) (h : (parse t idSize p).1 = .error e) :
    e.offset? = some (p.base + p.position) := by
  rw [parse_eq hid] at h
  obtain rfl := Parser.eq_of_ite_fst_eq_error h
  exact p.offset?_outOfBounds _

/-- A reference of a width that no identifier has is refused as an identifier is. -/
theorem Value.offset?_of_parse_object_error {idSize : Nat} {p : Parser} {e : Error}
    (hid : idSize ∉ [1, 2, 4, 8]) (h : (parse .object idSize p).1 = .error e) :
    e.offset? = some p.position := by
  rw [parse, Parser.readId_of_unsupported p hid] at h
  cases h
  rfl

/-! ### Windows -/

/-- Windows refuse just the ranges that are not inside the bytes. -/
theorem Shards.eq_outOfBounds_of_read_error {s : Shards} {offset length : UInt64} {e : Error}
    (h : s.read offset length = .error e) :
    ¬offset.toNat + length.toNat ≤ s.source.bytes.size
      ∧ e = .outOfBounds offset.toNat length.toNat s.source.bytes.size := by
  have hread := s.map_bytes_read offset length
  rw [h] at hread
  by_cases hin : offset.toNat + length.toNat ≤ s.source.bytes.size
  · rw [if_pos hin] at hread
    cases hread
  · rw [if_neg hin] at hread
    exact ⟨hin, Except.error.inj hread⟩

namespace Session.Call

variable {s : Session} {c : Call} {e : Error}

/-- The error that a call gives, if it gives one. -/
def FailsWith (c : Call) (s : Session) (e : Error) : Prop :=
  match c with
  | read offset length => (s.read offset length).1 = .error e
  | readNumber k offset => (s.readNumber k offset).1 = .error e
  | readId offset width => (s.readId offset width).1 = .error e

/-- A call that is refused late has read its bytes, and what is said of them is counted from the
first of them. -/
theorem offset?_of_refusedLate (hlate : c.RefusedLate s.shards) (h : c.FailsWith s e) :
    e.offset? = some 0 := by
  obtain ⟨offset, width, rfl, hwidth, hin⟩ := hlate
  change s.shards.readId offset width = .error e at h
  rw [Shards.readId] at h
  cases hread : s.shards.read offset width with
  | error e' => exact absurd hin (Shards.eq_outOfBounds_of_read_error hread).1
  | ok chunk =>
    rw [hread] at h
    change (Bytes.readIdAt chunk.bytes 0 width.toNat).bind _ = _ at h
    rw [Bytes.readIdAt, Scalar.ofIdWidth?_eq_none_iff.mpr hwidth] at h
    cases h
    rfl

/-- All other calls that fail say where in the file they were to read. -/
theorem offset?_of_failsWith (hlate : ¬c.RefusedLate s.shards) (h : c.FailsWith s e) :
    e.offset? = some c.offset.toNat := by
  cases c with
  | read offset length =>
    obtain ⟨-, rfl⟩ := Shards.eq_outOfBounds_of_read_error h
    rfl
  | readNumber k offset =>
    change s.shards.readNumber k offset = .error e at h
    rw [Shards.readNumber_eq_readNumberAt, Bytes.readNumberAt_eq] at h
    split at h
    · cases h
    · cases h
      rfl
  | readId offset width =>
    change s.shards.readId offset width = .error e at h
    by_cases hwidth : width.toNat ∈ [1, 2, 4, 8]
    · obtain ⟨k, hk⟩ := Scalar.exists_ofIdWidth?_iff.mpr hwidth
      rw [Shards.readId_eq_readIdAt _ hk, Bytes.readIdAt_eq hk] at h
      split at h
      · cases h
      · cases h
        rfl
    · -- the width is not even looked at, since the bytes are not there
      have hout : ¬offset.toNat + width.toNat ≤ s.shards.source.bytes.size :=
        fun hin => hlate ⟨offset, width, rfl, hwidth, hin⟩
      rw [Shards.readId] at h
      cases hread : s.shards.read offset width with
      | ok chunk =>
        have hok : (s.shards.read offset width).isOk := by
          rw [hread]
          rfl
        exact absurd ((s.shards.isOk_read_iff offset width).mp hok) hout
      | error e' =>
        rw [hread] at h
        cases h
        obtain ⟨-, rfl⟩ := Shards.eq_outOfBounds_of_read_error hread
        rfl

end Session.Call

/-! ### The main statement -/

/-- **Errors point at the place in the file at which something was asked for**, those of a parser
after any operations and those of windows after any calls, unless an identifier was asked for of a
width that no identifier has.  That one is refused at the position in the run of bytes, whose first
byte may lie anywhere in the file, and through windows at zero, if the bytes are there.  The error
of a block is that of an operation in it that is no block, and points at the place of that one. -/
theorem errors_point_at_request {data : ByteArray} {base : Nat}
    (hbase : base + data.size < UInt64.size) (history : List Parser.Op) (shards : Shards)
    (calls : List Session.Call) :
    let p := Parser.afterAll history { data, base }
    let s := Session.afterAll calls { shards }
    base + p.position < UInt64.size
    ∧ (∀ op : Parser.Op, op.IsLeaf → ∀ e, (op.run p).1 = .error e →
      (¬op.Unsupported → e.offset? = some (base + p.position))
      ∧ (op.Unsupported → e.offset? = some p.position))
    ∧ (∀ t idSize e, (Value.parse t idSize p).1 = .error e →
      ((t = .object → idSize ∈ [1, 2, 4, 8]) → e.offset? = some (base + p.position))
      ∧ (t = .object → idSize ∉ [1, 2, 4, 8] → e.offset? = some p.position))
    ∧ (∀ op : Parser.Op, ∀ e, (op.run p).1 = .error e →
      ∃ leaf q, op.Performs p leaf q ∧ leaf.IsLeaf ∧ (leaf.run q).1 = .error e
        ∧ (¬leaf.Unsupported → e.offset? = some (base + q.position))
        ∧ (leaf.Unsupported → e.offset? = some q.position))
    ∧ ∀ c : Session.Call, ∀ e, c.FailsWith s e →
      (¬c.RefusedLate shards → e.offset? = some c.offset.toNat)
      ∧ (c.RefusedLate shards → e.offset? = some 0) := by
  intro p s
  have hp : Parser.Inside { data, base } p := Parser.inside_afterAll history (Nat.zero_le _)
  have hs : s.shards = shards := Session.shards_afterAll calls { shards }
  have hlt : base + p.position < UInt64.size := by
    have hle := hp.position_le
    rw [Parser.length, hp.data_eq] at hle
    change p.position ≤ data.size at hle
    omega
  refine ⟨hlt, fun op hleaf e h => ⟨fun hop => ?_, fun hop => ?_⟩,
    fun t idSize e h => ⟨fun hid => ?_, ?_⟩, fun op e h => ?_, fun c e h => ?_⟩
  · rw [Parser.Op.offset?_of_error hleaf hop h, hp.base_eq]
  · exact Parser.Op.offset?_of_unsupported hop h
  · rw [Value.offset?_of_parse_error hid h, hp.base_eq]
  · rintro rfl hid
    exact Value.offset?_of_parse_object_error hid h
  -- the operation of the block that failed, in the state in which it was performed
  · obtain ⟨leaf, q, hperforms, hleaf, hfails⟩ := Parser.exists_performs_of_error op h
    have hq := hp.trans (hperforms.inside_of_position_le hp.position_le)
    refine ⟨leaf, q, hperforms, hleaf, hfails, fun hop => ?_, fun hop => ?_⟩
    · rw [Parser.Op.offset?_of_error hleaf hop hfails, hq.base_eq]
    · exact Parser.Op.offset?_of_unsupported hop hfails
  · rw [← hs]
    exact ⟨fun hlate => Session.Call.offset?_of_failsWith hlate h,
      fun hlate => Session.Call.offset?_of_refusedLate hlate h⟩

/-- Two bytes that stand at place 1000, the first of them skipped. -/
def secondByte : Parser := { data := ⟨#[0, 1]⟩, base := 1000, position := 1 }

/-- Ten bytes behind windows of five bytes that begin four bytes apart. -/
def tenByteShards : Shards :=
  ⟨⟨.memory, tenBytes, by decide⟩, ⟨_, 4, 1, by decide, by decide⟩, rfl⟩

/-- A number that is too long, a reference of a width that no identifier has, and an identifier that
begins at the last byte of the source. -/
theorem errors_point_at_request_secondByte :
    1000 + secondByte.data.size < UInt64.size
      ∧ secondByte = Parser.afterAll [.advance 1] { data := secondByte.data, base := 1000 }
      ∧ (∃ e, ((Parser.Op.readNumber .uint32).run secondByte).1 = .error e ∧ e.offset? = some 1001)
      ∧ (∃ e, (Value.parse .object 3 secondByte).1 = .error e ∧ e.offset? = some 1)
      ∧ ∃ e, (Session.Call.readId 9 4).FailsWith { shards := tenByteShards } e
        ∧ e.offset? = some 9 := by
  have hbase : 1000 + secondByte.data.size < UInt64.size := by decide
  obtain ⟨-, hleaf, hvalue, -, hwindows⟩ :=
    errors_point_at_request hbase [.advance 1] tenByteShards []
  have hnumber : ((Parser.Op.readNumber .uint32).run secondByte).1
      = .error (.outOfBounds 1001 4 1002) := rfl
  have hobject : (Value.parse .object 3 secondByte).1 = .error (.unsupportedWidth 1 3) := rfl
  have hid : (Session.Call.readId 9 4).FailsWith { shards := tenByteShards }
      (.outOfBounds 9 4 10) := by
    show tenByteShards.readId 9 4 = _
    decide +kernel
  refine ⟨hbase, rfl, ⟨_, hnumber, (hleaf (.readNumber .uint32) trivial _ hnumber).1 id⟩,
    ⟨_, hobject, (hvalue .object 3 _ hobject).2 rfl (by decide)⟩, _, hid, (hwindows _ _ hid).1 ?_⟩
  rintro ⟨offset, width, h, hwidth, -⟩
  cases h
  exact hwidth (by decide)

/-- **The refusal of a width points elsewhere**: for a parser at place 1001 of the file at its
position 1, also if it is asked for a reference, and for windows that are asked for three bytes at
place 5 at zero. -/
theorem unsupported_width_misplaced :
    secondByte = Parser.afterAll [.advance 1] { data := secondByte.data, base := 1000 }
      ∧ secondByte.absolutePosition = 1001
      ∧ (∃ e, ((Parser.Op.readId 3).run secondByte).1 = .error e ∧ e.offset? = some 1)
      ∧ (∃ e, (Value.parse .object 3 secondByte).1 = .error e ∧ e.offset? = some 1)
      ∧ ∃ e, ({ shards := tenByteShards : Session }.readId 5 3).1 = .error e
        ∧ e.offset? = some 0 := by
  refine ⟨rfl, rfl, ⟨_, rfl, rfl⟩, ⟨_, rfl, rfl⟩, .unsupportedWidth 0 3, ?_, rfl⟩
  show tenByteShards.readId 5 3 = _
  decide +kernel

end HeapDump
