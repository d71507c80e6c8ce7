/-
HeapDump/Proofs/Value/Parsing.lean

What a parser finds at its position.

A number, an identifier or a value of any type is read if as many bytes are left as it has, and
is then what these bytes spell with the most significant byte first; the parser moves behind it.
Otherwise it stays where it is, and the error names its position.

With `p.ahead n` for the next bytes and `p.behind n` for the parser behind them, each read is one
equation with a guard on `p.remaining` (`readNumber_eq`, `readId_eq`), and a value of any type is
the number or identifier of its width: main statement `Value.parse_eq`.  The width of identifiers
is asked to be one of the four that can be read only where the value is a reference.
-/
import HeapDump.Proofs.Bytes.Read
import HeapDump.Value.Basic

namespace HeapDump

namespace Parser

variable (p : Parser)

/-- The next bytes of a parser, whether or not they are there. -/
def ahead (length : Nat) : ByteArray := p.data.extract p.position (p.position + length)

/-- The parser behind some bytes. -/
def behind (length : Nat) : Parser := { p with position := p.position + length }

@[simp] theorem remaining_behind (length : Nat) :
    (p.behind length).remaining = p.remaining - length :=
  (Nat.sub_sub _ _ _).symm

/-- Bytes are there if as many are left. -/
theorem add_le_size_iff {length : Nat} (h : 0 < length) :
    p.position + length ≤ p.data.size ↔ length ≤ p.remaining := by
  show _ ↔ length ≤ p.data.size - p.position
  omega

theorem readNumber_eq (s : Scalar) :
    p.readNumber s = if s.size ≤ p.remaining then (.ok (s.decode (p.ahead s.size)), p.behind s.size)
      else (.error (p.outOfBounds s.size), p) := by
  by_cases h : s.size ≤ p.remaining
  · rw [if_pos h, readNumber, Bytes.readNumberAt, Bytes.readAt,
      if_pos ((p.add_le_size_iff s.size_pos).mpr h)]
    rfl
  · rw [if_neg h, readNumber, Bytes.readNumberAt, Bytes.readAt,
      if_neg fun hle => h ((p.add_le_size_iff s.size_pos).mp hle)]
    rfl

theorem readId_eq {width : Nat} (hwidth : width ∈ [1, 2, 4, 8]) :
    p.readId width = if width ≤ p.remaining then
        (.ok (UInt64.ofNat (BigEndian.ofBytes (p.ahead width))), p.behind width)
      else (.error (p.outOfBounds width), p) := by
  obtain ⟨s, hs⟩ := Scalar.exists_ofIdWidth?_iff.mpr hwidth
  obtain rfl := Scalar.size_of_ofIdWidth? hs
  rw [readId, Bytes.readIdAt, hs]
  by_cases h : s.size ≤ p.remaining
  · simp only [Bytes.readAt, if_pos ((p.add_le_size_iff s.size_pos).mpr h), if_pos h]
    rfl
  · simp only [Bytes.readAt, if_neg fun hle => h ((p.add_le_size_iff s.size_pos).mp hle), if_neg h]
    rfl

/-- No identifier has any other width, and that is said of the position in the run of bytes. -/
theorem readId_of_unsupported {width : Nat} (hwidth : width ∉ [1, 2, 4, 8]) :
    p.readId width = (.error (.unsupportedWidth p.position width), p) := by
  have hnone : Scalar.ofIdWidth? width = none := Scalar.ofIdWidth?_eq_none_iff.mpr hwidth
  rw [readId, Bytes.readIdAt, hnone]

end Parser

/-- **The next value of a type** is what the next bytes spell, if they are there.  The width of
identifiers matters to references only. -/
theorem Value.parse_eq {idSize : Nat} {t : BasicType} (hid : t = .object → idSize ∈ [1, 2, 4, 8])
    (p : Parser) :
    parse t idSize p = if t.size idSize ≤ p.remaining then
        (.ok (ofBits t (BigEndian.ofBytes (p.ahead (t.size idSize)))), p.behind (t.size idSize))
      else (.error (p.outOfBounds (t.size idSize)), p) := by
  by_cases h : t.size idSize ≤ p.remaining
  · rw [if_pos h]
    cases t with
    | object =>
      rw [parse, p.readId_eq (hid rfl)]
      exact congrArg _ (if_pos h)
    | _ =>
      rw [parse, Parser.readNumber_eq]
      exact congrArg _ (if_pos h)
  · rw [if_neg h]
    cases t with
    | object =>
      rw [parse, p.readId_eq (hid rfl)]
      exact congrArg _ (if_neg h)
    | _ =>
      rw [parse, Parser.readNumber_eq]
      exact congrArg _ (if_neg h)

end HeapDump
