/-
HeapDump/Text/Utf8.lean

Reading text from bytes that need not be valid UTF-8.

A machine walks the bytes and holds what it has seen of the character it is
in.  A byte that cannot continue that character ends it: the bytes held so far
become one replacement character, and the byte is looked at afresh as a first
byte.  So every longest run of bytes that begins some character without
completing it is replaced once, and a byte that begins no character at all is
replaced on its own.

The ranges in a state are those of the next byte.  They are narrower than usual
after four first bytes, where the wider range would spell a number too long or
one that is no character.  So the machine never completes a number that is none,
and need not check one.
-/

namespace HeapDump.Utf8

/-- The character that stands for bytes that are no text. -/
def replacement : Char := '\ufffd'

/-- Where the machine stands between two bytes. -/
inductive State where
  /-- Between characters. -/
  | between
  /-- Inside a character: the bits of its code point so far, the number of bytes
  still owed (at least one), and the least and the greatest byte that may come
  next. -/
  | inside (code owed : Nat) (least greatest : UInt8)
  deriving DecidableEq, Repr

/-- What a byte does as the first byte of a character: the text that is
finished with it and the state after it. -/
def first (b : UInt8) : List Char × State :=
  if b < 0x80 then ([Char.ofNat b.toNat], .between)
  -- Bytes that continue a character, and two that could only begin one spelled too long.
  else if b < 0xC2 then ([replacement], .between)
  else if b < 0xE0 then ([], .inside (b.toNat - 0xC0) 1 0x80 0xBF)
  else if b = 0xE0 then ([], .inside 0 2 0xA0 0xBF)
  -- Above this range lie the surrogates.
  else if b = 0xED then ([], .inside 0xD 2 0x80 0x9F)
  else if b < 0xF0 then ([], .inside (b.toNat - 0xE0) 2 0x80 0xBF)
  else if b = 0xF0 then ([], .inside 0 3 0x90 0xBF)
  else if b < 0xF4 then ([], .inside (b.toNat - 0xF0) 3 0x80 0xBF)
  else if b = 0xF4 then ([], .inside 4 3 0x80 0x8F)
  else ([replacement], .between)

/-- What the next byte does: the text that is finished with it and the state
after it. -/
def step (s : State) (b : UInt8) : List Char × State :=
  match s with
  | .between => first b
  | .inside code owed least greatest =>
    if least ≤ b ∧ b ≤ greatest then
      let code := code * 64 + (b.toNat - 0x80)
      if owed ≤ 1 then ([Char.ofNat code], .between)
      else ([], .inside code (owed - 1) 0x80 0xBF)
    else
      -- The byte is not lost: it may begin a character of its own.
      (replacement :: (first b).1, (first b).2)

/-- What the end of the bytes leaves of an unfinished character. -/
def finish : State → List Char
  | .between => []
  | .inside .. => [replacement]

/-- The machine on all bytes, behind the text `read` so far. -/
def run (read : String) (s : State) : List UInt8 → String
  | [] => (finish s).foldl String.push read
  | b :: rest => run ((step s b).1.foldl String.push read) (step s b).2 rest

/-- The text of `bytes`; what is not UTF-8 in them is replaced. -/
def decodeLossy (bytes : ByteArray) : String := run "" .between bytes.data.toList

end HeapDump.Utf8
