/-
HeapDump/Bytes/Parser.lean

A position in a run of bytes that lies somewhere in a larger file.

Every operation gives an answer or an error together with the parser after it;
one that fails leaves the position where it was.  Errors name the place in the
file and not the place in the run, since the run is mostly a window or the data
of one object, and a reader of the error has only the file.

A transaction is a list of operations that happen all or not at all.  `Op` and
`Op.run` make sequences of operations values, transactions in transactions
included, so that one induction covers them all, and so that two readers can be
compared on the same sequence.
-/
import HeapDump.Bytes.Read

namespace HeapDump

/-- A run of bytes, the place of its first byte in the file, and a position in it. -/
structure Parser where
  data : ByteArray
  base : Nat := 0
  position : Nat := 0

namespace Parser

/-! ### Where a parser stands -/

/-- The number of bytes of the run. -/
def length (p : Parser) : Nat := p.data.size

/-- Whether the run has no bytes at all. -/
def isEmpty (p : Parser) : Bool := p.length = 0

/-- The number of bytes from the position on. -/
def remaining (p : Parser) : Nat := p.length - p.position

/-- Whether there is a byte at the position. -/
def hasMore (p : Parser) : Bool := p.position < p.length

/-- The position as a place in the file. -/
def absolutePosition (p : Parser) : Nat := p.base + p.position

/-- The error for `length` bytes that are not there from the position on. -/
def outOfBounds (p : Parser) (length : Nat) : Error :=
  .outOfBounds p.absolutePosition length (p.base + p.length)

/-! ### Operations -/

/-- The next `length` bytes. -/
def readBytes (length : Nat) (p : Parser) : Except Error ByteArray × Parser :=
  if length ≤ p.remaining then
    (.ok (p.data.extract p.position (p.position + length)),
      { p with position := p.position + length })
  else (.error (p.outOfBounds length), p)

/-- The next number of kind `s`. -/
def readNumber (s : Scalar) (p : Parser) : Except Error s.Carrier × Parser :=
  match Bytes.readNumberAt s p.data p.position with
  | .ok (value, next) => (.ok value, { p with position := next })
  | .error _ => (.error (p.outOfBounds s.size), p)

/-- The next identifier of `width` bytes. -/
def readId (width : Nat) (p : Parser) : Except Error ObjectId × Parser :=
  match Bytes.readIdAt p.data p.position width with
  | .ok (id, next) => (.ok id, { p with position := next })
  -- Only the range error is put in terms of the file. A width that no identifier can have is passed
  -- on as it is, and so with its place in the run.
  | .error (.outOfBounds ..) => (.error (p.outOfBounds width), p)
  | .error e => (.error e, p)

/-- Moves to a position counted from the first byte; the end is allowed. -/
def seek (position : Nat) (p : Parser) : Except Error Unit × Parser :=
  if position ≤ p.length then (.ok (), { p with position })
  -- The number of bytes missing is counted from the position, not from the end of the run.
  else (.error (p.outOfBounds (position - p.position)), p)

/-- Skips `step` bytes. -/
def advance (step : Nat) (p : Parser) : Except Error Unit × Parser :=
  if step ≤ p.remaining then (.ok (), { p with position := p.position + step })
  else (.error (p.outOfBounds step), p)

/-- The byte at the position, which stays. -/
def peek (p : Parser) : Except Error UInt8 × Parser :=
  match p.data[p.position]? with
  | some b => (.ok b, p)
  | none => (.error (p.outOfBounds 1), p)

/-- Takes the position back if `act` fails. -/
def transaction (act : Parser → Except Error α × Parser) (p : Parser) :
    Except Error α × Parser :=
  match act p with
  | (.ok value, after) => (.ok value, after)
  -- Nothing but the position changes, so putting it back undoes all that `act` did.
  | (.error e, after) => (.error e, { after with position := p.position })

/-! ### Operations as values -/

/-- An operation on a parser. -/
inductive Op where
  | readNumber (s : Scalar)
  | readId (width : Nat)
  | readBytes (length : Nat)
  | seek (position : Nat)
  | advance (step : Nat)
  | peek
  | transaction (ops : List Op)

/-- What an operation answers. -/
inductive Answer where
  | number (s : Scalar) (value : s.Carrier)
  | id (value : ObjectId)
  | bytes (value : ByteArray)
  | done
  | all (answers : List Answer)

/-- An operation's result with its answer put into another form. -/
def answering (f : α → β) : Except Error α × Parser → Except Error β × Parser
  | (result, p) => (result.map f, p)

mutual

/-- Runs one operation. -/
def Op.run : Op → Parser → Except Error Answer × Parser
  | .readNumber s, p => answering (.number s) (p.readNumber s)
  | .readId width, p => answering .id (p.readId width)
  | .readBytes length, p => answering .bytes (p.readBytes length)
  | .seek position, p => answering (fun _ => .done) (p.seek position)
  | .advance step, p => answering (fun _ => .done) (p.advance step)
  | .peek, p => answering (.number .uint8) p.peek
  | .transaction ops, p => answering .all (p.transaction (Op.runAll ops))

/-- Runs operations one after the other until one fails. -/
def Op.runAll : List Op → Parser → Except Error (List Answer) × Parser
  | [], p => (.ok [], p)
  | op :: ops, p =>
    match op.run p with
    | (.ok answer, p) => answering (answer :: ·) (Op.runAll ops p)
    | (.error e, p) => (.error e, p)

end

end Parser

end HeapDump
