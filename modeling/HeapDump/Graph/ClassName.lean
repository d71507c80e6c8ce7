/-
HeapDump/Graph/ClassName.lean

The three spellings of class names and their common form.

A class is named as in source text (`java.lang.String`, `int[]`), with slashes
(`java/lang/String`), or by an array descriptor (`[I`, `[[Ljava/lang/Object;`).
The common form is the first one.  What begins like a descriptor and is none
only has its slashes replaced.

Both the names in a dump and the names that are asked for are brought into the
common form, so a lookup finds a class under each of its spellings.  That the
form is a fixed point of `normalize` is what makes this sound.

The functions work on lists of characters, where proofs are by induction; the
two at the end are their form for strings.
-/
import HeapDump.Value.BasicType

namespace HeapDump

/-- The letter of a type in array descriptors. -/
def BasicType.letter : BasicType → Char
  | object => 'L'
  | boolean => 'Z'
  | char => 'C'
  | float => 'F'
  | double => 'D'
  | byte => 'B'
  | short => 'S'
  | int => 'I'
  | long => 'J'

namespace ClassName

/-- A name with dots for slashes. -/
def dotted (name : List Char) : List Char := name.map fun c => if c = '/' then '.' else c

/-- `n` pairs of brackets. -/
def brackets (n : Nat) : List Char := (List.replicate n ['[', ']']).flatten

/-- The primitive type with a letter. -/
def primitive? (letter : Char) : Option BasicType :=
  BasicType.primitives.find? (·.letter = letter)

/-- The name of a descriptor's element: a primitive type's letter, or a class
between `L` and a semicolon. -/
def element? : List Char → Option (List Char)
  | [] => none
  | [letter] => (primitive? letter).map (·.name.toList)
  -- A lone `L` has been tried as the letter of a primitive type, and is none.
  | 'L' :: rest => if rest.getLast? = some ';' then some (dotted rest.dropLast) else none
  | _ => none

/-- The common form of a name, as characters. -/
def normalizeChars (name : List Char) : List Char :=
  let dimensions := (name.takeWhile (· = '[')).length
  if dimensions = 0 then dotted name
  else
    match element? (name.drop dimensions) with
    | some element => element ++ brackets dimensions
    | none => dotted name

/-- The common form of a class name. -/
def normalize (name : String) : String := String.ofList (normalizeChars name.toList)

/-- Whether a name is that of an array class. -/
def isArray (name : String) : Bool :=
  let chars := name.toList
  chars.head? = some '[' || chars.reverse.take 2 = [']', '[']

end ClassName

end HeapDump
