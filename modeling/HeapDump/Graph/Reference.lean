/-
HeapDump/Graph/Reference.lean

References between objects, before and after they have been looked up.

Zero is the null reference and never looked up; every other identifier begins as
`unresolved` and ends as `resolved` or `unknown`.  The identifier is kept in all
of these, so a reference can be written down again, and compared between two
readings of a dump that put the objects at other positions.

A target is a position among the classes or among the instances.  An array is an
instance, so two cases are all there are.
-/
import HeapDump.Bytes.Read
import HeapDump.Text.Hex

namespace HeapDump

/-- An object by its position: among the classes, or among the instances. -/
inductive Target where
  | classAt (index : Nat)
  | instanceAt (index : Nat)
  deriving DecidableEq, Repr

namespace Target

/-- The position among the classes. -/
def class? : Target → Option Nat
  | classAt i => some i
  | instanceAt _ => none

/-- The position among the instances. -/
def instance? : Target → Option Nat
  | classAt _ => none
  | instanceAt i => some i

end Target

/-- A reference to an object. -/
inductive Reference where
  | null
  /-- Not yet looked up. -/
  | unresolved (id : ObjectId)
  /-- Looked up and found. -/
  | resolved (id : ObjectId) (target : Target)
  /-- Looked up and not found. -/
  | unknown (id : ObjectId)
  deriving DecidableEq, Repr

namespace Reference

/-- The reference that an identifier stands for. -/
def ofId (id : ObjectId) : Reference := if id = 0 then null else unresolved id

/-- The identifier of a reference. -/
def id : Reference → ObjectId
  | null => 0
  | unresolved id | resolved id _ | unknown id => id

/-- The object that a reference was found to mean. -/
def target? : Reference → Option Target
  | resolved _ target => some target
  | _ => none

/-- The class that a reference was found to mean. -/
def class? (r : Reference) : Option Nat := r.target?.bind Target.class?

/-- The instance that a reference was found to mean. -/
def instance? (r : Reference) : Option Nat := r.target?.bind Target.instance?

/-- Whether a reference refers to nothing. -/
def isNull (r : Reference) : Bool := r = null

/-- Whether a reference was found. -/
def isResolved (r : Reference) : Bool := r.target?.isSome

/-- The text of a reference. -/
def text (r : Reference) : String :=
  let digits := Hex.text r.id.toNat
  match r with
  | null => "null"
  | unknown _ => s!"0x{digits} (unknown)"
  | unresolved _ | resolved .. => s!"0x{digits}"

end Reference

end HeapDump
