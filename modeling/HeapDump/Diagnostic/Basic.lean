/-
HeapDump/Diagnostic/Basic.lean

What is odd about a dump without making it unreadable.

A diagnostic is a cause with the place and the object that it is about.
Severity, category and wording are functions of the cause, so two diagnostics
differ only if what they tell differs.  A property of diagnostics is therefore
stated over causes, and says nothing of wording; the wording is fixed here, once
for each cause.

A cause holds what its wording needs: the names of classes and fields as they
were known when it was noted, and identifiers and counts as numbers.
-/
import HeapDump.Bytes.Read
import HeapDump.Record.Tag
import HeapDump.Text.Hex

namespace HeapDump

/-- How much a diagnostic matters. -/
inductive Severity where
  | info
  | warning
  | error
  deriving DecidableEq, Repr

/-- The label of a severity. -/
def Severity.label : Severity → String
  | info => "INFO"
  | warning => "WARN"
  | error => "ERROR"

/-- What a diagnostic is about. -/
inductive Category where
  | records | heaps | classes | instances | roots | references | general
  deriving DecidableEq, Repr

/-- The name of a category. -/
def Category.name : Category → String
  | records => "Record"
  | heaps => "Heap"
  | classes => "Class"
  | instances => "Instance"
  | roots => "Root"
  | references => "Reference"
  | general => "General"

/-- Where a reference is held. -/
inductive Holder where
  | superclass (className : String)
  | classLoader (className : String)
  | constant (index : UInt16) (className : String)
  | staticField (name className : String)
  | classOfInstance (id : ObjectId)
  | classOfArray (id : ObjectId)
  | element (index : Nat) (array : ObjectId)
  | field (name : String) (id : ObjectId)
  | root (kind : RootKind)
  deriving DecidableEq, Repr

/-- An object identifier as diagnostics write it. -/
def objectText (id : ObjectId) : String := "0x" ++ Hex.text id.toNat

/-- The wording of the place where a reference is held. -/
def Holder.text : Holder → String
  | superclass className => s!"superclass of {className}"
  | classLoader className => s!"class loader of {className}"
  | constant index className => s!"constant pool entry {index.toNat} of {className}"
  | staticField name className => s!"static field {name} of {className}"
  | classOfInstance id => s!"class of instance {objectText id}"
  | classOfArray id => s!"class of array {objectText id}"
  | element index array => s!"element {index} of array {objectText array}"
  | field name id => s!"field {name} of instance {objectText id}"
  | root kind => s!"{kind.text} root"

/-- Why there is a diagnostic. -/
inductive Cause where
  /-- A record with an unknown tag was passed over. -/
  | skippedRecord (tag : UInt8) (length : Nat)
  /-- A class has the identifier of an object that is already there. -/
  | duplicateClass (id : ObjectId)
  /-- An instance has the identifier of an object that is already there. -/
  | duplicateInstance (id : ObjectId)
  /-- The name of a heap is the identifier of no string. -/
  | missingHeapName (nameId : ObjectId) (heap : UInt32) (fallback : String)
  | unnamedClass (id : ObjectId)
  /-- A thread refers to a stack trace that the dump does not have. -/
  | missingStackTrace (thread trace : UInt32)
  | noHeapDump
  /-- No object has the identifier that a reference holds. -/
  | unresolved (id : ObjectId) (holder : Holder)
  /-- A reference that must be to a class is to an instance. -/
  | notAClass (id : ObjectId) (holder : Holder)
  /-- The data of an instance ends before a field of the class `declaring`. -/
  | shortFieldData (id : ObjectId) (size : Nat) (field declaring : String)
  /-- The data of an instance goes on behind its last field. -/
  | excessFieldData (id : ObjectId) (rest : Nat)
  | cyclicSuperclasses (className : String)
  /-- Anything else that a caller wants to be kept. -/
  | other (severity : Severity) (category : Category) (message : String)
  deriving DecidableEq, Repr

namespace Cause

/-- How much a cause matters. -/
def severity : Cause → Severity
  | noHeapDump => .info
  | cyclicSuperclasses _ => .error
  | other severity _ _ => severity
  | skippedRecord .. | duplicateClass _ | duplicateInstance _ | missingHeapName ..
  | unnamedClass _ | missingStackTrace .. | unresolved .. | notAClass .. | shortFieldData ..
  | excessFieldData .. => .warning

/-- What a cause is about. -/
def category : Cause → Category
  | skippedRecord .. => .records
  | duplicateClass _ | unnamedClass _ | cyclicSuperclasses _ => .classes
  | duplicateInstance _ | shortFieldData .. | excessFieldData .. => .instances
  | missingHeapName .. => .heaps
  | missingStackTrace .. => .roots
  | noHeapDump => .general
  | unresolved .. | notAClass .. => .references
  | other _ category _ => category

/-- The wording of a second definition of an object. -/
def duplicateText (id : ObjectId) : String :=
  s!"duplicate object id {objectText id}, keeping the first definition"

/-- The wording of a cause. -/
def message : Cause → String
  | skippedRecord tag length =>
    let digits := Hex.padded 2 tag.toNat
    s!"skipped record with unknown tag 0x{digits} ({length} bytes)"
  -- These two have one wording and differ in the category.
  | duplicateClass id | duplicateInstance id => duplicateText id
  | missingHeapName nameId heap fallback =>
    s!"name string {objectText nameId} of heap {heap.toNat} is missing, using '{fallback}'"
  | unnamedClass id => s!"class {objectText id} has no name"
  | missingStackTrace thread trace =>
    s!"thread {thread.toNat} refers to missing stack trace {trace.toNat}"
  | noHeapDump => "dump contains no heap dump records"
  | unresolved id holder => s!"unresolved reference {objectText id} from {holder.text}"
  | notAClass id holder => s!"{objectText id} is an instance, not a class, in {holder.text}"
  | shortFieldData id size field declaring =>
    s!"instance {objectText id} has {size} bytes of field data, too few for field {field} of {declaring}"
  | excessFieldData id rest =>
    s!"instance {objectText id} has {rest} bytes of field data beyond its field layout"
  | cyclicSuperclasses className => s!"superclass chain of {className} is cyclic"
  | other _ _ message => message

end Cause

/-- A cause with the place in the file and the object that it is about. -/
structure Diagnostic where
  cause : Cause
  offset : Option Nat := none
  object : Option ObjectId := none
  deriving DecidableEq, Repr

namespace Diagnostic

/-- How much a diagnostic matters. -/
def severity (d : Diagnostic) : Severity := d.cause.severity

/-- What a diagnostic is about. -/
def category (d : Diagnostic) : Category := d.cause.category

/-- The wording of a diagnostic. -/
def message (d : Diagnostic) : String := d.cause.message

/-- The line that shows a diagnostic. -/
def text (d : Diagnostic) : String :=
  let place := match d.offset with
    | some offset => " (offset: 0x" ++ Hex.padded 8 offset ++ ")"
    | none => ""
  let object := match d.object with
    | some id => s!" (object: {objectText id})"
    | none => ""
  s!"[{d.severity.label}] {d.category.name}: {d.message}{place}{object}"

end Diagnostic

end HeapDump
