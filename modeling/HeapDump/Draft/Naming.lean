/-
HeapDump/Draft/Naming.lean

Putting names in place of identifiers, once all records have been read.

Names are those of the final string table, wherever its records stood in the
file: a class may be named by a string that comes after it, and of two strings
with one identifier the later one names everything.  A name that is missing is
replaced by one made from the identifier, or left out, and for heaps and classes
this is noted.

The notes are made in a fixed order: heaps by their identifiers, then classes and
roots in the order of the file, then the note that there is no heap dump at all.
References are still identifiers afterwards, `Reference.unresolved`.
-/
import HeapDump.Draft.Basic
import HeapDump.Graph.Stack

namespace HeapDump

namespace Draft

/-! ### Names -/

/-- The name of a heap, given the identifier of its name. -/
def heapName (d : Draft) (id : UInt32) (nameId : Option ObjectId) : String :=
  (nameId.bind (d.strings[·]?)).getD (Heap.defaultName id)

/-- The name of a class, if the dump has one. -/
def className? (d : Draft) (id : ObjectId) : Option String :=
  d.loads[id]?.bind fun load => d.strings[load.nameId]?

/-- The name of a class; one without a name is called by its identifier. -/
def className (d : Draft) (id : ObjectId) : String :=
  (d.className? id).getD s!"<unnamed class {objectText id}>"

/-- The name of a field; one without a name is called by the identifier of its name. -/
def fieldName (d : Draft) (nameId : ObjectId) : String :=
  d.strings[nameId]?.getD s!"<unnamed field {objectText nameId}>"

/-! ### Named entities -/

/-- The heap with an identifier. -/
def heap (d : Draft) (id : UInt32) (h : HeapDraft) : Heap :=
  ⟨id, d.heapName id h.nameId, h.classes, h.instances, h.roots⟩

/-- The stack frame of a record; a missing name is left empty. -/
def stackFrame (d : Draft) (f : StackFrameRecord) : StackFrame :=
  let name (id : ObjectId) := d.strings[id]?.getD ""
  { id := f.frameId, method := name f.methodNameId, signature := name f.signatureId
    sourceFile := name f.sourceFileId, classSerial := f.classSerial
    line := .ofInt32 f.line }

/-- The thread with a serial number. -/
def thread (d : Draft) (serial : UInt32) (t : ThreadDraft) : Thread :=
  let name (id : ThreadStart → ObjectId) := t.start.bind fun start => d.strings[id start]?
  { serial, id := t.id, stackSerial := t.stackSerial
    name := name (·.nameId), groupName := name (·.groupNameId)
    parentGroupName := name (·.parentGroupNameId) }

/-- A class before its references have been looked up. -/
def classObject (d : Draft) (c : Located ClassDump) : ClassObject :=
  let dump := c.value
  { id := dump.classId, name := d.className dump.classId, heap := c.heap, offset := c.offset
    serial := d.loads[dump.classId]?.map (·.serial), stackSerial := dump.stackSerial
    superclass := .ofId dump.superId, classLoader := .ofId dump.loaderId
    signersId := dump.signersId, protectionDomainId := dump.protectionDomainId
    instanceSize := dump.instanceSize
    constants := dump.constants.map fun (index, v) => (index, v.map .ofId)
    statics := dump.statics.map fun s => ⟨s.nameId, d.fieldName s.nameId, s.value.map .ofId⟩
    fields := dump.fields.map fun f => ⟨f.nameId, d.fieldName f.nameId, f.type⟩ }

/-- An instance before its references have been looked up. -/
def instanceObject (o : Located ObjectDump) : Instance :=
  match o.value with
  | .plain dump =>
    { id := dump.objectId, heap := o.heap, offset := o.offset, classRef := .ofId dump.classId
      stackSerial := dump.stackSerial, contents := .object dump.data [] }
  | .references dump =>
    { id := dump.objectId, heap := o.heap, offset := o.offset, classRef := .ofId dump.classId
      stackSerial := dump.stackSerial, contents := .objectArray (dump.elements.map .ofId) }
  | .primitives dump =>
    -- A primitive array names no class. Its class is found by name when it is resolved.
    { id := dump.objectId, heap := o.heap, offset := o.offset, classRef := .null
      stackSerial := dump.stackSerial
      contents := .primitiveArray dump.elementType dump.length dump.data }

/-- A root before its reference has been looked up. -/
def gcRoot (r : Located RootRecord) : GcRoot :=
  { kind := r.value.kind, id := r.value.objectId, target := .ofId r.value.objectId
    heap := r.heap, threadSerial := r.value.threadSerial, frame := r.value.frame
    jniRef := r.value.jniRef, offset := r.offset }

/-- The graph of all objects, with names and identifiers. -/
def graph (d : Draft) : Graph :=
  ⟨d.classes.map d.classObject, d.instances.map instanceObject, d.roots.map gcRoot⟩

/-! ### What is missing -/

/-- Heaps whose name is the identifier of no string, in order of their identifiers. -/
def unnamedHeaps (d : Draft) : List Diagnostic :=
  d.heaps.toList.filterMap fun (id, h) =>
    match h.nameId with
    | some nameId =>
      if d.strings.contains nameId then none
      else some
        { cause := .missingHeapName nameId id (Heap.defaultName id), object := some nameId }
    | none => none

/-- Classes without a name, in the order of the file. -/
def unnamedClasses (d : Draft) : List Diagnostic :=
  d.classes.toList.filterMap fun c =>
    let id := c.value.classId
    match d.className? id with
    | some _ => none
    | none => some { cause := .unnamedClass id, offset := some c.offset, object := some id }

/-- Roots of threads whose stack trace is not in the dump, in the order of the file.
It is the thread that says which stack trace that is. -/
def missingTraces (d : Draft) : List Diagnostic :=
  d.roots.toList.filterMap fun r =>
    match r.value.kind, r.value.threadSerial with
    | .threadObject, some serial =>
      -- Several roots of one thread are judged alike, by what was told of the thread last.
      match d.threads[serial]? with
      | some t =>
        -- Serial number zero says that there is no trace.
        if t.stackSerial = 0 ∨ d.traces.contains t.stackSerial then none
        else some
          { cause := .missingStackTrace serial t.stackSerial, offset := some r.offset
            object := some r.value.objectId }
      | none => none
    | _, _ => none

/-- The diagnostic of a dump without any heap dump. -/
def missingHeapDump (d : Draft) : List Diagnostic :=
  if d.heapDumps = 0 then [{ cause := .noHeapDump }] else []

/-- All that was found missing while names were put in. -/
def namingNotes (d : Draft) : List Diagnostic :=
  d.unnamedHeaps ++ d.unnamedClasses ++ d.missingTraces ++ d.missingHeapDump

end Draft

end HeapDump
