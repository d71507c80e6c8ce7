/-
HeapDump/Snapshot/Basic.lean

A finished heap dump: the graph of all objects with its tables, and the
questions that can be asked of it.

The questions are lookups in a table followed by a look into an array, so each
has an answer or none.  In a snapshot that was read from records every position
in a table is inside its array, and the second step never fails; this is an
invariant that is proved and not a part of the type.

Positions are given and taken where a question is about a class at hand, and
identifiers where it comes from outside.
-/
import HeapDump.Diagnostic.Log
import HeapDump.Graph.Resolution
import HeapDump.Graph.Stack
import HeapDump.Record.Header

namespace HeapDump

/-- A finished heap dump. -/
structure Snapshot where
  header : Header
  heaps : Std.ExtTreeMap UInt32 Heap
  /-- Classes, instances and roots, each in the order of the file. -/
  graph : Graph
  objects : ObjectTable
  strings : Std.ExtTreeMap ObjectId String
  classIndex : ClassIndex
  frames : Std.ExtTreeMap ObjectId StackFrame
  traces : Std.ExtTreeMap UInt32 StackTrace
  threads : Std.ExtTreeMap UInt32 Thread
  diagnostics : Diagnostics

/-- An object of any kind. -/
inductive HeapObject where
  | ofClass (c : ClassObject)
  | ofInstance (i : Instance)
  deriving DecidableEq

/-- The identifier of an object. -/
def HeapObject.id : HeapObject → ObjectId
  | .ofClass c => c.id
  | .ofInstance i => i.id

/-- The heap that an object belongs to. -/
def HeapObject.heap : HeapObject → UInt32
  | .ofClass c => c.heap
  | .ofInstance i => i.heap

namespace Snapshot

/-! ### Objects -/

/-- The classes, in the order of the file. -/
def classes (s : Snapshot) : Array ClassObject := s.graph.classes

/-- The instances, in the order of the file. -/
def instances (s : Snapshot) : Array Instance := s.graph.instances

/-- The roots, in the order of the file. -/
def roots (s : Snapshot) : Array GcRoot := s.graph.roots

/-- The object at a position. -/
def get? (s : Snapshot) : Target → Option HeapObject
  | .classAt i => s.classes[i]?.map .ofClass
  | .instanceAt i => s.instances[i]?.map .ofInstance

/-- The position of the object with an identifier. -/
def target? (s : Snapshot) (id : ObjectId) : Option Target := s.objects[id]?

/-- The position of the class with an identifier. -/
def classPosition? (s : Snapshot) (id : ObjectId) : Option Nat :=
  (s.target? id).bind Target.class?

/-- The class with an identifier. -/
def class? (s : Snapshot) (id : ObjectId) : Option ClassObject :=
  (s.classPosition? id).bind (s.classes[·]?)

/-- The instance with an identifier. -/
def instance? (s : Snapshot) (id : ObjectId) : Option Instance :=
  ((s.target? id).bind Target.instance?).bind (s.instances[·]?)

/-- The object that a reference was found to mean. -/
def resolve? (s : Snapshot) (r : Reference) : Option HeapObject := r.target?.bind s.get?

/-- The class of an instance, if it was found. -/
def classOf? (s : Snapshot) (i : Instance) : Option ClassObject :=
  i.classRef.class?.bind (s.classes[·]?)

/-! ### Classes -/

/-- The classes of a name in any spelling, in the order of the file. -/
def findClasses (s : Snapshot) (name : String) : List ClassObject :=
  (s.classIndex.find name).toList.filterMap (s.classes[·]?)

/-- The first class of a name in any spelling. -/
def findClass? (s : Snapshot) (name : String) : Option ClassObject := (s.findClasses name).head?

/-- The ancestors of the class at a position, nearest first. -/
def superclasses (s : Snapshot) (position : Nat) : List ClassObject :=
  -- The chain begins with the class itself, which is left out.
  (superclassChain s.classes position).tail.filterMap (s.classes[·]?)

/-- The instances of the class at a position and of its subclasses. -/
def instancesOf (s : Snapshot) (position : Nat) : List Instance :=
  (HeapDump.instancesOf s.classes position).filterMap (s.instances[·]?)

/-! ### Heaps -/

/-- The first heap of a name, in order of identifiers. -/
def heapNamed? (s : Snapshot) (name : String) : Option Heap :=
  s.heaps.values.find? (·.name = name)

/-- The class with an identifier, if it belongs to a heap. -/
def classIn? (s : Snapshot) (h : Heap) (id : ObjectId) : Option ClassObject :=
  (s.class? id).filter (·.heap = h.id)

/-- The instance with an identifier, if it belongs to a heap. -/
def instanceIn? (s : Snapshot) (h : Heap) (id : ObjectId) : Option Instance :=
  (s.instance? id).filter (·.heap = h.id)

/-- The classes that belong to a heap. -/
def classesIn (s : Snapshot) (h : Heap) : List ClassObject :=
  h.classes.toList.filterMap (s.classes[·]?)

/-- The instances that belong to a heap. -/
def instancesIn (s : Snapshot) (h : Heap) : List Instance :=
  h.instances.toList.filterMap (s.instances[·]?)

/-- The roots that belong to a heap. -/
def rootsIn (s : Snapshot) (h : Heap) : List GcRoot :=
  h.roots.toList.filterMap (s.roots[·]?)

end Snapshot

end HeapDump
