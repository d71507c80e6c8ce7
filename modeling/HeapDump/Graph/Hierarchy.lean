/-
HeapDump/Graph/Hierarchy.lean

The hierarchy of classes: upwards along superclasses, and downwards along the
lists of subclasses and instances that are its inverse.

A damaged dump may have classes that are their own ancestors.  A chain upwards
is cut after one class more than there are, so it is that long exactly if it
never ends; a walk downwards visits as many classes as there are at most.  The
second bound cuts nothing off where no class is its own ancestor: each class is
then below the first one in one way only, and is visited once.

Upwards a class has one successor, so the chain is a list.  Downwards the walk
keeps a stack of the classes still to visit.  Both are structural in their fuel.
-/
import HeapDump.Graph.Object

namespace HeapDump

/-- The classes from position `i` upwards, at most `fuel` of them. -/
def superclassesFrom (classes : Array ClassObject) : Nat → Nat → List Nat
  | 0, _ => []
  | fuel + 1, i =>
    match classes[i]?.bind (·.superclass.class?) with
    | some j => i :: superclassesFrom classes fuel j
    | none => [i]

/-- The class at position `i` and its ancestors, nearest first. -/
def superclassChain (classes : Array ClassObject) (i : Nat) : List Nat :=
  superclassesFrom classes (classes.size + 1) i

/-- The instances found by a walk over the classes on the stack `pending`, at most
`fuel` of them, behind those found so far.  The subclasses of a class come on top
of the stack, the last one uppermost. -/
def instancesBelow (classes : Array ClassObject) : Nat → List Nat → Array Nat → Array Nat
  | 0, _, found => found
  | _, [], found => found
  -- Depth first, with no memory of the classes visited. The bound alone ends it on a cycle.
  | fuel + 1, i :: pending, found =>
    match classes[i]? with
    | some c =>
      instancesBelow classes fuel (c.subclasses.reverse ++ pending) (found ++ c.instances)
    -- A position that no class has counts as a visit.
    | none => instancesBelow classes fuel pending found

/-- The instances of the class at position `i` and of its subclasses. -/
def instancesOf (classes : Array ClassObject) (i : Nat) : List Nat :=
  (instancesBelow classes classes.size [i] #[]).toList

/-- For each of `n` groups the positions of its members in increasing order; `keys`
names the group of each position, if it has one. -/
def positionsByGroup (n : Nat) (keys : List (Option Nat)) : Array (Array Nat) :=
  keys.zipIdx.foldl (fun groups (key, position) =>
    match key with
    | some group => groups.modify group (·.push position)
    | none => groups) (Array.replicate n #[])

/-- Fills in the lists of subclasses and instances. -/
def Graph.link (g : Graph) : Graph :=
  let n := g.classes.size
  let subclasses := positionsByGroup n (g.classes.toList.map (·.superclass.class?))
  let instances := positionsByGroup n (g.instances.toList.map (·.classRef.class?))
  { g with
    classes := g.classes.mapIdx fun i c =>
      { c with
        subclasses := (subclasses.getD i #[]).toList
        instances := (instances.getD i #[]).toList } }

end HeapDump
