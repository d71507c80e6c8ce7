/-
HeapDump/Proofs/Draft/Heaps.lean

The heaps of a draft are its objects and roots, grouped by heap.

The list of a heap holds the positions of exactly those items whose heap it is, in
increasing order, and a heap is there if it was named or something belongs to it
(`Draft.Grouped`).  This is an invariant of reading: it holds of the empty draft, and
each record preserves it (`Grouped.push`), since a record adds to one heap at most, at
the end of one list.

What a record adds is the same for the three lists: a position that is the length of
the list of all items, at the end of the list of the current heap
(`Draft.toList_entry_take`).  The positions of a list with one more item are those of
the list, and the last one if the item belongs to the heap
(`List.findIdxs_append`), so both sides grow in the same way.
-/
import HeapDump.Proofs.Draft.Objects
import Mathlib.Data.List.Basic

namespace HeapDump

namespace Draft

/-- What belongs to a heap, nothing if the heap is not there. -/
def entry (d : Draft) (k : UInt32) : HeapDraft := d.heaps.getD k {}

theorem Untouched.entry {d d' : Draft} (h : d.Untouched d') (k : UInt32) :
    d'.entry k = d.entry k := by
  rw [Draft.entry, Draft.entry, h.heaps]

section

variable (d : Draft) (k : UInt32)

theorem entry_inHeap (f : HeapDraft → HeapDraft) :
    (d.inHeap f).entry k = if d.currentHeap = k then f (d.entry k) else d.entry k := by
  rw [entry, inHeap, Std.ExtTreeMap.getD_alter]
  by_cases hk : d.currentHeap = k
  · subst hk
    simp [entry, Std.ExtTreeMap.getD_eq_getD_getElem?]
  · simp [hk, entry]

theorem mem_heaps_inHeap (f : HeapDraft → HeapDraft) :
    k ∈ (d.inHeap f).heaps ↔ k ∈ d.heaps ∨ d.currentHeap = k := by
  rw [inHeap, Std.ExtTreeMap.mem_alter]
  by_cases hk : d.currentHeap = k <;> simp [hk]

/-! ### One sub-record more -/

/-- What a heap becomes by a sub-record that belongs to it. -/
def gain (record : HeapRecord) (h : HeapDraft) : HeapDraft :=
  match record with
  | .heapInfo _ nameId => { h with nameId := some nameId }
  | .root _ => { h with roots := h.roots.push d.roots.size }
  | .classDump _ => { h with classes := h.classes.push d.classes.size }
  | .object _ => { h with instances := h.instances.push d.instances.size }

variable (record : HeapRecord) (offset : Nat)

/-- A sub-record belongs to the heap that is current behind it. -/
theorem heaps_take :
    (d.take record offset).heaps
      = ({ d with currentHeap := (d.take record offset).currentHeap }.inHeap
          (d.gain record)).heaps := by
  cases record with
  | root root =>
    have same := d.untouched_noteThread root
    simp only [take, addRoot, inHeap, same.heaps, same.currentHeap, same.roots]
    rfl
  | _ => rfl

theorem entry_take :
    (d.take record offset).entry k
      = if record.heapId?.getD d.currentHeap = k then d.gain record (d.entry k)
        else d.entry k := by
  rw [entry, heaps_take, ← currentHeap_take d record offset]
  exact entry_inHeap { d with currentHeap := (d.take record offset).currentHeap } k _

/-- The list that a heap has of one kind of item gains the next position if the sub-record is
an item of this kind, which `pick?` tells, and if the heap is the current one. -/
theorem toList_entry_take (list : HeapDraft → Array Nat) (pick? : HeapRecord → Option α)
    (next : Nat)
    (hgain : ∀ h, (list (d.gain record h)).toList
      = (list h).toList ++ (pick? record).toList.map fun _ => next)
    (hheap : ∀ item ∈ pick? record, record.heapId? = none) :
    (list ((d.take record offset).entry k)).toList
      = (list (d.entry k)).toList
        ++ ((pick? record).map (d.locate offset)).toList.findIdxs (·.heap = k) next := by
  rw [entry_take]
  cases hpick : pick? record with
  | none =>
    -- the list stays, whichever heap the sub-record belongs to
    split <;> simp [hgain, hpick]
  | some item =>
    -- an item names no heap, so it belongs to the one that is current
    rw [hheap item hpick, Option.getD_none]
    by_cases hk : d.currentHeap = k <;> simp [hk, hgain, hpick, locate]

theorem classes_entry_take :
    ((d.take record offset).entry k).classes.toList
      = (d.entry k).classes.toList
        ++ (record.classDump?.map (d.locate offset)).toList.findIdxs (·.heap = k)
          d.classes.size := by
  refine d.toList_entry_take k record offset (·.classes) (·.classDump?) _ (fun h => ?_) ?_ <;>
    cases record <;> simp [gain, HeapRecord.classDump?, HeapRecord.heapId?]

theorem instances_entry_take :
    ((d.take record offset).entry k).instances.toList
      = (d.entry k).instances.toList
        ++ (record.objectDump?.map (d.locate offset)).toList.findIdxs (·.heap = k)
          d.instances.size := by
  refine d.toList_entry_take k record offset (·.instances) (·.objectDump?) _ (fun h => ?_) ?_ <;>
    cases record <;> simp [gain, HeapRecord.objectDump?, HeapRecord.heapId?]

theorem roots_entry_take :
    ((d.take record offset).entry k).roots.toList
      = (d.entry k).roots.toList
        ++ (record.root?.map (d.locate offset)).toList.findIdxs (·.heap = k)
          d.roots.size := by
  refine d.toList_entry_take k record offset (·.roots) (·.root?) _ (fun h => ?_) ?_ <;>
    cases record <;> simp [gain, HeapRecord.root?, HeapRecord.heapId?]

/-- What is taken in brings the heap that is current then into being. -/
theorem mem_heaps_take :
    k ∈ (d.take record offset).heaps
      ↔ k ∈ d.heaps ∨ (d.take record offset).currentHeap = k := by
  rw [heaps_take]
  exact mem_heaps_inHeap { d with currentHeap := (d.take record offset).currentHeap } k _

/-- The heap that is current behind a sub-record is named by it or takes its item in. -/
theorem currentHeap_take_eq_iff :
    (d.take record offset).currentHeap = k ↔ record.heapId? = some k
      ∨ (∃ c ∈ (record.classDump?.map (d.locate offset)).toList, c.heap = k)
      ∨ (∃ o ∈ (record.objectDump?.map (d.locate offset)).toList, o.heap = k)
      ∨ ∃ r ∈ (record.root?.map (d.locate offset)).toList, r.heap = k := by
  rw [currentHeap_take]
  cases record <;>
    simp [HeapRecord.heapId?, HeapRecord.classDump?, HeapRecord.objectDump?, HeapRecord.root?,
      locate]

end

/-! ### All records -/

/-- The heaps of a draft group its items, and are the heaps that records have named and
those that something belongs to. -/
structure Grouped (d : Draft) (records : List Record) : Prop where
  classes : ∀ k, (d.entry k).classes.toList = d.classes.toList.findIdxs (·.heap = k)
  instances : ∀ k, (d.entry k).instances.toList = d.instances.toList.findIdxs (·.heap = k)
  roots : ∀ k, (d.entry k).roots.toList = d.roots.toList.findIdxs (·.heap = k)
  mem_heaps_iff : ∀ k, k ∈ d.heaps ↔ (∃ r ∈ records, r.heapId? = some k)
    ∨ (∃ c ∈ d.classes.toList, c.heap = k) ∨ (∃ o ∈ d.instances.toList, o.heap = k)
    ∨ ∃ r ∈ d.roots.toList, r.heap = k

theorem grouped_nil (header : Header) (log : Diagnostics) :
    Grouped { header, diagnostics := log } [] where
  classes k := by simp [entry]
  instances k := by simp [entry]
  roots k := by simp [entry]
  mem_heaps_iff k := by simp

theorem Grouped.push {d : Draft} {records : List Record} (h : d.Grouped records)
    (hd : d.Holds records) (r : Record) : (d.push r).Grouped (records ++ [r]) := by
  have htaken := hd.taken?_eq r
  have hheapId : r.heapId? = (novel? records r).bind HeapRecord.heapId? :=
    (novel?_bind_heapId? records r).symm
  cases hr : novel? records r with
  | none =>
    have same := d.untouched_push (htaken.trans hr)
    exact {
      classes := by simp [same.entry, same.classes, h.classes]
      instances := by simp [same.entry, same.instances, h.instances]
      roots := by simp [same.entry, same.roots, h.roots]
      mem_heaps_iff := by
        intro k
        rw [same.heaps, same.classes, same.instances, same.roots, h.mem_heaps_iff]
        simp [hheapId, hr] }
  | some record =>
    rw [d.push_of_taken? (htaken.trans hr)]
    exact {
      classes := by
        simp [classes_entry_take, classes_take, h.classes, List.findIdxs_append]
      instances := by
        simp [instances_entry_take, instances_take, h.instances, List.findIdxs_append]
      roots := by simp [roots_entry_take, roots_take, h.roots, List.findIdxs_append]
      mem_heaps_iff := by
        intro k
        -- a heap is there if it was there, or if it is current behind the record
        rw [mem_heaps_take, h.mem_heaps_iff, currentHeap_take_eq_iff, classes_take,
          instances_take, roots_take]
        have hnamed : (∃ r' ∈ [r], r'.heapId? = some k) ↔ record.heapId? = some k := by
          simp [hheapId, hr]
        simp only [List.mem_append, or_and_right, exists_or, hnamed]
        -- what was there and what is new, kind by kind
        rw [or_or_or_comm]
        refine or_congr .rfl ?_
        rw [or_or_or_comm]
        exact or_congr .rfl or_or_or_comm }

theorem grouped_foldl_push (header : Header) (log : Diagnostics) (records : List Record) :
    (records.foldl Draft.push { header, diagnostics := log }).Grouped records := by
  induction records using List.reverseRecOn with
  | nil => exact grouped_nil header log
  | append_singleton records r ih =>
    rw [List.foldl_append]
    exact ih.push (holds_foldl_push header log records) r

end Draft

end HeapDump
