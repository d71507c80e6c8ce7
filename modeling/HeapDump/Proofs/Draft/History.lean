/-
HeapDump/Proofs/Draft/History.lean

What a sequence of records says of heaps and objects, told without a draft.

Which heap something belongs to, and whether an identifier is taken, depends on
the records before it only.  So every record is looked at together with its past
(`withPast`): `heapBehind` is the heap that was named last, and a definition
counts if its identifier has none in the past (`novel?`).

The definitions that count and the roots, each with heap and place, are then what
is picked from the records with their pasts (`gathered`), one kind at a time:
`firstClasses`, `firstObjects` and `rootsOf`.  One record more adds one item at
most (`gathered_concat`), which is the shape that an induction over the records
from the end asks for.

These functions are the specification of a draft.  They look at all records at
once and keep no state, so a statement about them can be read without knowing how
a draft is built.
-/
import HeapDump.Draft.Basic

namespace HeapDump

/-! ### What a single record says -/

namespace HeapRecord

/-- The heap that a sub-record names. -/
def heapId? : HeapRecord → Option UInt32
  | heapInfo heapId _ => some heapId
  | _ => none

/-- The root that a sub-record is. -/
def root? : HeapRecord → Option RootRecord
  | root r => some r
  | _ => none

/-- The class that a sub-record defines. -/
def classDump? : HeapRecord → Option ClassDump
  | classDump d => some d
  | _ => none

/-- The object other than a class that a sub-record defines. -/
def objectDump? : HeapRecord → Option ObjectDump
  | object d => some d
  | _ => none

/-- The identifier that a sub-record defines, be it of a class or of another object. -/
def definedId? : HeapRecord → Option ObjectId
  | classDump d => some d.classId
  | object d => some d.objectId
  | _ => none

end HeapRecord

namespace Record

/-- The sub-record that a record is. -/
def heapRecord? (r : Record) : Option HeapRecord :=
  match r.body with
  | .heap record => some record
  | _ => none

theorem heapRecord?_eq_some_iff {r : Record} {record : HeapRecord} :
    r.heapRecord? = some record ↔ r.body = .heap record := by
  rw [heapRecord?]
  cases r.body <;> simp

/-- The heap that a record names. -/
def heapId? (r : Record) : Option UInt32 := r.heapRecord?.bind HeapRecord.heapId?

/-- The identifier that a record defines. -/
def definedId? (r : Record) : Option ObjectId := r.heapRecord?.bind HeapRecord.definedId?

end Record

/-! ### First definitions -/

/-- Whether some record defines an identifier. -/
def Defined (records : List Record) (id : ObjectId) : Prop :=
  ∃ r ∈ records, r.definedId? = some id

instance (records : List Record) (id : ObjectId) : Decidable (Defined records id) :=
  inferInstanceAs (Decidable (∃ r ∈ records, r.definedId? = some id))

/-- The sub-record that a record is, unless it defines an identifier once more. -/
def novel? (past : List Record) (r : Record) : Option HeapRecord :=
  r.heapRecord?.filter fun record => record.definedId?.all fun id => ¬Defined past id

theorem novel?_eq_some_iff {past : List Record} {r : Record} {record : HeapRecord} :
    novel? past r = some record ↔ r.heapRecord? = some record
      ∧ ∀ id, record.definedId? = some id → ¬Defined past id := by
  rw [novel?, Option.filter_eq_some_iff]
  cases record.definedId? <;> simp

/-- All records that name heaps count. -/
theorem novel?_bind_heapId? (past : List Record) (r : Record) :
    (novel? past r).bind HeapRecord.heapId? = r.heapId? := by
  rw [novel?, Record.heapId?]
  cases r.heapRecord? with
  | none => rfl
  | some record =>
    cases record with
    | classDump dump =>
      rw [Option.filter_some]
      split <;> rfl
    | object dump =>
      rw [Option.filter_some]
      split <;> rfl
    | _ => rfl

theorem defined_concat (records : List Record) (r : Record) (id : ObjectId) :
    Defined (records ++ [r]) id
      ↔ Defined records id ∨ (novel? records r).bind HeapRecord.definedId? = some id := by
  have hconcat : Defined (records ++ [r]) id ↔ Defined records id ∨ r.definedId? = some id := by
    simp [Defined, or_and_right, exists_or]
  rw [hconcat]
  by_cases hpast : Defined records id
  · simp [hpast]
  · -- a definition of an identifier that has none in the past counts
    simp only [hpast, false_or, Record.definedId?, Option.bind_eq_some_iff, novel?_eq_some_iff]
    refine exists_congr fun record => ⟨fun ⟨hr, hid⟩ => ⟨⟨hr, ?_⟩, hid⟩, fun ⟨⟨hr, _⟩, hid⟩ =>
      ⟨hr, hid⟩⟩
    intro id' hid'
    obtain rfl : id = id' := Option.some.inj (hid.symm.trans hid')
    exact hpast

/-! ### Records with their past -/

/-- Each record with those before it, which `past` precedes. -/
def withPast (past : List Record) : List Record → List (List Record × Record)
  | [] => []
  | r :: records => (past, r) :: withPast (past ++ [r]) records

theorem withPast_concat (past records : List Record) (r : Record) :
    withPast past (records ++ [r]) = withPast past records ++ [(past ++ records, r)] := by
  induction records generalizing past with
  | nil => simp [withPast]
  | cons first records ih => simp [withPast, ih]

/-- Nothing but the pasts is added. -/
theorem map_snd_withPast (past records : List Record) :
    (withPast past records).map Prod.snd = records := by
  induction records generalizing past with
  | nil => rfl
  | cons r records ih => rw [withPast, List.map_cons, ih]

/-- The heap that records have named last, heap 0 if they have named none. -/
def heapBehind (past : List Record) : UInt32 := (past.filterMap Record.heapId?).getLast?.getD 0

theorem heapBehind_concat (past : List Record) (r : Record) :
    heapBehind (past ++ [r])
      = ((novel? past r).bind HeapRecord.heapId?).getD (heapBehind past) := by
  rw [novel?_bind_heapId?, heapBehind, List.filterMap_append]
  cases h : r.heapId? with
  | none => simp [heapBehind, h]
  | some heapId => simp [h]

/-- What records say of one kind, each with heap and place; what `pick` picks out of
the sub-records that count. -/
def gathered (pick : HeapRecord → Option α) (records : List Record) : List (Located α) :=
  (withPast [] records).filterMap fun (past, r) =>
    ((novel? past r).bind pick).map fun value => ⟨value, heapBehind past, r.offset⟩

theorem gathered_concat (pick : HeapRecord → Option α) (records : List Record) (r : Record) :
    gathered pick (records ++ [r]) = gathered pick records
      ++ (((novel? records r).bind pick).map
        fun value => ⟨value, heapBehind records, r.offset⟩).toList := by
  rw [gathered, withPast_concat, List.filterMap_append, List.nil_append, gathered,
    List.filterMap_cons, List.filterMap_nil]
  dsimp only
  cases (novel? records r).bind pick <;> rfl

/-- What is gathered has been said by a record. -/
theorem exists_of_mem_gathered {pick : HeapRecord → Option α} {records : List Record}
    {x : Located α} (h : x ∈ gathered pick records) :
    ∃ r ∈ records, ∃ record, r.body = .heap record ∧ pick record = some x.value := by
  obtain ⟨⟨past, r⟩, hr, hx⟩ := List.mem_filterMap.mp h
  obtain ⟨value, hvalue, rfl⟩ := Option.map_eq_some_iff.mp hx
  obtain ⟨record, hnovel, hpick⟩ := Option.bind_eq_some_iff.mp hvalue
  have hbody := Record.heapRecord?_eq_some_iff.mp (novel?_eq_some_iff.mp hnovel).1
  refine ⟨r, ?_, record, hbody, hpick⟩
  rw [← map_snd_withPast [] records]
  exact List.mem_map_of_mem hr

/-- The first definitions that are of classes, in the order of the file. -/
def firstClasses : List Record → List (Located ClassDump) := gathered HeapRecord.classDump?

/-- The first definitions that are of other objects, in the order of the file. -/
def firstObjects : List Record → List (Located ObjectDump) := gathered HeapRecord.objectDump?

/-- The roots, in the order of the file. -/
def rootsOf : List Record → List (Located RootRecord) := gathered HeapRecord.root?

end HeapDump
