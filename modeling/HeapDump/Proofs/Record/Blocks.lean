/-
HeapDump/Proofs/Record/Blocks.lean

Runs of a stream, one whole top-level record after the other.

A stream gives single records, and a heap dump is many of them: its start and its
sub-records.  Many statements are about whole top-level records all the same, as it is
these that can be cut off, moved or put together again.  So the records of a run are
taken in blocks: a block is what a stream gives of one top-level record, the record
itself and the sub-records that follow it (`Block`).

A run between two places at the top level is one in blocks (`exists_blocks`), by
induction on its length, since a block takes more than one step off its front.  Blocks
lie one behind the other (`Blocks.bounds`), every place of the run falls into one of
them (`Blocks.exists_split`), and they can be told apart by the records alone,

    units (blocks.flatten.map place) = blocks.map (List.map place)

(`Blocks.units_map_place`), so a reader who has only the records sees the same blocks.
-/
import HeapDump.Proofs.Record.Entries
import Mathlib.Data.List.SplitBy

namespace HeapDump

/-! ### Top-level records and their sub-records -/

/-- The end of a top-level record, given the place behind it in a reading.  A heap dump is
not over there: its payload follows. -/
def Record.stop (r : Record) (position : Nat) : Nat :=
  match r.body with
  | .heapDumpStart _ length => position + length
  | _ => position

/-- The top-level records of a reading, each with the sub-records that follow it. -/
def units (records : List (Record × Nat)) : List (List (Record × Nat)) :=
  records.splitBy fun _ x => x.1.body.isSubRecord

/-- Records in units are taken apart again. -/
theorem units_flatten {l : List (List (Record × Nat))}
    (h : ∀ unit ∈ l, ∃ head subRecords, unit = head :: subRecords
      ∧ head.1.body.isSubRecord = false ∧ ∀ x ∈ subRecords, x.1.body.isSubRecord = true) :
    units l.flatten = l := by
  refine List.splitBy_flatten (fun hnil => ?_) (fun unit hunit => ?_)
    (List.pairwise_of_forall_mem_list fun a ha b hb => ?_).isChain
  · obtain ⟨head, subRecords, hcons, -⟩ := h [] hnil
    cases hcons
  · obtain ⟨head, subRecords, rfl, -, hsub⟩ := h unit hunit
    exact (List.pairwise_cons.mpr
      ⟨hsub, List.pairwise_of_forall_mem_list fun _ _ y hy => hsub y hy⟩).isChain
  · obtain ⟨head, subRecords, rfl, -⟩ := h a ha
    obtain ⟨head', subRecords', rfl, htop, -⟩ := h b hb
    exact ⟨List.cons_ne_nil _ _, List.cons_ne_nil _ _, htop⟩

theorem HeapRecord.isSubRecord_of_mem_recordsFrom {idSize p : Nat} {records : List HeapRecord}
    {r : Record} (h : r ∈ HeapRecord.recordsFrom idSize p records) :
    r.body.isSubRecord = true := by
  induction records generalizing p with
  | nil => cases h
  | cons record records ih =>
    rw [HeapRecord.recordsFrom] at h
    rcases List.mem_cons.mp h with rfl | h
    · rfl
    · exact ih h

namespace RecordStream

variable {data : ByteArray} {s t u last : RecordStream} {r : Record}
  {trace block : List (Record × RecordStream)} {blocks : List (List (Record × RecordStream))}

/-! ### Places of records -/

/-- A record is at the place where the stream stood. -/
theorem Step.offset_eq (h : Step data s r t) : r.offset = s.position := by
  cases h <;> rfl

/-- The records of a run are between its ends. -/
theorem Runs.offset_bounds (h : Runs data s trace t) {x : Record × RecordStream}
    (hx : x ∈ trace) : s.position ≤ x.1.offset ∧ x.1.offset < t.position := by
  induction h with
  | done s => cases hx
  | @step s u t r trace hstep rest ih =>
    have hoffset := hstep.offset_eq
    have hlt := hstep.position_lt
    have hle := rest.length_le
    rcases List.mem_cons.mp hx with rfl | hx
    · show s.position ≤ r.offset ∧ r.offset < t.position
      omega
    · have := ih hx
      omega

/-- A record and the place behind it. -/
def place (x : Record × RecordStream) : Record × Nat := (x.1, x.2.position)

/-! ### Blocks -/

/-- A stream at the top level gives a whole top-level record and nothing else. -/
structure Block (data : ByteArray) (s : RecordStream) (block : List (Record × RecordStream))
    (t : RecordStream) : Prop where
  runs : Runs data s block t
  atTopLevel : t.AtTopLevel
  exists_head : ∃ head subRecords, block = head :: subRecords
    ∧ head.1.offset = s.position ∧ head.1.stop head.2.position = t.position
    ∧ head.1.body.isSubRecord = false ∧ ∀ x ∈ subRecords, x.1.body.isSubRecord = true
  exists_framed : ∃ code time payload, Framed data s.position code time payload
    ∧ t.position = s.position + recordHeaderLength + payload.length

theorem Block.position_lt (h : Block data s block t) : s.position < t.position := by
  obtain ⟨code, time, payload, -, hend⟩ := h.exists_framed
  rw [recordHeaderLength] at hend
  omega

/-- A top-level record that is no heap dump is a block. -/
theorem Block.single (hstep : Step data s r t) (htop : t.AtTopLevel)
    (hstop : r.stop t.position = t.position) (hbody : r.body.isSubRecord = false)
    (hframed : ∃ code time payload, Framed data s.position code time payload
      ∧ t.position = s.position + recordHeaderLength + payload.length) :
    Block data s [(r, t)] t where
  runs := .step hstep (.done t)
  atTopLevel := htop
  exists_head := ⟨(r, t), [], rfl, hstep.offset_eq, hstop, hbody, by simp⟩
  exists_framed := hframed

/-- What a payload spells is no sub-record and does not go on behind it. -/
theorem single_of_spells {idSize position offset : Nat} {time : Option UInt32} {tag : Tag}
    {b : Body} {bs : List UInt8} (h : b.Spells idSize tag bs) :
    b.isSubRecord = false ∧ Record.stop ⟨offset, time, b⟩ position = position := by
  cases b with
  | heap record => cases h.1
  | heapDumpStart segment length => cases h.1
  | _ => exact ⟨rfl, rfl⟩

/-- A run to the top level that is not over yet begins with a block. -/
theorem exists_block (hv : s.Valid data) (htop : s.AtTopLevel) {x : Record × RecordStream}
    (h : Runs data s (x :: trace) last) (hlast : last.AtTopLevel) :
    ∃ subRecords mid back, trace = subRecords ++ back ∧ Block data s (x :: subRecords) mid
      ∧ Runs data mid back last := by
  cases h with
  | @step s t _ r trace hstep rest =>
    have hnext := hstep
    cases hstep with
    -- at the top level no sub-record comes first
    | subRecord hopen hlt => exact absurd (htop _ hopen) (Nat.not_le.mpr hlt)
    | @topLevel tag time payload body _ htag hframe hbody =>
      obtain ⟨hsub, hstop⟩ := single_of_spells hbody
      exact ⟨[], _, trace, rfl, .single hnext (atTopLevel_of_none rfl) hstop hsub
        ⟨_, _, payload, hframe, rfl⟩, rest⟩
    | @unknown code time payload _ hskip htag hframe =>
      exact ⟨[], _, trace, rfl, .single hnext (atTopLevel_of_none rfl) rfl rfl
        ⟨_, _, payload, hframe, rfl⟩, rest⟩
    | @heapDump segment time payload _ hframe =>
      -- the sub-records up to the end of the heap dump belong to it
      obtain ⟨records, front, mid, back, rfl, -, hsweeps, hback⟩ :=
        exists_sweeps_of_runs (hnext.valid hv) rfl rest hlast
      refine ⟨front, mid, back, rfl, ?_, hback⟩
      exact {
        runs := .step hnext hsweeps.runs
        atTopLevel := hsweeps.atTopLevel
        exists_head := ⟨_, front, rfl, rfl, hsweeps.position_eq.symm, rfl, fun y hy =>
          HeapRecord.isSubRecord_of_mem_recordsFrom (hsweeps.map_eq ▸ List.mem_map_of_mem hy)⟩
        exists_framed := ⟨_, _, payload, hframe, hsweeps.position_eq⟩ }

/-! ### Runs in blocks -/

/-- A run in whole top-level records. -/
inductive Blocks (data : ByteArray) :
    RecordStream → List (List (Record × RecordStream)) → RecordStream → Prop where
  | nil (s : RecordStream) : Blocks data s [] s
  | cons {s t u : RecordStream} {block : List (Record × RecordStream)}
      {blocks : List (List (Record × RecordStream))} (h : Block data s block t)
      (rest : Blocks data t blocks u) : Blocks data s (block :: blocks) u

/-- **A run from the top level to the top level is one in blocks.** -/
theorem exists_blocks (hv : s.Valid data) (htop : s.AtTopLevel) (h : Runs data s trace last)
    (hlast : last.AtTopLevel) : ∃ blocks, trace = blocks.flatten ∧ Blocks data s blocks last := by
  induction hn : trace.length using Nat.strong_induction_on generalizing s trace with
  | _ n ih =>
    cases trace with
    | nil =>
      cases h
      exact ⟨[], rfl, .nil _⟩
    | cons x trace =>
      obtain ⟨subRecords, mid, back, rfl, hblock, hback⟩ := exists_block hv htop h hlast
      -- what is behind the block is shorter, by the block
      have hshort : back.length < n := by
        rw [← hn, List.length_cons, List.length_append]
        omega
      obtain ⟨blocks, rfl, hblocks⟩ := ih back.length hshort (hblock.runs.valid hv)
        hblock.atTopLevel hback rfl
      exact ⟨_ :: blocks, rfl, .cons hblock hblocks⟩

namespace Blocks

theorem runs (h : Blocks data s blocks t) : Runs data s blocks.flatten t := by
  induction h with
  | nil s => exact .done s
  | cons h rest ih => exact h.runs.append ih

theorem atTopLevel (h : Blocks data s blocks t) (htop : s.AtTopLevel) : t.AtTopLevel := by
  induction h with
  | nil s => exact htop
  | cons h rest ih => exact ih h.atTopLevel

theorem position_le (h : Blocks data s blocks t) : s.position ≤ t.position :=
  Nat.le_of_add_right_le h.runs.length_le

/-- Every block is between the ends of the run. -/
theorem bounds (h : Blocks data s blocks last) {block : List (Record × RecordStream)}
    (hmem : block ∈ blocks) :
    ∃ mid t, Block data mid block t ∧ s.position ≤ mid.position ∧ t.position ≤ last.position := by
  induction h with
  | nil s => cases hmem
  | @cons s t u first blocks h rest ih =>
    rcases List.mem_cons.mp hmem with rfl | hmem
    · exact ⟨s, t, h, Nat.le_refl _, rest.position_le⟩
    · obtain ⟨mid, v, hblock, hle, hle'⟩ := ih hmem
      exact ⟨mid, v, hblock, h.position_lt.le.trans hle, hle'⟩

/-- A place inside a run is at the start of a block or inside it. -/
theorem exists_split (h : Blocks data s blocks last) {cut : Nat} (hle : s.position ≤ cut)
    (hlt : cut < last.position) :
    ∃ front mid block t back, blocks = front ++ block :: back ∧ Blocks data s front mid
      ∧ Block data mid block t ∧ Blocks data t back last ∧ mid.position ≤ cut
      ∧ cut < t.position := by
  induction h with
  | nil s => exact absurd hlt (Nat.not_lt.mpr hle)
  | @cons s t u first blocks h rest ih =>
    -- the place is in the first block, or in one behind it
    by_cases hcut : cut < t.position
    · exact ⟨[], s, first, t, blocks, rfl, .nil s, h, rest, hle, hcut⟩
    · obtain ⟨front, mid, block, v, back, rfl, hfront, hblock, hback, hmid⟩ :=
        ih (Nat.not_lt.mp hcut) hlt
      exact ⟨first :: front, mid, block, v, back, rfl, .cons h hfront, hblock, hback, hmid⟩

/-- **The blocks of a run are the units of its records.** -/
theorem units_map_place (h : Blocks data s blocks t) :
    units (blocks.flatten.map place) = blocks.map (List.map place) := by
  rw [List.map_flatten]
  refine units_flatten fun unit hunit => ?_
  obtain ⟨block, hmem, rfl⟩ := List.mem_map.mp hunit
  obtain ⟨mid, u, hblock, -⟩ := h.bounds hmem
  obtain ⟨head, subRecords, rfl, -, -, htop, hsub⟩ := hblock.exists_head
  refine ⟨place head, subRecords.map place, rfl, htop, fun x hx => ?_⟩
  obtain ⟨y, hy, rfl⟩ := List.mem_map.mp hx
  exact hsub y hy

end Blocks

end RecordStream

end HeapDump
