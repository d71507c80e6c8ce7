/-
HeapDump/Proofs/Snapshot/PrimitiveArrays.lean

Arrays of primitive types, from the bytes of a dump to their elements.

The sub-records of a reading are well formed (`ByteStore.wellFormed_of_mem_reading`), so an array
that is dumped with data has the bytes of as many elements as it says, and it keeps them in the
finished snapshot (`Draft.Holds.size_data_finish`).  So the elements of such an array can always
be decoded, there are as many as the record said, and they take up all its bytes
(`Instance.exists_values?`).

There are two ways to decode values: one by one with a parser, and the elements of an array all
at once.  They agree, as each is the number that its bytes spell.  Together this is the main
statement: `value_decoders_agree`.
-/
import HeapDump.Proofs.Snapshot.AllOrNothing
import HeapDump.Proofs.Snapshot.Layouts
import HeapDump.Proofs.Value.Elements

namespace HeapDump

variable {d : Draft} {records : List Record} {i : Instance} {t : BasicType} {length : UInt32}
  {data : ByteArray}

/-! ### What a reading stores -/

/-- A sub-record of a reading is well formed. -/
theorem ByteStore.wellFormed_of_mem_reading {bytes : ByteArray} {store : ByteStore}
    (hs : store.Serves bytes) {skipUnknown : Bool} {stream : RecordStream}
    (hstream : RecordStream.ofStore store skipUnknown = .ok stream) {x : Record × Nat}
    (hx : x ∈ (store.reading skipUnknown).1) {record : HeapRecord}
    (hr : x.1.body = .heap record) : record.WellFormed stream.header.idSize := by
  have hv := RecordStream.valid_of_ofStore hs hstream
  have hf : stream.finished = false := by
    obtain ⟨header, -, rfl⟩ := RecordStream.ofStore_eq_ok_iff.mp hstream
    rfl
  obtain ⟨trace, error, last, hcompletes⟩ := RecordStream.exists_completes hv hf
  rw [hcompletes.reading_eq hstream hv hf] at hx
  obtain ⟨y, hy, rfl⟩ := List.mem_map.mp hx
  obtain ⟨_, hruns, -⟩ := hcompletes.exists_last
  exact hruns.wellFormed hy hr

/-! ### Arrays of a finished draft -/

/-- The size of an array is that of its elements. -/
theorem Resolution.size_resolveInstance (ctx : Resolution) {elements : Option ByteArray}
    (h : (ctx.resolveInstance i).value.contents = .primitiveArray t length elements) :
    (ctx.resolveInstance i).value.size = length.toNat * t.size ctx.idSize := by
  rw [resolveInstance] at h ⊢
  split at h
  · cases h
  · cases h
  · next hcontents =>
    have heq : i.contents = .primitiveArray t length elements := h
    rw [hcontents] at heq
    cases heq
    rfl

/-- An instance of a finished snapshot is what a record has said it is. -/
theorem Draft.Holds.exists_record_of_mem (h : d.Holds records) {resolveFields : Bool}
    (hi : i ∈ (d.finish resolveFields).instances) :
    ∃ r ∈ records, r.body = .heap (.object i.dump) := by
  have hmem : i.located ∈ firstObjects records := by
    rw [← h.instances, ← d.located_instances_finish resolveFields]
    exact List.mem_map_of_mem (Array.mem_toList_iff.mpr hi)
  obtain ⟨r, hr, record, hbody, hpick⟩ := exists_of_mem_gathered hmem
  refine ⟨r, hr, ?_⟩
  cases record with
  | object dump => rw [hbody, Option.some.inj hpick]; rfl
  | _ => cases hpick

/-- **An array of a finished snapshot has the bytes of as many elements as it says**, and this is
its size, if the records are well formed. -/
theorem Draft.Holds.size_data_finish (h : d.Holds records) {idSize : Nat}
    (hid : d.header.idSize = idSize)
    (hwf : ∀ r ∈ records, ∀ record, r.body = .heap record → record.WellFormed idSize)
    {resolveFields : Bool} (hi : i ∈ (d.finish resolveFields).instances)
    (hcontents : i.contents = .primitiveArray t length (some data)) :
    t ≠ .object ∧ data.size = length.toNat * t.size 0 ∧ i.size = data.size := by
  have hdump : i.dump = .primitives ⟨i.id, i.stackSerial, t, length, some data⟩ := by
    rw [Instance.dump, hcontents]
  obtain ⟨r, hr, hbody⟩ := h.exists_record_of_mem hi
  rw [hdump] at hbody
  obtain ⟨-, hne, hdata⟩ := hwf r hr _ hbody
  have hdata : data.size = length.toNat * t.size idSize := hdata data rfl
  have hsize : i.size = length.toNat * t.size idSize := by
    rw [← Array.mem_toList_iff, instances_finish] at hi
    obtain ⟨o, -, rfl⟩ := List.mem_map.mp hi
    exact hid ▸ (d.resolution resolveFields).size_resolveInstance hcontents
  exact ⟨hne, by rw [hdata, BasicType.size_eq_size_zero hne], hsize.trans hdata.symm⟩

/-- The bytes of an array decode to its elements. -/
theorem Instance.exists_values? (hcontents : i.contents = .primitiveArray t length (some data))
    (hne : t ≠ .object) (hsize : data.size = length.toNat * t.size 0) :
    ∃ e, i.values? = some e ∧ i.length? = some e.length := by
  obtain ⟨e, he, -, hlist⟩ := Elements.exists_decode hne (Dvd.intro_left _ hsize.symm)
  refine ⟨e, by rw [values?, hcontents]; exact he, ?_⟩
  have hlength : e.length = length.toNat := by
    rw [← Elements.length_toList, hlist, Value.length_packed, hsize,
      Nat.mul_div_cancel _ (BasicType.size_zero_pos hne)]
  rw [length?, hcontents, hlength]

/-- An array that is dumped with data has all of its elements. -/
theorem Snapshot.exists_values?_of_ofShards {shards : Shards} {options : Options}
    {attachSink : Bool} {s : Snapshot} (hs : ofShards shards options attachSink = .ok s)
    (hi : i ∈ s.instances) (hcontents : i.contents = .primitiveArray t length (some data)) :
    ∃ e, i.values? = some e ∧ i.length? = some e.length ∧ i.size = data.size := by
  have hserves := shards.store_serves
  obtain ⟨stream, records, hstream, hreading, rfl⟩ := exists_of_ofStore_eq_ok hserves hs
  have hwf (r : Record) (hr : r ∈ records.map Prod.fst) (record : HeapRecord)
      (hbody : r.body = .heap record) : record.WellFormed stream.header.idSize := by
    obtain ⟨x, hx, rfl⟩ := List.mem_map.mp hr
    exact ByteStore.wellFormed_of_mem_reading hserves hstream (hreading ▸ hx) hbody
  have hholds := Draft.holds_foldl_push stream.header (.start attachSink) (records.map Prod.fst)
  have hheader := Draft.header_foldl_push
    { header := stream.header, diagnostics := .start attachSink } (records.map Prod.fst)
  obtain ⟨hne, hdata, hsize⟩ :=
    hholds.size_data_finish (congrArg Header.idSize hheader) hwf hi hcontents
  obtain ⟨e, he, hlength⟩ := i.exists_values? hcontents hne hdata
  exact ⟨e, he, hlength, hsize⟩

/-! ### The main statement -/

/-- **The two ways to decode values agree.**  A parser reads a value if its bytes are there, moves
behind them, and stays otherwise.  The bytes of an array decode if and only if they are a whole
number of elements, to those elements of the type that a parser gives until no byte remains, and
nothing is divided by zero.  An array that a dump holds with data has as many elements as it
says, and the size of these data. -/
theorem value_decoders_agree :
    (∀ idSize ∈ [1, 2, 4, 8], ∀ (t : BasicType) (p : Parser),
      Value.parse t idSize p = if t.size idSize ≤ p.remaining then
          (.ok (.ofBits t (BigEndian.ofBytes (p.ahead (t.size idSize)))),
            p.behind (t.size idSize))
        else (.error (p.outOfBounds (t.size idSize)), p))
    ∧ (∀ t ≠ .object, ∀ data : ByteArray,
      ((Elements.decode t data).isSome ↔ t.size 0 ∣ data.size)
        ∧ ∀ (e : Elements) (idSize base : Nat), Elements.decode t data = some e
          ↔ e.type = t ∧ Value.Exhausts t idSize { data, base } e.toList)
    ∧ (∀ (t : BasicType) (data : ByteArray),
      Elements.decodeChecked t data = some (Elements.decode t data))
    ∧ ∀ (shards : Shards) (options : Options) (attachSink : Bool) (s : Snapshot),
      Snapshot.ofShards shards options attachSink = .ok s →
        ∀ i ∈ s.instances, ∀ (t : BasicType) (length : UInt32) (data : ByteArray),
          i.contents = .primitiveArray t length (some data) →
            ∃ e, i.values? = some e ∧ i.length? = some e.length ∧ i.size = data.size := by
  refine ⟨fun idSize hid t p => Value.parse_eq (fun _ => hid) p, fun t ht data => ?_,
    Elements.decodeChecked_eq, fun shards options attachSink s hs i hi t length data hcontents => ?_⟩
  · exact ⟨Elements.isSome_decode_iff ht, fun e => Elements.decode_eq_some_iff ht⟩
  · exact Snapshot.exists_values?_of_ofShards hs hi hcontents

/-- A heap dump segment with an array of two integers. -/
def sampleArray : ByteArray :=
  ⟨#[0x1C, 0, 0, 0, 5, 0, 0, 0, 22,
    0x23, 0, 0, 0, 9, 0, 0, 0, 0, 0, 0, 0, 2, 10, 0, 0, 1, 2, 255, 255, 255, 255]⟩

/-- Both integers are found, in the array and by a parser over its bytes; the first could be an
identifier as well. -/
theorem value_decoders_agree_sampleArray :
    ∃ shards s, Snapshot.ofShards shards {} false = .ok s
      ∧ ∃ i ∈ s.instances, ∃ data, i.contents = .primitiveArray .int 2 (some data)
        ∧ Value.parse .object 4 { data } = (.ok (.object 258), { data, position := 4 })
        ∧ Value.Exhausts .int 4 { data } [.int 258, .int (-1)]
        ∧ ∃ e, i.values? = some e ∧ i.length? = some e.length ∧ i.size = data.size := by
  let shards := inMemory (sampleFront ++ sampleArray) (by decide +kernel)
  let data : ByteArray := ⟨#[0, 0, 1, 2, 255, 255, 255, 255]⟩
  obtain ⟨hparse, hdecode, -, harrays⟩ := value_decoders_agree
  have hload : ((Snapshot.ofShards shards {} false).toOption.bind fun s =>
      s.instances[0]?.map (·.contents)) = some (.primitiveArray .int 2 (some data)) := by
    decide +kernel
  obtain ⟨s, hs, hcontents⟩ := Option.bind_eq_some_iff.mp hload
  obtain ⟨i, hi, hcontents⟩ := Option.map_eq_some_iff.mp hcontents
  have hs : Snapshot.ofShards shards {} false = .ok s := by
    cases h : Snapshot.ofShards shards {} false with
    | error e => rw [h] at hs; cases hs
    | ok s' => rw [h] at hs; cases hs; rfl
  have hi := Array.mem_of_getElem? hi
  have hfirst := hparse 4 (by decide) .object { data }
  rw [if_pos (by decide +kernel)] at hfirst
  have hvalue : Value.ofBits .object (BigEndian.ofBytes (Parser.ahead { data } 4))
      = .object 258 := by
    decide +kernel
  rw [show BasicType.size 4 .object = 4 from rfl, hvalue] at hfirst
  have hexhausts := ((hdecode .int (by decide) data).2 (.int [258, -1]) 4 0).mp (by decide +kernel)
  exact ⟨shards, s, hs, i, hi, data, hcontents, hfirst, hexhausts.2,
    harrays shards {} false s hs i hi .int 2 data hcontents⟩

end HeapDump
