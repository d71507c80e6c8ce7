/-
HeapDump/Proofs/Record/Reencoding.lean

What is read is written back.

A strict reading that ends without an error has found whole top-level records
one after the other.  If the texts in the dump are UTF-8, the bytes of the dump
are spelled by the marks of these records (`spelled_of_entries`): the dump and
the written form of what was read differ at most where a mark allows it.  Main
statement: `spelled_dumpMarks`, and `reencode` in terms of bytes.
-/
import HeapDump.Proofs.Record.RoundTrip

namespace HeapDump

open Written

variable {data : ByteArray} {idSize : Nat} {store : ByteStore}

/-! ### Texts -/

/-- The place of a record determines its payload. -/
theorem Framed.unique (hs : store.Serves data) {p : Nat} {code code' : UInt8} {time time' : UInt32}
    {payload payload' : List UInt8} (h : Framed data p code time payload)
    (h' : Framed data p code' time' payload') : payload = payload' := by
  have hread := (RecordHeader.read_eq_ok_iff hs
    (h := ⟨code, time, payload.length, p + recordHeaderLength,
      p + recordHeaderLength + payload.length⟩)).mpr ⟨payload, h, rfl⟩
  have hread' := (RecordHeader.read_eq_ok_iff hs
    (h := ⟨code', time', payload'.length, p + recordHeaderLength,
      p + recordHeaderLength + payload'.length⟩)).mpr ⟨payload', h', rfl⟩
  -- one header is read at one place
  have hlen : payload.length = payload'.length := by
    rw [hread] at hread'
    exact congrArg RecordHeader.length (Except.ok.inj hread')
  have hspan := h'.payload_span
  rw [← hlen] at hspan
  exact h.payload_span.unique hspan

/-- The text of every string among records is UTF-8. -/
def TextsValid (data : ByteArray) (idSize : Nat) (records : List Record) : Prop :=
  ∀ r ∈ records, ∀ id value, r.body = .string id value → ∀ time payload,
    Framed data r.offset Tag.string.code time payload →
      ByteArray.IsValidUTF8 ⟨(payload.drop idSize).toArray⟩

theorem toUTF8_decodeLossy_mk {text : List UInt8} (h : ByteArray.IsValidUTF8 ⟨text.toArray⟩) :
    (Utf8.decodeLossy ⟨text.toArray⟩).toUTF8.data.toList = text := by
  rw [Utf8.toUTF8_decodeLossy h]

/-! ### Top-level records -/

/-- A payload that spells a record with a UTF-8 text is the record's own. -/
theorem Body.Spells.payload?_eq {tag : Tag} {b : Body} {payload : List UInt8}
    (h : b.Spells idSize tag payload) (hsome : (b.payload? idSize).isSome = true)
    (htext : ∀ id value, b = .string id value →
      ByteArray.IsValidUTF8 ⟨(payload.drop idSize).toArray⟩) :
    b.payload? idSize = some (tag, payload) := by
  cases b with
  | string id value =>
    obtain ⟨rfl, -, text, rfl, rfl⟩ := h
    have hid : (ident idSize id).length = idSize := BigEndian.length_toList ..
    have hvalid := htext id _ rfl
    rw [List.drop_left' hid] at hvalid
    show some (Tag.string, ident idSize id ++ _) = _
    rw [toUTF8_decodeLossy_mk hvalid]
  | skipped => cases hsome
  | _ => exact h.2

/-- The bytes of a top-level record are such as its marks allow. -/
theorem Entry.At.exists_spelled {e : Entry} {p q : Nat} (h : e.At data idSize p q)
    (htext : TextsValid data idSize (e.records idSize p)) :
    ∃ bs, Span data p q bs ∧ Spelled (e.marks idSize) bs := by
  obtain ⟨code, payload, hframe, rfl, hspells⟩ := h.exists_frame
  refine ⟨_, hframe.span, ?_⟩
  obtain ⟨time, body | ⟨code', bytes⟩ | ⟨segment, records⟩⟩ := e
  -- a record with fields is written as it stands, if its text is UTF-8
  · obtain ⟨hsome, tag, rfl, hbody⟩ := hspells
    have hpayload : body.payload? idSize = some (tag, payload) := by
      refine hbody.payload?_eq hsome fun id value hstring => ?_
      have htag : tag = .string := by
        subst hstring
        exact hbody.1
      subst htag
      exact htext ⟨p, some time, body⟩ (by rw [records]; simp only [if_pos hsome]; simp) id value
        hstring time payload hframe
    refine spelled_fixed_iff.mpr ?_
    rw [written, Entry.Content.payload?, hpayload]
    rfl
  -- of a record that is passed over only the length counts
  · obtain ⟨rfl, hlen, -⟩ := hspells
    have hfront : Spelled (fixed (code :: word time ++ count bytes.length)) _ :=
      spelled_fixed_iff.mpr rfl
    rw [← hlen]
    exact hfront.append (spelled_free_iff.mpr hlen.symm)
  -- a heap dump is spelled by its sub-records
  · obtain ⟨rfl, -, hbs⟩ := hspells
    have hlen := HeapRecord.length_of_spelled hbs
    have hfront : Spelled (fixed ((RecordStream.heapDumpTag segment).code :: word time
        ++ count (records.flatMap (HeapRecord.written idSize)).length)) _ :=
      spelled_fixed_iff.mpr rfl
    rw [← hlen]
    exact hfront.append hbs

/-- **The bytes of top-level records one after the other are such as their marks allow.** -/
theorem spelled_of_entries {p : Nat} {es : List Entry} {records : List Record}
    (h : Entries data idSize p es records) (htext : TextsValid data idSize records) :
    ∃ bs, Span data p data.size bs ∧ Spelled (es.flatMap (Entry.marks idSize)) bs := by
  induction h with
  | nil => exact ⟨[], span_nil_iff.mpr ⟨rfl, Nat.le_refl _⟩, spelled_nil_iff.mpr rfl⟩
  | @cons p q e es records he rest ih =>
    obtain ⟨xs, hspan1, hxs⟩ := he.exists_spelled fun r hr => htext r (List.mem_append_left _ hr)
    obtain ⟨ys, hspan2, hys⟩ := ih fun r hr => htext r (List.mem_append_right _ hr)
    refine ⟨xs ++ ys, hspan1.append hspan2, ?_⟩
    rw [List.flatMap_cons]
    exact hxs.append hys

/-! ### Strings in runs -/

namespace RecordStream

variable {s last : RecordStream} {trace : List (Record × RecordStream)}

/-- A string is given behind a frame of its own, and the text is what follows its
identifier. -/
theorem Runs.exists_framed_of_string (h : Runs data s trace last) {x : Record × RecordStream}
    (hx : x ∈ trace) {id : ObjectId} {value : String} (hbody : x.1.body = .string id value) :
    ∃ time payload, Framed data x.1.offset Tag.string.code time payload
      ∧ Span data (x.1.offset + recordHeaderLength + s.header.idSize) x.2.position
          (payload.drop s.header.idSize) := by
  induction h with
  | done s => cases hx
  | @step s t u r trace hstep rest ih =>
    rcases List.mem_cons.mp hx with rfl | hx
    · cases hstep with
      | @topLevel tag time payload body htop htag hframe hspells =>
        obtain rfl : body = .string id value := hbody
        obtain ⟨rfl, hid, text, hvalue, rfl⟩ := hspells
        refine ⟨time, _, hframe, hframe.payload_span.drop ?_⟩
        rw [List.length_append]
        exact Nat.le_trans (Nat.le_of_eq (BigEndian.length_toList ..).symm) (Nat.le_add_right ..)
      -- a string is a record of its own
      | subRecord | heapDump | unknown => cases hbody
    · rw [← hstep.frame.2.1]
      exact ih hx

/-- The texts in a dump are UTF-8 if those of the strings that are read from it are. -/
theorem Runs.textsValid (hv : s.Valid data) (h : Runs data s trace last)
    (htext : ∀ x ∈ trace, ∀ id value, x.1.body = .string id value →
      (data.extract (x.1.offset + recordHeaderLength + s.header.idSize)
        x.2.position).IsValidUTF8) :
    TextsValid data s.header.idSize (trace.map Prod.fst) := by
  intro r hr id value hbody time payload hframe
  obtain ⟨x, hx, rfl⟩ := List.mem_map.mp hr
  obtain ⟨time', payload', hframe', hspan⟩ := h.exists_framed_of_string hx hbody
  obtain rfl := hframe'.unique hv.serves hframe
  rw [← hspan.extract_eq]
  exact htext x hx id value hbody

end RecordStream

/-! ### Dumps -/

theorem Headed.name_span {name : List UInt8} {time : UInt64}
    (h : Headed data name idSize time) : Span data 0 name.length name := by
  have hspan := h.span
  rw [List.append_assoc] at hspan
  obtain ⟨mid, hname, -⟩ := span_append_iff.mp hspan
  rwa [← hname.length_eq, Nat.zero_add] at hname

/-- An accepted header with a UTF-8 identifier is what its record is written as. -/
theorem Headed.span_written {h : Header} {name : List UInt8}
    (hhead : Headed data name h.idSize h.timestamp)
    (hformat : h.format = Utf8.decodeLossy ⟨name.toArray⟩)
    (hlength : h.length = name.length + Header.tailLength)
    (hvalid : ByteArray.IsValidUTF8 ⟨name.toArray⟩) : Span data 0 h.length h.written := by
  have hspan := hhead.span
  rwa [← hlength, ← toUTF8_decodeLossy_mk hvalid, ← hformat] at hspan

/-- **What a strict reading finds in a dump of UTF-8 texts is spelled by the dump.** -/
theorem spelled_dumpMarks {s : RecordStream} (hs : store.Serves data)
    (hstream : RecordStream.ofStore store false = .ok s) (hread : s.readAll.error = none)
    (hformat : (data.extract 0 (s.header.length - Header.tailLength)).IsValidUTF8)
    (htexts : ∀ x ∈ s.readAll.state, ∀ id value, x.1.body = .string id value →
      (data.extract (x.1.offset + recordHeaderLength + s.header.idSize) x.2).IsValidUTF8) :
    Spelled (dumpMarks s.header (Entry.ofRecords (s.readAll.state.toList.map Prod.fst)))
      data.data.toList := by
  have hv := RecordStream.valid_of_ofStore hs hstream
  obtain ⟨h, hheader, rfl⟩ := RecordStream.ofStore_eq_ok_iff.mp hstream
  obtain ⟨name, hhead, hname, hlength⟩ := (Header.read_eq_ok_iff hs).mp hheader
  have hvalid : ByteArray.IsValidUTF8 ⟨name.toArray⟩ := by
    simp only [hlength, Nat.add_sub_cancel, hhead.name_span.extract_eq] at hformat
    exact hformat
  have hfront := hhead.span_written hname hlength hvalid
  obtain ⟨trace, last, hruns, hlast, hend, hstate⟩ := RecordStream.runs_of_readAll hv rfl hread
  have hrecords : ((trace.map fun x => (x.1, x.2.position)).toArray).toList.map Prod.fst
      = trace.map Prod.fst := by
    rw [List.map_map]
    rfl
  rw [hstate, hrecords]
  -- behind the header the whole dump is top-level records
  have hentries := RecordStream.entries_of_runs hv (RecordStream.atTopLevel_of_none rfl) rfl hruns
    hlast hend
  have hvalids := hruns.textsValid hv fun x hx id value hbody =>
    htexts (x.1, x.2.position) (by rw [hstate]; simp; exact ⟨x.2, hx, rfl⟩) id value hbody
  obtain ⟨bs, hback, hbs⟩ := spelled_of_entries hentries.1 hvalids
  have hwhole : data.data.toList = h.written ++ bs :=
    (span_whole data).unique (hfront.append hback)
  rw [hwhole]
  exact (spelled_fixed_iff.mpr rfl : Spelled (fixed h.written) h.written).append hbs

/-- A dump that no writer puts down: the record that is passed over, the reserved
identifiers of the class and the boolean hold arbitrary bytes. -/
def oddDump : List UInt8 :=
  sampleHeader.written ++
    [0x01, 0, 0, 0, 5, 0, 0, 0, 6, 0, 0, 0, 1, 0xC3, 0xB6] ++
    [0x0D, 0, 0, 0, 0, 0, 0, 0, 2, 0xAB, 0xCD] ++
    [0x1C, 0, 0, 0, 0, 0, 0, 0, 49,
      0x20, 0, 0, 0, 32, 0, 0, 0, 0, 0, 0, 0, 0, 0, 0, 0, 0, 0, 0, 0, 0, 0, 0, 0, 0,
      0xDE, 0xAD, 0xBE, 0xEF, 1, 2, 3, 4, 0, 0, 0, 4, 0, 0,
      0, 1, 0, 0, 0, 1, 4, 7, 0, 0]

/-- The odd dump behind windows of ten bytes that overlap by three. -/
def oddShards : Shards where
  source := ⟨.file, ⟨oddDump.toArray⟩, by decide +kernel⟩
  geometry := ⟨UInt64.ofNat oddDump.length, 7, 3, by decide, by decide⟩
  length_eq := rfl

/-- The stream that begins to read the odd dump. -/
def oddStream : RecordStream where
  store := oddShards.store
  header := sampleHeader
  skipUnknown := false
  position := sampleHeader.length

/-- **Writing what a strict reading has found gives the dump again**, up to payloads that
are passed over, reserved identifiers and booleans: the written form is as long as the
dump, and at every place the dump has a byte that the mark there allows. -/
theorem reencode {backing : Backing} {bytes : ByteArray} {source : Source}
    {shardSize padding : UInt64} {shards : Shards} {s : RecordStream}
    (hsource : Source.ofBytes? backing bytes = some source)
    (hshards : Shards.ofSource source shardSize padding = .ok shards)
    (hstream : RecordStream.ofStore shards.store false = .ok s) (hread : s.readAll.error = none)
    (hformat : (bytes.extract 0 (s.header.length - Header.tailLength)).IsValidUTF8)
    (htexts : ∀ x ∈ s.readAll.state, ∀ id value, x.1.body = .string id value →
      (bytes.extract (x.1.offset + recordHeaderLength + s.header.idSize) x.2).IsValidUTF8) :
    let es := Entry.ofRecords (s.readAll.state.toList.map Prod.fst)
    (dump s.header es).length = bytes.size
      ∧ (dumpMarks s.header es).map Mark.byte = dump s.header es
      ∧ ∀ (i : Nat) (m : Mark) (b : UInt8), (dumpMarks s.header es)[i]? = some m →
          bytes.data[i]? = some b → m.Allows b := by
  intro es
  have hs := shards.store_serves
  rw [Shards.source_of_ofSource hshards, Source.bytes_of_ofBytes? hsource] at hs
  have hspelled := spelled_dumpMarks hs hstream hread hformat htexts
  refine ⟨?_, map_byte_dumpMarks s.header es, ?_⟩
  · rw [← map_byte_dumpMarks, List.length_map, hspelled.length_eq]
    rfl
  · intro i m b hm hb
    obtain ⟨hi, rfl⟩ := List.getElem?_eq_some_iff.mp hm
    obtain ⟨hj, rfl⟩ := Array.getElem?_eq_some_iff.mp hb
    exact List.Forall₂.get hspelled hi hj

theorem reencode_oddDump :
    Source.ofBytes? .file ⟨oddDump.toArray⟩ = some oddShards.source
      ∧ Shards.ofSource oddShards.source 7 3 = .ok oddShards
      ∧ RecordStream.ofStore oddShards.store false = .ok oddStream
      ∧ oddStream.readAll.error = none
      ∧ (ByteArray.extract ⟨oddDump.toArray⟩ 0
          (oddStream.header.length - Header.tailLength)).IsValidUTF8
      ∧ (∀ x ∈ oddStream.readAll.state, ∀ id value, x.1.body = .string id value →
          (ByteArray.extract ⟨oddDump.toArray⟩
            (x.1.offset + recordHeaderLength + oddStream.header.idSize) x.2).IsValidUTF8)
      ∧ let es := Entry.ofRecords (oddStream.readAll.state.toList.map Prod.fst)
        (dump oddStream.header es).length = ByteArray.size ⟨oddDump.toArray⟩
          ∧ (dumpMarks oddStream.header es).map Mark.byte = dump oddStream.header es
          ∧ ∀ (i : Nat) (m : Mark) (b : UInt8), (dumpMarks oddStream.header es)[i]? = some m →
              (ByteArray.mk oddDump.toArray).data[i]? = some b → m.Allows b := by
  have hsource := Source.ofBytes?_of_lt .file oddShards.source.size_lt
  have hshards := Shards.ofSource_of_lt oddShards.source (show (3 : UInt64) < 7 by decide)
    (by decide)
  have hstream : RecordStream.ofStore oddShards.store false = .ok oddStream :=
    RecordStream.ofStore_eq_ok_iff.mpr ⟨sampleHeader, by decide +kernel, rfl⟩
  have hread : oddStream.readAll.error = none := by decide +kernel
  have hformat : (ByteArray.extract ⟨oddDump.toArray⟩ 0
      (oddStream.header.length - Header.tailLength)).IsValidUTF8 := by decide +kernel
  have hall : (oddStream.readAll.state.toList.all fun x =>
      match x.1.body with
      | .string _ _ => decide (ByteArray.extract ⟨oddDump.toArray⟩
          (x.1.offset + recordHeaderLength + oddStream.header.idSize) x.2).IsValidUTF8
      | _ => true) = true := by decide +kernel
  have htexts : ∀ x ∈ oddStream.readAll.state, ∀ id value, x.1.body = .string id value →
      (ByteArray.extract ⟨oddDump.toArray⟩
        (x.1.offset + recordHeaderLength + oddStream.header.idSize) x.2).IsValidUTF8 := by
    intro x hx id value hbody
    have hvalid := List.all_eq_true.mp hall x (Array.mem_toList_iff.mpr hx)
    rw [hbody] at hvalid
    exact of_decide_eq_true hvalid
  exact ⟨hsource, hshards, hstream, hread, hformat, htexts,
    reencode hsource hshards hstream hread hformat htexts⟩

end HeapDump
