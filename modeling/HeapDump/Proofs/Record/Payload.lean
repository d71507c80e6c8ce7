/-
HeapDump/Proofs/Record/Payload.lean

What the payloads of top-level records say.

`Body.Spells idSize tag b bs` is the relation between a record and the bytes of
its payload.  There are three kinds of it: the text of a string may have several
spellings, since decoding replaces what is no UTF-8; a payload that is passed
over tells no more than its length; and everything else is written in one way,
namely as `Body.payload?` has it.

A layout that has to take its whole payload gives exactly the records that the
payload spells (`readsAll_payload`).  There is one lemma for each layout, put
together from its fields, and the main one goes through the tags.  The layouts
that do not look at the end of their unit are `Reads`, and become `ReadsAll` by
the check that nothing is left over.
-/
import HeapDump.Proofs.Record.Grammar

namespace HeapDump

/-- The payload `bs` of a record with the tag `tag` says `b`. -/
def Body.Spells (idSize : Nat) (tag : Tag) (b : Body) (bs : List UInt8) : Prop :=
  match b with
  | string id value =>
    tag = .string ∧ Fits idSize id ∧
      ∃ text : List UInt8, value = Utf8.decodeLossy ⟨text.toArray⟩
        ∧ bs = Written.ident idSize id ++ text
  | skipped code length => tag.isPassedOver = true ∧ code = tag.code ∧ length = bs.length
  | _ => b.WellFormed idSize ∧ b.payload? idSize = some (tag, bs)

namespace Layout

open Decoder Written

variable {idSize : Nat}

/-! ### Records with fields -/

theorem readsAll_string (hw : idSize ≤ 8) :
    ReadsAll idSize string fun b bs => b.Spells idSize .string bs := by
  refine ReadsAll.congr ((reads_ident hw).bindAll fun id =>
    readsAll_remaining fun data => Body.string id (Utf8.decodeLossy data)) fun b bs => ?_
  constructor
  · rintro ⟨id, _, text, rfl, ⟨hid, rfl⟩, rfl⟩
    exact ⟨rfl, hid, text, rfl, rfl⟩
  · intro h
    cases b with
    | string id value =>
      obtain ⟨-, hid, text, rfl, rfl⟩ := h
      exact ⟨id, _, text, rfl, ⟨hid, rfl⟩, rfl⟩
    | skipped => cases h.1
    | _ => cases h.2

theorem reads_loadClass (hw : idSize ≤ 8) :
    Reads idSize loadClass fun b bs => b.Spells idSize .loadClass bs := by
  refine Reads.congr (Reads.afterWord fun serial => Reads.afterIdent hw fun classId _ =>
    Reads.afterWord fun stackSerial => (reads_ident hw).map _) fun b bs => ?_
  constructor
  · rintro ⟨serial, _, rfl, classId, _, hclass, rfl, stackSerial, _, rfl, nameId, rfl, hname, rfl⟩
    refine ⟨⟨hclass, hname⟩, ?_⟩
    simp only [Body.payload?, List.append_assoc]
  · intro h
    cases b with
    | loadClass serial classId stackSerial nameId =>
      obtain ⟨⟨hclass, hname⟩, hbs⟩ := h
      cases hbs
      simp only [List.append_assoc]
      exact ⟨serial, _, rfl, classId, _, hclass, rfl, stackSerial, _, rfl, nameId, rfl, hname, rfl⟩
    -- the other records have another tag
    | string | skipped => cases h.1
    | _ => cases h.2

theorem reads_stackFrame (hw : idSize ≤ 8) :
    Reads idSize stackFrame fun b bs => b.Spells idSize .stackFrame bs := by
  refine Reads.congr (Reads.afterIdent hw fun frameId _ => Reads.afterIdent hw fun methodNameId _ =>
    Reads.afterIdent hw fun signatureId _ => Reads.afterIdent hw fun sourceFileId _ =>
    Reads.afterWord fun classSerial => (reads_number .int32).map _) fun b bs => ?_
  constructor
  · rintro ⟨frameId, _, hframe, rfl, methodNameId, _, hmethod, rfl, signatureId, _, hsignature, rfl,
      sourceFileId, _, hsource, rfl, classSerial, _, rfl, line, rfl, rfl⟩
    refine ⟨⟨hframe, hmethod, hsignature, hsource⟩, ?_⟩
    simp only [Body.payload?, List.append_assoc]
  · intro h
    cases b with
    | stackFrame f =>
      obtain ⟨⟨hframe, hmethod, hsignature, hsource⟩, hbs⟩ := h
      cases hbs
      simp only [List.append_assoc]
      exact ⟨f.frameId, _, hframe, rfl, f.methodNameId, _, hmethod, rfl, f.signatureId, _,
        hsignature, rfl, f.sourceFileId, _, hsource, rfl, f.classSerial, _, rfl, f.line, rfl, rfl⟩
    | string | skipped => cases h.1
    | _ => cases h.2

theorem reads_stackTrace (hw : idSize ≤ 8) :
    Reads idSize stackTrace fun b bs => b.Spells idSize .stackTrace bs := by
  refine Reads.congr (Reads.afterWord fun serial => Reads.afterWord fun threadSerial =>
    Reads.afterWord fun length => (reads_idents hw length.toNat).map _) fun b bs => ?_
  constructor
  · rintro ⟨serial, _, rfl, threadSerial, _, rfl, length, _, rfl, frameIds, rfl, hlen, hframes,
      rfl⟩
    refine ⟨⟨hlen ▸ length.toNat_lt, hframes⟩, ?_⟩
    rw [word_eq_count hlen]
    simp only [Body.payload?, List.append_assoc]
  · intro h
    cases b with
    | stackTrace t =>
      obtain ⟨⟨hlt, hframes⟩, hbs⟩ := h
      cases hbs
      simp only [List.append_assoc]
      exact ⟨t.serial, _, rfl, t.threadSerial, _, rfl, UInt32.ofNat t.frameIds.length, _, rfl,
        t.frameIds, rfl, (UInt32.toNat_ofNat_of_lt' hlt).symm, hframes, rfl⟩
    | string | skipped => cases h.1
    | _ => cases h.2

theorem reads_startThread (hw : idSize ≤ 8) :
    Reads idSize startThread fun b bs => b.Spells idSize .startThread bs := by
  refine Reads.congr (Reads.afterWord fun serial => Reads.afterIdent hw fun threadId _ =>
    Reads.afterWord fun stackSerial => Reads.afterIdent hw fun nameId _ =>
    Reads.afterIdent hw fun groupNameId _ => (reads_ident hw).map _) fun b bs => ?_
  constructor
  · rintro ⟨serial, _, rfl, threadId, _, hthread, rfl, stackSerial, _, rfl, nameId, _, hname, rfl,
      groupNameId, _, hgroup, rfl, parentGroupNameId, rfl, hparent, rfl⟩
    refine ⟨⟨hthread, hname, hgroup, hparent⟩, ?_⟩
    simp only [Body.payload?, List.append_assoc]
  · intro h
    cases b with
    | startThread t =>
      obtain ⟨⟨hthread, hname, hgroup, hparent⟩, hbs⟩ := h
      cases hbs
      simp only [List.append_assoc]
      exact ⟨t.serial, _, rfl, t.threadId, _, hthread, rfl, t.stackSerial, _, rfl, t.nameId, _,
        hname, rfl, t.groupNameId, _, hgroup, rfl, t.parentGroupNameId, rfl, hparent, rfl⟩
    | string | skipped => cases h.1
    | _ => cases h.2

/-- A payload of one word tells the record that is made of the word, if all records with the
tag are made so. -/
theorem reads_ofWord {tag : Tag} (record : UInt32 → Body) (hrecord : ∀ {b bs},
      b.Spells idSize tag bs ↔ ∃ serial, record serial = b ∧ Written.word serial = bs) :
    Reads idSize (word >>= fun serial => pure (record serial)) fun b bs =>
      b.Spells idSize tag bs := by
  refine Reads.congr ((reads_number .uint32).map record) fun b bs => ?_
  rw [hrecord]
  constructor
  · rintro ⟨serial, rfl, rfl⟩
    exact ⟨serial, rfl, rfl⟩
  · rintro ⟨serial, rfl, rfl⟩
    exact ⟨serial, rfl, rfl⟩

theorem reads_heapDumpEnd : Reads idSize (payload .heapDumpEnd) fun b bs =>
    b.Spells idSize .heapDumpEnd bs := by
  refine Reads.congr (reads_pure Body.heapDumpEnd) fun b bs => ?_
  constructor
  · rintro ⟨rfl, rfl⟩
    exact ⟨trivial, rfl⟩
  · intro h
    cases b with
    | heapDumpEnd =>
      cases h.2
      exact ⟨rfl, rfl⟩
    | string | skipped => cases h.1
    | _ => cases h.2

/-! ### Records that are passed over -/

/-- Of a payload that is passed over only the length is seen. -/
theorem readsAll_skipped (code : UInt8) :
    ReadsAll idSize (skipped code) fun b bs => b = .skipped code bs.length := by
  refine ⟨fun {e data} hs hid hstop p b hp => ?_⟩
  show (take (e.stop - p) >>= fun _ => pure (Body.skipped code (e.stop - p))) e p = _ ↔ _
  simp only [bind_eq_ok_iff, take_eq_ok_iff, pure_eq_ok_iff]
  have hspan := span_extract hp hstop
  have hlen := hspan.length_eq
  constructor
  · rintro ⟨_, _, -, rfl, -⟩
    exact ⟨_, congrArg (Body.skipped code) (by omega), hspan⟩
  · rintro ⟨bs, rfl, hspan'⟩
    have hlen' := hspan'.length_eq
    exact ⟨p, e.stop, ⟨rfl, by omega, Nat.le_refl _⟩, congrArg (Body.skipped code) (by omega), rfl⟩

theorem spells_of_isPassedOver {tag : Tag} (htag : tag.isPassedOver = true) {b : Body}
    {bs : List UInt8} : b.Spells idSize tag bs ↔ b = .skipped tag.code bs.length := by
  constructor
  · intro h
    have htag' := htag
    cases b with
    | skipped code length =>
      obtain ⟨-, rfl, rfl⟩ := h
      rfl
    | string =>
      obtain ⟨rfl, -⟩ := h
      cases htag
    | _ => cases h.2 <;> cases htag
  · rintro rfl
    exact ⟨htag, rfl, rfl⟩

/-! ### All top-level records -/

/-- **A payload is read as a record exactly if it spells the record.** -/
theorem readsAll_payload (hw : idSize ≤ 8) {tag : Tag} (htag : tag.isHeapDump = false) :
    ReadsAll idSize (payload tag) fun b bs => b.Spells idSize tag bs := by
  have hskipped : ∀ {tag : Tag}, tag.isPassedOver = true →
      ReadsAll idSize (skipped tag.code) fun b bs => b.Spells idSize tag bs := fun h =>
    (readsAll_skipped _).congr fun b bs => (spells_of_isPassedOver h).symm
  cases tag with
  | string => exact readsAll_string hw
  | loadClass => exact (reads_loadClass hw).readsAll
  | unloadClass | endThread =>
    -- the two records of a single word
    refine (reads_ofWord _ fun {b bs} => ?_).readsAll
    cases b <;> simp [Body.Spells, Body.WellFormed, Body.payload?, Tag.isPassedOver]
  | stackFrame => exact (reads_stackFrame hw).readsAll
  | stackTrace => exact (reads_stackTrace hw).readsAll
  | startThread => exact (reads_startThread hw).readsAll
  | heapDumpEnd => exact reads_heapDumpEnd.readsAll
  | allocSites | heapSummary | cpuSamples | controlSettings => exact hskipped rfl
  | heapDump | heapDumpSegment => cases htag

end Layout

end HeapDump
