/-
HeapDump/Proofs/Record/Plan.lean

How the layouts are put together.

A decoder is a function, and what it does in between cannot be seen from outside.
`Plan refused d` says of a decoder `d` which of the few reading operations it runs, in
which order; every layout has one (`Layout.planPayload`, `Layout.planSubPayload`).  A
property of all layouts is then an induction over plans, one case for each operation,
instead of one proof for each layout.

Plans are data and not a proposition, since the layouts are told apart by their tags and a
plan is found by recursion on the layout.  The index `refused` collects the codes that a
decoder may refuse as types of values: none in the payload of a top-level record, those
that are no type in a class, and object types besides in a primitive array.

The first such property: a decoder never leaves its unit, and when it fails, it says that
the unit has the wrong length or that some byte of the unit is no type (`Plan.outcome`).
The second one is that it reads the same wherever its bytes stand, and is proved where it
is used.
-/
import HeapDump.Proofs.Record.Reading

namespace HeapDump

namespace Decoder

/-- What a decoder runs.  The codes that it may refuse as types of values are among
`refused`. -/
inductive Plan (refused : UInt8 → Prop) : {α : Type} → Decoder α → Type 1 where
  /-- An answer. -/
  | pure {α : Type} (a : α) : Plan refused (pure a : Decoder α)
  /-- One decoder after the other. -/
  | bind {α β : Type} {d : Decoder α} {f : α → Decoder β} (first : Plan refused d)
      (rest : ∀ a, Plan refused (f a)) : Plan refused (d >>= f)
  /-- The question for the width of identifiers, which is four bytes or eight. -/
  | width {α : Type} (f : Nat → Decoder α) (rest : ∀ w, w = 4 ∨ w = 8 → Plan refused (f w)) :
      Plan refused (read >>= fun e => f e.idSize)
  /-- The question for the number of bytes left. -/
  | remaining : Plan refused remaining
  /-- Bytes that are passed over. -/
  | skip {α : Type} {d : Decoder α} (length : Nat) (rest : Plan refused d) :
      Plan refused (take length >>= fun _ => d)
  | bytes (length : Nat) : Plan refused (bytes length)
  /-- As many bytes as a 32-bit number of narrow items has. -/
  | block {count size : Nat} (hcount : count < UInt32.size) (hsize : size ≤ 8) :
      Plan refused (bytes (count * size))
  | type (h : ∀ code, BasicType.ofCode? code = none → refused code) : Plan refused type
  | primitiveType (h : ∀ code, BasicType.ofCode? code = none → refused code)
      (hobject : refused BasicType.object.code) : Plan refused primitiveType
  | exactly {α : Type} {d : Decoder α} (body : Plan refused d) : Plan refused d.exactly

variable {refused : UInt8 → Prop} {α β : Type}

/-! ### Plans of fields -/

namespace Plan

/-- A decoder, and what `f` makes of its answer. -/
def map {d : Decoder α} (f : α → β) (plan : Plan refused d) :
    Plan refused (d >>= fun a => Pure.pure (f a)) :=
  plan.bind fun a => .pure (f a)

/-- A number is read as its bytes. -/
def number (k : Scalar) : Plan refused (number k) := number_eq k ▸ (bytes k.size).map k.decode

def ident : Plan refused ident :=
  .width (fun w => Decoder.bytes w >>= fun data => Pure.pure (UInt64.ofNat (BigEndian.ofBytes data)))
    fun w _ => (bytes w).map _

def idents {count : Nat} (h : count < UInt32.size) : Plan refused (idents count) :=
  .width (fun w => Decoder.bytes (count * w) >>= fun data => Pure.pure ((List.range count).map fun i =>
      UInt64.ofNat (BigEndian.ofBytes (data.extract (i * w) (i * w + w)))))
    fun _ hw => (block h (by omega)).map _

/-- No value is wider than eight bytes. -/
theorem size_le {w : Nat} (t : BasicType) (h : w = 4 ∨ w = 8) : t.size w ≤ 8 := by
  rcases h with rfl | rfl <;> cases t <;> decide

def value (t : BasicType) : Plan refused (value t) :=
  .width (fun w => Decoder.bytes (t.size w) >>= fun data =>
      Pure.pure (Value.ofBits t (BigEndian.ofBytes data)))
    fun w _ => (bytes (t.size w)).map _

/-- Repeated items are read one after the other. -/
def manyFrom {item : Decoder α} (plan : Plan refused item) :
    (count : Nat) → (items : Array α) → Plan refused (manyFrom item count items)
  | 0, items => .pure items
  | count + 1, items =>
    manyFrom_succ item count items ▸ plan.bind fun a => plan.manyFrom count (items.push a)

def counted {item : Decoder α} (plan : Plan refused item) : Plan refused (counted item) :=
  (number .uint16).bind fun count => (plan.manyFrom count.toNat #[]).map _

end Plan

end Decoder

/-! ### Plans of records -/

namespace Layout

open Decoder

variable {refused : UInt8 → Prop}

/-- What the payloads run, which refuse no type. -/
def planPayload : (tag : Tag) → Plan (fun _ => False) (payload tag)
  | .string => Plan.ident.bind fun _ => Plan.remaining.bind fun n => (Plan.bytes n).map _
  | .loadClass => (Plan.number .uint32).bind fun _ => Plan.ident.bind fun _ =>
      (Plan.number .uint32).bind fun _ => Plan.ident.map _
  | .unloadClass | .endThread => (Plan.number .uint32).map _
  | .stackFrame => Plan.ident.bind fun _ => Plan.ident.bind fun _ => Plan.ident.bind fun _ =>
      Plan.ident.bind fun _ => (Plan.number .uint32).bind fun _ => (Plan.number .int32).map _
  | .stackTrace => (Plan.number .uint32).bind fun _ => (Plan.number .uint32).bind fun _ =>
      (Plan.number .uint32).bind fun count => (Plan.idents count.toNat_lt).map _
  | .startThread => (Plan.number .uint32).bind fun _ => Plan.ident.bind fun _ =>
      (Plan.number .uint32).bind fun _ => Plan.ident.bind fun _ => Plan.ident.bind fun _ =>
      Plan.ident.map _
  | .heapDumpEnd => .pure _
  | .allocSites | .heapSummary | .cpuSamples | .controlSettings | .heapDump | .heapDumpSegment =>
      Plan.remaining.bind fun n => .skip n (.pure _)

/-- What a root runs behind its identifier. -/
def planRootDetails (id : ObjectId) : (kind : RootKind) → Plan refused (rootDetails kind id)
  | .jniGlobal => Plan.ident.map _
  | .jniLocal | .javaFrame | .jniMonitor | .threadObject =>
      (Plan.number .uint32).bind fun _ => (Plan.number .uint32).map _
  | .nativeStack | .threadBlock => (Plan.number .uint32).map _
  | .unknown | .systemClass | .busyMonitor | .internedString | .finalizing | .debugger
  | .referenceCleanup | .vmInternal | .unreachable => .pure _

/-- The codes that sub-records with a tag refuse as types: those outside the format, and
in arrays of values that of references. -/
def RefusedType (tag : SubTag) (code : UInt8) : Prop :=
  BasicType.ofCode? code = none
    ∨ (tag = .primitiveArrayDump ∨ tag = .primitiveArrayNoData) ∧ code = BasicType.object.code

/-- What the fields of a class run. -/
def planClassDump (h : ∀ code, BasicType.ofCode? code = none → refused code) :
    Plan refused classDump :=
  Plan.ident.bind fun _ => (Plan.number .uint32).bind fun _ => Plan.ident.bind fun _ =>
    Plan.ident.bind fun _ => Plan.ident.bind fun _ => Plan.ident.bind fun _ =>
    Plan.ident.bind fun _ => Plan.ident.bind fun _ => (Plan.number .uint32).bind fun _ =>
    (Plan.counted ((Plan.number .uint16).bind fun _ =>
      (Plan.type h).bind fun t => (Plan.value t).map _)).bind fun _ =>
    (Plan.counted (Plan.ident.bind fun _ =>
      (Plan.type h).bind fun t => (Plan.value t).map _)).bind fun _ =>
    (Plan.counted (Plan.ident.bind fun _ => (Plan.type h).map _)).map _

/-- What the fields of the sub-records run. -/
def planSubPayload : (tag : SubTag) → Plan (RefusedType tag) (subPayload tag)
  | .root kind => Plan.ident.bind fun id => (planRootDetails id kind).map _
  | .classDump => planClassDump fun _ => .inl
  | .instanceDump => Plan.ident.bind fun _ => (Plan.number .uint32).bind fun _ =>
      Plan.ident.bind fun _ => (Plan.number .uint32).bind fun n => (Plan.bytes n.toNat).map _
  | .objectArrayDump => Plan.ident.bind fun _ => (Plan.number .uint32).bind fun _ =>
      (Plan.number .uint32).bind fun n => Plan.ident.bind fun _ =>
      (Plan.idents n.toNat_lt).map _
  | .primitiveArrayDump => Plan.ident.bind fun id => (Plan.number .uint32).bind fun serial =>
      (Plan.number .uint32).bind fun n =>
      (Plan.primitiveType (fun _ => .inl) (.inr ⟨.inl rfl, rfl⟩)).bind fun t =>
      .width (fun w => bytes (n.toNat * t.size w) >>= fun data =>
          pure (HeapRecord.object (.primitives ⟨id, serial, t, n, some data⟩)))
        fun _ hw => (Plan.block n.toNat_lt (Plan.size_le t hw)).map _
  | .primitiveArrayNoData => Plan.ident.bind fun _ => (Plan.number .uint32).bind fun _ =>
      (Plan.number .uint32).bind fun _ =>
      (Plan.primitiveType (fun _ => .inl) (.inr ⟨.inr rfl, rfl⟩)).map _
  | .heapDumpInfo => (Plan.number .uint32).bind fun _ => Plan.ident.map _

end Layout

/-! ### Staying inside -/

/-- The extent lies in `data`, behind its first byte, and all places are words. -/
structure Extent.Inside (data : ByteArray) (e : Extent) : Prop where
  serves : e.store.Serves data
  idSize_eq : e.idSize = 4 ∨ e.idSize = 8
  start_pos : 0 < e.start
  start_le : e.start ≤ e.stop
  stop_le : e.stop ≤ data.size
  size_lt : data.size < UInt64.size

/-- What can be wrong with the rest of a unit, from `p` on. -/
def Extent.Fault (data : ByteArray) (refused : UInt8 → Prop) (e : Extent) (p : Nat) :
    Error → Prop
  | .lengthMismatch offset declared consumed => offset = e.record ∧ declared ≠ consumed
  | .unknownType code offset =>
    p ≤ offset ∧ offset < e.stop ∧ Span data offset (offset + 1) [code] ∧ refused code
  | _ => False

/-- What is wrong with the end of a unit is wrong with the unit. -/
theorem Extent.Fault.mono {data : ByteArray} {refused : UInt8 → Prop} {e : Extent} {p q : Nat}
    {err : Error} (h : e.Fault data refused q err) (hle : p ≤ q) :
    e.Fault data refused p err := by
  cases err with
  | unknownType code offset => exact ⟨hle.trans h.1, h.2⟩
  | lengthMismatch => exact h
  | _ => exact h.elim

namespace Decoder

variable {refused : UInt8 → Prop} {α β : Type} {data : ByteArray} {e : Extent} {p q : Nat}

/-- A decoder moves forward inside its unit or finds something wrong with it. -/
def Outcome (data : ByteArray) (refused : UInt8 → Prop) (e : Extent) (p : Nat) :
    Except Error (α × Nat) → Prop
  | .ok (_, q) => p ≤ q ∧ q ≤ e.stop
  | .error err => e.Fault data refused p err

/-- What comes of the end of a unit comes of the unit. -/
theorem Outcome.mono {result : Except Error (α × Nat)} (h : Outcome data refused e q result)
    (hle : p ≤ q) : Outcome data refused e p result := by
  rcases result with err | ⟨a, stop⟩
  · exact Extent.Fault.mono h hle
  · exact ⟨hle.trans h.1, h.2⟩

/-! #### What the operations give -/

theorem bind_eq_of_ok {d : Decoder α} {f : α → Decoder β} {a : α} (h : d e p = .ok (a, q)) :
    (d >>= f) e p = f a e q := by
  show (d e p >>= fun x => f x.1 e x.2) = _
  rw [h]
  rfl

theorem bind_eq_of_error {d : Decoder α} {f : α → Decoder β} {err : Error}
    (h : d e p = .error err) : (d >>= f) e p = .error err := by
  show (d e p >>= fun x => f x.1 e x.2) = _
  rw [h]
  rfl

theorem take_eq_of_le {n : Nat} (hn : p + n ≤ e.stop) : take n e p = .ok (p, p + n) := if_pos hn

theorem take_eq_of_lt {n : Nat} (hn : ¬ p + n ≤ e.stop) :
    take n e p = .error (mismatch e (min (p - e.start + n) wordMax)) := if_neg hn

/-- Bytes inside the unit are read. -/
theorem bytes_eq_ok (h : e.Inside data) {n : Nat} (hn : p + n ≤ e.stop) :
    bytes n e p = .ok (data.extract p (p + n), p + n) := by
  rw [bytes_eq hn, h.serves.read_eq (hn.trans h.stop_le)]
  rfl

theorem byte_eq_ok (h : e.Inside data) (hp : p < e.stop) :
    ∃ code, byte e p = .ok (code, p + 1) ∧ Span data p (p + 1) [code] := by
  obtain ⟨bs, hlen, hspan⟩ := exists_span (show p + 1 ≤ data.size from Nat.le_trans hp h.stop_le)
  obtain ⟨code, rfl⟩ := List.length_eq_one_iff.mp hlen
  refine ⟨code, ?_, hspan⟩
  exact (reads_byte.ok_iff h.serves rfl h.stop_le (Nat.le_of_lt hp)).mpr ⟨hp, _, rfl, hspan⟩

theorem byte_eq_error (hp : ¬ p < e.stop) :
    byte e p = .error (mismatch e (min (p - e.start + 1) wordMax)) := by
  rw [byte, number_eq]
  exact bind_eq_of_error (bytes_eq_error hp)

/-- A type is looked up by the next byte. -/
theorem type_eq (e : Extent) (p : Nat) : type e p =
    (match byte e p with
      | .ok (code, q) =>
        match BasicType.ofCode? code with
        | some t => .ok (t, q)
        | none => .error (.unknownType code p)
      | .error err => .error err) := by
  show (byte >>= fun code => match BasicType.ofCode? code with
    | some t => Pure.pure t
    | none => throw (.unknownType code p) : Decoder BasicType) e p = _
  rcases hbyte : byte e p with err | ⟨code, q⟩
  · exact bind_eq_of_error hbyte
  · rw [bind_eq_of_ok hbyte]
    cases hcode : BasicType.ofCode? code with
    | none =>
      simp only [hcode]
      rfl
    | some t =>
      simp only [hcode]
      rfl

/-- The type of references is refused where a value stands. -/
theorem primitiveType_eq (e : Extent) (p : Nat) : primitiveType e p =
    (match type e p with
      | .ok (t, q) => if t = .object then .error (.unknownType t.code p) else .ok (t, q)
      | .error err => .error err) := by
  show (type >>= fun t => (do if t = .object then throw (.unknownType t.code p)
                              return t : Decoder BasicType)) e p = _
  rcases htype : type e p with err | ⟨t, q⟩
  · exact bind_eq_of_error htype
  · rw [bind_eq_of_ok htype]
    by_cases ht : t = .object
    · simp only [if_pos ht]
      rfl
    · simp only [if_neg ht]
      rfl

/-- Bytes that are left over are refused. -/
theorem exactly_eq (d : Decoder α) (e : Extent) (p : Nat) : d.exactly e p =
    (match d e p with
      | .ok (a, q) => if q ≠ e.stop then .error (mismatch e (q - e.start)) else .ok (a, q)
      | .error err => .error err) := by
  show (d >>= fun a => (do let stop ← position
                           if stop ≠ e.stop then throw (mismatch e (stop - e.start))
                           return a : Decoder α)) e p = _
  rcases hd : d e p with err | ⟨a, q⟩
  · exact bind_eq_of_error hd
  · rw [bind_eq_of_ok hd]
    show (do if q ≠ e.stop then throw (mismatch e (q - e.start))
             return a : Decoder α) e q = _
    by_cases hq : q ≠ e.stop
    · simp only [if_pos hq]
      rfl
    · simp only [if_neg hq]
      rfl

/-! #### What the operations make of a unit -/

/-- Bytes that are not there make a unit longer than it is.  The first byte of `data` is in
no unit, so the largest word is no length of a unit. -/
theorem fault_of_lt (refused : UInt8 → Prop) (h : e.Inside data) {n : Nat} (hp : e.start ≤ p)
    (hn : ¬ p + n ≤ e.stop) :
    e.Fault data refused p (mismatch e (min (p - e.start + n) wordMax)) := by
  refine ⟨rfl, ?_⟩
  have h1 := h.start_pos
  have h2 := h.start_le
  have h3 := h.stop_le
  have h4 := h.size_lt
  rw [wordMax]
  omega

theorem outcome_bytes (h : e.Inside data) (hp : e.start ≤ p) (n : Nat) :
    Outcome data refused e p (bytes n e p) := by
  by_cases hn : p + n ≤ e.stop
  · rw [bytes_eq_ok h hn]
    exact ⟨Nat.le_add_right p n, hn⟩
  · rw [bytes_eq_error hn]
    exact fault_of_lt refused h hp hn

theorem outcome_type (h : e.Inside data) (hp : e.start ≤ p)
    (hrefused : ∀ code, BasicType.ofCode? code = none → refused code) :
    Outcome data refused e p (type e p) := by
  rw [type_eq]
  by_cases hlt : p < e.stop
  · obtain ⟨code, hbyte, hspan⟩ := byte_eq_ok h hlt
    rw [hbyte]
    rcases hcode : BasicType.ofCode? code with _ | t
    · simp only [hcode]
      exact ⟨Nat.le_refl p, hlt, hspan, hrefused code hcode⟩
    · simp only [hcode]
      exact ⟨Nat.le_succ p, hlt⟩
  · rw [byte_eq_error hlt]
    exact fault_of_lt refused h hp hlt

theorem outcome_primitiveType (h : e.Inside data) (hp : e.start ≤ p)
    (hrefused : ∀ code, BasicType.ofCode? code = none → refused code)
    (hobject : refused BasicType.object.code) :
    Outcome data refused e p (primitiveType e p) := by
  have htype := outcome_type h hp hrefused
  rw [primitiveType_eq]
  rcases hread : type e p with err | ⟨t, q⟩
  · rw [hread] at htype
    exact htype
  · rw [hread] at htype
    by_cases ht : t = .object
    · -- the byte that was read as the type is refused after all
      obtain ⟨hq, bs, rfl, hspan⟩ :=
        (reads_type.ok_iff h.serves rfl h.stop_le (htype.1.trans htype.2)).mp hread
      have hlen := hspan.length_eq
      simp only [if_pos ht]
      refine ⟨Nat.le_refl p, Nat.lt_of_lt_of_le ?_ hq, ?_, ht ▸ hobject⟩
      · exact Nat.lt_of_lt_of_eq (Nat.lt_succ_self p) hlen
      · exact hlen ▸ hspan
    · simp only [if_neg ht]
      exact htype

/-- **A decoder with a plan stays inside its unit**, and when it fails, something is wrong
with the unit. -/
theorem Plan.outcome {d : Decoder α} (plan : Plan refused d) (h : e.Inside data)
    (hp : e.start ≤ p) (hq : p ≤ e.stop) : Outcome data refused e p (d e p) := by
  induction plan generalizing p with
  | pure a => exact ⟨Nat.le_refl p, hq⟩
  -- an error of the first decoder is that of both; otherwise the second begins inside the unit
  | @bind α β d f first rest ihd ihf =>
    have hfirst := ihd hp hq
    rcases hd : d e p with err | ⟨a, mid⟩
    · rw [hd] at hfirst
      rw [bind_eq_of_error hd]
      exact hfirst
    · rw [hd] at hfirst
      rw [bind_eq_of_ok hd]
      exact (ihf a (hp.trans hfirst.1) hfirst.2).mono hfirst.1
  | width f rest ih => exact ih e.idSize h.idSize_eq hp hq
  | remaining => exact ⟨Nat.le_refl p, hq⟩
  | @skip α d n rest ih =>
    by_cases hn : p + n ≤ e.stop
    · rw [bind_eq_of_ok (take_eq_of_le hn)]
      exact (ih (Nat.le_add_right_of_le hp) hn).mono (Nat.le_add_right p n)
    · rw [bind_eq_of_error (take_eq_of_lt hn)]
      exact fault_of_lt refused h hp hn
  | bytes n => exact outcome_bytes h hp n
  | @block count size hcount hsize => exact outcome_bytes h hp (count * size)
  | type hrefused => exact outcome_type h hp hrefused
  | primitiveType hrefused hobject => exact outcome_primitiveType h hp hrefused hobject
  -- bytes that are left over lie inside the unit, so its length is the fault
  | @exactly α d body ih =>
    have hbody := ih hp hq
    rw [exactly_eq]
    rcases hd : d e p with err | ⟨a, stop⟩
    · rw [hd] at hbody
      exact hbody
    · rw [hd] at hbody
      by_cases hstop : stop ≠ e.stop
      · simp only [if_pos hstop]
        refine ⟨rfl, ?_⟩
        have h1 := h.start_le
        have h2 := hbody.1
        omega
      · simp only [if_neg hstop]
        exact hbody

end Decoder

/-- What follows the tag of a sub-record is read by the plan of the tag. -/
theorem Layout.subRecord_eq (e : Extent) (p : Nat) : subRecord e p =
    (match Decoder.byte e p with
      | .ok (code, q) =>
        match SubTag.ofCode? code with
        | some tag => subPayload tag e q
        | none => .error (.unknownTag code p)
      | .error err => .error err) := by
  show (Decoder.byte >>= fun code => match SubTag.ofCode? code with
    | some tag => subPayload tag
    | none => throw (.unknownTag code p) : Decoder HeapRecord) e p = _
  rcases hbyte : Decoder.byte e p with err | ⟨code, q⟩
  · exact Decoder.bind_eq_of_error hbyte
  · rw [Decoder.bind_eq_of_ok hbyte]
    cases hcode : SubTag.ofCode? code with
    | none =>
      simp only [hcode]
      rfl
    | some tag => simp only [hcode]

end HeapDump
