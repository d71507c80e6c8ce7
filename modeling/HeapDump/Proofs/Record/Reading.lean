/-
HeapDump/Proofs/Record/Reading.lean

Which bytes a decoder takes, and for what.

`Reads idSize d spelling` says all about a decoder `d` that succeeds: over any unit
of a dump it gives `a` and stops at `q` exactly if the bytes from its position
to `q` are a spelling of `a` and `q` is not behind the unit.

Being an equivalence, the property holds in both directions at once: what is read
was spelled, and what is spelled is read.  It goes through sequences (`Reads.bind`)
and repetitions (`reads_many`), so that the spellings of a record are those of its
fields, one after the other.  The basic decoders are numbers (`reads_number`),
identifiers (`reads_ident`, with `ident_spelling`), values (`value_spelling`, one
case for each type) and looked-up codes (`Reads.afterCode`).

`ReadsAll` is the same for a decoder that looks at the end of its unit and takes
all bytes that are left; it can only come last (`Reads.bindAll`).
-/
import HeapDump.Proofs.Bytes.Span
import HeapDump.Proofs.Number.Scalar
import HeapDump.Proofs.Record.Marked
import HeapDump.Proofs.Record.WellFormed

namespace HeapDump

namespace Decoder

open Written

variable {α β : Type} {idSize : Nat}

/-! ### Results of decoders -/

theorem pure_eq_ok_iff {a b : α} {e : Extent} {p q : Nat} :
    (pure a : Decoder α) e p = .ok (b, q) ↔ b = a ∧ q = p := by
  show Except.ok (a, p) = Except.ok (b, q) ↔ _
  simp [eq_comm]

theorem bind_eq_ok_iff {d : Decoder α} {f : α → Decoder β} {e : Extent} {p q : Nat} {b : β} :
    (d >>= f) e p = .ok (b, q) ↔ ∃ a mid, d e p = .ok (a, mid) ∧ f a e mid = .ok (b, q) := by
  show (d e p >>= fun x => f x.1 e x.2) = _ ↔ _
  rcases h : d e p with err | ⟨a, mid⟩
  · simp [bind, Except.bind]
  · simp [bind, Except.bind]

theorem take_eq_ok_iff {n : Nat} {e : Extent} {p q at' : Nat} :
    take n e p = .ok (at', q) ↔ at' = p ∧ q = p + n ∧ q ≤ e.stop := by
  unfold take
  split
  · next h => simp; omega
  · next h => simp; omega

/-! ### Decoders that read a run of bytes -/

/-- The decoder succeeds exactly on the spellings of what it gives. -/
structure Reads (idSize : Nat) (d : Decoder α) (spelling : α → List UInt8 → Prop) : Prop where
  ok_iff : ∀ {e : Extent} {data : ByteArray}, e.store.Serves data → e.idSize = idSize →
    e.stop ≤ data.size → ∀ {p q : Nat} {a : α}, p ≤ e.stop →
      (d e p = .ok (a, q) ↔ q ≤ e.stop ∧ ∃ bs, spelling a bs ∧ Span data p q bs)

/-- The decoder succeeds and takes all bytes that are left exactly if these are a
spelling of what it gives. -/
structure ReadsAll (idSize : Nat) (d : Decoder α) (spelling : α → List UInt8 → Prop) :
    Prop where
  ok_iff : ∀ {e : Extent} {data : ByteArray}, e.store.Serves data → e.idSize = idSize →
    e.stop ≤ data.size → ∀ {p : Nat} {a : α}, p ≤ e.stop →
      (d e p = .ok (a, e.stop) ↔ ∃ bs, spelling a bs ∧ Span data p e.stop bs)

theorem Reads.congr {d : Decoder α} {S T : α → List UInt8 → Prop} (h : Reads idSize d S)
    (hST : ∀ a bs, S a bs ↔ T a bs) : Reads idSize d T := by
  obtain rfl : S = T := funext fun a => funext fun bs => propext (hST a bs)
  exact h

theorem ReadsAll.congr {d : Decoder α} {S T : α → List UInt8 → Prop} (h : ReadsAll idSize d S)
    (hST : ∀ a bs, S a bs ↔ T a bs) : ReadsAll idSize d T := by
  obtain rfl : S = T := funext fun a => funext fun bs => propext (hST a bs)
  exact h

theorem Reads.readsAll {d : Decoder α} {S : α → List UInt8 → Prop} (h : Reads idSize d S) :
    ReadsAll idSize d S := by
  refine ⟨fun hs hid hstop p a hp => ?_⟩
  rw [h.ok_iff hs hid hstop hp]
  simp

/-- Giving an answer takes no bytes. -/
theorem reads_pure (a : α) : Reads idSize (pure a) fun b bs => b = a ∧ bs = [] := by
  refine ⟨fun hs hid hstop p q b hp => ?_⟩
  rw [pure_eq_ok_iff]
  constructor
  · rintro ⟨rfl, rfl⟩
    exact ⟨hp, [], ⟨rfl, rfl⟩, span_nil_iff.mpr ⟨rfl, by omega⟩⟩
  · rintro ⟨-, bs, ⟨rfl, rfl⟩, hspan⟩
    exact ⟨rfl, (span_nil_iff.mp hspan).1.symm⟩

/-- What is read one after the other is spelled one after the other. -/
theorem Reads.bind {d : Decoder α} {f : α → Decoder β} {S : α → List UInt8 → Prop}
    {T : α → β → List UInt8 → Prop} (hd : Reads idSize d S)
    (hf : ∀ a xs, S a xs → Reads idSize (f a) (T a)) :
    Reads idSize (d >>= f) fun b bs => ∃ a xs ys, bs = xs ++ ys ∧ S a xs ∧ T a b ys := by
  refine ⟨fun hs hid hstop p q b hp => ?_⟩
  rw [bind_eq_ok_iff]
  constructor
  -- the second decoder begins where the first one stops, inside the unit
  · rintro ⟨a, mid, h1, h2⟩
    obtain ⟨hmid, xs, hxs, hspan1⟩ := (hd.ok_iff hs hid hstop hp).mp h1
    obtain ⟨hq, ys, hys, hspan2⟩ := ((hf a xs hxs).ok_iff hs hid hstop hmid).mp h2
    exact ⟨hq, xs ++ ys, ⟨a, xs, ys, rfl, hxs, hys⟩, hspan1.append hspan2⟩
  · rintro ⟨hq, _, ⟨a, xs, ys, rfl, hxs, hys⟩, hspan⟩
    obtain ⟨mid, hspan1, hspan2⟩ := span_append_iff.mp hspan
    have hmid : mid ≤ _ := Nat.le_trans hspan2.start_le hq
    exact ⟨a, mid, (hd.ok_iff hs hid hstop hp).mpr ⟨hmid, xs, hxs, hspan1⟩,
      ((hf a xs hxs).ok_iff hs hid hstop hmid).mpr ⟨hq, ys, hys, hspan2⟩⟩

/-- The same where the last decoder takes all bytes that are left. -/
theorem Reads.bindAll {d : Decoder α} {f : α → Decoder β} {S : α → List UInt8 → Prop}
    {T : α → β → List UInt8 → Prop} (hd : Reads idSize d S)
    (hf : ∀ a, ReadsAll idSize (f a) (T a)) :
    ReadsAll idSize (d >>= f) fun b bs => ∃ a xs ys, bs = xs ++ ys ∧ S a xs ∧ T a b ys := by
  refine ⟨fun hs hid hstop p b hp => ?_⟩
  rw [bind_eq_ok_iff]
  constructor
  · rintro ⟨a, mid, h1, h2⟩
    obtain ⟨hmid, xs, hxs, hspan1⟩ := (hd.ok_iff hs hid hstop hp).mp h1
    obtain ⟨ys, hys, hspan2⟩ := ((hf a).ok_iff hs hid hstop hmid).mp h2
    exact ⟨xs ++ ys, ⟨a, xs, ys, rfl, hxs, hys⟩, hspan1.append hspan2⟩
  · rintro ⟨_, ⟨a, xs, ys, rfl, hxs, hys⟩, hspan⟩
    obtain ⟨mid, hspan1, hspan2⟩ := span_append_iff.mp hspan
    have hmid : mid ≤ _ := hspan2.start_le
    exact ⟨a, mid, (hd.ok_iff hs hid hstop hp).mpr ⟨hmid, xs, hxs, hspan1⟩,
      ((hf a).ok_iff hs hid hstop hmid).mpr ⟨ys, hys, hspan2⟩⟩

/-! ### Bytes and numbers -/

theorem bytes_eq {n : Nat} {e : Extent} {p : Nat} (h : p + n ≤ e.stop) :
    bytes n e p = (e.store.read p n).map (·, p + n) := by
  show (take n e p >>= fun x => _) = _
  rw [take, if_pos h]
  show (e.store.read p n >>= fun b => pure (b, p + n)) = _
  cases e.store.read p n <;> rfl

theorem bytes_eq_error {n : Nat} {e : Extent} {p : Nat} (h : ¬ p + n ≤ e.stop) :
    bytes n e p = .error (mismatch e (min (p - e.start + n) wordMax)) := by
  show (take n e p >>= fun x => _) = _
  rw [take, if_neg h]
  rfl

/-- A number is decoded from the next bytes of its kind. -/
theorem number_eq (k : Scalar) : number k = bytes k.size >>= fun b => pure (k.decode b) := by
  funext e p
  by_cases h : p + k.size ≤ e.stop
  · show (take k.size e p >>= fun x => _) = (bytes k.size e p >>= fun x => _)
    rw [bytes_eq h, take, if_pos h]
    show (e.store.readNumber k p >>= fun b => pure (b, p + k.size)) = _
    rw [ByteStore.readNumber]
    cases e.store.read p k.size <;> rfl
  · show (take k.size e p >>= fun x => _) = ((take k.size e p >>= fun x => _) >>= fun x => _)
    rw [take, if_neg h]
    rfl

/-- The next `n` bytes are any `n` bytes. -/
theorem reads_bytes (n : Nat) :
    Reads idSize (bytes n) fun b bs => bs.length = n ∧ b = ⟨bs.toArray⟩ := by
  refine ⟨fun {e data} hs hid hstop p q b hp => ?_⟩
  by_cases h : p + n ≤ e.stop
  · have hspan := span_extract (Nat.le_add_right p n) (Nat.le_trans h hstop)
    rw [bytes_eq h, hs.read_eq (Nat.le_trans h hstop)]
    constructor
    · intro heq
      obtain ⟨rfl, rfl⟩ := Prod.mk.inj (Except.ok.inj heq)
      exact ⟨h, _, ⟨Nat.add_left_cancel hspan.length_eq, rfl⟩, hspan⟩
    · rintro ⟨-, bs, ⟨rfl, rfl⟩, hspan'⟩
      obtain rfl := hspan'.length_eq
      rw [hspan'.extract_eq]
      rfl
  · rw [bytes_eq_error h]
    constructor
    · intro heq
      cases heq
    · rintro ⟨hq, bs, ⟨rfl, -⟩, hspan⟩
      exact absurd (hspan.length_eq ▸ hq) h

/-- What `f` makes of an answer. -/
theorem Reads.map {d : Decoder α} {S : α → List UInt8 → Prop} (hd : Reads idSize d S)
    (f : α → β) :
    Reads idSize (d >>= fun a => pure (f a)) fun b bs => ∃ a, b = f a ∧ S a bs :=
  (hd.bind fun a _ _ => reads_pure (f a)).congr fun b bs => by
    constructor
    · rintro ⟨a, xs, ys, rfl, hxs, rfl, rfl⟩
      exact ⟨a, rfl, by rwa [List.append_nil]⟩
    · rintro ⟨a, rfl, hbs⟩
      exact ⟨a, bs, [], (List.append_nil bs).symm, hbs, rfl, rfl⟩

theorem reads_number (k : Scalar) : Reads idSize (number k) fun x bs => bs = k.encode x := by
  rw [number_eq]
  refine ((reads_bytes k.size).map k.decode).congr fun x bs => ?_
  rw [← k.eq_encode_iff]
  constructor
  · rintro ⟨b, rfl, hlen, rfl⟩
    exact ⟨hlen, rfl⟩
  · rintro ⟨hlen, rfl⟩
    exact ⟨_, rfl, hlen, rfl⟩

/-- A 32-bit number stands in front of what follows. -/
theorem Reads.afterWord {f : UInt32 → Decoder α} {T : UInt32 → α → List UInt8 → Prop}
    (hf : ∀ x, Reads idSize (f x) (T x)) :
    Reads idSize (word >>= f) fun a bs => ∃ x rest, bs = Written.word x ++ rest ∧ T x a rest :=
  ((reads_number .uint32).bind fun x _ _ => hf x).congr fun a bs => by
    constructor
    · rintro ⟨x, _, rest, rfl, rfl, hrest⟩
      exact ⟨x, rest, rfl, hrest⟩
    · rintro ⟨x, rest, rfl, hrest⟩
      exact ⟨x, _, rest, rfl, rfl, hrest⟩

theorem reads_byte : Reads idSize byte fun b bs => bs = [b] :=
  (reads_number .uint8).congr fun b bs => by rw [Scalar.encode_uint8]

/-! ### Reading on behind a field -/

/-- Asking for the position takes no bytes. -/
theorem Reads.afterPosition {f : Nat → Decoder α} {S : α → List UInt8 → Prop}
    (hf : ∀ place, Reads idSize (f place) S) : Reads idSize (position >>= f) S :=
  ⟨fun {e _} hs hid hstop {p q a} hp => by
    show f p e p = .ok (a, q) ↔ _
    exact (hf p).ok_iff hs hid hstop hp⟩

/-- Asking for the width of identifiers takes no bytes. -/
theorem Reads.afterRead {f : Extent → Decoder α} {S : α → List UInt8 → Prop}
    (hf : ∀ e : Extent, e.idSize = idSize → Reads idSize (f e) S) :
    Reads idSize (read >>= f) S :=
  ⟨fun {e _} hs hid hstop {p q a} hp => by
    show f e e p = .ok (a, q) ↔ _
    exact (hf e hid).ok_iff hs hid hstop hp⟩

/-- A field with one spelling stands in front of what follows. -/
theorem Reads.andThen {d : Decoder α} {f : α → Decoder β} {P : α → Prop}
    {written : α → List UInt8} {T : α → β → List UInt8 → Prop}
    (hd : Reads idSize d fun a bs => P a ∧ bs = written a)
    (hf : ∀ a, P a → Reads idSize (f a) (T a)) :
    Reads idSize (d >>= f) fun b bs => ∃ a rest, P a ∧ bs = written a ++ rest ∧ T a b rest :=
  (hd.bind fun a _ h => hf a h.1).congr fun b bs => by
    constructor
    · rintro ⟨a, _, rest, rfl, ⟨ha, rfl⟩, hrest⟩
      exact ⟨a, rest, ha, rfl, hrest⟩
    · rintro ⟨a, rest, ha, rfl, hrest⟩
      exact ⟨a, _, rest, rfl, ⟨ha, rfl⟩, hrest⟩

/-- Refusing takes no spelling. -/
theorem reads_throw (err : Error) : Reads idSize (throw err : Decoder α) fun _ _ => False :=
  ⟨fun _ _ _ _ _ _ _ => by
    constructor
    · intro h
      cases h
    · rintro ⟨-, bs, hbs, -⟩
      exact hbs.elim⟩

/-! ### Identifiers -/

/-- Bytes that are read as an identifier are its written form. -/
theorem ident_spelling (hw : idSize ≤ 8) {bs : List UInt8} {id : ObjectId} :
    bs.length = idSize ∧ id = UInt64.ofNat (BigEndian.ofList bs)
      ↔ Fits idSize id ∧ bs = Written.ident idSize id := by
  constructor
  · rintro ⟨rfl, rfl⟩
    have hlt := BigEndian.ofList_lt bs
    -- eight bytes have room in a machine word, so no bits are lost
    have hword : BigEndian.ofList bs < 2 ^ 64 :=
      calc BigEndian.ofList bs < 256 ^ bs.length := hlt
        _ ≤ 256 ^ 8 := Nat.pow_le_pow_right (by decide) hw
    have htoNat : (UInt64.ofNat (BigEndian.ofList bs)).toNat = BigEndian.ofList bs :=
      UInt64.toNat_ofNat_of_lt' hword
    refine ⟨?_, ?_⟩
    · rwa [Fits, htoNat]
    · rw [Written.ident, htoNat, BigEndian.toList_ofList]
  · rintro ⟨hfits, rfl⟩
    refine ⟨BigEndian.length_toList .., ?_⟩
    rw [Written.ident, BigEndian.ofList_toList _ _ hfits, UInt64.ofNat_toNat]

theorem reads_ident (hw : idSize ≤ 8) :
    Reads idSize ident fun id bs => Fits idSize id ∧ bs = Written.ident idSize id := by
  apply Reads.afterRead
  intro e he
  refine ((reads_bytes e.idSize).map _).congr fun id bs => ?_
  rw [← ident_spelling hw]
  constructor
  · rintro ⟨b, rfl, hlen, rfl⟩
    exact ⟨hlen.trans he, rfl⟩
  · rintro ⟨hlen, rfl⟩
    exact ⟨_, rfl, hlen.trans he.symm, rfl⟩

/-- An identifier stands in front of what follows. -/
theorem Reads.afterIdent (hw : idSize ≤ 8) {f : ObjectId → Decoder α}
    {T : ObjectId → α → List UInt8 → Prop}
    (hf : ∀ id, Fits idSize id → Reads idSize (f id) (T id)) :
    Reads idSize (ident >>= f) fun a bs =>
      ∃ id rest, Fits idSize id ∧ bs = Written.ident idSize id ++ rest ∧ T id a rest :=
  (reads_ident hw).andThen hf

/-- The identifiers that are cut out of a run of bytes. -/
def cutIdents (idSize count : Nat) (bs : List UInt8) : List ObjectId :=
  (List.range count).map fun i =>
    UInt64.ofNat (BigEndian.ofList ((bs.drop (i * idSize)).take idSize))

/-- Behind the first identifier all cuts move by one width. -/
theorem cutIdents_succ (idSize count : Nat) (bs : List UInt8) :
    cutIdents idSize (count + 1) bs
      = UInt64.ofNat (BigEndian.ofList (bs.take idSize))
        :: cutIdents idSize count (bs.drop idSize) := by
  rw [cutIdents, List.range_succ_eq_map, List.map_cons, List.map_map, Nat.zero_mul,
    List.drop_zero, cutIdents]
  congr 1
  apply List.map_congr_left
  intro i _
  rw [Function.comp_apply, Nat.succ_eq_add_one, List.drop_drop, Nat.add_mul, Nat.one_mul,
    Nat.add_comm]

/-- Whole runs of identifiers have one spelling. -/
theorem idents_spelling (hw : idSize ≤ 8) {count : Nat} {bs : List UInt8} {ids : List ObjectId} :
    bs.length = count * idSize ∧ ids = cutIdents idSize count bs
      ↔ ids.length = count ∧ (∀ id ∈ ids, Fits idSize id)
          ∧ bs = ids.flatMap (Written.ident idSize) := by
  induction count generalizing bs ids with
  | zero =>
    constructor
    · rintro ⟨hlen, rfl⟩
      have hnil : bs = [] := List.length_eq_zero_iff.mp (by omega)
      simp [cutIdents, hnil]
    · rintro ⟨hlen, -, rfl⟩
      obtain rfl := List.length_eq_zero_iff.mp hlen
      simp [cutIdents]
  | succ count ih =>
    rw [cutIdents_succ]
    constructor
    · rintro ⟨hlen, rfl⟩
      -- the first identifier is the first `idSize` bytes, and the others are what is left
      rw [Nat.add_mul, Nat.one_mul] at hlen
      obtain ⟨hfits, hhead⟩ := (ident_spelling hw).mp
        ⟨(List.length_take_of_le (by omega) : (bs.take idSize).length = idSize), rfl⟩
      obtain ⟨hn, hall, hrest⟩ := ih.mp
        ⟨(by rw [List.length_drop]; omega : (bs.drop idSize).length = count * idSize), rfl⟩
      refine ⟨by rw [List.length_cons, hn], List.forall_mem_cons.mpr ⟨hfits, hall⟩, ?_⟩
      rw [List.flatMap_cons, ← hhead, ← hrest, List.take_append_drop]
    · rintro ⟨hn, hall, rfl⟩
      obtain ⟨id, ids, rfl⟩ := List.exists_cons_of_length_eq_add_one hn
      obtain ⟨hfits, hall⟩ := List.forall_mem_cons.mp hall
      have hid : (Written.ident idSize id).length = idSize := BigEndian.length_toList ..
      obtain ⟨hlen, htl⟩ := ih.mpr ⟨Nat.succ.inj hn, hall, rfl⟩
      obtain ⟨-, hhead⟩ := (ident_spelling hw).mpr ⟨hfits, rfl⟩
      rw [List.flatMap_cons, List.take_left' hid, List.drop_left' hid, ← htl, ← hhead]
      refine ⟨?_, rfl⟩
      rw [List.length_append, hlen, hid, Nat.add_mul, Nat.one_mul, Nat.add_comm]

/-- The identifiers that a decoder finds in bytes are cut out of them. -/
theorem map_extract_eq_cutIdents (idSize count : Nat) (data : ByteArray) :
    ((List.range count).map fun i =>
        UInt64.ofNat (BigEndian.ofBytes (data.extract (i * idSize) (i * idSize + idSize))))
      = cutIdents idSize count data.data.toList := by
  refine List.map_congr_left fun i _ => ?_
  rw [BigEndian.ofBytes, toList_extract]

theorem reads_idents (hw : idSize ≤ 8) (count : Nat) :
    Reads idSize (idents count) fun ids bs =>
      ids.length = count ∧ (∀ id ∈ ids, Fits idSize id)
        ∧ bs = ids.flatMap (Written.ident idSize) := by
  apply Reads.afterRead
  intro e he
  refine ((reads_bytes (count * e.idSize)).map _).congr fun ids bs => ?_
  simp only [he, map_extract_eq_cutIdents]
  rw [← idents_spelling hw]
  constructor
  · rintro ⟨b, rfl, hlen, rfl⟩
    exact ⟨hlen, rfl⟩
  · rintro ⟨hlen, rfl⟩
    exact ⟨_, rfl, hlen, rfl⟩

/-! ### Types and values -/

/-- A code is looked up in a table, and one that is not there is refused. -/
theorem Reads.afterCode {κ : Type} {ofCode? : UInt8 → Option κ} {code : κ → UInt8}
    {f : UInt8 → Decoder α} {S : α → List UInt8 → Prop} (key : α → κ)
    (hcode : ∀ c k, ofCode? c = some k ↔ code k = c)
    (hknown : ∀ c k, ofCode? c = some k → Reads idSize (f c) fun a bs => key a = k ∧ S a bs)
    (hunknown : ∀ c, ofCode? c = none → ∃ err, f c = throw err) :
    Reads idSize (byte >>= f) fun a bs => ∃ rest, bs = code (key a) :: rest ∧ S a rest := by
  refine (reads_byte.bind (T := fun c a bs => code (key a) = c ∧ S a bs)
    fun c _ _ => ?_).congr fun a bs => ?_
  · cases hc : ofCode? c with
    | some k =>
      refine (hknown c k hc).congr fun a bs => and_congr_left fun _ => ?_
      rw [← hcode, hc, Option.some_inj, eq_comm]
    | none =>
      obtain ⟨err, hthrow⟩ := hunknown c hc
      rw [hthrow]
      refine (reads_throw err).congr fun a bs => ⟨False.elim, ?_⟩
      rintro ⟨hkey, -⟩
      rw [(hcode c (key a)).mpr hkey] at hc
      cases hc
  · constructor
    · rintro ⟨c, _, ys, rfl, rfl, rfl, hys⟩
      exact ⟨ys, rfl, hys⟩
    · rintro ⟨ys, rfl, hys⟩
      exact ⟨_, [code (key a)], ys, rfl, rfl, rfl, hys⟩

theorem reads_type : Reads idSize type fun t bs => bs = [t.code] := by
  apply Reads.afterPosition
  intro place
  refine (Reads.afterCode (S := fun _ bs => bs = []) id
    (fun _ _ => BasicType.ofCode?_eq_some_iff) (fun c t ht => ?_)
    fun c hnone => ⟨.unknownType c place, ?_⟩).congr fun t bs => ?_
  · simp only [ht]
    exact reads_pure t
  · simp only [hnone]
  · simp

theorem reads_primitiveType :
    Reads idSize primitiveType fun t bs => t ≠ .object ∧ bs = [t.code] := by
  apply Reads.afterPosition
  intro place
  -- behind any type the check takes no bytes and lets all types pass but one
  have hcheck : ∀ t : BasicType, Reads idSize
      (do if t = .object then throw (.unknownType t.code place)
          return t : Decoder BasicType)
      fun t' bs => t ≠ .object ∧ t' = t ∧ bs = [] := by
    intro t
    by_cases ht : t = .object
    · rw [if_pos ht]
      exact (reads_throw _).congr fun t' bs => ⟨False.elim, fun h => h.1 ht⟩
    · rw [if_neg ht]
      exact (reads_pure t).congr fun t' bs => ⟨fun h => ⟨ht, h⟩, fun h => h.2⟩
  refine (reads_type.bind fun t _ _ => hcheck t).congr fun t bs => ?_
  constructor
  · rintro ⟨t, _, _, rfl, rfl, ht, rfl, rfl⟩
    exact ⟨ht, rfl⟩
  · rintro ⟨ht, rfl⟩
    exact ⟨t, [t.code], [], rfl, rfl, ht, rfl, rfl⟩

/-- A value of a numeric type has one spelling. -/
theorem scalar_spelling {t : BasicType} (k : Scalar) (make : k.Carrier → Value ObjectId)
    (hsize : t.size idSize = k.size) (hbits : ∀ n, Value.ofBits t n = make (k.ofBits n))
    (hwf : ∀ x, (make x).WellFormed idSize)
    (hmarks : ∀ x, valueMarks idSize (make x) = fixed (k.encode x))
    (htype : ∀ v : Value ObjectId, v.type = t ↔ ∃ x, v = make x)
    {v : Value ObjectId} {bs : List UInt8} :
    bs.length = t.size idSize ∧ v = .ofBits t (BigEndian.ofList bs)
      ↔ v.type = t ∧ v.WellFormed idSize ∧ Spelled (valueMarks idSize v) bs := by
  constructor
  · rintro ⟨hlen, rfl⟩
    rw [hbits, hmarks, spelled_fixed_iff]
    exact ⟨(htype _).mpr ⟨_, rfl⟩, hwf _, (k.encode_decode (hlen.trans hsize)).symm⟩
  · rintro ⟨ht, -, hbs⟩
    obtain ⟨x, rfl⟩ := (htype v).mp ht
    rw [hmarks, spelled_fixed_iff] at hbs
    obtain ⟨hlen, hx⟩ := k.eq_encode_iff.mpr hbs
    refine ⟨hlen.trans hsize.symm, ?_⟩
    rw [hbits]
    exact congrArg make hx

/-- The byte of a boolean counts as zero or not zero. -/
theorem boolean_spelling {v : Value ObjectId} {bs : List UInt8} :
    bs.length = 1 ∧ v = .ofBits .boolean (BigEndian.ofList bs)
      ↔ v.type = .boolean ∧ v.WellFormed idSize ∧ Spelled (valueMarks idSize v) bs := by
  have hmarks : ∀ x, valueMarks idSize (.boolean x) = [⟨if x then 1 else 0, .truth⟩] := by
    intro x
    cases x <;> rfl
  -- a boolean is read off a whole byte
  have hone : ∀ b : UInt8, Value.ofBits .boolean (BigEndian.ofList [b]) = .boolean (b ≠ 0) := by
    intro b
    have hb : BigEndian.ofList [b] = b.toNat := by simp [BigEndian.ofList]
    rw [hb]
    show Value.boolean (UInt8.ofNat b.toNat ≠ 0) = _
    rw [UInt8.ofNat_toNat]
  constructor
  · rintro ⟨hlen, rfl⟩
    obtain ⟨b, rfl⟩ := List.length_eq_one_iff.mp hlen
    rw [hone, hmarks]
    refine ⟨rfl, Value.wellFormed_of_reference? rfl, List.Forall₂.cons ?_ .nil⟩
    show b = 0 ↔ (if decide (b ≠ 0) = true then 1 else 0 : UInt8) = 0
    by_cases hb : b = 0 <;> simp [hb]
  · rintro ⟨ht, -, hbs⟩
    obtain ⟨x, rfl⟩ : ∃ x, v = .boolean x := by
      cases v with
      | boolean x => exact ⟨x, rfl⟩
      | _ => cases ht
    rw [hmarks] at hbs
    obtain ⟨b, _, hb, hnil, rfl⟩ := List.forall₂_cons_left_iff.mp hbs
    obtain rfl := List.forall₂_nil_left_iff.mp hnil
    have hb : b = 0 ↔ (if x then 1 else 0 : UInt8) = 0 := hb
    refine ⟨rfl, ?_⟩
    rw [hone]
    cases x <;> simp_all

/-- Bytes that are read as a value of a type are a spelling of it. -/
theorem value_spelling (hw : idSize ≤ 8) {t : BasicType} {v : Value ObjectId}
    {bs : List UInt8} :
    bs.length = t.size idSize ∧ v = .ofBits t (BigEndian.ofList bs)
      ↔ v.type = t ∧ v.WellFormed idSize ∧ Spelled (valueMarks idSize v) bs := by
  have hnone : ∀ {v : Value ObjectId}, v.reference? = none → v.WellFormed idSize :=
    Value.wellFormed_of_reference?
  cases t with
  | boolean => exact boolean_spelling
  | object =>
    constructor
    · rintro ⟨hlen, rfl⟩
      obtain ⟨hfits, hbs⟩ := (ident_spelling hw).mp ⟨hlen, rfl⟩
      refine ⟨rfl, ?_, spelled_fixed_iff.mpr hbs⟩
      rintro _ ⟨⟩
      exact hfits
    · rintro ⟨ht, hv, hbs⟩
      obtain ⟨id, rfl⟩ : ∃ id, v = .object id := by
        cases v with
        | object id => exact ⟨id, rfl⟩
        | _ => cases ht
      obtain ⟨hlen, hid⟩ := (ident_spelling hw).mpr ⟨hv id rfl, spelled_fixed_iff.mp hbs⟩
      exact ⟨hlen, congrArg Value.object hid⟩
  -- the other types are numbers of a fixed width
  | char =>
    exact scalar_spelling .uint16 .char rfl (fun _ => rfl) (fun _ => hnone rfl) (fun _ => rfl)
      (fun v => by cases v <;> simp [Value.type])
  | float =>
    exact scalar_spelling .float32 .float rfl (fun _ => rfl) (fun _ => hnone rfl) (fun _ => rfl)
      (fun v => by cases v <;> simp [Value.type])
  | double =>
    exact scalar_spelling .float64 .double rfl (fun _ => rfl) (fun _ => hnone rfl) (fun _ => rfl)
      (fun v => by cases v <;> simp [Value.type])
  | byte =>
    exact scalar_spelling .int8 .byte rfl (fun _ => rfl) (fun _ => hnone rfl) (fun _ => rfl)
      (fun v => by cases v <;> simp [Value.type])
  | short =>
    exact scalar_spelling .int16 .short rfl (fun _ => rfl) (fun _ => hnone rfl) (fun _ => rfl)
      (fun v => by cases v <;> simp [Value.type])
  | int =>
    exact scalar_spelling .int32 .int rfl (fun _ => rfl) (fun _ => hnone rfl) (fun _ => rfl)
      (fun v => by cases v <;> simp [Value.type])
  | long =>
    exact scalar_spelling .int64 .long rfl (fun _ => rfl) (fun _ => hnone rfl) (fun _ => rfl)
      (fun v => by cases v <;> simp [Value.type])

theorem reads_value (hw : idSize ≤ 8) (t : BasicType) :
    Reads idSize (value t) fun v bs =>
      v.type = t ∧ v.WellFormed idSize ∧ Spelled (valueMarks idSize v) bs := by
  apply Reads.afterRead
  intro e he
  refine ((reads_bytes (t.size e.idSize)).map _).congr fun v bs => ?_
  rw [← value_spelling hw, he]
  constructor
  · rintro ⟨b, rfl, hlen, rfl⟩
    exact ⟨hlen, rfl⟩
  · rintro ⟨hlen, rfl⟩
    exact ⟨_, rfl, hlen, rfl⟩

/-! ### Repetition -/

section Repetition

variable {item : Decoder α} {P : α → Prop} {marks : α → List Mark}

theorem manyFrom_succ (item : Decoder α) (count : Nat) (items : Array α) :
    manyFrom item (count + 1) items = item >>= fun a => manyFrom item count (items.push a) := by
  funext e p
  show _ = (item e p >>= fun x => manyFrom item count (items.push x.1) e x.2)
  simp only [manyFrom]
  cases item e p <;> rfl

theorem reads_manyFrom (h : Reads idSize item fun a bs => P a ∧ Spelled (marks a) bs)
    (count : Nat) (front : Array α) :
    Reads idSize (manyFrom item count front) fun all bs =>
      ∃ items : List α, all = front ++ items.toArray ∧ items.length = count
        ∧ (∀ a ∈ items, P a) ∧ Spelled (items.flatMap marks) bs := by
  induction count generalizing front with
  | zero =>
    refine (reads_pure front).congr fun all bs => ?_
    constructor
    · rintro ⟨rfl, rfl⟩
      exact ⟨[], by simp, rfl, by simp, spelled_nil_iff.mpr rfl⟩
    · rintro ⟨items, rfl, hlen, -, hbs⟩
      obtain rfl := List.length_eq_zero_iff.mp hlen
      exact ⟨by simp, spelled_nil_iff.mp hbs⟩
  | succ count ih =>
    rw [manyFrom_succ]
    refine (h.bind fun a _ _ => ih (front.push a)).congr fun all bs => ?_
    constructor
    · rintro ⟨a, xs, ys, rfl, ⟨ha, hxs⟩, items, rfl, rfl, hall, hys⟩
      refine ⟨a :: items, ?_, rfl, List.forall_mem_cons.mpr ⟨ha, hall⟩, ?_⟩
      · rw [Array.push_eq_append, Array.append_assoc]
        simp
      · rw [List.flatMap_cons]
        exact spelled_append_iff.mpr ⟨xs, ys, rfl, hxs, hys⟩
    · rintro ⟨items, rfl, hlen, hall, hbs⟩
      obtain ⟨a, items, rfl⟩ := List.exists_cons_of_length_eq_add_one hlen
      obtain ⟨ha, hall⟩ := List.forall_mem_cons.mp hall
      rw [List.flatMap_cons] at hbs
      obtain ⟨xs, ys, rfl, hxs, hys⟩ := spelled_append_iff.mp hbs
      refine ⟨a, xs, ys, rfl, ⟨ha, hxs⟩, items, ?_, Nat.succ.inj hlen, hall, hys⟩
      rw [Array.push_eq_append, Array.append_assoc]
      simp

/-- Items that are read one after the other are spelled one after the other. -/
theorem reads_many (h : Reads idSize item fun a bs => P a ∧ Spelled (marks a) bs)
    (count : Nat) :
    Reads idSize (many item count) fun items bs =>
      items.length = count ∧ (∀ a ∈ items, P a) ∧ Spelled (items.flatMap marks) bs :=
  ((reads_manyFrom h count #[]).map Array.toList).congr fun items bs => by
    constructor
    · rintro ⟨_, rfl, items, rfl, hrest⟩
      simpa using hrest
    · intro hrest
      exact ⟨items.toArray, rfl, items, by simp, hrest⟩

/-- A run of items stands behind its number, which has room in 16 bits. -/
theorem reads_counted (h : Reads idSize item fun a bs => P a ∧ Spelled (marks a) bs) :
    Reads idSize (counted item) fun items bs =>
      items.length < UInt16.size ∧ (∀ a ∈ items, P a)
        ∧ Spelled (countedMarks marks items) bs := by
  refine ((reads_number .uint16).bind fun count _ _ => reads_many h count.toNat).congr
    fun items bs => ?_
  rw [countedMarks, spelled_append_iff]
  simp only [spelled_fixed_iff]
  constructor
  · rintro ⟨count, _, ys, rfl, rfl, hlen, hall, hys⟩
    refine ⟨hlen ▸ count.toNat_lt, hall, _, ys, rfl, ?_, hys⟩
    rw [hlen, UInt16.ofNat_toNat]
    rfl
  · rintro ⟨hlt, hall, _, ys, rfl, rfl, hys⟩
    exact ⟨UInt16.ofNat items.length, _, ys, rfl, rfl,
      (UInt16.toNat_ofNat_of_lt' hlt).symm, hall, hys⟩

end Repetition

/-! ### Whole units -/

/-- A decoder that has to take its whole unit. -/
theorem exactly_eq_ok_iff {body : Decoder α} {e : Extent} {p q : Nat} {a : α} :
    body.exactly e p = .ok (a, q) ↔ body e p = .ok (a, q) ∧ q = e.stop := by
  show (body e p >>= fun x => (do if x.2 ≠ e.stop then throw (mismatch e (x.2 - e.start))
                                  return x.1 : Decoder α) e x.2) = _ ↔ _
  rcases h : body e p with err | ⟨b, mid⟩
  · simp [bind, Except.bind]
  · show (do if mid ≠ e.stop then throw (mismatch e (mid - e.start))
             return b : Decoder α) e mid = _ ↔ _
    by_cases hstop : mid = e.stop
    · rw [if_neg (not_not_intro hstop)]
      show Except.ok (b, mid) = _ ↔ _
      constructor
      · intro heq
        obtain ⟨-, rfl⟩ := Prod.mk.inj (Except.ok.inj heq)
        exact ⟨heq, hstop⟩
      · exact And.left
    · rw [if_pos hstop]
      constructor
      · intro heq
        cases heq
      · rintro ⟨heq, rfl⟩
        obtain ⟨-, rfl⟩ := Prod.mk.inj (Except.ok.inj heq)
        exact absurd rfl hstop

/-- What `f` makes of all bytes that are left. -/
theorem readsAll_remaining (f : ByteArray → α) :
    ReadsAll idSize (do let data ← bytes (← remaining); return f data)
      fun a bs => a = f ⟨bs.toArray⟩ := by
  refine ⟨fun {e data} hs hid hstop p a hp => ?_⟩
  show (bytes (e.stop - p) >>= fun data => pure (f data)) e p = _ ↔ _
  rw [((reads_bytes (e.stop - p)).map f).ok_iff hs hid hstop hp]
  constructor
  · rintro ⟨-, bs, ⟨_, rfl, -, rfl⟩, hspan⟩
    exact ⟨bs, rfl, hspan⟩
  · rintro ⟨bs, rfl, hspan⟩
    have hlen := hspan.length_eq
    exact ⟨Nat.le_refl _, bs, ⟨_, rfl, by omega, rfl⟩, hspan⟩

end Decoder

end HeapDump
