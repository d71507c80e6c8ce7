/-
HeapDump/Proofs/Snapshot/Geometries.lean

Which windows a dump can be read through.

The windows of a reading are checked twice.  `Options.validate` compares the padding with the shard;
`Shards.ofSource` does so again, with the same error, and asks besides whether the two together are
a word.  The first check does not ask that, so it accepts windows that are too long to be counted
and the second one refuses them: options that have been validated may still be refused.

Whatever comes later is about the bytes of the dump (`Snapshot.ofFormat_of_ofStore`): every error
of the header or of a record is one of the format, and never one about options.  So a reading
refuses its options just where the second check does, and what it gives otherwise does not depend
on the windows, which is said by comparing it with the windows that are used by default.

Main statement: `geometry_checks`; `overflow_not_validated_sampleEmpty` is a pair of measures on
which the two checks differ.
-/
import HeapDump.Proofs.Shards.Independence
import HeapDump.Proofs.Snapshot.AllOrNothing

namespace HeapDump

/-! ### Errors of the format -/

/-- What the bytes of a dump can be at fault for. -/
def Error.OfFormat : Error → Prop
  | .invalidHeader _ | .truncated .. | .lengthMismatch .. | .unknownTag .. | .unknownType .. => True
  | .noSuchFile | .outOfBounds .. | .unsupportedWidth .. | .invalidOptions _ => False

variable {data : ByteArray} {store : ByteStore} {e : Error}

namespace RecordStream

variable {s t : RecordStream} {trace : List (Record × RecordStream)}

theorem Blames.ofFormat (h : s.Blames data e) : e.OfFormat := by
  cases e with
  | truncated | lengthMismatch | unknownTag | unknownType => trivial
  | _ => exact h.elim

/-- A reading that does not begin has no header. -/
theorem ofFormat_of_ofStore (hs : store.Serves data) {skipUnknown : Bool}
    (h : ofStore store skipUnknown = .error e) : e.OfFormat := by
  have hheader : Header.read store = .error e := by
    rw [ofStore] at h
    rcases hread : Header.read store with e' | header
    · rw [hread] at h
      cases h
      rfl
    · rw [hread] at h
      cases h
  rcases Header.read_eq_error hs hheader with ⟨fault, rfl⟩ | ⟨needed, rfl, -⟩
  · trivial
  · trivial

/-- A run that ends with an error has come to a record that is at fault. -/
theorem Completes.ofFormat (h : Completes data s trace (some e) t) (hr : s.Reached data)
    (hf : s.finished = false) : e.OfFormat := by
  obtain ⟨last, hruns, hlast⟩ := h.exists_last
  have hreached : last.Reached data := by
    rw [← hruns.after_length hr.valid hf]
    exact (hr.after _).1
  exact (failure_of_next hreached (hruns.frame.2.2.2.1.trans hf) hlast).blames.ofFormat

end RecordStream

/-- **A reading fails for no other reason than the bytes it reads.** -/
theorem Snapshot.ofFormat_of_ofStore (hs : store.Serves data) (hsize : data.size < UInt64.size)
    {options : Options} {attachSink : Bool} {failure : LoadFailure}
    (h : ofStore store options attachSink = .error failure) : failure.error.OfFormat := by
  rw [ofStore] at h
  cases hstream : RecordStream.ofStore store options.skipUnknownRecords with
  | error e =>
    rw [hstream] at h
    cases h
    exact RecordStream.ofFormat_of_ofStore hs hstream
  | ok s =>
    have hr := RecordStream.reached_of_ofStore hs hsize hstream
    have hf : s.finished = false := by
      obtain ⟨header, -, rfl⟩ := RecordStream.ofStore_eq_ok_iff.mp hstream
      rfl
    obtain ⟨trace, error, t, hcompletes⟩ := RecordStream.exists_completes hr.valid hf
    simp only [hstream, hcompletes.fold_eq hr.valid hf] at h
    cases error with
    | none => cases h
    | some e =>
      cases h
      exact hcompletes.ofFormat hr hf

/-! ### The two checks -/

variable {source : Source} {options : Options}

theorem Options.validate_eq_ok_iff :
    options.validate = .ok () ↔ options.padding < options.shardSize := by
  rw [validate]
  by_cases hzero : options.shardSize = 0
  · rw [if_pos hzero, hzero]
    exact iff_of_false (by simp) UInt64.not_lt_zero
  · rw [if_neg hzero]
    by_cases hle : options.shardSize ≤ options.padding
    · rw [if_pos hle]
      exact iff_of_false (by simp) (UInt64.not_lt.mpr hle)
    · rw [if_neg hle]
      exact iff_of_true rfl (UInt64.not_le.mp hle)

/-- What the first check refuses, the second one does. -/
theorem Shards.ofSource_of_validate (h : options.validate = .error e) :
    (∃ fault, e = .invalidOptions fault)
      ∧ ofSource source options.shardSize options.padding = .error e := by
  rw [Options.validate] at h
  rw [ofSource, Geometry.ofSizes]
  by_cases hzero : options.shardSize = 0
  · rw [if_pos hzero] at h ⊢
    cases h
    exact ⟨⟨_, rfl⟩, rfl⟩
  · rw [if_neg hzero] at h ⊢
    by_cases hle : options.shardSize ≤ options.padding
    · rw [if_pos hle] at h
      rw [dif_neg (UInt64.not_lt.mpr hle)]
      cases h
      exact ⟨⟨_, rfl⟩, rfl⟩
    · rw [if_neg hle] at h
      cases h

/-- Windows that are too long to be counted are refused. -/
theorem Shards.ofSource_of_size_le {shardSize padding : UInt64} (lt : padding < shardSize)
    (h : UInt64.size ≤ shardSize.toNat + padding.toNat) :
    ofSource source shardSize padding = .error (.invalidOptions .windowOverflow) := by
  have hpos : 0 < shardSize := UInt64.lt_of_le_of_lt UInt64.zero_le lt
  rw [ofSource, Geometry.ofSizes, if_neg (UInt64.pos_iff_ne_zero.mp hpos), dif_pos lt,
    dif_neg (Nat.not_lt.mpr h)]
  rfl

/-- **The second check refuses what the first one does, and windows that the first one accepts but
that are too long to be counted.** -/
theorem Shards.ofSource_eq_invalidOptions_iff {fault : OptionsFault} :
    ofSource source options.shardSize options.padding = .error (.invalidOptions fault)
      ↔ options.validate = .error (.invalidOptions fault)
        ∨ options.validate = .ok () ∧ fault = .windowOverflow
          ∧ UInt64.size ≤ options.shardSize.toNat + options.padding.toNat := by
  cases hvalid : options.validate with
  | error e =>
    rw [(ofSource_of_validate hvalid).2, Except.error.injEq, Except.error.injEq]
    exact (or_iff_left (by simp)).symm
  -- the first check has passed, so the second can only fail for the sum
  | ok u =>
    have hlt := Options.validate_eq_ok_iff.mp hvalid
    rw [or_iff_right (by simp)]
    by_cases hsum : options.shardSize.toNat + options.padding.toNat < UInt64.size
    · rw [ofSource_of_lt source hlt hsum]
      exact iff_of_false (by simp) fun h => Nat.not_lt.mpr h.2.2 hsum
    · rw [ofSource_of_size_le hlt (Nat.not_lt.mp hsum), Except.error.injEq,
        Error.invalidOptions.injEq]
      exact ⟨fun h => ⟨rfl, h.symm, Nat.not_lt.mp hsum⟩, fun h => h.2.1.symm⟩

namespace Snapshot

theorem ofSource_of_ok {shards : Shards}
    (h : Shards.ofSource source options.shardSize options.padding = .ok shards) :
    ofSource source options = (ofShards shards options false).mapError (·.error) := by
  rw [ofSource, Options.validate_of_ofSource h, h]
  rfl

/-- Windows that are refused are not read through. -/
theorem ofSource_of_error
    (h : Shards.ofSource source options.shardSize options.padding = .error e) :
    ofSource source options = .error e := by
  rw [ofSource]
  cases hvalid : options.validate with
  | error e' =>
    rw [(Shards.ofSource_of_validate hvalid).2] at h
    cases h
    rfl
  | ok u =>
    rw [h]
    rfl

/-- Behind windows that are accepted, a reading fails for the bytes only. -/
theorem ofFormat_of_ofSource {shards : Shards}
    (h : Shards.ofSource source options.shardSize options.padding = .ok shards)
    (herror : ofSource source options = .error e) : e.OfFormat := by
  rw [ofSource_of_ok h] at herror
  cases hload : ofShards shards options false with
  | error failure =>
    rw [hload] at herror
    cases herror
    exact ofFormat_of_ofStore shards.store_serves shards.source.size_lt hload
  | ok snapshot =>
    rw [hload] at herror
    cases herror

/-- **A reading refuses its options just where the second check does.** -/
theorem ofSource_eq_invalidOptions_iff {fault : OptionsFault} :
    ofSource source options = .error (.invalidOptions fault)
      ↔ Shards.ofSource source options.shardSize options.padding
        = .error (.invalidOptions fault) := by
  refine ⟨fun h => ?_, ofSource_of_error⟩
  cases hshards : Shards.ofSource source options.shardSize options.padding with
  | error e =>
    rw [ofSource_of_error hshards] at h
    cases h
    rfl
  | ok shards => exact (ofFormat_of_ofSource hshards h).elim

/-- Two ways to cut a source that are both accepted give the same. -/
theorem ofSource_withWindows {shardSize padding : UInt64} {shards shards' : Shards}
    (h : Shards.ofSource source options.shardSize options.padding = .ok shards)
    (h' : Shards.ofSource source shardSize padding = .ok shards') :
    ofSource source options = ofSource source (options.withWindows shardSize padding) := by
  have hstore : shards.store = shards'.store := by
    apply Shards.store_congr
    rw [Shards.source_of_ofSource h, Shards.source_of_ofSource h']
  have hother : ofSource source (options.withWindows shardSize padding)
      = (ofShards shards' (options.withWindows shardSize padding) false).mapError (·.error) :=
    ofSource_of_ok h'
  rw [ofSource_of_ok h, hother]
  show (ofStore shards.store options false).mapError _
    = (ofStore shards'.store options false).mapError _
  rw [hstore]

end Snapshot

/-! ### The main statement -/

/-- **The first check of the windows does not see that they are too long to be counted.**  What it
refuses is refused by the second check too, and by the reading.  The reading refuses nothing else
but windows that the first check accepts and whose shard and padding together are no word.  Windows
that pass both checks give the snapshot of the default windows, or the same error of the format. -/
theorem geometry_checks (source : Source) (options : Options) :
    (∀ e, options.validate = .error e → (∃ fault, e = .invalidOptions fault)
        ∧ Shards.ofSource source options.shardSize options.padding = .error e)
      ∧ (∀ fault, Snapshot.ofSource source options = .error (.invalidOptions fault)
        ↔ options.validate = .error (.invalidOptions fault)
          ∨ options.validate = .ok () ∧ fault = .windowOverflow
            ∧ UInt64.size ≤ options.shardSize.toNat + options.padding.toNat)
      ∧ (options.validate = .ok () →
        options.shardSize.toNat + options.padding.toNat < UInt64.size →
        (∃ shards, Shards.ofSource source options.shardSize options.padding = .ok shards)
          ∧ Snapshot.ofSource source options
            = Snapshot.ofSource source (options.withWindows 1073741824 1024)
          ∧ ∀ e, Snapshot.ofSource source options = .error e → e.OfFormat) := by
  refine ⟨fun e h => Shards.ofSource_of_validate h, fun fault => ?_, fun hvalid hsum => ?_⟩
  · rw [Snapshot.ofSource_eq_invalidOptions_iff, Shards.ofSource_eq_invalidOptions_iff]
  · have hshards := Shards.ofSource_of_lt source (Options.validate_eq_ok_iff.mp hvalid) hsum
    have hdefault := Shards.ofSource_of_lt source (show (1024 : UInt64) < 1073741824 by decide)
      (by decide)
    exact ⟨⟨_, hshards⟩, Snapshot.ofSource_withWindows hshards hdefault,
      fun e h => Snapshot.ofFormat_of_ofSource hshards h⟩

/-- A dump that is nothing but a header. -/
def sampleEmpty : Source := ⟨.memory, sampleFront, by decide +kernel⟩

/-- Shards of half as many bytes as can be counted, with the largest padding that goes with them,
and shards that are as large as can be with a padding of one byte. -/
theorem geometry_checks_sampleEmpty :
    Snapshot.ofSource sampleEmpty (.sharded 9223372036854775808 9223372036854775807)
        = Snapshot.ofSource sampleEmpty {}
      ∧ Snapshot.ofSource sampleEmpty (.sharded 18446744073709551615 1)
        = .error (.invalidOptions .windowOverflow) := by
  constructor
  · obtain ⟨-, -, hsame⟩ := geometry_checks sampleEmpty
      (.sharded 9223372036854775808 9223372036854775807)
    exact (hsame (by decide) (by decide)).2.1
  · obtain ⟨-, hrefuses, -⟩ := geometry_checks sampleEmpty (.sharded 18446744073709551615 1)
    exact (hrefuses _).mpr (.inr ⟨by decide, rfl, by decide⟩)

/-- The first check accepts shards that are as large as can be with a padding of one byte.  The
reading refuses them, where there is a snapshot behind the default windows. -/
theorem overflow_not_validated_sampleEmpty :
    (Options.sharded 18446744073709551615 1).validate = .ok ()
      ∧ Snapshot.ofSource sampleEmpty (.sharded 18446744073709551615 1)
        = .error (.invalidOptions .windowOverflow)
      ∧ ∃ s, Snapshot.ofSource sampleEmpty {} = .ok s := by
  have hdefault := Shards.ofSource_of_lt sampleEmpty (show (1024 : UInt64) < 1073741824 by decide)
    (by decide)
  refine ⟨by decide, ?_, ?_⟩
  · rw [Snapshot.ofSource_eq_invalidOptions_iff]
    exact Shards.ofSource_of_size_le (by decide) (by decide)
  · rw [Snapshot.ofSource_of_ok hdefault, Snapshot.ofShards,
      Snapshot.ofStore_of_reading (Shards.store_serves _)
        (show Header.read _ = .ok sampleHeader by decide +kernel) (by decide +kernel)]
    exact ⟨_, rfl⟩

end HeapDump
