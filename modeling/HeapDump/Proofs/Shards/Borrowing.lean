/-
HeapDump/Proofs/Shards/Borrowing.lean

Which reads need no copy.

A read begins in the window of its first byte and goes on behind it only if it ends behind that
window's padding (`Geometry.one_lt_length_plan_iff`).  Written with the measures of the windows,

    1 < (g.plan position stop).length ↔ S + P < position % S + (stop - position),

where `S` is the size of a shard and `P` its padding.

The last window may be shorter than the others, but a read that lies inside the source ends in
front of the source's end, and so in front of a shorter window's.  That is why the full length of
a window decides, for the last one too.  And since a read begins less than one shard behind the
start of its window, one of no more than `P + 1` bytes is never copied.

A chunk says of itself whether it was copied, which it does by the number of the pieces that were
served (`length_of_mapM_eq_ok`).  Main statement: `reads_borrowed_within_window`.
-/
import HeapDump.Proofs.Shards.Mapping

namespace HeapDump

/-! ### Reads of one piece -/

namespace Geometry

variable {g : Geometry} {position stop : UInt64}

/-- A read ends where there is no byte left to read, or no fuel. -/
theorem pieces_eq_nil_iff {fuel : Nat} :
    g.pieces fuel position stop = [] ↔ fuel = 0 ∨ ¬position < stop := by
  cases fuel with
  | zero => exact iff_of_true rfl (.inl rfl)
  | succ fuel =>
    rw [pieces]
    by_cases h : position < stop
    · rw [if_pos h]
      exact iff_of_false (List.cons_ne_nil _ _) (by simpa using h)
    · rw [if_neg h]
      exact iff_of_true rfl (.inr h)

/-- A read takes more than one piece if it goes on behind the window of its first byte. -/
theorem one_lt_length_plan_iff (h : position < stop) (hstop : stop ≤ g.length) :
    1 < (g.plan position stop).length
      ↔ g.shardSize.toNat + g.padding.toNat
        < position.toNat % g.shardSize.toNat + (stop.toNat - position.toNat) := by
  have hn := UInt64.lt_iff_toNat_lt.mp h
  have hdiv := Nat.div_add_mod' position.toNat g.shardSize.toNat
  have hnext := toNat_add_take h hstop
  obtain ⟨-, hpos, hle⟩ := start_add_take_le h hstop
  have hstep : (position + (g.piece position stop).take).toNat
      = position.toNat + (g.piece position stop).take.toNat := by
    apply toNat_add_of_lt
    have := stop.toNat_lt
    omega
  rw [Nat.add_mul, Nat.one_mul] at hnext
  -- there is fuel for every byte, so only the end of the read ends the pieces
  obtain ⟨fuel, hfuel⟩ : ∃ fuel, (stop - position).toNat = fuel + 1 :=
    Nat.exists_eq_add_one.mpr (by rw [UInt64.toNat_sub_of_le _ _ (UInt64.le_of_lt h)]; omega)
  have hbytes : stop.toNat - position.toNat = fuel + 1 := by
    rw [← hfuel, UInt64.toNat_sub_of_le _ _ (UInt64.le_of_lt h)]
  rw [plan, hfuel, pieces, if_pos h, List.length_cons, Nat.lt_add_left_iff_pos,
    List.length_pos_iff, ne_eq, pieces_eq_nil_iff, not_or, not_not, UInt64.lt_iff_toNat_lt]
  constructor
  · rintro ⟨-, hmore⟩
    omega
  · intro hlong
    have hmore : (position + (g.piece position stop).take).toNat < stop.toNat := by omega
    exact ⟨by omega, hmore⟩

/-- A read of nothing has no pieces. -/
theorem plan_self (position : UInt64) : g.plan position position = [] := by
  rw [plan, UInt64.sub_self]
  rfl

end Geometry

/-! ### Reads through windows -/

/-- Each piece of a read is served by one run of bytes. -/
theorem length_of_mapM_eq_ok {f : α → Except ε β} {xs : List α} {ys : List β}
    (h : xs.mapM f = .ok ys) : ys.length = xs.length := by
  -- an error of any piece is that of the whole, so all of them are served
  induction xs generalizing ys with
  | nil =>
    cases h
    rfl
  | cons x xs ih =>
    rw [List.mapM_cons] at h
    cases hx : f x with
    | error e =>
      rw [hx] at h
      cases h
    | ok y =>
      rw [hx] at h
      cases hxs : xs.mapM f with
      | error e =>
        rw [hxs] at h
        cases h
      | ok zs =>
        rw [hxs] at h
        cases h
        exact congrArg (· + 1) (ih hxs)

namespace Shards

variable {s : Shards} {offset length : UInt64}

/-- A read inside the source gives the bytes of its range.  They are copied if its plan has more
than one piece. -/
theorem exists_read (hin : offset.toNat + length.toNat ≤ s.source.bytes.size) :
    ∃ chunk, s.read offset length = .ok chunk
      ∧ chunk.bytes = s.source.bytes.extract offset.toNat (offset.toNat + length.toNat)
      ∧ (chunk.stitched = false
        ↔ ¬1 < (s.geometry.plan offset (offset + length)).length) := by
  have hbytes := s.map_bytes_read offset length
  rw [if_pos hin] at hbytes
  have hread : s.read offset length
      = ((s.geometry.plan offset (offset + length)).mapM s.serve).bind fun parts =>
        .ok ⟨parts.foldl (· ++ ·) ByteArray.empty, 1 < parts.length⟩ := by
    rw [read, stop?_eq, if_pos hin]
    rfl
  cases hparts : (s.geometry.plan offset (offset + length)).mapM s.serve with
  | error e =>
    rw [hread, hparts] at hbytes
    cases hbytes
  | ok parts =>
    rw [hparts] at hread
    rw [hread] at hbytes
    refine ⟨_, hread, Except.ok.inj hbytes, ?_⟩
    rw [← length_of_mapM_eq_ok hparts]
    exact decide_eq_false_iff_not

/-- A read takes one piece at most if it reads nothing, or not more than a full window has from its
first byte on. -/
theorem not_one_lt_length_plan_iff (hin : offset.toNat + length.toNat ≤ s.source.bytes.size) :
    ¬1 < (s.geometry.plan offset (offset + length)).length
      ↔ length.toNat = 0 ∨ offset.toNat % s.geometry.shardSize.toNat + length.toNat
        ≤ s.geometry.shardSize.toNat + s.geometry.padding.toNat := by
  have hsum := toNat_add_of_lt (hin.trans_lt s.source.size_lt)
  by_cases hpos : length.toNat = 0
  · have hlength : length = 0 := UInt64.toNat_inj.mp hpos
    -- a read of nothing has no pieces at all
    refine iff_of_true ?_ (.inl hpos)
    rw [hlength, UInt64.add_zero, Geometry.plan_self]
    exact Nat.not_lt_zero 1
  · have hlt : offset < offset + length := by
      rw [UInt64.lt_iff_toNat_lt, hsum]
      omega
    have hstop : offset + length ≤ s.geometry.length := by
      rw [UInt64.le_iff_toNat_le, hsum]
      exact hin.trans_eq s.toNat_length.symm
    rw [Geometry.one_lt_length_plan_iff hlt hstop, hsum, Nat.add_sub_cancel_left, Nat.not_lt,
      or_iff_right hpos]

/-- A read that ends in front of the end of the window of its first byte is a slice of that
window. -/
theorem exists_window_slice (hin : offset.toNat + length.toNat ≤ s.source.bytes.size)
    (hpos : 0 < length.toNat)
    (hfits : offset.toNat % s.geometry.shardSize.toNat + length.toNat
      ≤ s.geometry.shardSize.toNat + s.geometry.padding.toNat) :
    ∃ window, s.window (offset / s.geometry.shardSize) = .ok window
      ∧ (offset % s.geometry.shardSize).toNat + length.toNat ≤ window.length.toNat
      ∧ s.source.bytes.extract offset.toNat (offset.toNat + length.toNat)
        = window.slice (offset % s.geometry.shardSize) length := by
  have hL : s.geometry.length.toNat = s.source.bytes.size := s.toNat_length
  have hlt : offset < s.geometry.length := by
    rw [UInt64.lt_iff_toNat_lt, hL]
    omega
  have hindex := Geometry.div_shardSize_lt_count hlt
  have hstart := @Geometry.windowStart_add_start s.geometry offset 0 hlt
  change (s.geometry.windowStart (offset / s.geometry.shardSize)).toNat
      + (offset % s.geometry.shardSize).toNat = offset.toNat at hstart
  refine ⟨_, s.window_eq hindex, ?_, ?_⟩
  · show _ ≤ (s.geometry.windowLength _).toNat
    rw [Geometry.toNat_windowStart hindex] at hstart
    rw [Geometry.toNat_windowLength hindex, hL]
    rw [UInt64.toNat_mod] at hstart ⊢
    omega
  · show _ = s.source.bytes.extract _ _
    rw [hstart]

end Shards

/-! ### The main statement -/

/-- **A read is a slice of one window just if it is not longer than the window is behind its first
byte**, padding included; it is a copy otherwise.  So what is not longer than the padding and one
byte is never copied, wherever it starts. -/
theorem reads_borrowed_within_window {bytes : ByteArray} {backing : Backing} {source : Source}
    {shardSize padding : UInt64} {shards : Shards}
    (hsource : Source.ofBytes? backing bytes = some source)
    (hshards : Shards.ofSource source shardSize padding = .ok shards)
    (calls : List Session.Call) :
    let s := Session.afterAll calls { shards }
    ∀ offset length : UInt64, offset.toNat + length.toNat ≤ bytes.size →
      ∃ chunk, (s.read offset length).1 = .ok chunk
        ∧ (chunk.stitched = false ↔ length.toNat = 0
          ∨ offset.toNat % shardSize.toNat + length.toNat ≤ shardSize.toNat + padding.toNat)
        ∧ (length.toNat ≤ padding.toNat + 1 → chunk.stitched = false)
        ∧ (chunk.stitched = false → 0 < length.toNat →
          ∃ window, shards.window (offset / shardSize) = .ok window
            ∧ (offset % shardSize).toNat + length.toNat ≤ window.length.toNat
            ∧ chunk.bytes = window.slice (offset % shardSize) length) := by
  intro s offset length hin
  have hs : s.shards = shards := Session.shards_afterAll calls { shards }
  have hbytes : shards.source.bytes = bytes := by
    rw [Shards.source_of_ofSource hshards, Source.bytes_of_ofBytes? hsource]
  obtain ⟨hS, hP⟩ := Shards.measures_of_ofSource hshards
  rw [← hbytes] at hin
  rw [← hS, ← hP]
  obtain ⟨chunk, hread, hslice, hborrowed⟩ := Shards.exists_read hin
  rw [Shards.not_one_lt_length_plan_iff hin] at hborrowed
  refine ⟨chunk, ?_, hborrowed, fun hshort => hborrowed.mpr (.inr ?_), fun h hpos => ?_⟩
  · show s.shards.read offset length = _
    rw [hs, hread]
  · -- in front of the first byte there is less than one shard of its window
    have hmod := Nat.mod_lt offset.toNat shards.geometry.shardSize_pos
    omega
  · have hfits := (hborrowed.mp h).resolve_left (Nat.ne_of_gt hpos)
    rw [hslice]
    exact Shards.exists_window_slice hin hpos hfits

/-- Windows of five bytes that begin four bytes apart, the last of two bytes.  Two bytes are
slices wherever they start, in the last window too; seven bytes are copied. -/
theorem reads_borrowed_within_window_tenBytes :
    ∃ source shards, Source.ofBytes? .memory tenBytes = some source
      ∧ Shards.ofSource source 4 1 = .ok shards
      ∧ let s := Session.afterAll [.read 2 7] { shards }
        (∃ chunk, (s.read 3 2).1 = .ok chunk ∧ chunk.stitched = false)
        ∧ (∃ chunk, (s.read 8 2).1 = .ok chunk ∧ chunk.stitched = false
          ∧ ∃ window, shards.window 2 = .ok window ∧ chunk.bytes = window.slice 0 2)
        ∧ ∃ chunk, (s.read 2 7).1 = .ok chunk ∧ chunk.stitched = true := by
  have hsource := Source.ofBytes?_of_lt .memory (show tenBytes.size < UInt64.size by decide)
  have hshards := Shards.ofSource_of_lt ⟨.memory, tenBytes, by decide⟩
    (show (1 : UInt64) < 4 by decide) (by decide)
  have hreads := reads_borrowed_within_window hsource hshards [.read 2 7]
  refine ⟨_, _, hsource, hshards, ?_, ?_, ?_⟩
  · obtain ⟨chunk, hread, -, hshort, -⟩ := hreads 3 2 (by decide)
    exact ⟨chunk, hread, hshort (by decide)⟩
  · obtain ⟨chunk, hread, -, hshort, hslice⟩ := hreads 8 2 (by decide)
    obtain ⟨window, hwindow, -, heq⟩ := hslice (hshort (by decide)) (by decide)
    exact ⟨chunk, hread, hshort (by decide), window, hwindow, heq⟩
  · obtain ⟨chunk, hread, hiff, -⟩ := hreads 2 7 (by decide)
    exact ⟨chunk, hread, Bool.eq_true_of_not_eq_false (mt hiff.mp (by decide))⟩

end HeapDump
