/-
HeapDump/Proofs/Shards/Exactness.lean

Windows on words that do not wrap around.

Measures, places and lengths are words, and a sum, a product or a difference of words may be another
one than that of the numbers.  `Geometry.Exact` lists what is worked out for one round of a read,
each time as an equation on numbers, and holds for every byte of a read inside the source
(`Geometry.exact_of_lt`): that the padding is smaller than a shard and the two together are a word
is enough for measures of any size, and the last window may be as short as it likes.

The equations alone would not say that reading uses no other words.  `Shards.checkedRead` is
therefore a second account of a read, written down with checks: it reads in rounds and has no
result as soon as a word wraps around, a slice goes beyond its window, a window is asked for that
there is not, or a round does not come closer to the end.  It has a result on all arguments, and
that is the reading (`Shards.checkedRead_eq`); for a read that leaves the source even the sum of
place and length may wrap around, and both refuse it.

The rounds are a recursion on the bytes that are left, and the check that a round comes closer to
the end is what ends it.  Main statement: `window_arithmetic_exact`.
-/
import HeapDump.Proofs.Shards.Borrowing

namespace HeapDump

/-! ### Rounds in numbers -/

/-- A difference that is not negative does not wrap around. -/
theorem toNat_sub_add {a b : UInt64} (h : b ≤ a) : (a - b).toNat + b.toNat = a.toNat := by
  rw [UInt64.toNat_sub_of_le _ _ h]
  exact Nat.sub_add_cancel (UInt64.le_iff_toNat_le.mp h)

namespace Geometry

variable {g : Geometry} {position stop : UInt64}

/-- What is worked out in a round of a read up to `stop` that begins at `position` and takes `p`:
every word is what it is in numbers, the window exists and has the bytes that are taken from it, and
the next round begins behind `position` and not behind `stop`. -/
structure Exact (g : Geometry) (p : Piece) (position stop : UInt64) : Prop where
  index_lt : p.index < g.count
  windowStart_eq : (p.index * g.shardSize).toNat = p.index.toNat * g.shardSize.toNat
  span_eq : (g.shardSize + g.padding).toNat = g.shardSize.toNat + g.padding.toNat
  rest_eq : (g.length - g.windowStart p.index).toNat + (g.windowStart p.index).toNat
    = g.length.toNat
  available_eq : (g.windowLength p.index - p.start).toNat + p.start.toNat
    = (g.windowLength p.index).toNat
  gap_eq : (stop - position).toNat + position.toNat = stop.toNat
  slice_eq : (p.start + p.take).toNat = p.start.toNat + p.take.toNat
  slice_le : p.start + p.take ≤ g.windowLength p.index
  next_eq : (position + p.take).toNat = position.toNat + p.take.toNat
  lt_next : position < position + p.take
  next_le : position + p.take ≤ stop

/-- **No round of a read inside the source wraps around.** -/
theorem exact_of_lt (h : position < stop) (hstop : stop ≤ g.length) :
    g.Exact (g.piece position stop) position stop := by
  have hlt : position < g.length := UInt64.lt_of_lt_of_le h hstop
  have hindex : (g.piece position stop).index < g.count := div_shardSize_lt_count hlt
  obtain ⟨hstart, -⟩ := toNat_take h hstop
  obtain ⟨hslice, hpos, hle⟩ := start_add_take_le h hstop
  obtain ⟨p, hp⟩ : ∃ p, g.piece position stop = p := ⟨_, rfl⟩
  rw [hp] at hindex hstart hslice hpos hle ⊢
  have hwindowStart := toNat_windowStart hindex
  have hinside := mul_shardSize_lt hindex
  have hwindow := (g.windowLength p.index).toNat_lt
  have hlast := stop.toNat_lt
  have hn := UInt64.lt_iff_toNat_lt.mp h
  have hsum : (p.start + p.take).toNat = p.start.toNat + p.take.toNat :=
    toNat_add_of_lt (hslice.trans_lt hwindow)
  have hnext : (position + p.take).toNat = position.toNat + p.take.toNat :=
    toNat_add_of_lt (by omega)
  refine ⟨hindex, hwindowStart, toNat_add_of_lt g.window_lt, toNat_sub_add ?_, toNat_sub_add ?_,
    toNat_sub_add (UInt64.le_of_lt h), hsum, ?_, hnext, ?_, ?_⟩
  · rw [UInt64.le_iff_toNat_le, hwindowStart]
    exact Nat.le_of_lt hinside
  · exact UInt64.le_of_lt (UInt64.lt_iff_toNat_lt.mpr hstart)
  · rw [UInt64.le_iff_toNat_le, hsum]
    exact hslice
  · rw [UInt64.lt_iff_toNat_lt, hnext]
    omega
  · rw [UInt64.le_iff_toNat_le, hnext]
    omega

/-- Each piece of a read is that of a round which begins inside the read. -/
theorem exists_round_of_mem_pieces (hstop : stop ≤ g.length) (fuel : Nat) {p : Piece}
    (hp : p ∈ g.pieces fuel position stop) :
    ∃ round, position ≤ round ∧ round < stop ∧ p = g.piece round stop := by
  induction fuel generalizing position with
  | zero => exact absurd hp List.not_mem_nil
  | succ fuel ih =>
    by_cases h : position < stop
    · rw [pieces, if_pos h] at hp
      rcases List.mem_cons.mp hp with rfl | hp
      · exact ⟨position, UInt64.le_refl _, h, rfl⟩
      · obtain ⟨round, hle, hlt, rfl⟩ := ih hp
        exact ⟨round, UInt64.le_trans (UInt64.le_of_lt (exact_of_lt h hstop).lt_next) hle, hlt, rfl⟩
    · rw [pieces, if_neg h] at hp
      exact absurd hp List.not_mem_nil

end Geometry

/-! ### Reading with checks -/

/-- A sum, if it is a word. -/
def checkedAdd (a b : UInt64) : Option UInt64 :=
  if a.toNat + b.toNat < UInt64.size then some (a + b) else none

/-- A product, if it is a word. -/
def checkedMul (a b : UInt64) : Option UInt64 :=
  if a.toNat * b.toNat < UInt64.size then some (a * b) else none

/-- A difference, if it is not negative. -/
def checkedSub (a b : UInt64) : Option UInt64 := if b ≤ a then some (a - b) else none

theorem checkedAdd_eq {a b : UInt64} (h : (a + b).toNat = a.toNat + b.toNat) :
    checkedAdd a b = some (a + b) := by
  rw [checkedAdd, if_pos]
  rw [← h]
  exact (a + b).toNat_lt

theorem checkedMul_eq {a b : UInt64} (h : (a * b).toNat = a.toNat * b.toNat) :
    checkedMul a b = some (a * b) := by
  rw [checkedMul, if_pos]
  rw [← h]
  exact (a * b).toNat_lt

theorem checkedSub_eq {a b : UInt64} (h : (a - b).toNat + b.toNat = a.toNat) :
    checkedSub a b = some (a - b) := by
  rw [checkedSub, if_pos]
  rw [UInt64.le_iff_toNat_le]
  omega

/-- The bytes of a slice, if it lies in its window. -/
def Window.checkedSlice (w : Window) (start length : UInt64) : Option ByteArray := do
  let stop ← checkedAdd start length
  if stop ≤ w.length then return w.slice start length else none

namespace Shards

/-- The number of the window of a place and the place in that window, if shards have bytes. -/
def checkedLocate (s : Shards) (position : UInt64) : Option (UInt64 × UInt64) :=
  if s.geometry.shardSize = 0 then none
  else some (position / s.geometry.shardSize, position % s.geometry.shardSize)

/-- The window with a number, if there is one. -/
def checkedWindow (s : Shards) (index : UInt64) : Option (Except Error Window) :=
  if index < s.geometry.count then do
    let start ← checkedMul index s.geometry.shardSize
    let span ← checkedAdd s.geometry.shardSize s.geometry.padding
    let rest ← checkedSub s.geometry.length start
    return s.source.map start (min span rest)
  else none

/-- Copies the bytes from `position` to `stop` together, window by window, behind those that are
there already.  Every round must come closer to the end and not go beyond it. -/
def checkedStitch (s : Shards) (stop position : UInt64) (front : ByteArray) :
    Option (Except Error ByteArray) :=
  if position < stop then do
    let (index, start) ← s.checkedLocate position
    match ← s.checkedWindow index with
    | .error e => return .error e
    | .ok window =>
      let available ← checkedSub window.length start
      let rest ← checkedSub stop position
      let take := min rest available
      let bytes ← window.checkedSlice start take
      let next ← checkedAdd position take
      if _ : position < next ∧ next ≤ stop then s.checkedStitch stop next (front ++ bytes)
      else none
  else some (.ok front)
termination_by stop.toNat - position.toNat
decreasing_by
  have hnext : position < next ∧ next ≤ stop := ‹_›
  have h1 := UInt64.lt_iff_toNat_lt.mp hnext.1
  have h2 := UInt64.le_iff_toNat_le.mp hnext.2
  omega

/-- The bytes from `offset` to `stop`, of which there is one at least: a slice of the window of the
first one, or copied together. -/
def checkedServe (s : Shards) (offset length stop : UInt64) : Option (Except Error Chunk) := do
  let (index, start) ← s.checkedLocate offset
  match ← s.checkedWindow index with
  | .error e => return .error e
  | .ok window =>
    if (← checkedAdd start length) ≤ window.length then
      return .ok ⟨← window.checkedSlice start length, false⟩
    else return (← s.checkedStitch stop offset ByteArray.empty).map fun bytes => ⟨bytes, true⟩

/-- The `length` bytes at `offset`.  Whether the range has an end is checked by the reading itself,
so that one which has none is refused. -/
def checkedRead (s : Shards) (offset length : UInt64) : Option (Except Error Chunk) :=
  match checkedAdd offset length with
  | none => some (.error (s.outOfBounds offset length))
  | some stop =>
    if s.length < stop then some (.error (s.outOfBounds offset length))
    else if length = 0 then some (.ok ⟨ByteArray.empty, false⟩)
    else s.checkedServe offset length stop

/-! ### Nothing wraps around -/

variable (s : Shards) {position stop offset length : UInt64}

theorem checkedLocate_eq (position stop : UInt64) : s.checkedLocate position
    = some ((s.geometry.piece position stop).index, (s.geometry.piece position stop).start) := by
  have hpos : 0 < s.geometry.shardSize := UInt64.lt_of_le_of_lt UInt64.zero_le s.geometry.padding_lt
  exact if_neg (UInt64.pos_iff_ne_zero.mp hpos)

/-- The window of a round is there, and it is measured without wrapping around. -/
theorem checkedWindow_eq {p : Piece} (h : s.geometry.Exact p position stop) :
    s.checkedWindow p.index = some (.ok ⟨s.source, s.geometry.windowStart p.index,
      s.geometry.windowLength p.index⟩) := by
  have hwindow := s.window_eq h.index_lt
  rw [window, if_pos h.index_lt] at hwindow
  rw [checkedWindow, if_pos h.index_lt, checkedMul_eq h.windowStart_eq, checkedAdd_eq h.span_eq]
  show (checkedSub s.geometry.length (s.geometry.windowStart _) >>= _) = _
  rw [checkedSub_eq h.rest_eq]
  exact congrArg some hwindow

/-- The bytes that a round takes lie in its window. -/
theorem checkedSlice_eq (hlt : position < stop) (hstop : stop ≤ s.length) :
    Window.checkedSlice ⟨s.source, s.geometry.windowStart (s.geometry.piece position stop).index,
        s.geometry.windowLength (s.geometry.piece position stop).index⟩
      (s.geometry.piece position stop).start (s.geometry.piece position stop).take
      = some (s.source.bytes.extract position.toNat
          (position.toNat + (s.geometry.piece position stop).take.toNat)) := by
  have h : s.geometry.Exact (s.geometry.piece position stop) position stop :=
    Geometry.exact_of_lt hlt hstop
  have hserve := s.serve_piece hlt hstop
  rw [serve, s.window_eq h.index_lt] at hserve
  rw [Window.checkedSlice, checkedAdd_eq h.slice_eq]
  exact (if_pos h.slice_le).trans (congrArg some (Except.ok.inj hserve))

/-- **Every round comes closer to the end**, and all together copy the bytes up to it. -/
theorem checkedStitch_eq (hstop : stop ≤ s.length) {position : UInt64} (hle : position ≤ stop)
    (front : ByteArray) :
    s.checkedStitch stop position front
      = some (.ok (front ++ s.source.bytes.extract position.toNat stop.toNat)) := by
  by_cases hlt : position < stop
  · have h : s.geometry.Exact (s.geometry.piece position stop) position stop :=
      Geometry.exact_of_lt hlt hstop
    -- the rounds that are left copy what stands behind the bytes of this one
    have hend : position.toNat + (s.geometry.piece position stop).take.toNat ≤ stop.toNat := by
      rw [← h.next_eq]
      exact UInt64.le_iff_toNat_le.mp h.next_le
    have hrest := checkedStitch_eq hstop h.next_le
      (front ++ s.source.bytes.extract position.toNat
        (position.toNat + (s.geometry.piece position stop).take.toNat))
    rw [h.next_eq, ByteArray.append_assoc, ByteArray.extract_append_extract,
      Nat.min_eq_left (Nat.le_add_right ..), Nat.max_eq_right hend] at hrest
    rw [checkedStitch, if_pos hlt, s.checkedLocate_eq position stop]
    simp only [Option.bind_eq_bind, Option.bind_some, s.checkedWindow_eq h,
      checkedSub_eq h.available_eq, checkedSub_eq h.gap_eq]
    refine Option.bind_eq_some_iff.mpr ⟨_, s.checkedSlice_eq hlt hstop, ?_⟩
    refine Option.bind_eq_some_iff.mpr ⟨_, checkedAdd_eq h.next_eq, ?_⟩
    exact (dif_pos ⟨h.lt_next, h.next_le⟩).trans hrest
  · have heq : position = stop := UInt64.le_antisymm hle (UInt64.not_lt.mp hlt)
    rw [checkedStitch, if_neg hlt, heq, ByteArray.extract_same, ByteArray.append_empty]
termination_by stop.toNat - position.toNat
decreasing_by
  have h1 := UInt64.lt_iff_toNat_lt.mp h.lt_next
  have h2 := UInt64.le_iff_toNat_le.mp h.next_le
  omega

section

variable (hin : offset.toNat + length.toNat ≤ s.source.bytes.size)
include hin

/-- A read that lies in the source does not wrap around behind the place in its window either. -/
theorem toNat_start_add_length : ((s.geometry.piece offset stop).start + length).toNat
    = (s.geometry.piece offset stop).start.toNat + length.toNat := by
  have hle : (s.geometry.piece offset stop).start.toNat ≤ offset.toNat := by
    show (offset % s.geometry.shardSize).toNat ≤ _
    rw [UInt64.toNat_mod]
    exact Nat.mod_le ..
  have hsize : s.source.bytes.size < 2 ^ 64 := s.source.size_lt
  exact toNat_add_of_lt (by omega)

/-- A read fits into the window of its first byte if it is not longer than a full window is behind
that byte, since the source does not end in front of the read. -/
theorem start_add_length_le_iff (hpos : 0 < length.toNat) (stop : UInt64) :
    (s.geometry.piece offset stop).start + length
        ≤ s.geometry.windowLength (s.geometry.piece offset stop).index
      ↔ offset.toNat % s.geometry.shardSize.toNat + length.toNat
        ≤ s.geometry.shardSize.toNat + s.geometry.padding.toNat := by
  have hL : s.geometry.length.toNat = s.source.bytes.size := s.toNat_length
  have hlt : offset < s.geometry.length := by
    rw [UInt64.lt_iff_toNat_lt, hL]
    omega
  have hindex : (s.geometry.piece offset stop).index < s.geometry.count :=
    Geometry.div_shardSize_lt_count hlt
  have hplace := @Geometry.windowStart_add_start s.geometry offset stop hlt
  have hstart : (s.geometry.piece offset stop).start.toNat
      = offset.toNat % s.geometry.shardSize.toNat := UInt64.toNat_mod ..
  rw [Geometry.toNat_windowStart hindex] at hplace
  rw [UInt64.le_iff_toNat_le, s.toNat_start_add_length hin, Geometry.toNat_windowLength hindex,
    hstart, hL]
  omega

/-- A read of bytes is a slice of one window or copied together, and nothing wraps around. -/
theorem checkedServe_eq (hpos : 0 < length.toNat) :
    s.checkedServe offset length (offset + length) = some (s.read offset length) := by
  have hsum := toNat_add_of_lt (hin.trans_lt s.source.size_lt)
  have hlt : offset < offset + length := by
    rw [UInt64.lt_iff_toNat_lt, hsum]
    omega
  have hstop : offset + length ≤ s.length := by
    rw [UInt64.le_iff_toNat_le, hsum, s.toNat_length]
    exact hin
  have h : s.geometry.Exact (s.geometry.piece offset (offset + length)) offset (offset + length) :=
    Geometry.exact_of_lt hlt hstop
  obtain ⟨⟨bytes, stitched⟩, hread, hbytes, hborrowed⟩ := exists_read hin
  rw [not_one_lt_length_plan_iff hin, or_iff_right (Nat.ne_of_gt hpos),
    ← s.start_add_length_le_iff hin hpos (offset + length)] at hborrowed
  change bytes = _ at hbytes
  change stitched = false ↔ _ at hborrowed
  rw [checkedServe, s.checkedLocate_eq offset (offset + length), hread]
  simp only [Option.bind_eq_bind, Option.bind_some, s.checkedWindow_eq h,
    checkedAdd_eq (s.toNat_start_add_length hin)]
  -- one window has all of the read, or the rounds copy it together
  by_cases hfits : (s.geometry.piece offset (offset + length)).start + length
      ≤ s.geometry.windowLength (s.geometry.piece offset (offset + length)).index
  · obtain rfl := hborrowed.mpr hfits
    rw [if_pos hfits, Window.checkedSlice, checkedAdd_eq (s.toNat_start_add_length hin), hbytes]
    simp only [Option.bind_eq_bind, Option.bind_some, if_pos hfits]
    show some (Except.ok (Chunk.mk (s.source.bytes.extract _ _) false)) = _
    rw [Geometry.windowStart_add_start (UInt64.lt_of_lt_of_le hlt hstop)]
  · have hcopied : stitched = true := Bool.eq_true_of_not_eq_false (mt hborrowed.mp hfits)
    rw [if_neg hfits, s.checkedStitch_eq hstop (UInt64.le_of_lt hlt), ByteArray.empty_append, hsum,
      ← hbytes, hcopied]
    rfl

end

/-- **Reading never wraps around**: the reading with checks is the reading. -/
theorem checkedRead_eq (s : Shards) (offset length : UInt64) :
    s.checkedRead offset length = some (s.read offset length) := by
  by_cases hin : offset.toNat + length.toNat ≤ s.source.bytes.size
  · have hword := hin.trans_lt s.source.size_lt
    have hinside : ¬s.length < offset + length := by
      rw [UInt64.lt_iff_toNat_lt, toNat_add_of_lt hword, s.toNat_length]
      exact Nat.not_lt.mpr hin
    rw [checkedRead, checkedAdd_eq (toNat_add_of_lt hword)]
    show (if s.length < offset + length then _ else _) = _
    rw [if_neg hinside]
    by_cases hzero : length = 0
    · subst hzero
      rw [if_pos rfl, read, stop?_eq, if_pos hin, UInt64.add_zero]
      show _ = some (do let parts ← (s.geometry.plan offset offset).mapM s.serve; _)
      rw [Geometry.plan_self]
      rfl
    · rw [if_neg hzero]
      refine s.checkedServe_eq hin (Nat.pos_of_ne_zero fun h => hzero ?_)
      exact UInt64.toNat_inj.mp h
  · have hread : s.read offset length = .error (s.outOfBounds offset length) := by
      rw [read, stop?_eq, if_neg hin]
    rw [checkedRead, hread]
    -- refused since the end is no word, or since it lies behind the source
    by_cases hword : offset.toNat + length.toNat < UInt64.size
    · rw [checkedAdd, if_pos hword]
      refine if_pos ?_
      rw [UInt64.lt_iff_toNat_lt, toNat_add_of_lt hword, s.toNat_length]
      exact Nat.lt_of_not_le hin
    · rw [checkedAdd, if_neg hword]

end Shards

/-! ### The main statement -/

/-- **The words of a read are those of the numbers.**  A read inside the source is what the reading
with checks gives.  In every round of it, and in whatever round could begin inside it, nothing wraps
around, the slice lies in a window that exists, and the next round begins closer to the end. -/
theorem window_arithmetic_exact {bytes : ByteArray} {backing : Backing} {source : Source}
    {shardSize padding : UInt64} {shards : Shards}
    (hsource : Source.ofBytes? backing bytes = some source)
    (hshards : Shards.ofSource source shardSize padding = .ok shards)
    {offset length : UInt64} (hin : offset.toNat + length.toNat ≤ bytes.size) :
    let g := shards.geometry
    let stop := offset + length
    stop.toNat = offset.toNat + length.toNat
      ∧ shards.checkedRead offset length = some (shards.read offset length)
      ∧ (∃ chunk, shards.read offset length = .ok chunk)
      ∧ ((g.piece offset stop).start + length).toNat
        = (g.piece offset stop).start.toNat + length.toNat
      ∧ (∀ position, offset ≤ position → position < stop →
        g.Exact (g.piece position stop) position stop
        ∧ ∃ window, shards.window (position / shardSize) = .ok window
          ∧ window.length = g.windowLength (g.piece position stop).index)
      ∧ ∀ p ∈ g.plan offset stop,
        ∃ round, offset ≤ round ∧ round < stop ∧ p = g.piece round stop := by
  intro g stop
  have hbytes : shards.source.bytes = bytes := by
    rw [Shards.source_of_ofSource hshards, Source.bytes_of_ofBytes? hsource]
  rw [← hbytes] at hin
  have hsum : stop.toNat = offset.toNat + length.toNat :=
    toNat_add_of_lt (hin.trans_lt shards.source.size_lt)
  have hstop : stop ≤ g.length := by
    rw [UInt64.le_iff_toNat_le, hsum]
    exact hin.trans_eq shards.toNat_length.symm
  obtain ⟨chunk, hread, -⟩ := Shards.exists_read hin
  refine ⟨hsum, shards.checkedRead_eq offset length, ⟨chunk, hread⟩,
    shards.toNat_start_add_length hin, fun position _ hlt => ?_,
    fun p hp => Geometry.exists_round_of_mem_pieces hstop _ hp⟩
  have h : g.Exact (g.piece position stop) position stop := Geometry.exact_of_lt hlt hstop
  rw [← (Shards.measures_of_ofSource hshards).1]
  exact ⟨h, _, shards.window_eq h.index_lt, rfl⟩

/-- Windows of five bytes that begin four bytes apart, the last of two bytes.  Seven bytes from
place two on are read in two rounds, and the second of them begins at place five. -/
theorem window_arithmetic_exact_tenBytes :
    ∃ source shards, Source.ofBytes? .memory tenBytes = some source
      ∧ Shards.ofSource source 4 1 = .ok shards
      ∧ (2 : UInt64).toNat + (7 : UInt64).toNat ≤ tenBytes.size
      ∧ shards.checkedRead 2 7 = some (shards.read 2 7)
      ∧ shards.geometry.Exact (shards.geometry.piece 5 9) 5 9 := by
  have hsource := Source.ofBytes?_of_lt .memory (show tenBytes.size < UInt64.size by decide)
  have hshards := Shards.ofSource_of_lt ⟨.memory, tenBytes, by decide⟩
    (show (1 : UInt64) < 4 by decide) (by decide)
  have hin : (2 : UInt64).toNat + (7 : UInt64).toNat ≤ tenBytes.size := by decide
  obtain ⟨-, hchecked, -, -, hround, -⟩ := window_arithmetic_exact hsource hshards hin
  exact ⟨_, _, hsource, hshards, hin, hchecked, (hround 5 (by decide) (by decide)).1⟩

end HeapDump
