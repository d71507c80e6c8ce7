/-
HeapDump/Proofs/Shards/Stitching.lean

A read through windows gives the bytes of the source, whatever the windows.

All the arithmetic of a geometry is on words that wrap around.  Below a source
that is counted in a word none of it does, so first each word operation is
turned into the operation on numbers (`toNat_count`, `toNat_windowStart`,
`toNat_windowLength`).  A piece of a read is then the run of bytes between two
positions (`serve_piece`), a plan is the whole run (`serve_pieces`), and a read
either gives exactly the bytes of its range or refuses a range that is not
inside the source:

    (s.read offset length).map (·.bytes)
      = if offset + length ≤ size then .ok (the bytes from offset on)
        else .error (.outOfBounds offset length size)        (`map_bytes_read`).

The right side does not mention the geometry.  So the store behind windows is a
function of the bytes (`store_congr`), and it serves them (`store_serves`): nothing
that reads records has to know of windows.
-/
import HeapDump.Proofs.Bytes.Span
import HeapDump.Shards.Basic
import Mathlib.Data.UInt

namespace HeapDump

/-! ### Windows in numbers -/

/-- A sum that fits into a word does not wrap around. -/
theorem toNat_add_of_lt {a b : UInt64} (h : a.toNat + b.toNat < 2 ^ 64) :
    (a + b).toNat = a.toNat + b.toNat := by
  rw [UInt64.toNat_add, Nat.mod_eq_of_lt h]

namespace Geometry

theorem shardSize_pos (g : Geometry) : 0 < g.shardSize.toNat := by
  have h := UInt64.lt_iff_toNat_lt.mp g.padding_lt
  omega

/-- The number of windows does not wrap around. -/
theorem toNat_count (g : Geometry) :
    g.count.toNat = g.length.toNat / g.shardSize.toNat
      + if g.length.toNat % g.shardSize.toNat = 0 then 0 else 1 := by
  have hL := g.length.toNat_lt
  have hS := g.shardSize_pos
  have hmod : g.length % g.shardSize = 0 ↔ g.length.toNat % g.shardSize.toNat = 0 := by
    rw [← UInt64.toNat_inj, UInt64.toNat_mod, UInt64.toNat_zero]
  unfold count
  by_cases h : g.length.toNat % g.shardSize.toNat = 0
  · rw [if_pos (hmod.mpr h), if_pos h, UInt64.add_zero, UInt64.toNat_div, Nat.add_zero]
  · -- a source that is cut with a rest has windows of two bytes at least
    have hS2 : 2 ≤ g.shardSize.toNat := by
      by_contra hlt
      have h1 : g.shardSize.toNat = 1 := by omega
      rw [h1, Nat.mod_one] at h
      exact h rfl
    have hq : g.length.toNat / g.shardSize.toNat ≤ g.length.toNat / 2 :=
      Nat.div_le_div_left hS2 (by decide)
    rw [if_neg (fun h0 => h (hmod.mp h0)), if_neg h, UInt64.toNat_add, UInt64.toNat_div,
      UInt64.toNat_one, Nat.mod_eq_of_lt (by omega)]

/-- A window that exists starts inside the source. -/
theorem mul_shardSize_lt {g : Geometry} {index : UInt64} (h : index < g.count) :
    index.toNat * g.shardSize.toNat < g.length.toNat := by
  have hi := UInt64.lt_iff_toNat_lt.mp h
  have hdiv := Nat.div_add_mod' g.length.toNat g.shardSize.toNat
  have hS := g.shardSize_pos
  -- the last window may be shorter than the others, by what the division leaves
  rw [toNat_count] at hi
  split at hi
  · have hle : (index.toNat + 1) * g.shardSize.toNat
        ≤ g.length.toNat / g.shardSize.toNat * g.shardSize.toNat :=
      Nat.mul_le_mul_right _ (by omega)
    rw [Nat.add_mul, Nat.one_mul] at hle
    omega
  · have hle : index.toNat * g.shardSize.toNat
        ≤ g.length.toNat / g.shardSize.toNat * g.shardSize.toNat :=
      Nat.mul_le_mul_right _ (by omega)
    omega

theorem toNat_windowStart {g : Geometry} {index : UInt64} (h : index < g.count) :
    (g.windowStart index).toNat = index.toNat * g.shardSize.toNat := by
  have hlt := mul_shardSize_lt h
  have hL := g.length.toNat_lt
  rw [windowStart, UInt64.toNat_mul, Nat.mod_eq_of_lt (by omega)]

theorem toNat_windowLength {g : Geometry} {index : UInt64} (h : index < g.count) :
    (g.windowLength index).toNat
      = min (g.shardSize.toNat + g.padding.toNat)
          (g.length.toNat - index.toNat * g.shardSize.toNat) := by
  have hlt := mul_shardSize_lt h
  have hw : g.shardSize.toNat + g.padding.toNat < 2 ^ 64 := g.window_lt
  have hspan := toNat_add_of_lt hw
  have hrest : (g.length - g.windowStart index).toNat
      = g.length.toNat - index.toNat * g.shardSize.toNat := by
    rw [UInt64.toNat_sub_of_le, toNat_windowStart h]
    rw [UInt64.le_iff_toNat_le, toNat_windowStart h]
    omega
  rw [windowLength, ← hspan, ← hrest, UInt64.toNat_min]

/-- A byte of the source selects a window that exists. -/
theorem div_shardSize_lt_count {g : Geometry} {position : UInt64} (h : position < g.length) :
    position / g.shardSize < g.count := by
  have hp := UInt64.lt_iff_toNat_lt.mp h
  have hS := g.shardSize_pos
  rw [UInt64.lt_iff_toNat_lt, UInt64.toNat_div, toNat_count]
  split
  · next hmod =>
    rw [Nat.add_zero, Nat.div_lt_iff_lt_mul hS, Nat.div_mul_cancel (Nat.dvd_of_mod_eq_zero hmod)]
    exact hp
  · exact Nat.lt_succ_of_le (Nat.div_le_div_right (Nat.le_of_lt hp))

/-- The window of a position, and the position counted from the window's first byte. -/
theorem windowStart_add_start {g : Geometry} {position stop : UInt64} (h : position < g.length) :
    (g.windowStart (g.piece position stop).index).toNat + (g.piece position stop).start.toNat
      = position.toNat := by
  show (g.windowStart (position / g.shardSize)).toNat + (position % g.shardSize).toNat = _
  rw [toNat_windowStart (div_shardSize_lt_count h), UInt64.toNat_div, UInt64.toNat_mod]
  exact Nat.div_add_mod' ..

/-- A piece of a read has the bytes up to the end of the read or of its window, and that is one
byte at least. -/
theorem toNat_take {g : Geometry} {position stop : UInt64} (h : position < stop)
    (hstop : stop ≤ g.length) :
    let p := g.piece position stop
    p.start.toNat < (g.windowLength p.index).toNat
      ∧ p.take.toNat
        = min (stop.toNat - position.toNat) ((g.windowLength p.index).toNat - p.start.toNat) := by
  intro p
  have hlt : position < g.length := UInt64.lt_of_lt_of_le h hstop
  have hL := UInt64.lt_iff_toNat_lt.mp hlt
  have hindex : p.index < g.count := div_shardSize_lt_count hlt
  have hsum : (g.windowStart p.index).toNat + p.start.toNat = position.toNat :=
    windowStart_add_start hlt
  rw [toNat_windowStart hindex] at hsum
  have hmod : p.start.toNat < g.shardSize.toNat := by
    show (position % g.shardSize).toNat < _
    rw [UInt64.toNat_mod]
    exact Nat.mod_lt _ g.shardSize_pos
  -- the position is inside its window, so the window has a byte for it at least
  have hin : p.start.toNat < (g.windowLength p.index).toNat := by
    rw [toNat_windowLength hindex]
    exact Nat.lt_min.mpr ⟨by omega, by omega⟩
  have hrest : (g.windowLength p.index - p.start).toNat
      = (g.windowLength p.index).toNat - p.start.toNat :=
    UInt64.toNat_sub_of_le _ _ (UInt64.le_iff_toNat_le.mpr (Nat.le_of_lt hin))
  have hgap : (stop - position).toNat = stop.toNat - position.toNat :=
    UInt64.toNat_sub_of_le _ _ (UInt64.le_of_lt h)
  rw [← hgap, ← hrest]
  exact ⟨hin, UInt64.toNat_min ..⟩

/-- A piece of a read ends inside its window. -/
theorem start_add_take_le {g : Geometry} {position stop : UInt64} (h : position < stop)
    (hstop : stop ≤ g.length) :
    let p := g.piece position stop
    p.start.toNat + p.take.toNat ≤ (g.windowLength p.index).toNat
      ∧ 0 < p.take.toNat ∧ p.take.toNat ≤ stop.toNat - position.toNat := by
  intro p
  have hn := UInt64.lt_iff_toNat_lt.mp h
  obtain ⟨hin, htake⟩ : p.start.toNat < (g.windowLength p.index).toNat
      ∧ p.take.toNat
        = min (stop.toNat - position.toNat) ((g.windowLength p.index).toNat - p.start.toNat) :=
    toNat_take h hstop
  rw [htake]
  exact ⟨by omega, by omega, by omega⟩

end Geometry

/-! ### Reads -/

namespace Shards

theorem toNat_length (s : Shards) : s.length.toNat = s.source.bytes.size := by
  show s.geometry.length.toNat = _
  rw [s.length_eq]
  exact UInt64.toNat_ofNat_of_lt' s.source.size_lt

/-- A window that exists can be made accessible. -/
theorem window_eq (s : Shards) {index : UInt64} (h : index < s.geometry.count) :
    s.window index
      = .ok ⟨s.source, s.geometry.windowStart index, s.geometry.windowLength index⟩ := by
  have hlt := Geometry.mul_shardSize_lt h
  have hL := s.geometry.length.toNat_lt
  have hsum : (s.geometry.windowStart index + s.geometry.windowLength index).toNat
      = (s.geometry.windowStart index).toNat + (s.geometry.windowLength index).toNat := by
    apply toNat_add_of_lt
    rw [Geometry.toNat_windowStart h, Geometry.toNat_windowLength h]
    omega
  -- a window that exists does not go beyond the source
  have hle : s.geometry.windowStart index + s.geometry.windowLength index ≤ s.source.length := by
    rw [UInt64.le_iff_toNat_le, hsum, Geometry.toNat_windowStart h, Geometry.toNat_windowLength h,
      ← s.length_eq]
    omega
  rw [window, if_pos h, Source.map, if_pos]
  exact ⟨by rw [UInt64.le_iff_toNat_le, hsum]; omega, hle⟩

/-- A piece serves the run of bytes that it stands for. -/
theorem serve_piece (s : Shards) {position stop : UInt64} (h : position < stop)
    (hstop : stop ≤ s.length) :
    s.serve (s.geometry.piece position stop)
      = .ok (s.source.bytes.extract position.toNat
          (position.toNat + (s.geometry.piece position stop).take.toNat)) := by
  have hlt : position < s.geometry.length := UInt64.lt_of_lt_of_le h hstop
  have hindex : (s.geometry.piece position stop).index < s.geometry.count :=
    Geometry.div_shardSize_lt_count hlt
  rw [serve, s.window_eq hindex]
  show Except.ok (s.source.bytes.extract _ _) = _
  rw [Geometry.windowStart_add_start hlt]

/-- The pieces of a read serve the bytes between its two ends.  The induction is on
the fuel, which suffices because every piece has a byte at least. -/
theorem serve_pieces (s : Shards) {stop : UInt64} (hstop : stop ≤ s.length) (fuel : Nat)
    {position : UInt64} (h : position ≤ stop) (hfuel : stop.toNat - position.toNat ≤ fuel) :
    ∃ parts, (s.geometry.pieces fuel position stop).mapM s.serve = .ok parts
      ∧ ∀ front, parts.foldl (· ++ ·) front
          = front ++ s.source.bytes.extract position.toNat stop.toNat := by
  have hend : stop.toNat ≤ s.source.bytes.size := by
    rw [← s.toNat_length]
    exact UInt64.le_iff_toNat_le.mp hstop
  induction fuel generalizing position with
  | zero =>
    -- no fuel and no bytes: the read has come to its end
    have heq : stop.toNat = position.toNat := by
      have := UInt64.le_iff_toNat_le.mp h
      omega
    exact ⟨[], rfl, fun front => by simp [heq]⟩
  | succ fuel ih =>
    by_cases hlt : position < stop
    · obtain ⟨p, hp⟩ : ∃ p, s.geometry.piece position stop = p := ⟨_, rfl⟩
      have hserve := s.serve_piece hlt hstop
      obtain ⟨-, hpos, htake⟩ := Geometry.start_add_take_le hlt hstop
      rw [hp] at hserve hpos htake
      have hsum : (position + p.take).toNat = position.toNat + p.take.toNat := by
        apply toNat_add_of_lt
        have := stop.toNat_lt
        omega
      have hle : position + p.take ≤ stop := by
        rw [UInt64.le_iff_toNat_le, hsum]
        omega
      -- the rest of the read begins behind this piece
      obtain ⟨parts, hparts, hfold⟩ := ih hle (by omega)
      refine ⟨s.source.bytes.extract position.toNat (position.toNat + p.take.toNat) :: parts, ?_,
        fun front => ?_⟩
      · rw [Geometry.pieces, if_pos hlt, hp, List.mapM_cons, hserve]
        show (do let rest ← List.mapM s.serve _; pure _) = _
        rw [hparts]
        rfl
      · rw [List.foldl_cons, hfold, ByteArray.append_assoc, hsum,
          ByteArray.extract_append_extract]
        congr 2 <;> omega
    · have heq : position = stop := UInt64.le_antisymm h (UInt64.not_lt.mp hlt)
      refine ⟨[], ?_, fun front => by simp [heq]⟩
      rw [Geometry.pieces, if_neg hlt]
      rfl

/-- A range that lies inside the source has an end. -/
theorem stop?_eq (s : Shards) (offset length : UInt64) :
    s.geometry.stop? offset length
      = if offset.toNat + length.toNat ≤ s.source.bytes.size then some (offset + length)
        else none := by
  have hL : s.geometry.length.toNat = s.source.bytes.size := s.toNat_length
  have hsize : s.source.bytes.size < 2 ^ 64 := s.source.size_lt
  have ho := offset.toNat_lt
  have hl := length.toNat_lt
  unfold Geometry.stop?
  simp only [UInt64.le_iff_toNat_le, UInt64.toNat_add, hL]
  by_cases hin : offset.toNat + length.toNat ≤ s.source.bytes.size
  · rw [if_pos hin, if_pos]
    rw [Nat.mod_eq_of_lt (by omega)]
    omega
  · -- a sum that is no word wraps around to less than its first part
    rw [if_neg hin, if_neg]
    rintro ⟨h1, h2⟩
    omega

/-- A read gives the bytes of its range if the range lies inside the source, and is
refused otherwise. -/
theorem map_bytes_read (s : Shards) (offset length : UInt64) :
    (s.read offset length).map (·.bytes)
      = if offset.toNat + length.toNat ≤ s.source.bytes.size then
          .ok (s.source.bytes.extract offset.toNat (offset.toNat + length.toNat))
        else .error (.outOfBounds offset.toNat length.toNat s.source.bytes.size) := by
  rw [read, stop?_eq]
  by_cases hin : offset.toNat + length.toNat ≤ s.source.bytes.size
  · have hsize : s.source.bytes.size < 2 ^ 64 := s.source.size_lt
    have hsum := toNat_add_of_lt (Nat.lt_of_le_of_lt hin hsize)
    have hle : offset ≤ offset + length := by
      rw [UInt64.le_iff_toNat_le, hsum]
      omega
    have hstop : offset + length ≤ s.length := by
      rw [UInt64.le_iff_toNat_le, hsum, s.toNat_length]
      exact hin
    -- there is fuel for as many pieces as there are bytes
    have hfuel : (offset + length).toNat - offset.toNat ≤ (offset + length - offset).toNat := by
      rw [UInt64.toNat_sub_of_le _ _ hle]
    obtain ⟨parts, hparts, hfold⟩ := s.serve_pieces hstop _ hle hfuel
    rw [if_pos hin, if_pos hin]
    show Except.map _ (do let parts ← List.mapM s.serve (s.geometry.pieces _ _ _); pure _) = _
    rw [hparts]
    show Except.ok (parts.foldl (· ++ ·) ByteArray.empty) = _
    rw [hfold, ByteArray.empty_append, hsum]
  · rw [if_neg hin, if_neg hin, outOfBounds, s.toNat_length]
    rfl

/-- The store behind windows depends on nothing but the bytes of the source. -/
theorem store_congr {s t : Shards} (h : s.source.bytes = t.source.bytes) : s.store = t.store := by
  have hread : ∀ start length, s.store.read start length = t.store.read start length := by
    intro start length
    show (s.read _ _).map (·.bytes) = (t.read _ _).map (·.bytes)
    rw [map_bytes_read, map_bytes_read, h]
  have hsize : s.store.size = t.store.size := congrArg ByteArray.size h
  show ByteStore.mk s.store.size s.store.read = ByteStore.mk t.store.size t.store.read
  rw [hsize, funext fun start => funext fun length => hread start length]

/-- The bytes behind windows are those of the source. -/
theorem store_serves (s : Shards) : s.store.Serves s.source.bytes where
  size_eq := rfl
  read_eq {start length} h := by
    have hlt := s.source.size_lt
    have hstart : (UInt64.ofNat start).toNat = start :=
      UInt64.toNat_ofNat_of_lt' (Nat.lt_of_le_of_lt (Nat.le_add_right _ _) (h.trans_lt hlt))
    have hlength : (UInt64.ofNat length).toNat = length :=
      UInt64.toNat_ofNat_of_lt' (Nat.lt_of_le_of_lt (Nat.le_add_left _ _) (h.trans_lt hlt))
    show (s.read _ _).map (·.bytes) = _
    rw [map_bytes_read, hstart, hlength, if_pos h]

theorem source_of_ofSource {source : Source} {shardSize padding : UInt64} {s : Shards}
    (h : ofSource source shardSize padding = .ok s) : s.source = source := by
  unfold ofSource at h
  rcases hsizes : Geometry.ofSizes source.length shardSize padding with e | g
  · rw [hsizes] at h
    cases h
  · rw [hsizes] at h
    cases h
    rfl

/-- Every padding that is smaller than a shard is accepted, unless the window would be
no word. -/
theorem ofSource_of_lt (source : Source) {shardSize padding : UInt64} (lt : padding < shardSize)
    (sum : shardSize.toNat + padding.toNat < UInt64.size) :
    ofSource source shardSize padding
      = .ok ⟨source, ⟨source.length, shardSize, padding, lt, sum⟩, rfl⟩ := by
  have hpos : shardSize ≠ 0 := by
    rintro rfl
    exact absurd (UInt64.lt_iff_toNat_lt.mp lt) (Nat.not_lt_zero _)
  rw [ofSource, Geometry.ofSizes, if_neg hpos, dif_pos lt, dif_pos sum]
  rfl

end Shards

theorem Source.ofBytes?_of_lt (backing : Backing) {bytes : ByteArray}
    (h : bytes.size < UInt64.size) : ofBytes? backing bytes = some ⟨backing, bytes, h⟩ :=
  dif_pos h

theorem Source.bytes_of_ofBytes? {backing : Backing} {bytes : ByteArray} {source : Source}
    (h : ofBytes? backing bytes = some source) : source.bytes = bytes := by
  unfold ofBytes? at h
  split at h
  · cases h
    rfl
  · cases h

end HeapDump
