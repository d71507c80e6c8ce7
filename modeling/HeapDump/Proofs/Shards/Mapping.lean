/-
HeapDump/Proofs/Shards/Mapping.lean

Which windows are made accessible, and when.

A read needs the window of its first byte and those behind it that begin, their padding left out,
in front of its end (`Geometry.mem_indices_plan_iff`).  The padding is left out because a window
goes on into the next one by as much: a read that ends there is done before the next is asked for.
The proof follows the pieces of a read, one window at a time.

A session maps each window the first time that a read needs it.  `Session.Opened s opened` says
that `opened` lists the windows that are mapped, in the order in which their source was asked for
them and each of them once; mapping a window keeps this, with the window behind the others if it is
a new one (`Opened.touch`), and so do whole sequences of calls (`Opened.exists_afterAll`).  So a
session has mapped exactly those windows that were needed so far, has asked its source for each of
them once, and for nothing else.

Which calls need windows although they fail is told by `Session.Call.RefusedLate`: an identifier
of a width that there is not, over bytes that are there.  Main statement: `windows_mapped_once`;
`unsupported_width_maps_window` is the smallest case of a late refusal.
-/
import HeapDump.Proofs.Shards.History

namespace HeapDump

/-! ### The windows that a read needs -/

namespace Geometry

variable {g : Geometry} {position stop : UInt64}

/-- A piece ends with the read, or with its window. -/
theorem toNat_add_take (h : position < stop) (hstop : stop ≤ g.length) :
    (position + (g.piece position stop).take).toNat
      = min stop.toNat
        ((position.toNat / g.shardSize.toNat + 1) * g.shardSize.toNat + g.padding.toNat) := by
  have hlt : position < g.length := UInt64.lt_of_lt_of_le h hstop
  have hn := UInt64.lt_iff_toNat_lt.mp h
  have hL := UInt64.le_iff_toNat_le.mp hstop
  have hword := stop.toNat_lt
  have hindex : (g.piece position stop).index < g.count := div_shardSize_lt_count hlt
  have hquotient : (g.piece position stop).index.toNat
      = position.toNat / g.shardSize.toNat := UInt64.toNat_div ..
  have hsum : (g.windowStart (g.piece position stop).index).toNat
      + (g.piece position stop).start.toNat = position.toNat := windowStart_add_start hlt
  obtain ⟨hin, htake⟩ := toNat_take h hstop
  rw [toNat_windowStart hindex, hquotient] at hsum
  rw [toNat_windowLength hindex, hquotient] at hin htake
  rw [toNat_add_of_lt (by omega), htake, Nat.add_mul, Nat.one_mul]
  omega

/-- The windows of the pieces of a read are that of its first byte, and those behind it that begin
in front of the end of the read, if their padding is left out. -/
theorem mem_indices_pieces_iff (hstop : stop ≤ g.length) (fuel : Nat) (h : position < stop)
    (hfuel : stop.toNat - position.toNat ≤ fuel) (k : UInt64) :
    k ∈ (g.pieces fuel position stop).map (·.index)
      ↔ k.toNat = position.toNat / g.shardSize.toNat
        ∨ position.toNat / g.shardSize.toNat < k.toNat
          ∧ k.toNat * g.shardSize.toNat + g.padding.toNat < stop.toNat := by
  -- induction on the pieces: the first is in the window of the first byte, and the others begin
  -- where it ends
  induction fuel generalizing position with
  | zero =>
    have := UInt64.lt_iff_toNat_lt.mp h
    omega
  | succ fuel ih =>
    have hS := g.shardSize_pos
    have hP := UInt64.lt_iff_toNat_lt.mp g.padding_lt
    have hn := UInt64.lt_iff_toNat_lt.mp h
    have hnext := toNat_add_take h hstop
    obtain ⟨-, hpos, hle⟩ := start_add_take_le h hstop
    have hstep := toNat_add_of_lt (a := position) (b := (g.piece position stop).take)
      (by have := stop.toNat_lt; omega)
    have hquotient : (g.piece position stop).index.toNat
        = position.toNat / g.shardSize.toNat := UInt64.toNat_div ..
    obtain ⟨q, hq⟩ : ∃ q, position.toNat / g.shardSize.toNat = q := ⟨_, rfl⟩
    rw [pieces, if_pos h, List.map_cons, List.mem_cons, ← UInt64.toNat_inj, hquotient, hq]
    rw [hq] at hnext
    refine or_congr_right ?_
    by_cases hlast : stop.toNat ≤ (q + 1) * g.shardSize.toNat + g.padding.toNat
    · -- the window of the first byte has all of the read
      have hdone : ¬position + (g.piece position stop).take < stop := by
        rw [UInt64.lt_iff_toNat_lt, hnext]
        omega
      have hnone : g.pieces fuel (position + (g.piece position stop).take) stop = [] := by
        cases fuel with
        | zero => rfl
        | succ fuel => rw [pieces, if_neg hdone]
      rw [hnone]
      refine iff_of_false List.not_mem_nil ?_
      rintro ⟨hk, hin⟩
      have := Nat.mul_le_mul_right g.shardSize.toNat (Nat.succ_le_of_lt hk)
      rw [Nat.succ_eq_add_one] at this
      omega
    · -- the read goes on in the next window, behind the padding
      rw [Nat.min_eq_right (by omega)] at hnext
      have hnextq : (position + (g.piece position stop).take).toNat / g.shardSize.toNat = q + 1 := by
        rw [hnext, Nat.add_comm, Nat.add_mul_div_right _ _ hS, Nat.div_eq_of_lt hP, Nat.zero_add]
      have hmore : position + (g.piece position stop).take < stop := by
        rw [UInt64.lt_iff_toNat_lt, hnext]
        omega
      rw [ih hmore (by omega), hnextq]
      have hbehind (hk : q < k.toNat) : k.toNat = q + 1 ∨ q + 1 < k.toNat := by omega
      constructor
      · rintro (hk | ⟨hk, hin⟩)
        · exact ⟨by omega, by rw [hk]; omega⟩
        · exact ⟨by omega, hin⟩
      · rintro ⟨hk, hin⟩
        exact (hbehind hk).imp_right fun hk => ⟨hk, hin⟩

/-- The windows that a read needs. -/
theorem mem_indices_plan_iff (h : position < stop) (hstop : stop ≤ g.length) (k : UInt64) :
    k ∈ (g.plan position stop).map (·.index)
      ↔ k.toNat = position.toNat / g.shardSize.toNat
        ∨ position.toNat / g.shardSize.toNat < k.toNat
          ∧ k.toNat * g.shardSize.toNat + g.padding.toNat < stop.toNat :=
  mem_indices_pieces_iff hstop _ h
    (Nat.le_of_eq (UInt64.toNat_sub_of_le _ _ (UInt64.le_of_lt h)).symm) k

/-- The number of windows is the quotient of the measures, rounded up. -/
theorem toNat_count_eq (g : Geometry) :
    g.count.toNat = (g.length.toNat + (g.shardSize.toNat - 1)) / g.shardSize.toNat := by
  have hS := g.shardSize_pos
  have hdiv := Nat.div_add_mod' g.length.toNat g.shardSize.toNat
  have hmod := Nat.mod_lt g.length.toNat hS
  rw [toNat_count]
  split
  · rw [Nat.add_zero]
    refine (Nat.div_eq_of_lt_le ?_ ?_).symm
    · omega
    · rw [Nat.succ_mul]
      omega
  · refine (Nat.div_eq_of_lt_le ?_ ?_).symm
    · rw [Nat.succ_mul]
      omega
    · rw [Nat.succ_mul, Nat.succ_mul]
      omega

/-- A window exists if it begins inside the source. -/
theorem lt_count_iff {index : UInt64} :
    index < g.count ↔ index.toNat * g.shardSize.toNat < g.length.toNat := by
  refine ⟨mul_shardSize_lt, fun h => ?_⟩
  have hS := g.shardSize_pos
  rw [UInt64.lt_iff_toNat_lt, toNat_count_eq, ← Nat.succ_le_iff, Nat.le_div_iff_mul_le hS,
    Nat.succ_mul]
  omega

/-- Two windows that exist do not start at the same byte. -/
theorem windowStart_inj {i j : UInt64} (hi : i < g.count) (hj : j < g.count)
    (h : g.windowStart i = g.windowStart j) : i = j := by
  have hstart := congrArg UInt64.toNat h
  rw [toNat_windowStart hi, toNat_windowStart hj] at hstart
  exact UInt64.toNat_inj.mp (Nat.eq_of_mul_eq_mul_right g.shardSize_pos hstart)

end Geometry

/-! ### What a call touches -/

theorem isOk_of_isOk_map {x : Except ε α} {f : α → β} (h : (x.map f).isOk) : x.isOk := by
  cases x with
  | error e => cases h
  | ok a => rfl

theorem isOk_of_isOk_bind {x : Except ε α} {f : α → Except ε β} (h : (x.bind f).isOk) :
    x.isOk := by
  cases x with
  | error e => cases h
  | ok a => rfl

namespace Session

namespace Call

/-- The windows that a call needs. -/
def touched (shards : Shards) (c : Call) : List UInt64 := needed shards c.offset c.length

variable {shards : Shards} {c : Call}

theorem touched_of_outside
    (h : ¬c.offset.toNat + c.length.toNat ≤ shards.source.bytes.size) :
    c.touched shards = [] := by
  rw [touched, needed, shards.stop?_eq, if_neg h]

theorem touched_of_length_eq_zero (h : c.length = 0) : c.touched shards = [] := by
  by_cases hin : c.offset.toNat + c.length.toNat ≤ shards.source.bytes.size
  · rw [touched, needed, shards.stop?_eq, if_pos hin, h, UInt64.add_zero]
    show (shards.geometry.pieces (c.offset - c.offset).toNat _ _).map _ = []
    rw [UInt64.sub_self]
    rfl
  · exact touched_of_outside hin

/-- A call that reads bytes of the source, only to refuse them because no identifier is as wide as
they are. -/
def RefusedLate (shards : Shards) (c : Call) : Prop :=
  ∃ offset width : UInt64, c = .readId offset width ∧ width.toNat ∉ [1, 2, 4, 8]
    ∧ offset.toNat + width.toNat ≤ shards.source.bytes.size

/-- A call inside the source touches the window of its first byte, and those behind it that begin
in front of its end, if their padding is left out. -/
theorem mem_touched_iff (hin : c.offset.toNat + c.length.toNat ≤ shards.source.bytes.size)
    (hpos : 0 < c.length.toNat) {k : UInt64} : k ∈ c.touched shards
      ↔ k.toNat = c.offset.toNat / shards.geometry.shardSize.toNat
        ∨ c.offset.toNat / shards.geometry.shardSize.toNat < k.toNat
          ∧ k.toNat * shards.geometry.shardSize.toNat + shards.geometry.padding.toNat
            < c.offset.toNat + c.length.toNat := by
  have hsum := toNat_add_of_lt (hin.trans_lt shards.source.size_lt)
  have hlt : c.offset < c.offset + c.length := by
    rw [UInt64.lt_iff_toNat_lt, hsum]
    omega
  have hstop : c.offset + c.length ≤ shards.geometry.length := by
    rw [UInt64.le_iff_toNat_le, hsum]
    exact hin.trans_eq shards.toNat_length.symm
  rw [touched, needed, shards.stop?_eq, if_pos hin, ← hsum]
  exact Geometry.mem_indices_plan_iff hlt hstop k

/-- All windows that are touched exist. -/
theorem lt_count_of_mem_touched {k : UInt64} (hk : k ∈ c.touched shards) :
    k < shards.geometry.count := by
  have hL : shards.geometry.length.toNat = shards.source.bytes.size := shards.toNat_length
  by_cases hin : c.offset.toNat + c.length.toNat ≤ shards.source.bytes.size
  · by_cases hpos : 0 < c.length.toNat
    · rw [Geometry.lt_count_iff, hL]
      rcases (mem_touched_iff hin hpos).mp hk with hk | ⟨-, hk⟩
      · have := Nat.div_mul_le_self c.offset.toNat shards.geometry.shardSize.toNat
        rw [hk]
        omega
      · omega
    · have hzero : c.length = 0 := UInt64.toNat_inj.mp (Nat.eq_zero_of_not_pos hpos)
      rw [touched_of_length_eq_zero hzero] at hk
      cases hk
  · rw [touched_of_outside hin] at hk
    cases hk

/-- A call that gives an answer reads inside the source. -/
theorem inside_of_succeeds {s : Session} (h : c.succeeds s) :
    c.offset.toNat + c.length.toNat ≤ s.shards.source.bytes.size := by
  rw [← s.shards.isOk_read_iff]
  -- the bytes are read in front of everything else
  cases c with
  | read offset length => exact h
  | readNumber k offset => exact isOk_of_isOk_map h
  | readId offset width => exact isOk_of_isOk_bind h

theorem not_succeeds_of_refusedLate {s : Session} (h : c.RefusedLate s.shards) : ¬c.succeeds s := by
  obtain ⟨offset, width, rfl, hwidth, -⟩ := h
  have hnone : Scalar.ofIdWidth? width.toNat = none := by
    rw [Option.eq_none_iff_forall_ne_some]
    exact fun k hk => hwidth (Scalar.exists_ofIdWidth?_iff.mp ⟨k, hk⟩)
  show ¬(s.shards.readId offset width).isOk
  rw [Shards.readId]
  cases s.shards.read offset width with
  | error e => exact Bool.false_ne_true
  | ok chunk =>
    show ¬((Bytes.readIdAt chunk.bytes 0 width.toNat).bind _).isOk
    rw [Bytes.readIdAt, hnone]
    exact Bool.false_ne_true

/-- A call that reads inside the source gives an answer, unless it asks for an identifier of a
width that no identifier has. -/
theorem succeeds_or_refusedLate {s : Session}
    (hin : c.offset.toNat + c.length.toNat ≤ s.shards.source.bytes.size) :
    c.succeeds s ∨ c.RefusedLate s.shards := by
  cases c with
  | read offset length => exact .inl ((s.shards.isOk_read_iff offset length).mpr hin)
  | readNumber k offset =>
    refine .inl ?_
    show (s.shards.readNumber k offset).isOk
    have hsize : (UInt64.ofNat k.size).toNat = k.size := by cases k <;> rfl
    change offset.toNat + (UInt64.ofNat k.size).toNat ≤ _ at hin
    rw [hsize] at hin
    rw [Shards.readNumber_eq_readNumberAt, Bytes.readNumberAt_eq, if_pos hin]
    rfl
  | readId offset width =>
    change offset.toNat + width.toNat ≤ _ at hin
    by_cases hwidth : width.toNat ∈ [1, 2, 4, 8]
    · refine .inl ?_
      obtain ⟨k, hk⟩ := Scalar.exists_ofIdWidth?_iff.mpr hwidth
      show (s.shards.readId offset width).isOk
      rw [Shards.readId_eq_readIdAt _ hk, Bytes.readIdAt_eq hk, if_pos hin]
      rfl
    · exact .inr ⟨offset, width, rfl, hwidth, hin⟩

theorem inside_of_succeeds_or_refusedLate {s : Session}
    (h : c.succeeds s ∨ c.RefusedLate s.shards) :
    c.offset.toNat + c.length.toNat ≤ s.shards.source.bytes.size := by
  rcases h with h | ⟨offset, width, rfl, -, hin⟩
  · exact inside_of_succeeds h
  · exact hin

/-- A call that fails touches nothing, unless it is refused late. -/
theorem touched_of_not_succeeds {s : Session} (hfails : ¬c.succeeds s)
    (hlate : ¬c.RefusedLate s.shards) : c.touched s.shards = [] :=
  touched_of_outside fun hin => (succeeds_or_refusedLate hin).elim hfails hlate

end Call

/-! ### What a session has mapped -/

/-- The session has mapped the windows `opened`, in this order and each of them once. -/
structure Opened (s : Session) (opened : List UInt64) : Prop where
  nodup : opened.Nodup
  mem_iff (k : UInt64) : k ∈ s.mapped ↔ k ∈ opened
  size_eq : s.mapped.size = opened.length
  requests_eq : s.requests.toList = opened.map fun k =>
    (s.shards.geometry.windowStart k, s.shards.geometry.windowLength k)

namespace Opened

variable {s : Session} {opened : List UInt64}

/-- Nothing is mapped at first. -/
theorem fresh (shards : Shards) : Opened { shards } [] where
  nodup := .nil
  mem_iff _ := iff_of_false Std.ExtTreeSet.not_mem_empty List.not_mem_nil
  size_eq := Std.ExtTreeSet.size_empty
  requests_eq := rfl

/-- A window that is mapped already stays, and another one becomes the last. -/
theorem touch (h : Opened s opened) (k : UInt64) :
    Opened (s.touch k) (if k ∈ opened then opened else opened ++ [k]) := by
  by_cases hk : k ∈ opened
  · have hmapped : s.mapped.contains k :=
      Std.ExtTreeSet.contains_iff_mem.mpr ((h.mem_iff k).mpr hk)
    rwa [if_pos hk, Session.touch, if_pos hmapped]
  · have hmapped : ¬s.mapped.contains k :=
      fun hk' => hk ((h.mem_iff k).mp (Std.ExtTreeSet.contains_iff_mem.mp hk'))
    rw [if_neg hk, Session.touch, if_neg hmapped]
    refine ⟨?_, fun j => ?_, ?_, ?_⟩
    -- each window once, the mapped ones and the new one, their number, and what the source was
    -- asked for
    · exact List.nodup_append.mpr ⟨h.nodup, List.nodup_singleton k, fun a ha b hb => by
        rintro rfl
        exact hk (List.mem_singleton.mp hb ▸ ha)⟩
    · rw [Std.ExtTreeSet.mem_insert, List.mem_append, List.mem_singleton, h.mem_iff,
        Std.LawfulEqCmp.compare_eq_iff_eq, or_comm, eq_comm]
    · rw [Std.ExtTreeSet.size_insert, if_neg hmapped, h.size_eq, List.length_append]
      rfl
    · show (s.requests.push _).toList = _
      rw [Array.toList_push, h.requests_eq, List.map_append]
      rfl

/-- Windows are added behind those that are mapped already. -/
theorem exists_foldl_touch (h : Opened s opened) (ks : List UInt64) :
    ∃ opened', Opened (ks.foldl Session.touch s) opened' ∧ opened <+: opened'
      ∧ ∀ k, k ∈ opened' ↔ k ∈ opened ∨ k ∈ ks := by
  induction ks generalizing s opened with
  | nil => exact ⟨opened, h, List.prefix_rfl, fun k => by simp⟩
  | cons k₀ ks ih =>
    obtain ⟨opened', hopened, hprefix, hmem⟩ := ih (h.touch k₀)
    refine ⟨opened', hopened, .trans ?_ hprefix, fun k => ?_⟩
    · split
      · exact List.prefix_rfl
      · exact List.prefix_append ..
    · rw [hmem, List.mem_cons]
      split
      · next hk₀ =>
        constructor
        · rintro (hk | hk)
          · exact .inl hk
          · exact .inr (.inr hk)
        · rintro (hk | rfl | hk)
          · exact .inl hk
          · exact .inl hk₀
          · exact .inr hk
      · rw [List.mem_append, List.mem_singleton, or_assoc]

/-- After some calls, what they touch is mapped as well. -/
theorem exists_afterAll (h : Opened s opened) (calls : List Call) :
    ∃ opened', Opened (afterAll calls s) opened' ∧ opened <+: opened'
      ∧ ∀ k, k ∈ opened' ↔ k ∈ opened ∨ ∃ c ∈ calls, k ∈ c.touched s.shards := by
  induction calls generalizing s opened with
  | nil => exact ⟨opened, h, List.prefix_rfl, fun k => by simp⟩
  | cons c calls ih =>
    obtain ⟨opened₁, hopened₁, hprefix₁, hmem₁⟩ := h.exists_foldl_touch (c.touched s.shards)
    obtain ⟨opened₂, hopened₂, hprefix₂, hmem₂⟩ := ih (s := c.after s) (by
      rw [c.after_eq]
      exact hopened₁)
    refine ⟨opened₂, hopened₂, hprefix₁.trans hprefix₂, fun k => ?_⟩
    have hshards : (c.after s).shards = s.shards := by rw [c.after_eq, shards_touchAll]
    rw [hmem₂, hmem₁, hshards, List.exists_mem_cons_iff, or_assoc]

theorem mappedCount_eq_card (h : Opened s opened) {touched : List UInt64}
    (hmem : ∀ k, k ∈ opened ↔ k ∈ touched) : s.mappedCount = touched.toFinset.card := by
  calc s.mappedCount = opened.length := h.size_eq
    _ = opened.toFinset.card := (List.toFinset_card_of_nodup h.nodup).symm
    _ = touched.toFinset.card := by
      congr 1
      ext k
      rw [List.mem_toFinset, List.mem_toFinset, hmem]

theorem size_requests (h : Opened s opened) : s.requests.size = s.mappedCount := by
  rw [← Array.length_toList, h.requests_eq, List.length_map]
  exact h.size_eq.symm

section

variable (h : Opened s opened) (hlt : ∀ k ∈ opened, k < s.shards.geometry.count)
include h hlt

/-- There are at most as many mapped windows as there are windows. -/
theorem mappedCount_le : s.mappedCount ≤ s.shards.geometry.count.toNat := by
  have hnodup : (opened.map UInt64.toNat).Nodup :=
    h.nodup.map fun _ _ => UInt64.toNat_inj.mp
  have hsubset : opened.map UInt64.toNat ⊆ List.range s.shards.geometry.count.toNat := by
    intro n hn
    obtain ⟨k, hk, rfl⟩ := List.mem_map.mp hn
    exact List.mem_range.mpr (UInt64.lt_iff_toNat_lt.mp (hlt k hk))
  calc s.mappedCount = opened.length := h.size_eq
    _ = (opened.map UInt64.toNat).length := (List.length_map _).symm
    _ ≤ (List.range s.shards.geometry.count.toNat).length := (hnodup.subperm hsubset).length_le
    _ = s.shards.geometry.count.toNat := List.length_range

/-- No two requests begin at the same byte. -/
theorem nodup_starts : (s.requests.toList.map (·.1)).Nodup := by
  rw [h.requests_eq, List.map_map]
  exact h.nodup.map_on fun i hi j hj => Geometry.windowStart_inj (hlt i hi) (hlt j hj)

/-- Each request is for a window from its first byte to its last, and these are bytes of the
source. -/
theorem exists_window_of_mem_requests {request : UInt64 × UInt64}
    (hrequest : request ∈ s.requests.toList) :
    let g := s.shards.geometry
    ∃ k : Nat, k * g.shardSize.toNat < g.length.toNat
      ∧ request.1.toNat = k * g.shardSize.toNat
      ∧ request.2.toNat
        = min (g.shardSize.toNat + g.padding.toNat) (g.length.toNat - k * g.shardSize.toNat)
      ∧ 0 < request.2.toNat
      ∧ request.1.toNat + request.2.toNat ≤ g.length.toNat := by
  intro g
  rw [h.requests_eq] at hrequest
  obtain ⟨k, hk, rfl⟩ := List.mem_map.mp hrequest
  have hinside : k.toNat * g.shardSize.toNat < g.length.toNat :=
    Geometry.mul_shardSize_lt (hlt k hk)
  have hstart : (g.windowStart k).toNat = k.toNat * g.shardSize.toNat :=
    Geometry.toNat_windowStart (hlt k hk)
  have hlength : (g.windowLength k).toNat = min (g.shardSize.toNat + g.padding.toNat)
      (g.length.toNat - k.toNat * g.shardSize.toNat) := Geometry.toNat_windowLength (hlt k hk)
  have hpos := g.shardSize_pos
  refine ⟨k.toNat, hinside, hstart, hlength, ?_, ?_⟩
  · show 0 < (g.windowLength k).toNat
    omega
  · show (g.windowStart k).toNat + (g.windowLength k).toNat ≤ g.length.toNat
    omega

end

end Opened

end Session

/-- The measures of the windows are those that were asked for. -/
theorem Shards.measures_of_ofSource {source : Source} {shardSize padding : UInt64} {s : Shards}
    (h : ofSource source shardSize padding = .ok s) :
    s.geometry.shardSize = shardSize ∧ s.geometry.padding = padding := by
  rw [ofSource, Geometry.ofSizes] at h
  split at h
  · cases h
  · split at h
    · split at h
      · cases h
        exact ⟨rfl, rfl⟩
      · cases h
    · cases h

/-! ### The main statement -/

/-- **Windows are mapped when they are needed, no others are, and each of them once**, over any
calls and for any further call.  A call that gives an answer touches the window of its first byte,
and those behind it that begin in front of its end, if their padding is left out.  One that reads
nothing or fails touches none, unless it fails for the width of its identifier after the bytes have
been read.  Mapped are the windows that were touched, and the source was asked for each of them
once, from its first byte to its last. -/
theorem windows_mapped_once {bytes : ByteArray} {backing : Backing} {source : Source}
    {shardSize padding : UInt64} {shards : Shards}
    (hsource : Source.ofBytes? backing bytes = some source)
    (hshards : Shards.ofSource source shardSize padding = .ok shards)
    (calls : List Session.Call) :
    let s := Session.afterAll calls { shards }
    (∀ c : Session.Call, c.succeeds s ∨ c.RefusedLate shards → 0 < c.length.toNat →
      ∀ k : UInt64, k ∈ c.touched shards
        ↔ k.toNat = c.offset.toNat / shardSize.toNat
          ∨ c.offset.toNat / shardSize.toNat < k.toNat
            ∧ k.toNat * shardSize.toNat + padding.toNat < c.offset.toNat + c.length.toNat)
    ∧ (∀ c : Session.Call, c.length.toNat = 0 → c.touched shards = [])
    ∧ (∀ c : Session.Call, ¬c.succeeds s → ¬c.RefusedLate shards → c.touched shards = [])
    ∧ (∀ c : Session.Call, c.RefusedLate shards → ¬c.succeeds s)
    ∧ (∀ k, k ∈ s.mapped ↔ ∃ c ∈ calls, k ∈ c.touched shards)
    ∧ s.mappedCount = (calls.flatMap (Session.Call.touched shards)).toFinset.card
    ∧ s.mappedCount ≤ shards.geometry.count.toNat
    ∧ shards.geometry.count.toNat = (bytes.size + (shardSize.toNat - 1)) / shardSize.toNat
    ∧ (∀ c : Session.Call, s.mappedCount ≤ (c.after s).mappedCount)
    ∧ s.requests.size = s.mappedCount
    ∧ (s.requests.toList.map (·.1)).Nodup
    ∧ ∀ request ∈ s.requests.toList, ∃ k : Nat, k * shardSize.toNat < bytes.size
      ∧ request.1.toNat = k * shardSize.toNat
      ∧ request.2.toNat = min (shardSize.toNat + padding.toNat) (bytes.size - k * shardSize.toNat)
      ∧ 0 < request.2.toNat
      ∧ request.1.toNat + request.2.toNat ≤ bytes.size := by
  intro s
  have hs : s.shards = shards := Session.shards_afterAll calls { shards }
  have hbytes : shards.source.bytes = bytes := by
    rw [Shards.source_of_ofSource hshards, Source.bytes_of_ofBytes? hsource]
  obtain ⟨hS, hP⟩ := Shards.measures_of_ofSource hshards
  have hL : shards.geometry.length.toNat = bytes.size := by
    rw [← hbytes]
    exact shards.toNat_length
  obtain ⟨opened, hopened, -, hmem⟩ := (Session.Opened.fresh shards).exists_afterAll calls
  have hmem (k : UInt64) : k ∈ opened ↔ ∃ c ∈ calls, k ∈ c.touched shards := by
    rw [hmem, or_iff_right List.not_mem_nil]
  have hcount : ∀ k ∈ opened, k < s.shards.geometry.count := by
    intro k hk
    obtain ⟨c, -, hk⟩ := (hmem k).mp hk
    rw [hs]
    exact Session.Call.lt_count_of_mem_touched hk
  rw [← hS, ← hP, ← hL, ← hs]
  refine ⟨fun c h hpos k => ?_, fun c h => ?_, fun c => Session.Call.touched_of_not_succeeds,
    fun c => Session.Call.not_succeeds_of_refusedLate, fun k => ?_, ?_,
    hopened.mappedCount_le hcount, s.shards.geometry.toNat_count_eq, fun c => ?_,
    hopened.size_requests, hopened.nodup_starts hcount,
    fun _ => hopened.exists_window_of_mem_requests hcount⟩
  · exact Session.Call.mem_touched_iff (Session.Call.inside_of_succeeds_or_refusedLate h) hpos
  · exact Session.Call.touched_of_length_eq_zero (UInt64.toNat_inj.mp h)
  · rw [hopened.mem_iff, hmem, hs]
  · refine hopened.mappedCount_eq_card fun k => ?_
    rw [hmem, List.mem_flatMap, hs]
  · -- what is mapped stays mapped
    obtain ⟨opened', hopened', hprefix, -⟩ := hopened.exists_afterAll [c]
    exact (hopened.size_eq.trans_le hprefix.length_le).trans_eq hopened'.size_eq.symm

/-- Windows of five bytes that begin four bytes apart.  Seven bytes are read from the first two,
since the padding of the second has the last of them. -/
theorem windows_mapped_once_tenBytes :
    ∃ source shards, Source.ofBytes? .memory tenBytes = some source
      ∧ Shards.ofSource source 4 1 = .ok shards
      ∧ let s := Session.afterAll [.read 2 7, .readNumber .uint16 3] { shards }
        s.mappedCount = 2 ∧ shards.geometry.count.toNat = 3
        ∧ s.requests.toList = [(0, 5), (4, 5)]
        ∧ (Session.Call.readId 8 2).succeeds s ∧ 0 < (Session.Call.readId 8 2).length.toNat
        ∧ 2 ∈ (Session.Call.readId 8 2).touched shards
        ∧ (Session.Call.readNumber .uint16 9).touched shards = [] := by
  have hsource := Source.ofBytes?_of_lt .memory (show tenBytes.size < UInt64.size by decide)
  have hshards := Shards.ofSource_of_lt ⟨.memory, tenBytes, by decide⟩
    (show (1 : UInt64) < 4 by decide) (by decide)
  obtain ⟨hneeds, -, hfails, -, -, hcount, -, htotal, -⟩ :=
    windows_mapped_once hsource hshards [.read 2 7, .readNumber .uint16 3]
  exact ⟨_, _, hsource, hshards, hcount.trans (by decide +kernel), htotal.trans (by decide),
    by decide +kernel, by decide +kernel, by decide,
    (hneeds (.readId 8 2) (.inl (by decide +kernel)) (by decide) 2).mpr (by decide),
    hfails (.readNumber .uint16 9) (by decide +kernel) (fun ⟨_, _, h, _⟩ => by cases h)⟩

/-- A call that fails for the width of its identifier has mapped a window. -/
theorem unsupported_width_maps_window :
    ∃ source shards, Source.ofBytes? .memory tenBytes = some source
      ∧ Shards.ofSource source 4 1 = .ok shards
      ∧ let s : Session := { shards }
        (s.readId 0 3).1 = .error (.unsupportedWidth 0 3)
        ∧ (Session.Call.readId 0 3).touched shards = [0]
        ∧ s.mappedCount = 0 ∧ ((Session.Call.readId 0 3).after s).mappedCount = 1 := by
  have hsource := Source.ofBytes?_of_lt .memory (show tenBytes.size < UInt64.size by decide)
  have hshards := Shards.ofSource_of_lt ⟨.memory, tenBytes, by decide⟩
    (show (1 : UInt64) < 4 by decide) (by decide)
  exact ⟨_, _, hsource, hshards, by decide +kernel, by decide, by decide +kernel,
    by decide +kernel⟩

end HeapDump
