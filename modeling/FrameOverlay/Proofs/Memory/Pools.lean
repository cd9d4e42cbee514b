import FrameOverlay.Proofs.Memory.Layout
import FrameOverlay.Proofs.Memory.Leases
import Mathlib.Order.CompletePartialOrder
import Mathlib.Order.Interval.Set.Disjoint

/-!
# Buffers do not overlap

A pool lays each buffer out where the one before ended, and never lays two out at the same place: a buffer that
went back is not handed out again.

* `FramePool.baseOf`, `FramePool.bufferOf` — buffer number `k` of a pool lies `k` footprints behind the first;
* `BufferStore.handedOut`, `BufferStore.Dealt` — all that a pool ever handed out, and that these are the buffers
  from number zero on; `BufferStore.Trade.dealt`, `BufferStore.Trades.dealt` — **whatever is traded**;
* `FramePool.InOrder` — buffers at increasing addresses, with no address in common;
* `PixelFormat.LayoutLaw`, `PixelFormat.layout_lawful` — **layouts and buffers do not overlap**.
-/

namespace FrameOverlay

/-! ### What a pool hands out -/

namespace FramePool

/-- The bytes of a buffer of a pool. -/
def bufferBytes (f : PixelFormat) (width height : UInt32) : Nat := f.footprint width height pitchAlign

/-- Where buffer number `k` of a pool begins. -/
def baseOf (f : PixelFormat) (width height : UInt32) (k : Nat) : UInt64 :=
  firstBase + UInt64.ofNat (k * bufferBytes f width height)

/-- The planes of buffer number `k` of a pool. -/
def bufferOf (f : PixelFormat) (width height : UInt32) (k : Nat) : List DevicePlane :=
  DevicePlane.layout (baseOf f width height k) f width height pitchAlign

theorem totalSpan_eq (planes : List DevicePlane) :
    DevicePlane.totalSpan planes = UInt64.ofNat (DevicePlane.bytes planes) := by
  have shift (sum : UInt64) : planes.foldl (fun sum p => sum + UInt64.ofNat p.span) sum =
      sum + UInt64.ofNat (DevicePlane.bytes planes) := by
    induction planes generalizing sum with
    | nil => exact (UInt64.add_zero sum).symm
    | cons p ps ih => rw [List.foldl_cons, ih, DevicePlane.bytes, UInt64.ofNat_add, UInt64.add_assoc]
  exact (shift 0).trans (UInt64.zero_add _)

/-- The base moves on by one buffer. -/
theorem baseOf_succ (pool : FramePool) (k : Nat) :
    baseOf pool.format pool.width pool.height k + DevicePlane.totalSpan (pool.planesAt 0) =
      baseOf pool.format pool.width pool.height (k + 1) := by
  have bytes : DevicePlane.bytes (pool.planesAt 0) = bufferBytes pool.format pool.width pool.height :=
    DevicePlane.bytes_layout (by decide)
  rw [totalSpan_eq, bytes, baseOf, baseOf, Nat.add_mul, Nat.one_mul, UInt64.ofNat_add, UInt64.add_assoc]

end FramePool

namespace BufferStore

/-- The planes of all buffers that a pool has handed out, oldest first.  Those that went back are among
them. -/
def handedOut (s : BufferStore) (p : PoolId) : List (List DevicePlane) :=
  (s.buffers.filter fun x => x.lender == some p).map SharedBuffer.planes

/-- A pool of pictures of one size has handed out `n` buffers, one behind the other. -/
structure Dealt (s : BufferStore) (p : PoolId) (f : PixelFormat) (width height : UInt32) (n : Nat) :
    Prop where
  pool : ∃ pool, s.pools[p]? = some pool ∧ (pool.format = f ∧ pool.width = width ∧ pool.height = height) ∧
    pool.nextBase = FramePool.baseOf f width height n
  handed : s.handedOut p = (List.range n).map (FramePool.bufferOf f width height)
  sized : 0 < n → width ≠ 0 ∧ height ≠ 0

variable {s s' : BufferStore} {p : PoolId} {f : PixelFormat} {width height : UInt32} {n : Nat}

/-- What was handed out is a matter of lenders and planes. -/
theorem handedOut_congr (same : s'.buffers.map (fun x => (x.lender, x.planes)) =
    s.buffers.map fun x => (x.lender, x.planes)) (p : PoolId) : s'.handedOut p = s.handedOut p := by
  have read (t : BufferStore) : t.handedOut p =
      ((t.buffers.map fun x => (x.lender, x.planes)).filter fun y => y.1 == some p).map Prod.snd := by
    rw [List.filter_map, List.map_map]
    rfl
  rw [read, read, same]

/-- One buffer more. -/
theorem handedOut_append (s : BufferStore) (x : SharedBuffer) (pools : List FramePool) (p : PoolId) :
    handedOut ⟨s.buffers ++ [x], pools⟩ p = s.handedOut p ++ if x.lender = some p then [x.planes] else [] := by
  by_cases mine : x.lender = some p <;> simp [handedOut, mine]

namespace Trade

/-- **A trade deals one buffer more, or none.** -/
theorem dealt {drawn : Option PoolId} (h : Trade s drawn s') (before : s.Dealt p f width height n) :
    s'.Dealt p f width height (n + drawn.toList.count p) := by
  obtain ⟨⟨pool, found, size, base⟩, handed, sized⟩ := before
  cases h with
  | allocate planes =>
    refine ⟨⟨pool, found, size, base⟩, ?_, sized⟩
    have same : (s.allocate planes none).2.handedOut p = s.handedOut p := by
      simp [BufferStore.allocate, handedOut_append]
    exact same.trans handed
  | @share b alive =>
    exact ⟨⟨pool, found, size, base⟩,
      (handedOut_congr (map_share _ (fun _ _ => rfl) s b) p).trans handed, sized⟩
  | release b =>
    refine ⟨?_, (handedOut_congr (map_release _ (fun _ _ => rfl) s b) p).trans handed, sized⟩
    rcases s.release_pools b with ⟨q, -, pools⟩ | ⟨-, pools⟩
    · by_cases same : q = p
      · subst same
        exact ⟨pool.giveBack, by simp [pools, found], size, base⟩
      · exact ⟨pool, by simp [pools, same, found], size, base⟩
    · exact ⟨pool, by rw [pools, found], size, base⟩
  | @acquire _ q _ acquired =>
    obtain ⟨-, pool', found', wide, high, rfl⟩ := acquire_inv acquired
    obtain ⟨inside, here⟩ := List.getElem?_eq_some_iff.1 found'
    by_cases same : q = p
    · subst same
      obtain rfl := Option.some.inj (found.symm.trans found')
      obtain ⟨rfl, rfl, rfl⟩ := size
      have one : (some q).toList.count q = 1 := by simp
      have next := FramePool.baseOf_succ pool n
      rw [← base] at next
      rw [one]
      refine ⟨⟨_, List.getElem?_set_self inside, ⟨rfl, rfl, rfl⟩, next⟩, ?_, fun _ => ⟨wide, high⟩⟩
      rw [handedOut_append, if_pos rfl, handed, List.range_succ, List.map_append, base]
      rfl
    · have none : (some q).toList.count p = 0 := by simp [same]
      rw [none]
      refine ⟨⟨pool, by rw [List.getElem?_set_ne same, found], size, base⟩, ?_, sized⟩
      rw [handedOut_append, if_neg fun h => same (Option.some.inj h), List.append_nil, handed]
      rfl

end Trade

/-- **After any trades** the buffers that a pool has handed out lie one behind the other. -/
theorem Trades.dealt {ps : List PoolId} (h : Trades s ps s') (before : s.Dealt p f width height n) :
    s'.Dealt p f width height (n + ps.count p) := by
  induction h generalizing n with
  | refl => exact before
  | head first _ ih =>
    rw [List.count_append, ← Nat.add_assoc]
    exact ih (first.dealt before)

/-- A pool that has handed out nothing. -/
theorem Dealt.new (found : s.pools[p]? = some (.new f width height)) (nothing : s.handedOut p = []) :
    s.Dealt p f width height 0 where
  pool := ⟨_, found, ⟨rfl, rfl, rfl⟩, by
    rw [FramePool.baseOf, Nat.zero_mul]
    exact (UInt64.add_zero _).symm⟩
  handed := nothing
  sized none := absurd none (Nat.lt_irrefl 0)

end BufferStore

/-! ### No overlap -/

namespace FramePool

/-- Plane `i` of buffer `k`. -/
def planeOf? (buffers : List (List DevicePlane)) (k i : Nat) : Option DevicePlane :=
  buffers[k]?.bind fun planes => planes[i]?

/-- Buffers that are laid out as they should be, one behind the other. -/
structure InOrder (f : PixelFormat) (width height : UInt32) (buffers : List (List DevicePlane)) : Prop where
  laid : ∀ planes ∈ buffers, ∃ base, DevicePlane.LaidOut base f width height pitchAlign planes
  /-- Each begins at a higher address than those before. -/
  ascending : ∀ (k l : Nat) p q, k < l → planeOf? buffers k 0 = some p → planeOf? buffers l 0 = some q →
    p.address < q.address
  /-- No two planes have an address in common, be they of one buffer or of two. -/
  disjoint : ∀ (k l i j : Nat) p q, planeOf? buffers k i = some p → planeOf? buffers l j = some q →
    (k, i) ≠ (l, j) → Disjoint p.range q.range

section InOrder

variable {f : PixelFormat} {width height : UInt32} {n k l : Nat}
  (fits : firstBase.toNat + n * bufferBytes f width height < UInt64.size)
include fits

theorem toNat_baseOf (inside : k < n) :
    (baseOf f width height k).toNat = firstBase.toNat + k * bufferBytes f width height ∧
      (baseOf f width height k).toNat + bufferBytes f width height < UInt64.size := by
  have fewer : (k + 1) * bufferBytes f width height ≤ n * bufferBytes f width height :=
    Nat.mul_le_mul_right _ inside
  rw [Nat.add_mul, Nat.one_mul] at fewer
  have exact : (baseOf f width height k).toNat = firstBase.toNat + k * bufferBytes f width height := by
    rw [baseOf, UInt64.toNat_add, UInt64.toNat_ofNat_of_lt' (by omega), Nat.mod_eq_of_lt]
    simp only [UInt64.size] at fits
    omega
  exact ⟨exact, by omega⟩

theorem consecutive_bufferOf (inside : k < n) :
    DevicePlane.Consecutive (baseOf f width height k).toNat (bufferOf f width height k) :=
  DevicePlane.consecutive_layout (by decide) (toNat_baseOf fits inside).2

/-- A buffer ends before the next one begins. -/
theorem bufferOf_apart {p q : DevicePlane} (first : p ∈ bufferOf f width height k)
    (second : q ∈ bufferOf f width height l) (less : k < l) (inside : l < n) :
    p.address.toNat + p.span ≤ q.address.toNat := by
  have inside' : k < n := Nat.lt_trans less inside
  have low := ((consecutive_bufferOf fits inside').within first).2
  have high := ((consecutive_bufferOf fits inside).within second).1
  have bytes : DevicePlane.bytes (bufferOf f width height k) = bufferBytes f width height :=
    DevicePlane.bytes_layout (by decide)
  have step : (k + 1) * bufferBytes f width height ≤ l * bufferBytes f width height :=
    Nat.mul_le_mul_right _ less
  rw [Nat.add_mul, Nat.one_mul] at step
  rw [bytes, (toNat_baseOf fits inside').1] at low
  rw [(toNat_baseOf fits inside).1] at high
  omega

end InOrder

/-- Two planes of which one ends before the other begins. -/
theorem disjoint_range {p q : DevicePlane} (h : p.address.toNat + p.span ≤ q.address.toNat) :
    Disjoint p.range q.range := by
  rw [Set.disjoint_left]
  rintro a ⟨-, before⟩ ⟨after, -⟩
  omega

/-- **The buffers of a pool are in order**, as long as the last one has an address at its end. -/
theorem inOrder {f : PixelFormat} {width height : UInt32} {n : Nat}
    (sized : 0 < n → width ≠ 0 ∧ height ≠ 0)
    (fits : firstBase.toNat + n * bufferBytes f width height < UInt64.size) :
    InOrder f width height ((List.range n).map (bufferOf f width height)) := by
  have buffer {k i : Nat} {p : DevicePlane}
      (here : planeOf? ((List.range n).map (bufferOf f width height)) k i = some p) :
      k < n ∧ (bufferOf f width height k)[i]? = some p := by
    obtain ⟨planes, found, here⟩ := Option.bind_eq_some_iff.1 here
    obtain ⟨inside, same⟩ := List.getElem?_eq_some_iff.1 found
    rw [List.length_map, List.length_range] at inside
    rw [List.getElem_map, List.getElem_range] at same
    exact ⟨inside, same ▸ here⟩
  have laid {k : Nat} (inside : k < n) : DevicePlane.LaidOut (baseOf f width height k) f width height
      pitchAlign (bufferOf f width height k) :=
    DevicePlane.laidOut_layout (show pitchAlign < UInt64.size by decide) (toNat_baseOf fits inside).2
  refine ⟨fun planes listed => ?_, fun k l p q less here there => ?_, fun k l i j p q here there other => ?_⟩
  · obtain ⟨k, inside, rfl⟩ := List.mem_map.1 listed
    exact ⟨_, laid (List.mem_range.1 inside)⟩
  · obtain ⟨inside, first⟩ := buffer here
    obtain ⟨inside', first'⟩ := buffer there
    obtain ⟨wide, high⟩ := sized (Nat.zero_lt_of_lt inside)
    have some : 0 < bufferBytes f width height := f.footprint_pos (by decide) wide high
    have more : k * bufferBytes f width height < l * bufferBytes f width height :=
      Nat.mul_lt_mul_of_pos_right less some
    rw [(laid inside).first p first, (laid inside').first q first', UInt64.lt_iff_toNat_lt,
      (toNat_baseOf fits inside).1, (toNat_baseOf fits inside').1]
    exact Nat.add_lt_add_left more _
  · obtain ⟨inside, first⟩ := buffer here
    obtain ⟨inside', second⟩ := buffer there
    have mine := List.mem_of_getElem? first
    have its := List.mem_of_getElem? second
    rcases Nat.lt_trichotomy k l with before | rfl | after
    · exact disjoint_range (bufferOf_apart fits mine its before inside')
    · have within := consecutive_bufferOf fits inside
      rcases Nat.lt_trichotomy i j with before | rfl | after
      · exact disjoint_range (within.apart first second before)
      · exact absurd rfl other
      · exact (disjoint_range (within.apart second first after)).symm
    · exact (disjoint_range (bufferOf_apart fits its mine after inside)).symm

end FramePool

/-- How the planes of pictures of one format and size lie in memory. -/
structure PixelFormat.LayoutLaw (f : PixelFormat) (width height : UInt32) : Prop where
  /-- Planes that are laid out from a base on follow each other, as long as the last one ends in the address
  space.  An alignment of zero counts as one. -/
  laid : ∀ base align : UInt64,
    base.toNat + f.footprint width height (max align.toNat 1) < UInt64.size →
      DevicePlane.LaidOut base f width height (max align.toNat 1)
        (DevicePlane.layout base f width height align.toNat)
  /-- A pool that is new, among any others, has handed out one buffer for each acquisition, whatever else was
  acquired, shared and let go of.  All are apart, as long as they end in the address space. -/
  pooled : ∀ (s : BufferStore) (p : PoolId), s.pools[p]? = some (.new f width height) →
    s.handedOut p = [] → ∀ ps s', BufferStore.Trades s ps s' →
      (s'.handedOut p).length = ps.count p ∧
      (FramePool.firstBase.toNat + ps.count p * f.footprint width height FramePool.pitchAlign <
        UInt64.size → FramePool.InOrder f width height (s'.handedOut p))

/-- **Layouts and buffers do not overlap.** -/
theorem PixelFormat.layout_lawful (f : PixelFormat) (width height : UInt32) : f.LayoutLaw width height where
  laid _ align fits := DevicePlane.laidOut_layout align.toNat_lt fits
  pooled _ p found nothing ps _ trades := by
    have dealt := trades.dealt (.new found nothing)
    rw [Nat.zero_add] at dealt
    rw [dealt.handed]
    exact ⟨by simp, FramePool.inOrder dealt.sized⟩

/-- Pictures of odd size.  The first buffer goes back before the second is taken, which lies behind it all the
same. -/
theorem PixelFormat.layout_lawful_returned :
    ∃ s', BufferStore.Trades ⟨[], [.new .nv12 5 3]⟩ [0, 0] s' ∧ s'.holders 0 = 0 ∧
      s'.handedOut 0 = [[⟨0x70000000, 256, 5, 3⟩, ⟨0x70000300, 256, 6, 2⟩],
        [⟨0x70000500, 256, 5, 3⟩, ⟨0x70000800, 256, 6, 2⟩]] ∧
      FramePool.InOrder .nv12 5 3 (s'.handedOut 0) := by
  have trades : BufferStore.Trades ⟨[], [.new .nv12 5 3]⟩ [0, 0] _ :=
    .head (.acquire rfl) (.head (.release _ 0) (.head (.acquire rfl) (.refl _)))
  have inOrder := (layout_lawful .nv12 5 3).pooled _ 0 rfl rfl _ _ trades
  exact ⟨_, trades, by decide, by decide, inOrder.2 (by decide)⟩

end FrameOverlay
