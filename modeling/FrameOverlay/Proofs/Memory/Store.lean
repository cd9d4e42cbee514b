import FrameOverlay.Memory.Store

/-!
# Holders of buffers

One equation for each operation on the buffers: how many holders every buffer has afterwards, and that
buffers keep their planes.

* `BufferStore.holders_allocate`, `BufferStore.holders_share`, `BufferStore.holders_release` — **the holders
  after an operation**;
* `BufferStore.acquire_inv`, `BufferStore.acquire_error` — what a pool gives, and that it fails as pools do;
* `BufferStore.releaseAll` — one holder less for each buffer in a list.
-/

namespace FrameOverlay

namespace BufferStore

variable (s : BufferStore) (b c : BufferId)

/-! ### Which buffers there are -/

theorem holders_of_le {s : BufferStore} {b : BufferId} (h : s.buffers.length ≤ b) :
    s.holders b = 0 := by
  simp [holders, List.getElem?_eq_none h]

theorem lt_of_holders {s : BufferStore} {b : BufferId} (h : 0 < s.holders b) :
    b < s.buffers.length := by
  rcases Nat.lt_or_ge b s.buffers.length with inside | outside
  · exact inside
  · rw [holders_of_le outside] at h
    exact absurd h (Nat.lt_irrefl 0)

theorem isExclusive_iff : s.isExclusive b = true ↔ s.holders b = 1 := by
  simp [isExclusive]

/-! ### New buffers -/

section Allocate

variable (planes : List DevicePlane) (lender : Option PoolId)

/-- A new buffer has one holder, and no other buffer gets or loses any. -/
theorem holders_allocate : (s.allocate planes lender).2.holders b =
    s.holders b + if b = s.buffers.length then 1 else 0 := by
  rcases Nat.lt_trichotomy b s.buffers.length with old | rfl | beyond
  · simp [holders, allocate, List.getElem?_append_left old, Nat.ne_of_lt old]
  · simp [holders, allocate]
  · have outside : s.buffers.length + 1 ≤ b := beyond
    rw [holders_of_le (by simpa [allocate] using outside), holders_of_le (Nat.le_of_lt beyond),
      if_neg (Nat.ne_of_gt beyond)]

end Allocate

/-- A pool that has no buffer to give says why. -/
theorem acquire_error {s : BufferStore} {p : PoolId} {e : OverlayError} (h : s.acquire p = .error e) :
    ∃ fault, e = .pool fault := by
  unfold acquire at h
  split at h
  · exact ⟨_, (Except.error.inj h).symm⟩
  next pool _ =>
  unfold FramePool.acquire at h
  split at h
  · next refused =>
    split at refused
    · injection refused with refused
      injection h with same
      exact ⟨_, same.symm.trans refused.symm⟩
    · injection refused
  · injection h

/-- What a pool gives: the planes at its base in a new buffer with one holder.  The pool moves on behind
them. -/
theorem acquire_inv {s store : BufferStore} {p : PoolId} {fresh : BufferId}
    (h : s.acquire p = .ok (fresh, store)) : fresh = s.buffers.length ∧
      ∃ pool, s.pools[p]? = some pool ∧ pool.width ≠ 0 ∧ pool.height ≠ 0 ∧
        store = ⟨s.buffers ++ [⟨pool.planesAt pool.nextBase, some p, 1⟩], s.pools.set p { pool with
          nextBase := pool.nextBase + DevicePlane.totalSpan (pool.planesAt 0)
          acquired := pool.acquired + 1
          outstanding := pool.outstanding + 1 }⟩ := by
  unfold acquire at h
  split at h
  · injection h
  next pool found =>
  split at h
  · injection h
  next planes pool' drawn =>
  unfold FramePool.acquire at drawn
  split at drawn
  · injection drawn
  next sized =>
  obtain ⟨wide, high⟩ := not_or.1 sized
  obtain ⟨rfl, rfl⟩ := Prod.mk.inj (Except.ok.inj drawn)
  obtain ⟨number, rest⟩ := Prod.mk.inj (Except.ok.inj h)
  exact ⟨number.symm, pool, found, wide, high, rest.symm⟩

/-- A pool gives a new buffer: what it changes besides is a matter of the pools. -/
theorem acquire_ok {s store : BufferStore} {p : PoolId} {fresh : BufferId}
    (h : s.acquire p = .ok (fresh, store)) : fresh = s.buffers.length ∧
      ∃ pools planes, store = ((⟨s.buffers, pools⟩ : BufferStore).allocate planes (some p)).2 := by
  obtain ⟨number, pool, -, -, -, rfl⟩ := acquire_inv h
  exact ⟨number, s.pools.set p _, pool.planesAt pool.nextBase, rfl⟩

/-- A buffer of a pool has the pool's planes, and every other buffer keeps its own. -/
theorem acquire_planes {s store : BufferStore} {p : PoolId} {fresh : BufferId}
    (h : s.acquire p = .ok (fresh, store)) :
    (∃ pool, s.pools[p]? = some pool ∧ store.planes fresh = pool.planesAt pool.nextBase) ∧
      ∀ b, b < s.buffers.length → store.planes b = s.planes b := by
  obtain ⟨rfl, pool, found, -, -, rfl⟩ := acquire_inv h
  refine ⟨⟨pool, found, ?_⟩, fun b old => ?_⟩
  · simp [BufferStore.planes]
  · simp [BufferStore.planes, List.getElem?_append_left old]

/-- A buffer of a pool is new, and its taker is its only holder. -/
theorem holders_acquire {s store : BufferStore} {p : PoolId} {fresh : BufferId}
    (h : s.acquire p = .ok (fresh, store)) (b : BufferId) :
    store.holders b = s.holders b + if b = fresh then 1 else 0 := by
  obtain ⟨number, pools, planes, rfl⟩ := acquire_ok h
  rw [number, holders_allocate]
  rfl

/-! ### Holders -/

@[simp] theorem length_share : (s.share b).buffers.length = s.buffers.length := by
  simp [share]

/-- One more holder of a buffer that lives. -/
theorem holders_share {s : BufferStore} {b : BufferId} (alive : 0 < s.holders b) (c : BufferId) :
    (s.share b).holders c = s.holders c + if c = b then 1 else 0 := by
  have inside := lt_of_holders alive
  by_cases same : c = b
  · subst same
    simp [holders, share, List.getElem?_eq_getElem inside]
  · simp [holders, share, same, Ne.symm same]

theorem release_of_none {s : BufferStore} {b : BufferId} (none : s.buffers[b]? = none) :
    s.release b = s := by
  simp only [release, none]

theorem release_of_some {s : BufferStore} {b : BufferId} {x : SharedBuffer}
    (some : s.buffers[b]? = some x) :
    (s.release b).buffers = s.buffers.set b { x with holders := x.holders - 1 } := by
  simp only [release, some]
  split <;> rfl

theorem length_release : (s.release b).buffers.length = s.buffers.length := by
  cases found : s.buffers[b]? with
  | none => rw [release_of_none found]
  | some x => rw [release_of_some found, List.length_set]

/-- A buffer that is let go of keeps its planes. -/
@[simp] theorem planes_release : (s.release b).planes c = s.planes c := by
  cases found : s.buffers[b]? with
  | none => rw [release_of_none found]
  | some x =>
    rw [planes, release_of_some found, List.getElem?_set]
    split
    · next same =>
      subst same
      obtain ⟨inside, here⟩ := List.getElem?_eq_some_iff.1 found
      simp [planes, inside, here]
    · rfl

/-- One holder less, unless there is none. -/
theorem holders_release : (s.release b).holders c = s.holders c - if c = b then 1 else 0 := by
  cases found : s.buffers[b]? with
  | none =>
    rw [release_of_none found]
    have outside := holders_of_le (List.getElem?_eq_none_iff.1 found)
    split
    · next same => rw [same, outside]
    · rfl
  | some x =>
    unfold holders
    rw [release_of_some found]
    by_cases same : c = b
    · subst same
      obtain ⟨inside, here⟩ := List.getElem?_eq_some_iff.1 found
      simp [inside, here]
    · simp [same, Ne.symm same]

/-- One holder less for every buffer in a list. -/
def releaseAll (s : BufferStore) (buffers : List BufferId) : BufferStore :=
  buffers.foldl release s

@[simp] theorem length_releaseAll (buffers : List BufferId) :
    (s.releaseAll buffers).buffers.length = s.buffers.length := by
  induction buffers generalizing s with
  | nil => rfl
  | cons b rest ih => exact (ih (s.release b)).trans (s.length_release b)

theorem holders_releaseAll (buffers : List BufferId) :
    (s.releaseAll buffers).holders c = s.holders c - buffers.count c := by
  induction buffers generalizing s with
  | nil => rfl
  | cons b rest ih =>
    show ((s.release b).releaseAll rest).holders c = _
    rw [ih, holders_release, List.count_cons]
    by_cases same : c = b
    · subst same
      simp
      omega
    · simp [same, Ne.symm same]

end BufferStore

end FrameOverlay
