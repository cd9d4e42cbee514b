import FrameOverlay.Memory.Pool

/-!
# Shared buffers

Pictures share buffers: a buffer lives as long as someone holds it, and one that came from a pool
goes back there when its last holder lets go.

* `BufferStore` — every buffer ever made, with the number of its holders, and the pools;
* `BufferStore.allocate`, `BufferStore.acquire?` — a new buffer with one holder;
* `BufferStore.share`, `BufferStore.release` — one holder more, one holder less;
* `BufferStore.isExclusive` — a single holder, who may write.
-/

namespace FrameOverlay

/-- Number of a buffer, in the order buffers were made. -/
abbrev BufferId := Nat

/-- Number of a pool. -/
abbrev PoolId := Nat

/-- A buffer and who holds it. -/
structure SharedBuffer where
  planes : List DevicePlane
  /-- The pool the buffer goes back to. -/
  lender : Option PoolId
  /-- Pictures that refer to the buffer; at zero it is gone. -/
  holders : Nat
  deriving DecidableEq, Repr

/-- The buffers and pools of a device. -/
structure BufferStore where
  buffers : List SharedBuffer := []
  pools : List FramePool := []
  deriving DecidableEq, Repr

namespace BufferStore

/-! ### Looking -/

/-- The planes of a buffer. -/
def planes (s : BufferStore) (b : BufferId) : List DevicePlane :=
  (s.buffers[b]?.map SharedBuffer.planes).getD []

/-- Number of holders of a buffer. -/
def holders (s : BufferStore) (b : BufferId) : Nat :=
  (s.buffers[b]?.map SharedBuffer.holders).getD 0

/-- The buffer came from a pool. -/
def isLeased (s : BufferStore) (b : BufferId) : Bool :=
  (s.buffers[b]?.bind SharedBuffer.lender).isSome

/-- The buffer has exactly one holder. -/
def isExclusive (s : BufferStore) (b : BufferId) : Bool := s.holders b == 1

/-! ### New buffers -/

/-- A new buffer with one holder. -/
def allocate (s : BufferStore) (planes : List DevicePlane) (lender : Option PoolId) :
    BufferId × BufferStore :=
  (s.buffers.length, { s with buffers := s.buffers ++ [⟨planes, lender, 1⟩] })

/-- A new pool. -/
def addPool (s : BufferStore) (pool : FramePool) : PoolId × BufferStore :=
  (s.pools.length, { s with pools := s.pools ++ [pool] })

/-- A fresh buffer of a pool, with one holder. -/
def acquire (s : BufferStore) (p : PoolId) : Except OverlayError (BufferId × BufferStore) :=
  match s.pools[p]? with
  | none => .error (.pool .noPool)
  | some pool =>
    match pool.acquire with
    | .error e => .error e
    | .ok (planes, pool') =>
      .ok (({ s with pools := s.pools.set p pool' }).allocate planes (some p))

/-! ### Holders -/

/-- One more holder of a buffer that lives. -/
def share (s : BufferStore) (b : BufferId) : BufferStore :=
  { s with buffers := s.buffers.modify b fun x => { x with holders := x.holders + 1 } }

/-- One holder less.  With the last one a pooled buffer goes back to its pool. -/
def release (s : BufferStore) (b : BufferId) : BufferStore :=
  match s.buffers[b]? with
  | none => s
  | some x =>
    let buffers := s.buffers.set b { x with holders := x.holders - 1 }
    match x.holders, x.lender with
    | 1, some p => ⟨buffers, s.pools.modify p FramePool.giveBack⟩
    | _, _ => ⟨buffers, s.pools⟩

end BufferStore

end FrameOverlay
