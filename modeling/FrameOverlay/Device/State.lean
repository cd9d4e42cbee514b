import FrameOverlay.Device.Driver
import FrameOverlay.Memory.Store

/-!
# Working on a device

* `Moment` — one driver call, with the buffers as they were when it was made;
* `DeviceState` — the driver and the buffers, and the driver calls so far;
* `attempt` — how a computation ends, and the state it leaves;
* `DeviceM` — computations that change the state and may fail; the state outlives a failure;
* `DeviceM.ask` — one driver call, which is noted;
* `DeviceM.call` — one driver call, of which the result is judged;
* `DeviceM.withContext` — a computation with a context current: one push before, one pop after,
  however the computation ends, and neither computation nor pop if the push fails.
-/

namespace FrameOverlay

/-- A driver call as it was made, failed or not. -/
structure Moment where
  call : DriverCall
  result : DriverResult
  /-- The handle that the call brought; zero for none. -/
  handle : Handle
  /-- The buffers at that moment. -/
  store : BufferStore
  deriving DecidableEq, Repr

/-- The driver and the buffers. -/
structure DeviceState where
  driver : Driver := {}
  store : BufferStore := {}
  /-- Every driver call so far, oldest first.  Nothing is decided by it. -/
  history : List Moment := []

/-- Makes a driver call and notes it. -/
def DeviceState.ask (s : DeviceState) (call : DriverCall) : (DriverResult × Handle) × DeviceState :=
  let (reply, driver) := s.driver.serve call
  (reply, { s with driver, history := s.history ++ [⟨call, reply.1, reply.2, s.store⟩] })

/-- A native context and the stream all work is put on. -/
structure DeviceContext where
  context : Handle
  stream : Handle
  deriving DecidableEq, Repr

/-- How a computation ends, and the state it leaves. -/
def attempt {σ α : Type} (body : EStateM OverlayError σ α) (s : σ) : Except OverlayError α × σ :=
  match body s with
  | .ok a s => (.ok a, s)
  | .error e s => (.error e, s)

/-- A computation on a device. -/
abbrev DeviceM := EStateM OverlayError DeviceState

namespace DeviceM

/-- A driver call.  Gives its result, and the handle it brought. -/
def ask (call : DriverCall) : DeviceM (DriverResult × Handle) := fun s =>
  let (reply, s) := s.ask call
  .ok reply s

/-- Changes the buffers. -/
def onStore {α : Type} (f : BufferStore → α × BufferStore) : DeviceM α := fun s =>
  let (a, store) := f s.store
  .ok a { s with store }

/-- Fails with what the driver says about a result other than success. -/
def check (call : String) (result : DriverResult) : DeviceM Unit := fun s =>
  match s.driver.judge call result with
  | .ok () => .ok () s
  | .error fault => .error (.driver fault) s

/-- A driver call that fails with its result. -/
def call (name : String) (request : DriverCall) : DeviceM Unit := do
  check name (← ask request).1

/-- Makes the device's context current. -/
def enter (device : DeviceContext) : DeviceM Unit :=
  call "cuCtxPushCurrent" (.push device.context)

/-- Makes the context below current again; a failure goes unnoticed. -/
def leave (s : DeviceState) : DeviceState := (s.ask .pop).2

/-- A computation with the device's context current. -/
def withContext {α : Type} (device : DeviceContext) (body : DeviceM α) : DeviceM α := fun s =>
  match enter device s with
  | .error e s => .error e s
  | .ok () s =>
    match body s with
    | .ok a s => .ok a (leave s)
    | .error e s => .error e (leave s)

/-! ### Buffers -/

/-- The planes of a buffer. -/
def planes (b : BufferId) : DeviceM (List DevicePlane) := fun s => .ok (s.store.planes b) s

/-- The buffer has exactly one holder. -/
def isExclusive (b : BufferId) : DeviceM Bool := fun s => .ok (s.store.isExclusive b) s

/-- One more holder. -/
def share (b : BufferId) : DeviceM Unit := onStore fun s => ((), s.share b)

/-- One holder less. -/
def release (b : BufferId) : DeviceM Unit := onStore fun s => ((), s.release b)

/-- A new buffer outside every pool. -/
def allocate (planes : List DevicePlane) : DeviceM BufferId :=
  onStore fun s => s.allocate planes none

/-- A fresh buffer of a pool. -/
def acquire (p : PoolId) : DeviceM BufferId := fun s =>
  match s.store.acquire p with
  | .ok (b, store) => .ok b { s with store }
  | .error e => .error e s

end DeviceM

end FrameOverlay
