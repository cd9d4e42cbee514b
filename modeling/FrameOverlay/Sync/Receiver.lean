import FrameOverlay.Sync.Junction

/-!
# The receiver of events

The synchronizer gives an event out and the receiver answers for itself.  Here a receiver is any
computation that may fail, with a state of its own that outlives its failures.

* `Receiver` — what is done with an event;
* `Receipt` — one call of a receiver, and `Receiver.noted`, a receiver whose calls are written down;
* `Junction.offer`, `Junction.activate` — an activation in which the receiver is called, in the order of its
  steps;
* `Prompt` — what a caller does between two configurations when the answers are the receiver's;
* `Junction.attend`, `Junction.attendAll` — a prompt and a schedule of them, with a `Notice` of every
  activation;
* `Junction.present` — the receiver is called for what an activation has come to.
-/

namespace FrameOverlay

/-- What is done with an event.  The receiver's state outlives a failure. -/
abbrev Receiver (σ α : Type) := SyncEvent α → EStateM OverlayError σ Unit

/-- A call of a receiver: the event it was offered, and its answer. -/
structure Receipt (α : Type) where
  event : SyncEvent α
  verdict : Except OverlayError Unit

/-- A receiver whose calls are written down, in order. -/
def Receiver.noted {σ α : Type} (receive : Receiver σ α) : Receiver (σ × List (Receipt α)) α :=
  fun e (s, calls) =>
    match receive e s with
    | .ok () s => .ok () (s, calls ++ [⟨e, .ok ()⟩])
    | .error x s => .error x (s, calls ++ [⟨e, .error x⟩])

/-- A computation on a synchronizer with its queues and on the state of its receiver. -/
abbrev ReceiverM (σ α : Type) := EStateM OverlayError (Junction α × σ)

/-- A call of the receiver, which sees the event and its own state only. -/
def Receiver.call {σ α : Type} (receive : Receiver σ α) (e : SyncEvent α) : ReceiverM σ α Unit :=
  fun (j, s) =>
    match receive e s with
    | .ok () s => .ok () (j, s)
    | .error x s => .error x (j, s)

namespace Junction

variable {σ α : Type}

/-- The synchronizer with its queues. -/
def getJunction : ReceiverM σ α (Junction α) := fun (j, s) => .ok j (j, s)

/-- Replaces the synchronizer and its queues. -/
def putJunction (j : Junction α) : ReceiverM σ α Unit := fun (_, s) => .ok () (j, s)

/-- Changes the synchronizer. -/
def changeSync (f : Synchronizer α → Synchronizer α) : ReceiverM σ α Unit := fun (j, s) =>
  .ok () ({ j with sync := f j.sync }, s)

/-- Offers the event that is due.  The main frame is handed over or shared, the event is counted, and last
of all the receiver is called, whose failure is passed on. -/
def offer (receive : Receiver σ α) (base : TimeBase) : ReceiverM σ α Unit := do
  let sync := (← getJunction).sync
  if !sync.keepsMain then
    changeSync fun s => { s with main := s.main.takeCurrent }
  match sync.main.current? with
  | none => throw (.invalidPairing (.noMainFrame sync.pts))
  | some frame =>
    changeSync fun s => { s with events := s.events + 1 }
    receive.call
      { main := { frame with pts := Timestamp.toOption sync.pts }
        overlay := sync.overlay.current?
        pts := sync.pts
        timeBase := base
        index := sync.events
        mainKept := sync.keepsMain }

/-- An activation with its receiver. -/
def activate (receive : Receiver σ α) : ReceiverM σ α Activation := do
  let j ← getJunction
  match j.sync.timeBase with
  | none => throw (.invariantViolation .syncUnconfigured)
  | some base =>
    let (due, f) := j.flow.advance
    putJunction f.junction
    if f.sync.eof then
      return .ended
    else if due then
      offer receive base
      return .event
    else
      return .needInput

end Junction

/-- What a caller does between two configurations. -/
inductive Prompt (α : Type) where
  | push (input : InputRole) (f : Stamped α)
  | close (input : InputRole)
  | activate
  deriving DecidableEq, Repr

/-- An activation as its caller sees it: the calls of the receiver, and what it was told. -/
structure Notice (α : Type) where
  calls : List (Receipt α)
  result : Except OverlayError Activation

namespace Notice

variable {α : Type}

/-- The calls of the receiver in a list of notices, in order. -/
def receipts (notices : List (Notice α)) : List (Receipt α) := notices.flatMap calls

/-- The events the receiver was offered, in order. -/
def offered (notices : List (Notice α)) : List (SyncEvent α) :=
  (receipts notices).map Receipt.event

end Notice

namespace Junction

variable {σ α : Type}

/-- Carries out one prompt. -/
def attend (receive : Receiver σ α) (j : Junction α) (s : σ) :
    Prompt α → Option (Notice α) × Junction α × σ
  | .push i f => (none, j.putQueue i ((j.queue i).push f), s)
  | .close i => (none, j.putQueue i (j.queue i).close, s)
  | .activate =>
    match activate receive.noted (j, s, []) with
    | .ok a (j, s, calls) => (some ⟨calls, .ok a⟩, j, s)
    | .error x (j, s, calls) => (some ⟨calls, .error x⟩, j, s)

/-- Carries out a schedule of prompts. -/
def attendAll (receive : Receiver σ α) :
    Junction α → σ → List (Prompt α) → List (Notice α) × Junction α × σ
  | j, s, [] => ([], j, s)
  | j, s, p :: rest =>
    let (notice, j, s) := attend receive j s p
    let (notices, j, s) := attendAll receive j s rest
    (notice.toList ++ notices, j, s)

/-- What an activation has come to is delivered to the receiver. -/
def present (receive : Receiver σ α) (s : σ) (outcome : Outcome α) : Notice α × σ :=
  match outcome.deliver receive.noted (s, []) with
  | .ok a (s, calls) => (⟨calls, .ok a⟩, s)
  | .error x (s, calls) => (⟨calls, .error x⟩, s)

end Junction

end FrameOverlay
