import FrameOverlay.Sync.Journal

/-!
# A synchronizer and its caller

* `Junction` — a synchronizer with the queues of its two inputs;
* `Junction.next` — one activation;
* `Junction.drain` — activations as long as events come;
* `Action`, `Junction.run` — what a caller does between two configurations, and a schedule of it;
* `Request`, `Junction.serve` — the same with configurations in between;
* `Report` — what an activation came to, how, and what its caller was told.
-/

namespace FrameOverlay

variable {α : Type}

/-- A synchronizer with the queues of its two inputs. -/
structure Junction (α : Type) where
  sync : Synchronizer α
  main : FrameQueue (Stamped α) := {}
  overlay : FrameQueue (Stamped α) := {}
  deriving DecidableEq, Repr

/-- A flow without the frames that were let go of. -/
def Flow.junction (f : Flow α) : Junction α := ⟨f.sync, f.main, f.overlay⟩

namespace Flow

theorem work_advance_lt (f : Flow α) (due : f.advance.1 = true) : f.advance.2.work < f.work := by
  fun_induction advance f with
  | case1 f ended => exact absurd due Bool.false_ne_true
  | case2 f on g waiting => exact absurd due Bool.false_ne_true
  | case3 f on due' g settled =>
    have view := rounded f
    generalize f.round = r at settled view
    cases view with
    | waiting => injection settled
    | endless =>
      injection settled with flag
      exact absurd (flag.trans due) Bool.false_ne_true
    | settled _ ahead =>
      injection settled with _ same
      subst same
      dsimp only
      exact Nat.lt_of_lt_of_le (work_move_lt f.fill.2 ahead) (work_fill_le f)
    | again => injection settled
  | case4 f on g again ih => exact Nat.lt_trans (ih due) (work_lt_of_again again)

end Flow

namespace Junction

/-- The queue of an input. -/
def queue (j : Junction α) : InputRole → FrameQueue (Stamped α)
  | .main => j.main
  | .overlay => j.overlay

/-- The flow that an activation starts from. -/
def flow (j : Junction α) : Flow α := ⟨j.sync, j.main, j.overlay, []⟩

/-- One activation. -/
def next (j : Junction α) : Outcome α × Junction α :=
  let (outcome, f) := j.sync.activate j.main j.overlay
  (outcome, f.junction)

end Junction

/-- An activation that gives out an event leaves less work. -/
theorem Synchronizer.work_activate_lt {s : Synchronizer α} {main overlay : FrameQueue (Stamped α)}
    {e : SyncEvent α} {f : Flow α} (h : s.activate main overlay = (.event e, f)) :
    f.work < Flow.work ⟨s, main, overlay, []⟩ := by
  have takeCurrent (slot : Slot α) : slot.takeCurrent.work = slot.work := by
    rcases slot with ⟨next | ⟨current, pts, next⟩ | _, before, after, level, timeBase⟩ <;> rfl
  have fired (g : Synchronizer α) (base : TimeBase) (i : InputRole) :
      ((g.fire base).2.slot i).work = (g.slot i).work := by
    unfold fire
    rcases g.main.current? with _ | frame <;> rcases g.keepsMain with _ | _ <;> cases i <;>
      first | rfl | exact takeCurrent _
  unfold activate at h
  split at h
  · exact nomatch h
  · next base _ =>
    have less := Flow.work_advance_lt ⟨s, main, overlay, []⟩
    generalize Flow.advance ⟨s, main, overlay, []⟩ = result at h less
    rcases result with ⟨due, g⟩
    dsimp only at h
    split at h
    · exact nomatch h
    split at h
    · next due =>
      injection h with _ same
      subst same
      have kept : Flow.work { g with sync := (g.sync.fire base).2 } = g.work := by
        show _ + ((g.sync.fire base).2.slot .main).work +
          (_ + ((g.sync.fire base).2.slot .overlay).work) = _
        rw [fired, fired]
        rfl
      rw [kept]
      exact less due
    · exact nomatch h

namespace Junction

theorem work_next_lt {j j' : Junction α} {e : SyncEvent α} (h : j.next = (.event e, j')) :
    j'.flow.work < j.flow.work := by
  unfold next at h
  rcases activated : j.sync.activate j.main j.overlay with ⟨outcome, f⟩
  rw [activated] at h
  injection h with event same
  subst event same
  show f.work < _
  exact Synchronizer.work_activate_lt activated

/-- Activations as long as events come: the events, what the last activation came to, and what is
left. -/
def drain (j : Junction α) : List (SyncEvent α) × Outcome α × Junction α :=
  match _event : j.next with
  | (.event e, j') =>
    let (events, last) := j'.drain
    (e :: events, last)
  | last => ([], last)
termination_by j.flow.work
decreasing_by exact work_next_lt _event

end Junction

/-! ### Schedules -/

/-- What a caller does between two configurations. -/
inductive Action (α : Type) where
  | push (input : InputRole) (f : Stamped α)
  | close (input : InputRole)
  /-- An activation; if an event is given out, the receiver answers with `verdict`. -/
  | activate (verdict : Except OverlayError Unit)

namespace Action

/-- The frames that a schedule pushes to an input, in order. -/
def pushed (i : InputRole) (schedule : List (Action α)) : List (Stamped α) :=
  schedule.filterMap fun
    | push j f => if j = i then some f else none
    | _ => none

/-- No frame is pushed to an input that has been closed, where the inputs in `closed` have been
closed before the schedule begins. -/
def Orderly (closed : InputRole → Bool) : List (Action α) → Prop
  | [] => True
  | push i _ :: rest => closed i = false ∧ Orderly closed rest
  | close i :: rest => Orderly (fun j => j = i || closed j) rest
  | activate _ :: rest => Orderly closed rest

instance Orderly.decidable : (closed : InputRole → Bool) → (schedule : List (Action α)) →
    Decidable (Orderly closed schedule)
  | _, [] => .isTrue trivial
  | closed, push i _ :: rest =>
    have := Orderly.decidable closed rest
    inferInstanceAs (Decidable (closed i = false ∧ Orderly closed rest))
  | closed, close i :: rest => Orderly.decidable (fun j => j = i || closed j) rest
  | closed, activate _ :: rest => Orderly.decidable closed rest

end Action

/-- What an activation came to, what happened on the way, and what its caller was told. -/
structure Report (α : Type) where
  outcome : Outcome α
  incidents : List (Incident α)
  result : Except OverlayError Activation

namespace Junction

/-- Replaces the queue of an input. -/
def putQueue (j : Junction α) : InputRole → FrameQueue (Stamped α) → Junction α
  | .main, queue => { j with main := queue }
  | .overlay, queue => { j with overlay := queue }

/-- Carries out one action. -/
def perform (j : Junction α) : Action α → Option (Report α) × Junction α
  | .push i f => (none, j.putQueue i ((j.queue i).push f))
  | .close i => (none, j.putQueue i (j.queue i).close)
  | .activate verdict =>
    let result := j.next.1.deliver fun _ => verdict
    (some ⟨j.next.1, j.sync.incidents j.main j.overlay, result⟩, j.next.2)

/-- Carries out one step after the other, and collects the reports. -/
def runBy {β : Type} (step : Junction α → β → Option (Report α) × Junction α) :
    Junction α → List β → List (Report α) × Junction α
  | j, [] => ([], j)
  | j, b :: rest =>
    let (report, j) := step j b
    let (reports, j) := runBy step j rest
    (report.toList ++ reports, j)

/-- Carries out a schedule of actions. -/
def run : Junction α → List (Action α) → List (Report α) × Junction α := runBy perform

end Junction

/-- What a caller does: an action, or a configuration. -/
inductive Request (α : Type) where
  | act (action : Action α)
  | configure (options : SyncOptions) (mainBase overlayBase : TimeBase) (explicit : Option TimeBase)

namespace Junction

/-- Carries out one request.  A configuration that is refused changes nothing. -/
def answer (j : Junction α) : Request α → Option (Report α) × Junction α
  | .act action => j.perform action
  | .configure options mainBase overlayBase explicit =>
    match j.sync.configure options mainBase overlayBase explicit with
    | .ok (_, sync) => (none, { j with sync })
    | .error _ => (none, j)

/-- Carries out a sequence of requests. -/
def serve : Junction α → List (Request α) → List (Report α) × Junction α := runBy answer

end Junction

namespace Report

/-- The events given out in a list of reports. -/
def events (reports : List (Report α)) : List (SyncEvent α) :=
  reports.filterMap fun r => r.outcome.event?

/-- The journal of a list of reports. -/
def journal (reports : List (Report α)) : List (Incident α) :=
  reports.flatMap Report.incidents

end Report

end FrameOverlay
