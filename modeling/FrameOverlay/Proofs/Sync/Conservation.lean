import FrameOverlay.Proofs.Sync.Round
import Mathlib.Data.List.Perm.Basic

/-!
# No frame comes from nowhere

Frames move from the queues into the slots and leave them: they are let go of, or handed out with an
event.  A frame that is handed out while the synchronizer keeps it is there twice from then on.

* `Stamped.tally` — how many frames of a list have a given content;
* `Slot.held`, `Flow.stock` — the frames of a slot, and of a flow with those it let go of;
* `Flow.stock_look`, `Flow.stock_move` — **every step keeps the stock**, `Flow.stock_advance` — and so
  do rounds;
* `Synchronizer.activate_stock` — **an activation gives out what it took**;
* `Synchronizer.activate_kept` — a frame that is kept is still held.
-/

namespace FrameOverlay

variable {α : Type}

/-- The number of frames of which the content satisfies `p`. -/
def Stamped.tally (p : α → Bool) (frames : List (Stamped α)) : Nat :=
  frames.countP fun f => p f.content

open Stamped

section Tally

variable (p : α → Bool)

@[simp] theorem Stamped.tally_nil : tally p [] = 0 := rfl

@[simp] theorem Stamped.tally_append (l k : List (Stamped α)) :
    tally p (l ++ k) = tally p l + tally p k := List.countP_append

theorem Stamped.tally_cons (f : Stamped α) (l : List (Stamped α)) :
    tally p (f :: l) = tally p [f] + tally p l := by
  simp only [tally, List.countP_cons, List.countP_nil, Nat.zero_add]
  omega

/-- The timestamp does not matter. -/
theorem Stamped.tally_congr {f g : Stamped α} (h : f.content = g.content) :
    tally p [f] = tally p [g] := by
  simp only [tally, List.countP_cons, h]

/-- One frame of a list and the others. -/
theorem Stamped.tally_eraseIdx {frames : List (Stamped α)} {i : Nat} {f : Stamped α}
    (found : frames[i]? = some f) : tally p frames = tally p (frames.eraseIdx i) + tally p [f] := by
  obtain ⟨inside, rfl⟩ := List.getElem?_eq_some_iff.1 found
  have same : tally p (frames[i] :: frames.eraseIdx i) = tally p frames :=
    (List.getElem_cons_eraseIdx_perm inside).countP_eq _
  rw [← same, tally_cons, Nat.add_comm]

/-- The same once that frame has been replaced. -/
theorem Stamped.tally_set {frames : List (Stamped α)} {i : Nat} {f : Stamped α}
    (found : frames[i]? = some f) (g : Stamped α) :
    tally p (frames.set i g) = tally p (frames.eraseIdx i) + tally p [g] := by
  have inside := (List.getElem?_eq_some_iff.1 found).1
  have same : tally p (frames.set i g) = tally p (g :: frames.eraseIdx i) :=
    (List.set_perm_cons_eraseIdx inside g).countP_eq _
  rw [same, tally_cons, Nat.add_comm]

end Tally

/-! ### Slots -/

namespace Slot

/-- The frames of a slot: the current one and the one ahead. -/
def held (s : Slot α) : List (Stamped α) := s.current?.toList ++ s.next.frame?.toList

variable (p : α → Bool)

theorem tally_lookAtFrame {s : Slot α} (wants : s.wants = true) (target : TimeBase) (f : Stamped α) :
    tally p (s.lookAtFrame target f).held = tally p s.held + tally p [f] := by
  have none : s.next = .unknown := ((wants_iff s).1 wants).2
  simp only [held, lookAtFrame_current?, lookAtFrame_next target f wants, none, Lookahead.frame?,
    Option.toList, tally_append, tally_nil]
  rw [tally_congr p (show (f.rescaled s.timeBase target).content = f.content from rfl)]
  omega

theorem held_lookAtEnd {s : Slot α} (wants : s.wants = true) : s.lookAtEnd.held = s.held := by
  have none : s.next = .unknown := ((wants_iff s).1 wants).2
  simp only [held, lookAtEnd_current?, lookAtEnd_next wants, none, Lookahead.frame?]

/-- A promotion lets go of the current frame and of no other. -/
theorem tally_promote (s : Slot α) :
    tally p s.promote.held + tally p s.current?.toList = tally p s.held := by
  have next := s.promote_next
  have current := s.promote_current?
  simp only [held, current, next, Lookahead.frame?, Option.toList, tally_append, tally_nil]
  omega

theorem tally_takeCurrent (s : Slot α) :
    tally p s.takeCurrent.held + tally p s.current?.toList = tally p s.held := by
  simp only [held, takeCurrent_current?, takeCurrent_next, Option.toList_none, tally_append, tally_nil]
  omega

end Slot

theorem Synchronizer.heldFrames_eq (s : Synchronizer α) :
    s.heldFrames = s.main.held ++ s.overlay.held := by
  cases main : s.main.next <;> cases overlay : s.overlay.next <;>
    simp only [heldFrames, Slot.held, main, overlay, Lookahead.frame?, Option.toList]

/-! ### Rounds -/

namespace Flow

variable (p : α → Bool)

/-- What an input has: the frames of its slot and of its queue. -/
def supply (f : Flow α) (i : InputRole) : Nat :=
  tally p (f.sync.slot i).held + tally p (f.queue i).frames

/-- All the frames of a flow, those it let go of included. -/
def stock (f : Flow α) : Nat := f.supply p .main + f.supply p .overlay + tally p f.dropped

/-- A step that concerns one input. -/
theorem stock_of_input {f g : Flow α} {i : InputRole}
    (other : ∀ j, j ≠ i → g.sync.slot j = f.sync.slot j ∧ g.queue j = f.queue j)
    (self : g.supply p i + tally p g.dropped = f.supply p i + tally p f.dropped) :
    g.stock p = f.stock p := by
  have rest (j : InputRole) (h : j ≠ i) : g.supply p j = f.supply p j := by
    unfold supply
    rw [(other j h).1, (other j h).2]
  unfold stock
  cases i with
  | main =>
    rw [rest .overlay (by decide)]
    omega
  | overlay =>
    rw [rest .main (by decide)]
    omega

theorem stock_look (f : Flow α) (i : InputRole) : (f.look i).2.stock p = f.stock p := by
  apply stock_of_input p fun j h => look_of_ne f h
  have dropped : (f.look i).2.dropped = f.dropped := by
    have view := looked f i
    generalize f.look i = result at view ⊢
    cases view <;> cases i <;> rfl
  rw [dropped]
  have view := looked f i
  generalize f.look i = result at view ⊢
  cases view with
  | known => rfl
  | @frame x rest wants queued =>
    have taken := Slot.tally_lookAtFrame p wants f.timeBase
    simp only [supply, slot_putSlot_self, queue_putSlot, queue_putQueue_self, queued, taken]
    rw [tally_cons p x rest]
    omega
  | ended wants =>
    simp only [supply, slot_updateLevel, slot_putSlot_self, queue_updateLevel, queue_putSlot,
      Slot.held_lookAtEnd wants]
  | missing => rfl

theorem stock_shift (f : Flow α) (i : InputRole) (pts : Timestamp) (due : Bool) :
    (f.shift i pts due).2.stock p = f.stock p := by
  apply stock_of_input p fun j h => ⟨shift_slot_of_ne f pts due h, shift_queue f i j pts due⟩
  cases moves : (f.sync.slot i).moves pts with
  | false => rw [shift_of_stays f due moves]
  | true =>
    have dropped : (f.shift i pts due).2.dropped = f.dropped ++ (f.sync.slot i).current?.toList := by
      rw [shift_of_moves f due moves]
      unfold settle
      split <;> cases i <;> rfl
    have promoted := (f.sync.slot i).tally_promote p
    simp only [supply, shift_queue, shift_slot_self, Slot.movedTo_of_moves moves, dropped, tally_append]
    omega

theorem stock_move (f : Flow α) (pts : Timestamp) : (f.move pts).2.stock p = f.stock p := by
  have put (g : Flow α) : (g.putPts pts).stock p = g.stock p := rfl
  simp only [move, put, stock_shift]

/-- Rounds keep the stock. -/
theorem stock_advance (f : Flow α) : f.advance.2.stock p = f.stock p := by
  apply advance_keeps (P := fun g => g.stock p = f.stock p)
  · intro g i h
    exact (stock_look p g i).trans h
  · intro g pts h
    exact (stock_move p g pts).trans h
  · intro g h
    exact h
  · rfl

end Flow

/-! ### Activations -/

/-- The main frame that an outcome hands over without the synchronizer keeping it. -/
def Outcome.handedOver : Outcome α → List (Stamped α)
  | .event e => if e.mainKept then [] else [e.main]
  | _ => []

/-- Without an event nothing is handed over. -/
theorem Outcome.handedOver_of_none {o : Outcome α} (none : o.event? = none) : o.handedOver = [] := by
  cases o <;> first | rfl | exact absurd none (by simp [event?])

namespace Synchronizer

/-- An event that is due hands its main frame over, or the synchronizer still holds it. -/
theorem fire_stock (p : α → Bool) (s : Synchronizer α) (base : TimeBase) :
    tally p (s.fire base).2.heldFrames + tally p (s.fire base).1.handedOver = tally p s.heldFrames := by
  simp only [heldFrames_eq, tally_append]
  cases current : s.main.current? with
  | none =>
    have nothing : s.main.takeCurrent.held = s.main.held := by
      simp [Slot.held, current]
    unfold fire
    rw [current]
    cases s.keepsMain
    · simp [Outcome.handedOver, nothing]
    · simp [Outcome.handedOver]
  | some frame =>
    have taken := s.main.tally_takeCurrent p
    rw [current] at taken
    rw [fire_of_frame current]
    cases kept : s.keepsMain with
    | true => simp [Outcome.handedOver, eventWith, afterEvent, kept]
    | false =>
      have same : tally p [(s.eventWith base frame).main] = tally p [frame] := tally_congr p rfl
      simp only [Outcome.handedOver, eventWith, afterEvent, kept, Bool.false_eq_true, if_false] at same ⊢
      simp only [Option.toList_some] at taken
      omega

/-- **An activation gives out what it took.**  What was held and queued before is held or queued
afterwards, or was let go of, or has been handed over with the event. -/
theorem activate_stock (p : α → Bool) (s : Synchronizer α) (main overlay : FrameQueue (Stamped α)) :
    let run := s.activate main overlay
    tally p run.2.sync.heldFrames + tally p run.2.main.frames + tally p run.2.overlay.frames +
        tally p run.2.dropped + tally p run.1.handedOver =
      tally p s.heldFrames + tally p main.frames + tally p overlay.frames := by
  have stock (f : Flow α) : f.stock p = tally p f.sync.heldFrames + tally p f.main.frames +
      tally p f.overlay.frames + tally p f.dropped := by
    simp only [Flow.stock, Flow.supply, heldFrames_eq, tally_append, slot, Flow.queue]
    omega
  dsimp only
  unfold activate
  cases some : s.timeBase with
  | none => rfl
  | some base =>
    have rounds := Flow.stock_advance p ⟨s, main, overlay, []⟩
    rw [stock, stock] at rounds
    dsimp only
    generalize Flow.advance ⟨s, main, overlay, []⟩ = r at rounds ⊢
    simp only [tally_nil, Nat.add_zero] at rounds
    split
    · simpa [Outcome.handedOver] using rounds
    split
    · have fired := r.2.sync.fire_stock p base
      dsimp only
      omega
    · simpa [Outcome.handedOver] using rounds

/-- A main frame that is kept is still among the frames held, and so is the overlay frame. -/
theorem activate_kept {s : Synchronizer α} {main overlay : FrameQueue (Stamped α)} {e : SyncEvent α}
    (event : (s.activate main overlay).1 = .event e) :
    (e.mainKept = true → ∃ f ∈ (s.activate main overlay).2.sync.heldFrames,
        f.content = e.main.content) ∧
      ∀ f ∈ e.overlay, f ∈ (s.activate main overlay).2.sync.heldFrames := by
  unfold activate at event ⊢
  cases known : s.timeBase with
  | none =>
    rw [known] at event
    injection event
  | some base =>
    rw [known] at event
    dsimp only at event ⊢
    generalize Flow.advance ⟨s, main, overlay, []⟩ = r at event ⊢
    split at event
    · injection event
    next on =>
    rw [if_neg on]
    split at event
    · next due =>
      rw [if_pos due]
      dsimp only at event ⊢
      cases current : r.2.sync.main.current? with
      | none =>
        unfold fire at event
        rw [current] at event
        injection event
      | some frame =>
        rw [fire_of_frame current] at event ⊢
        injection event with event
        subst event
        simp only [heldFrames_eq]
        refine ⟨?_, ?_⟩
        · intro kept
          have kept : r.2.sync.keepsMain = true := kept
          refine ⟨frame, ?_, rfl⟩
          simp [afterEvent, kept, Slot.held, current]
        · intro f hf
          have shown : r.2.sync.overlay.current? = some f := hf
          simp [afterEvent, Slot.held, shown]
    · injection event

end Synchronizer

end FrameOverlay
