import FrameOverlay.Proofs.Sync.Slot
import FrameOverlay.Sync.Junction

/-!
# What a round does

A round looks ahead on both inputs and then moves both slots.  This module gives each part in one
equation or one list of cases, so that nothing after it unfolds a round.

* `look_eof`, `fill_on` — an output that has ended stays ended;
* `look_sync`, `look_slot`, `look_closes` — what a look leaves alone;
* `fill_content` — **after a look that found something on both inputs, no slot wants to look
  ahead**;
* `shift_sync`, `move_sync` — **the synchronizer after a move**, field by field;
* `move_due` — **when a move that does not end the output makes an event due**;
* `advance_of_eof`, `advance_of_missing`, `advance_of_endless`, `advance_of_over`,
  `advance_of_quiet` — the rounds of an activation, one equation for each way a round can end;
* `rounds_induct` — **the induction over rounds**;
* `fire_of_frame` — the event that is given out, and what remains;
* `configure_ok` — **an accepted configuration leaves nothing of the state before it**;
* `Junction.conclude` — what an activation comes to after its rounds.
-/

namespace FrameOverlay

namespace Flow

variable {α : Type}

/-! ### Looks -/

theorem look_of_known {f : Flow α} {i : InputRole} (h : (f.sync.slot i).wants = false) :
    f.look i = (false, f) := by
  have view := looked f i
  generalize f.look i = result at view ⊢
  cases view with
  | known => rfl
  | frame wants => exact absurd wants (by simp [h])
  | ended wants => exact absurd wants (by simp [h])
  | missing wants => exact absurd wants (by simp [h])

theorem look_of_frame {f : Flow α} {i : InputRole} {x : Stamped α} {rest : List (Stamped α)}
    (h : (f.sync.slot i).wants = true) (hq : (f.queue i).frames = x :: rest) :
    f.look i = (false, (f.putQueue i { f.queue i with frames := rest }).putSlot i
      ((f.sync.slot i).lookAtFrame f.timeBase x)) := by
  have view := looked f i
  generalize f.look i = result at view ⊢
  cases view with
  | known content => exact absurd content (by simp [h])
  | frame _ queued =>
    obtain ⟨rfl, rfl⟩ := List.cons.inj (hq.symm.trans queued)
    rfl
  | ended _ queued => exact nomatch hq.symm.trans queued
  | missing _ queued => exact nomatch hq.symm.trans queued

theorem look_of_ended {f : Flow α} {i : InputRole} (h : (f.sync.slot i).wants = true)
    (hq : (f.queue i).frames = []) (hc : (f.queue i).closed = true) :
    f.look i = (false, (f.putSlot i (f.sync.slot i).lookAtEnd).updateLevel) := by
  have view := looked f i
  generalize f.look i = result at view ⊢
  cases view with
  | known content => exact absurd content (by simp [h])
  | frame _ queued => exact nomatch hq.symm.trans queued
  | ended => rfl
  | missing _ _ closed => exact absurd closed (by simp [hc])

theorem look_of_missing {f : Flow α} {i : InputRole} (h : (f.sync.slot i).wants = true)
    (hq : (f.queue i).frames = []) (hc : (f.queue i).closed = false) : f.look i = (true, f) := by
  have view := looked f i
  generalize f.look i = result at view ⊢
  cases view with
  | known content => exact absurd content (by simp [h])
  | frame _ queued => exact nomatch hq.symm.trans queued
  | ended _ _ closed => exact absurd closed (by simp [hc])
  | missing => rfl

theorem updateLevel_eof (s : Synchronizer α) (h : s.eof = true) : s.updateLevel.eof = true := by
  unfold Synchronizer.updateLevel
  dsimp only
  split
  · rfl
  · exact h

theorem putSlot_eof (f : Flow α) (i : InputRole) (slot : Slot α) :
    (f.putSlot i slot).sync.eof = f.sync.eof := by
  cases i <;> rfl

theorem putQueue_sync (f : Flow α) (i : InputRole) (q : FrameQueue (Stamped α)) :
    (f.putQueue i q).sync = f.sync := by
  cases i <;> rfl

/-- An output that has ended stays ended. -/
theorem look_eof {f : Flow α} (i : InputRole) (h : f.sync.eof = true) :
    (f.look i).2.sync.eof = true := by
  have view := looked f i
  generalize f.look i = result at view ⊢
  cases view with
  | known => exact h
  | frame => rw [putSlot_eof, putQueue_sync]; exact h
  | ended => exact updateLevel_eof _ ((putSlot_eof _ _ _).trans h)
  | missing => exact h

theorem look_on {f : Flow α} {i : InputRole} (h : (f.look i).2.sync.eof = false) :
    f.sync.eof = false := by
  cases he : f.sync.eof with
  | false => rfl
  | true => exact absurd (look_eof i he) (by simp [h])

theorem fill_flag (f : Flow α) :
    f.fill.1 = ((f.look .main).1 || ((f.look .main).2.look .overlay).1) := rfl

theorem fill_flow (f : Flow α) : f.fill.2 = ((f.look .main).2.look .overlay).2 := rfl

/-- An output that goes on after both looks went on all the time. -/
theorem fill_on {f : Flow α} (h : f.fill.2.sync.eof = false) :
    (f.look .main).2.sync.eof = false := look_on (f := (f.look .main).2) (i := .overlay) h

/-- A look leaves the policy, the time base and the number of events alone. -/
theorem look_sync (f : Flow α) (i : InputRole) :
    (f.look i).2.sync.options = f.sync.options ∧ (f.look i).2.sync.timeBase = f.sync.timeBase ∧
      (f.look i).2.sync.events = f.sync.events := by
  have level (s : Synchronizer α) : s.updateLevel.options = s.options ∧
      s.updateLevel.timeBase = s.timeBase ∧ s.updateLevel.events = s.events := by
    unfold Synchronizer.updateLevel
    dsimp only
    split <;> exact ⟨rfl, rfl, rfl⟩
  have view := looked f i
  generalize f.look i = result at view ⊢
  cases view with
  | known => exact ⟨rfl, rfl, rfl⟩
  | frame => cases i <;> exact ⟨rfl, rfl, rfl⟩
  | ended => cases i <;> exact level _
  | missing => exact ⟨rfl, rfl, rfl⟩

theorem look_timeBase (f : Flow α) (i : InputRole) :
    (f.look i).2.sync.timeBase = f.sync.timeBase := (look_sync f i).2.1

/-- A look leaves the modes, the states and the current frames of the slots alone. -/
theorem look_slot (f : Flow α) (i k : InputRole) :
    ((f.look i).2.sync.slot k).before = (f.sync.slot k).before ∧
      ((f.look i).2.sync.slot k).after = (f.sync.slot k).after ∧
      ((f.look i).2.sync.slot k).state = (f.sync.slot k).state ∧
      ((f.look i).2.sync.slot k).current? = (f.sync.slot k).current? ∧
      ((f.look i).2.sync.slot k).stamp? = (f.sync.slot k).stamp? := by
  by_cases same : k = i
  · subst same
    have view := looked f k
    generalize f.look k = result at view ⊢
    cases view with
    | known => exact ⟨rfl, rfl, rfl, rfl, rfl⟩
    | frame =>
      rw [slot_putSlot_self, Slot.lookAtFrame_state, Slot.lookAtFrame_current?,
        Slot.lookAtFrame_stamp?]
      exact ⟨rfl, rfl, rfl, rfl, rfl⟩
    | ended =>
      rw [slot_updateLevel, slot_putSlot_self, Slot.lookAtEnd_state, Slot.lookAtEnd_current?,
        Slot.lookAtEnd_stamp?]
      exact ⟨rfl, rfl, rfl, rfl, rfl⟩
    | missing => exact ⟨rfl, rfl, rfl, rfl, rfl⟩
  · rw [(look_of_ne f same).1]
    exact ⟨rfl, rfl, rfl, rfl, rfl⟩

/-- A look keeps every slot at its pace. -/
theorem look_paced {f : Flow α} {k : InputRole} {full : Nat} (h : (f.sync.slot k).Paced full)
    (i : InputRole) : ((f.look i).2.sync.slot k).Paced full := by
  by_cases same : k = i
  · subst same
    have view := looked f k
    generalize f.look k = result at view ⊢
    cases view with
    | known => exact h
    | frame wants =>
      rw [slot_putSlot_self]
      exact h.lookAtFrame wants _ _
    | ended wants =>
      rw [slot_updateLevel, slot_putSlot_self]
      exact .lookAtEnd full wants
    | missing => exact h
  · rw [(look_of_ne f same).1]
    exact h

/-- A look that ends the output leaves no input that triggers events. -/
theorem look_over {f : Flow α} {i : InputRole} (on : f.sync.eof = false)
    (ended : (f.look i).2.sync.eof = true) (k : InputRole) :
    ((f.look i).2.sync.slot k).activeLevel = 0 := by
  have view := looked f i
  generalize f.look i = result at ended view ⊢
  cases view with
  | known => exact nomatch on.symm.trans ended
  | frame =>
    rw [putSlot_eof, putQueue_sync] at ended
    exact nomatch on.symm.trans ended
  | ended wants =>
    rw [slot_updateLevel]
    have on : (f.putSlot i (f.sync.slot i).lookAtEnd).sync.eof = false := by rwa [putSlot_eof]
    generalize f.putSlot i (f.sync.slot i).lookAtEnd = g at ended on ⊢
    have idle : max g.sync.main.activeLevel g.sync.overlay.activeLevel = 0 := by
      unfold updateLevel Synchronizer.updateLevel at ended
      dsimp only at ended
      split at ended
      · next idle => exact idle
      · exact nomatch on.symm.trans ended
    cases k with
    | main => exact Nat.le_zero.1 (idle ▸ Nat.le_max_left _ _)
    | overlay => exact Nat.le_zero.1 (idle ▸ Nat.le_max_right _ _)
  | missing => exact nomatch on.symm.trans ended

/-- A look takes frames out of a queue and neither opens nor closes it. -/
theorem look_closes (f : Flow α) (i j : InputRole) :
    ((f.look i).2.queue j).closed = (f.queue j).closed := by
  by_cases same : j = i
  · subst same
    have view := looked f j
    generalize f.look j = result at view ⊢
    cases view with
    | known => rfl
    | frame => rw [queue_putSlot, queue_putQueue_self]
    | ended => rw [queue_updateLevel, queue_putSlot]
    | missing => rfl
  · rw [(look_of_ne f same).2]

/-- A slot that found something does not want to look ahead any more. -/
theorem look_content {f : Flow α} {i : InputRole} (h : (f.look i).1 = false) :
    ((f.look i).2.sync.slot i).wants = false := by
  have view := looked f i
  generalize f.look i = result at h view ⊢
  cases view with
  | known content => exact content
  | frame wants =>
    rw [slot_putSlot_self]
    exact Slot.lookAtFrame_wants _ _ wants
  | ended wants =>
    rw [slot_updateLevel, slot_putSlot_self]
    exact Slot.lookAtEnd_wants wants
  | missing => exact nomatch h

theorem fill_content {f : Flow α} (h : f.fill.1 = false) (i : InputRole) :
    (f.fill.2.sync.slot i).wants = false := by
  rw [fill_flag] at h
  obtain ⟨hm, ho⟩ := Bool.or_eq_false_iff.1 h
  cases i with
  | main =>
    rw [fill_flow, (look_of_ne (f.look .main).2 (by decide)).1]
    exact look_content hm
  | overlay => exact look_content ho

/-! ### Moves -/

/-- The move of a slot to `pts` ends the output. -/
def ends (f : Flow α) (i : InputRole) (pts : Timestamp) : Bool :=
  (f.sync.slot i).moves pts && (f.sync.slot i).promote.endsOutput

theorem ends_iff {f : Flow α} {i : InputRole} {pts : Timestamp} : f.ends i pts = true ↔
    (f.sync.slot i).moves pts = true ∧ (∀ x, (f.sync.slot i).next ≠ .frame x) ∧
      (f.sync.slot i).after = .stop := by
  rw [ends, Bool.and_eq_true_iff, Slot.promote_endsOutput]

/-- A frame becomes current, in a move to `pts`, in an input at the level of the synchronizer. -/
def triggers (f : Flow α) (i : InputRole) (pts : Timestamp) : Bool :=
  (f.sync.slot i).moves pts &&
    (some (f.sync.slot i).level == f.sync.level && (f.sync.slot i).promote.current?.isSome)

/-- The synchronizer after one input's part in a move. -/
theorem shift_sync (f : Flow α) (i : InputRole) (pts : Timestamp) (due : Bool) :
    (f.shift i pts due).2.sync = { f.sync.putSlot i ((f.sync.slot i).movedTo pts) with
      eof := f.sync.eof || f.ends i pts } := by
  cases hm : (f.sync.slot i).moves pts with
  | false =>
    rw [shift_of_stays f due hm, Slot.movedTo_of_stays hm]
    simp only [ends, hm, Bool.false_and, Bool.or_false]
    cases i <;> rfl
  | true =>
    rw [shift_of_moves f due hm, Slot.movedTo_of_moves hm]
    simp only [ends, hm, Bool.true_and, settle]
    split
    · next he =>
      rw [he, Bool.or_true]
      cases i <;> rfl
    · next he =>
      rw [Bool.eq_false_iff.2 he, Bool.or_false]
      cases i <;> rfl

/-- The synchronizer after a move. -/
theorem move_sync (f : Flow α) (pts : Timestamp) :
    (f.move pts).2.sync = { f.sync with
      main := f.sync.main.movedTo pts
      overlay := f.sync.overlay.movedTo pts
      pts := pts
      eof := f.sync.eof || f.ends .main pts || f.ends .overlay pts } := by
  have slot := shift_slot_of_ne f (i := .main) (j := .overlay) pts false (by decide)
  have ends : ((f.shift .main pts false).2.ends .overlay pts) = f.ends .overlay pts := by
    simp only [Flow.ends, slot]
  show { ((f.shift .main pts false).2.shift .overlay pts _).2.sync with pts := pts } = _
  rw [shift_sync, ends, slot, shift_sync]
  rfl

theorem shift_due {f : Flow α} {i : InputRole} {pts : Timestamp} (due : Bool)
    (h : f.ends i pts = false) : (f.shift i pts due).1 = (due || f.triggers i pts) := by
  cases hm : (f.sync.slot i).moves pts with
  | false =>
    rw [shift_of_stays f due hm]
    simp only [triggers, hm, Bool.false_and, Bool.or_false]
  | true =>
    rw [shift_of_moves f due hm]
    simp only [ends, hm, Bool.true_and] at h
    simp only [triggers, hm, Bool.true_and, settle, h, Bool.false_eq_true, if_false]
    cases i <;> rfl

/-- An output that goes on after a move went on before. -/
theorem move_on {f : Flow α} {pts : Timestamp} (h : (f.move pts).2.sync.eof = false) :
    f.sync.eof = false := by
  rw [move_sync] at h
  exact (Bool.or_eq_false_iff.1 (Bool.or_eq_false_iff.1 h).1).1

/-- When a move that does not end the output makes an event due: a frame became current in an input
at the level of the synchronizer, and no input holds the output back. -/
theorem move_due {f : Flow α} {pts : Timestamp} (h : (f.move pts).2.sync.eof = false) :
    (f.move pts).1 = ((f.triggers .main pts || f.triggers .overlay pts) &&
      !((f.sync.main.movedTo pts).holdsBack || (f.sync.overlay.movedTo pts).holdsBack)) := by
  rw [move_sync] at h
  obtain ⟨h, ho⟩ := Bool.or_eq_false_iff.1 h
  obtain ⟨_, hm⟩ := Bool.or_eq_false_iff.1 h
  have slot := shift_slot_of_ne f (i := .main) (j := .overlay) pts false (by decide)
  have ends : ((f.shift .main pts false).2.ends .overlay pts) = false := by
    simpa only [Flow.ends, slot] using ho
  have level : (f.shift .main pts false).2.sync.level = f.sync.level := by rw [shift_sync]; rfl
  have triggers :
      (f.shift .main pts false).2.triggers .overlay pts = f.triggers .overlay pts := by
    simp only [Flow.triggers, slot, level]
  have main := move_slot f pts .main
  have overlay := move_slot f pts .overlay
  show (((f.shift .main pts false).2.shift .overlay pts (f.shift .main pts false).1).1 &&
    !(((f.move pts).2.sync.slot .main).holdsBack ||
      ((f.move pts).2.sync.slot .overlay).holdsBack)) = _
  rw [shift_due _ ends, triggers, shift_due _ hm, main, overlay, Bool.false_or]
  rfl

/-! ### Rounds -/

/-- The move of a round in which nothing is missing. -/
@[irreducible] def moved (f : Flow α) : Bool × Flow α := f.fill.2.move f.fill.2.sync.nextTime

theorem moved_eq (f : Flow α) : f.moved = f.fill.2.move f.fill.2.sync.nextTime := by
  unfold moved
  rfl

section Rounds

variable {f : Flow α}

theorem round_of_missing (missing : f.fill.1 = true) : f.round = .waiting f.fill.2 := by
  unfold round
  simp only [missing, if_true]

theorem round_of_endless (filled : f.fill.1 = false)
    (none : f.fill.2.sync.nextTime = Timestamp.endless) :
    f.round = .settled false { f.fill.2 with sync := f.fill.2.sync.finish } := by
  unfold round
  simp only [filled, none, Bool.false_eq_true, if_false, if_true]

theorem round_of_over (filled : f.fill.1 = false)
    (ahead : f.fill.2.sync.nextTime ≠ Timestamp.endless)
    (finished : (f.moved.1 || f.moved.2.sync.eof) = true) :
    f.round = .settled f.moved.1 f.moved.2 := by
  rw [moved_eq] at finished ⊢
  unfold round
  simp only [filled, ahead, finished, Bool.false_eq_true, if_false, if_true]

theorem round_of_quiet (filled : f.fill.1 = false)
    (ahead : f.fill.2.sync.nextTime ≠ Timestamp.endless)
    (quiet : (f.moved.1 || f.moved.2.sync.eof) = false) : f.round = .again f.moved.2 := by
  rw [moved_eq] at quiet ⊢
  unfold round
  simp only [filled, ahead, quiet, Bool.false_eq_true, if_false]

theorem advance_of_eof (ended : f.sync.eof = true) : f.advance = (false, f) := by
  rw [advance, if_pos ended]

theorem advance_of_round (on : f.sync.eof = false) : f.advance =
    match f.round with
    | .waiting g => (false, g)
    | .settled due g => (due, g)
    | .again g => g.advance := by
  rw [advance, on, if_neg Bool.false_ne_true]
  split <;> simp_all

variable (on : f.sync.eof = false)
include on

theorem advance_of_missing (missing : f.fill.1 = true) : f.advance = (false, f.fill.2) := by
  rw [advance_of_round on, round_of_missing missing]

theorem advance_of_endless (filled : f.fill.1 = false)
    (none : f.fill.2.sync.nextTime = Timestamp.endless) :
    f.advance = (false, { f.fill.2 with sync := f.fill.2.sync.finish }) := by
  rw [advance_of_round on, round_of_endless filled none]

theorem advance_of_over (filled : f.fill.1 = false)
    (ahead : f.fill.2.sync.nextTime ≠ Timestamp.endless)
    (finished : (f.moved.1 || f.moved.2.sync.eof) = true) : f.advance = f.moved := by
  rw [advance_of_round on, round_of_over filled ahead finished]

theorem advance_of_quiet (filled : f.fill.1 = false)
    (ahead : f.fill.2.sync.nextTime ≠ Timestamp.endless)
    (quiet : (f.moved.1 || f.moved.2.sync.eof) = false) : f.advance = f.moved.2.advance := by
  rw [advance_of_round on, round_of_quiet filled ahead quiet]

/-! The journal of the same rounds. -/

theorem incidents_of_round : f.incidents = f.roundIncidents ++
    match f.round with
    | .again g => g.incidents
    | _ => [] := by
  rw [incidents, on, if_neg Bool.false_ne_true]
  congr 1
  split <;> simp_all

theorem incidents_of_missing (missing : f.fill.1 = true) : f.incidents = f.fillIncidents := by
  rw [incidents_of_round on, round_of_missing missing]
  simp [roundIncidents, missing]

theorem incidents_of_endless (filled : f.fill.1 = false)
    (none : f.fill.2.sync.nextTime = Timestamp.endless) : f.incidents = f.fillIncidents := by
  rw [incidents_of_round on, round_of_endless filled none]
  simp [roundIncidents, none]

theorem incidents_of_over (filled : f.fill.1 = false)
    (ahead : f.fill.2.sync.nextTime ≠ Timestamp.endless)
    (finished : (f.moved.1 || f.moved.2.sync.eof) = true) :
    f.incidents = f.fillIncidents ++ f.fill.2.moveIncidents f.fill.2.sync.nextTime := by
  rw [incidents_of_round on, round_of_over filled ahead finished]
  simp [roundIncidents, filled, ahead]

theorem incidents_of_quiet (filled : f.fill.1 = false)
    (ahead : f.fill.2.sync.nextTime ≠ Timestamp.endless)
    (quiet : (f.moved.1 || f.moved.2.sync.eof) = false) :
    f.incidents = f.fillIncidents ++ f.fill.2.moveIncidents f.fill.2.sync.nextTime ++
      f.moved.2.incidents := by
  rw [incidents_of_round on, round_of_quiet filled ahead quiet]
  simp [roundIncidents, filled, ahead]

end Rounds

theorem incidents_of_eof {f : Flow α} (ended : f.sync.eof = true) : f.incidents = [] := by
  rw [incidents, if_pos ended]

theorem work_moved_lt {f : Flow α} (ahead : f.fill.2.sync.nextTime ≠ Timestamp.endless) :
    f.moved.2.work < f.work := by
  rw [moved_eq]
  exact Nat.lt_of_lt_of_le (work_move_lt f.fill.2 ahead) (work_fill_le f)

/-- Induction over the rounds of an activation.  The output has ended, or an input has nothing
queued, or nothing that takes effect lies ahead, or there is a move, after which it goes on unless
the move made an event due or ended the output. -/
theorem rounds_induct {P : Flow α → Prop} (ended : ∀ f, f.sync.eof = true → P f)
    (missing : ∀ f, f.sync.eof = false → f.fill.1 = true → P f)
    (endless : ∀ f, f.sync.eof = false → f.fill.1 = false →
      f.fill.2.sync.nextTime = Timestamp.endless → P f)
    (move : ∀ f, f.sync.eof = false → f.fill.1 = false →
      f.fill.2.sync.nextTime ≠ Timestamp.endless →
      ((f.moved.1 || f.moved.2.sync.eof) = false → P f.moved.2) → P f) (f : Flow α) : P f := by
  induction h : f.work using Nat.strongRecOn generalizing f with
  | ind n ih =>
    subst h
    cases on : f.sync.eof with
    | false =>
      cases filled : f.fill.1 with
      | false =>
        by_cases ahead : f.fill.2.sync.nextTime = Timestamp.endless
        · exact endless f on filled ahead
        · exact move f on filled ahead fun _ => ih _ (work_moved_lt ahead) f.moved.2 rfl
      | true => exact missing f on filled
    | true => exact ended f on

/-- What looks and moves keep, and the end of the output does too, an activation keeps. -/
theorem advance_keeps {P : Flow α → Prop} (look : ∀ f i, P f → P (f.look i).2)
    (move : ∀ f pts, P f → P (f.move pts).2)
    (finish : ∀ f, P f → P { f with sync := f.sync.finish }) (f : Flow α) (h : P f) :
    P f.advance.2 := by
  have fill (f : Flow α) (h : P f) : P f.fill.2 := look _ .overlay (look f .main h)
  induction f using rounds_induct with
  | ended f ended =>
    rw [advance_of_eof ended]
    exact h
  | missing f on missing =>
    rw [advance_of_missing on missing]
    exact fill f h
  | endless f on filled none =>
    rw [advance_of_endless on filled none]
    exact finish _ (fill f h)
  | move f on filled ahead ih =>
    have moved : P f.moved.2 := by
      rw [moved_eq]
      exact move _ _ (fill f h)
    cases finished : f.moved.1 || f.moved.2.sync.eof with
    | false =>
      rw [advance_of_quiet on filled ahead finished]
      exact ih finished moved
    | true =>
      rw [advance_of_over on filled ahead finished]
      exact moved

/-- Rounds leave the time base and the number of events alone. -/
theorem advance_sync (f : Flow α) : f.advance.2.sync.timeBase = f.sync.timeBase ∧
    f.advance.2.sync.events = f.sync.events := by
  apply advance_keeps
    (P := fun g => g.sync.timeBase = f.sync.timeBase ∧ g.sync.events = f.sync.events)
  · intro g i h
    obtain ⟨_, timeBase, events⟩ := look_sync g i
    exact ⟨timeBase.trans h.1, events.trans h.2⟩
  · intro g pts h
    rw [move_sync]
    exact h
  · intro g h
    exact h
  · exact ⟨rfl, rfl⟩

theorem advance_timeBase (f : Flow α) : f.advance.2.sync.timeBase = f.sync.timeBase :=
  (advance_sync f).1

theorem advance_closes (f : Flow α) (i : InputRole) :
    (f.advance.2.queue i).closed = (f.queue i).closed := by
  apply advance_keeps (P := fun g => (g.queue i).closed = (f.queue i).closed)
  · intro g j h
    rw [look_closes]
    exact h
  · intro g pts h
    rw [move_queue]
    exact h
  · intro g h
    cases i <;> exact h
  · rfl

end Flow

/-! ### Giving out an event -/

namespace Synchronizer

variable {α : Type}

/-- Nothing ahead of an input is earlier than the next move. -/
theorem nextTime_le (s : Synchronizer α) (i : InputRole) : s.nextTime ≤ (s.slot i).nextTime := by
  cases i with
  | main => exact Timestamp.earlier_le_left s.main.nextTime s.overlay.nextTime
  | overlay => exact Timestamp.earlier_le_right s.main.nextTime s.overlay.nextTime

/-- The event that is given out with a main frame. -/
def eventWith (s : Synchronizer α) (base : TimeBase) (frame : Stamped α) : SyncEvent α where
  main := { frame with pts := Timestamp.toOption s.pts }
  overlay := s.overlay.current?
  pts := s.pts
  timeBase := base
  index := s.events
  mainKept := s.keepsMain

/-- What remains once an event has been given out. -/
def afterEvent (s : Synchronizer α) : Synchronizer α where
  main := if s.keepsMain then s.main else s.main.takeCurrent
  overlay := s.overlay
  options := s.options
  timeBase := s.timeBase
  pts := s.pts
  level := s.level
  eof := s.eof
  events := s.events + 1

theorem fire_of_frame {s : Synchronizer α} {frame : Stamped α} (h : s.main.current? = some frame)
    (base : TimeBase) : s.fire base = (.event (s.eventWith base frame), s.afterEvent) := by
  unfold fire afterEvent
  rw [h]
  rcases hk : s.keepsMain <;> simp [eventWith, hk]

theorem afterEvent_main (s : Synchronizer α) :
    s.afterEvent.main = s.main ∨ s.afterEvent.main = s.main.takeCurrent := by
  unfold afterEvent
  rcases s.keepsMain
  · exact .inr rfl
  · exact .inl rfl

/-- What handing out the current frame leaves alone in a slot, an event leaves alone. -/
theorem afterEvent_keeps {β : Type} (s : Synchronizer α) (g : Slot α → β)
    (same : g s.main.takeCurrent = g s.main) : g s.afterEvent.main = g s.main := by
  rcases s.afterEvent_main with main | main
  · rw [main]
  · rw [main, same]

theorem afterEvent_main_state (s : Synchronizer α) : s.afterEvent.main.state = s.main.state :=
  s.afterEvent_keeps Slot.state (Slot.takeCurrent_state _)

theorem afterEvent_main_next (s : Synchronizer α) : s.afterEvent.main.next = s.main.next :=
  s.afterEvent_keeps Slot.next (Slot.takeCurrent_next _)

/-- The current main frame stays, or none is left. -/
theorem afterEvent_current {s : Synchronizer α} {x : Stamped α}
    (h : s.afterEvent.main.current? = some x) : s.main.current? = some x := by
  rcases s.afterEvent_main with main | main
  · rwa [main] at h
  · rw [main, Slot.takeCurrent_current?] at h
    exact nomatch h

theorem keepsMain_eq_false_iff {s : Synchronizer α} : s.keepsMain = false ↔ s.overlay.level = 0 ∨
    (s.overlay.next.isKnown = true ∧ ¬s.overlay.next.pts < s.main.nextTime) := by
  by_cases level : s.overlay.level = 0 <;> simp [keepsMain, level]

/-! ### Configuration -/

/-- A synchronizer that has just been configured with normalized options. -/
def configured (options : SyncOptions) (mainBase overlayBase base : TimeBase) :
    Synchronizer α where
  main := (slotsFor options mainBase overlayBase).1
  overlay := (slotsFor options mainBase overlayBase).2
  options := options
  timeBase := some base
  pts := Timestamp.unset
  level := some 2
  eof := false
  events := 0

/-- A configuration that is accepted leaves nothing of the state before it. -/
theorem configure_ok {s s' : Synchronizer α} {options : SyncOptions}
    {mainBase overlayBase base : TimeBase} {explicit : Option TimeBase}
    (h : s.configure options mainBase overlayBase explicit = .ok (base, s')) :
    commonBase (α := α) (slotsFor options.normalized mainBase overlayBase) explicit = .ok base ∧
      s' = configured options.normalized mainBase overlayBase base := by
  unfold configure at h
  split at h
  · exact nomatch h
  dsimp only at h
  split at h
  · exact nomatch h
  · next base' common =>
    obtain ⟨rfl, rfl⟩ := Prod.mk.inj (Except.ok.inj h)
    refine ⟨common, ?_⟩
    rcases options.normalized with ⟨action, shortest, repeatLast⟩
    rcases shortest <;> rcases repeatLast <;> rfl

/-- A configuration with valid time bases is accepted. -/
theorem configure_valid (s : Synchronizer α) (options : SyncOptions)
    {mainBase overlayBase : TimeBase} {explicit : Option TimeBase} (main : mainBase.Valid)
    (overlay : overlayBase.Valid) (asked : ∀ b ∈ explicit, b.Valid) :
    ∃ base, s.configure options mainBase overlayBase explicit =
      .ok (base, configured options.normalized mainBase overlayBase base) := by
  have valid : firstInvalid? (mainBase :: overlayBase :: explicit.toList) = none := by
    unfold firstInvalid?
    rw [List.find?_eq_none]
    intro b hb
    have : b.Valid := by
      rcases List.mem_cons.1 hb with rfl | hb
      · exact main
      · rcases List.mem_cons.1 hb with rfl | hb
        · exact overlay
        · exact asked b (Option.mem_toList.1 hb)
    simp [this]
  have common : ∃ base, commonBase (α := α) (slotsFor options.normalized mainBase overlayBase)
      explicit = .ok base := by
    rcases explicit with _ | base
    · obtain ⟨both, merged⟩ := TimeBase.merge_pair (b := overlayBase) main.2
      have pacing : TimeBase.merge (([(slotsFor (α := α) options.normalized mainBase overlayBase).1,
          (slotsFor options.normalized mainBase overlayBase).2].filter fun s => s.level > 0).map
            Slot.timeBase) = .ok (if options.normalized.repeatLast then both else mainBase) := by
        rcases options.normalized with ⟨action, shortest, repeatLast⟩
        cases repeatLast with
        | false => cases shortest <;> rfl
        | true => cases shortest <;> exact merged
      unfold commonBase
      dsimp only
      rw [pacing]
      exact ⟨_, rfl⟩
    · exact ⟨base, rfl⟩
  obtain ⟨base, common⟩ := common
  refine ⟨base, ?_⟩
  rcases accepted : s.configure options mainBase overlayBase explicit with e | ⟨base', s'⟩
  · unfold configure at accepted
    rw [valid] at accepted
    dsimp only at accepted
    rw [common] at accepted
    exact nomatch accepted
  · obtain ⟨common', same⟩ := configure_ok accepted
    obtain rfl := Except.ok.inj (common'.symm.trans common)
    rw [same]

end Synchronizer

/-! ### Activations -/

namespace Junction

variable {α : Type}

/-- What an activation comes to after its rounds. -/
def conclude (base : TimeBase) (r : Bool × Flow α) : Outcome α × Junction α :=
  if r.2.sync.eof then
    (.ended, r.2.junction)
  else if r.1 then
    ((r.2.sync.fire base).1, { r.2.junction with sync := (r.2.sync.fire base).2 })
  else
    (.needInput, r.2.junction)

theorem next_eq {j : Junction α} {base : TimeBase} (some : j.sync.timeBase = some base) :
    j.next = conclude base j.flow.advance := by
  unfold next Synchronizer.activate conclude flow
  rw [some]
  dsimp only
  generalize Flow.advance ⟨j.sync, j.main, j.overlay, []⟩ = r
  rcases r.2.sync.eof
  · rcases r.1 <;> rfl
  · rfl

theorem next_of_unconfigured {j : Junction α} (none : j.sync.timeBase = none) :
    j.next = (.unconfigured, j) := by
  unfold next Synchronizer.activate
  rw [none]
  rfl

theorem conclude_of_eof (base : TimeBase) {r : Bool × Flow α} (ended : r.2.sync.eof = true) :
    conclude base r = (.ended, r.2.junction) := by
  unfold conclude
  rw [if_pos ended]

theorem conclude_of_due (base : TimeBase) {r : Bool × Flow α} (on : r.2.sync.eof = false)
    (due : r.1 = true) : conclude base r =
      ((r.2.sync.fire base).1, { r.2.junction with sync := (r.2.sync.fire base).2 }) := by
  unfold conclude
  rw [on, due]
  rfl

theorem conclude_of_idle (base : TimeBase) {r : Bool × Flow α} (on : r.2.sync.eof = false)
    (idle : r.1 = false) : conclude base r = (.needInput, r.2.junction) := by
  unfold conclude
  rw [on, idle]
  rfl

end Junction

end FrameOverlay
