import FrameOverlay.Proofs.Sync.Ledger
import FrameOverlay.Sync.Course
import Mathlib.Data.List.Chain
import Mathlib.Data.List.Flatten
import Mathlib.Data.List.TakeWhile

/-!
# The stages of a slot

A slot waits for its first frame, runs, and runs out of frames; it goes through these stages in order,
one at a time.  This holds of every state that an activation passes through, also of those behind an
end that a look has brought about, up to which the round is carried through.

* `Synchronizer.Staged` — **the invariant**, of outputs that go on and of outputs that have ended;
* `Staged.look`, `Staged.shift`, `Staged.afterEvent` — **every step keeps it**;
* `Synchronizer.Regular` — what the invariant says about the frames that a slot holds;
* `Synchronizer.Proceeds` — what a step does to the stages of both slots;
* `Synchronizer.Passes` — a course of such steps, with `Flow.passes_course` for the rounds of an
  activation and `Junction.passes_courseOf` for a schedule;
* `Sealed` — an input that has ended is not asked again;
* `Incident.Trailing` — what an activation may still do once the output has ended, and
  `Junction.trailing_way`, that it does no more;
* `Junction.run_staged` — **the stages of both slots over a whole run**;
* `Junction.round_outlasts_end` — an activation that asks and moves once the output has ended.
-/

namespace FrameOverlay

variable {α : Type}

/-! ### One slot -/

namespace Slot

variable {s : Slot α} {full : Nat} {pts : Timestamp}

/-- What a move to an instant makes of a slot that does not want to look ahead: it stays, or a frame
becomes current, or it runs out of frames, which it does not if its last frame extends without bound. -/
theorem movedTo_cases (paced : s.Paced full) (content : s.wants = false) (before : s.before ≠ .infinity)
    (ahead : pts ≠ Timestamp.endless) :
    (s.movedTo pts).state = s.state ∨
    (s.state ≠ .exhausted ∧ (s.movedTo pts).state = .running) ∨
    (s.state = .running ∧ (s.movedTo pts).state = .exhausted ∧ s.after ≠ .infinity ∧
      s.moves pts = true ∧ ∀ x, s.next ≠ .frame x) := by
  cases moves : s.moves pts with
  | false =>
    rw [movedTo_of_stays moves]
    exact .inl rfl
  | true =>
    rw [movedTo_of_moves moves]
    rcases content_cases content with gone | ⟨on, x, next⟩ | ⟨_, e, next⟩
    · rw [promote_of_not_frame (by simp [next_of_exhausted gone]), gone]
      exact .inl rfl
    · rw [promote_of_frame next]
      exact .inr (.inl ⟨on, rfl⟩)
    · have time : s.endTime = pts := by
        rw [← paced.ends e next, ← (moves_iff before).1 moves, next]
        rfl
      obtain ⟨limited, stamp, running, -⟩ := endTime_finite time ahead
      have running : s.state = .running := by
        have isSome := s.stamp?_isSome
        rw [running] at isSome
        exact eq_of_beq isSome.symm
      have bare : ∀ x, s.next ≠ .frame x := by simp [next]
      rw [promote_of_not_frame bare]
      exact .inr (.inr ⟨running, rfl, limited, rfl, bare⟩)

theorem movedTo_step (paced : s.Paced full) (content : s.wants = false) (before : s.before ≠ .infinity)
    (ahead : pts ≠ Timestamp.endless) : s.state.Step (s.movedTo pts).state := by
  rcases movedTo_cases paced content before ahead with same | ⟨on, runs⟩ | ⟨runs, gone, -⟩
  · rw [same]
    exact .stay _
  · rw [runs]
    cases state : s.state with
    | awaitingFirst => exact .start
    | running => exact .stay _
    | exhausted => exact absurd state on
  · rw [runs, gone]
    exact .stop

/-- Once the end of an input is known, it stays known. -/
theorem endSeen_movedTo (h : s.endSeen = true) : (s.movedTo pts).endSeen = true := by
  cases moves : s.moves pts with
  | false => rwa [movedTo_of_stays moves]
  | true =>
    rw [movedTo_of_moves moves]
    refine endSeen_of_exhausted ?_
    rw [promote_of_not_frame]
    · rfl
    · intro x next
      exact nomatch (endSeen_of_frame next).symm.trans h

end Slot

/-- A policy without overlaps that repeats the last frame leaves both inputs to go on. -/
theorem SyncOptions.repeating {o : SyncOptions} (normal : o.normalized = o)
    (repeats : o.eofAction = .repeatLast) : o.shortest = false ∧ o.repeatLast = true := by
  rcases o with ⟨action, shortest, repeatLast⟩
  obtain rfl : action = .repeatLast := repeats
  cases shortest <;> cases repeatLast <;> revert normal <;> decide

namespace Synchronizer

/-! ### The invariant -/

/-- What holds of a synchronizer in every state.  A slot that has run out of frames is one whose last
frame does not extend without bound, and a main slot that has done so has ended the output. -/
structure Staged (s : Synchronizer α) : Prop extends Follows s where
  normal : s.options.normalized = s.options
  main_paced : s.main.Paced 2
  overlay_paced : s.overlay.Paced s.options.overlayLevel
  limited : ∀ i, (s.slot i).state = .exhausted → (s.slot i).after ≠ .infinity
  main_spent : s.main.state = .exhausted → s.eof = true

/-- The pace of each slot. -/
theorem Staged.paced {s : Synchronizer α} (h : s.Staged) (i : InputRole) :
    ∃ full, (s.slot i).Paced full := by
  cases i with
  | main => exact ⟨2, h.main_paced⟩
  | overlay => exact ⟨_, h.overlay_paced⟩

/-- From one state to another no slot goes back or leaves out a stage, an output that has ended stays so,
and the policy stays. -/
structure Proceeds (s t : Synchronizer α) : Prop where
  slots : ∀ i, (s.slot i).state.Step (t.slot i).state
  ended : s.eof = true → t.eof = true
  options : t.options = s.options

/-- An output that has ended and slots that have run out of frames stay so. -/
structure Lasts (s t : Synchronizer α) : Prop where
  ended : s.eof = true → t.eof = true
  spent : ∀ i, (s.slot i).state = .exhausted → (t.slot i).state = .exhausted

instance : Trans (Lasts (α := α)) Lasts Lasts where
  trans h h' := ⟨h'.ended ∘ h.ended, fun i => h'.spent i ∘ h.spent i⟩

/-- States that differ in no stage. -/
theorem Proceeds.of_same {s t : Synchronizer α} (slots : ∀ i, (t.slot i).state = (s.slot i).state)
    (ended : s.eof = true → t.eof = true) (options : t.options = s.options) : s.Proceeds t where
  slots i := by
    rw [slots i]
    exact .stay _
  ended := ended
  options := options

namespace Staged

variable {f : Flow α}

theorem look (h : f.sync.Staged) (i : InputRole) : (f.look i).2.sync.Staged := by
  obtain ⟨mainBefore, mainAfter, mainState, -⟩ := Flow.look_slot f i .main
  obtain ⟨overlayBefore, overlayAfter, -⟩ := Flow.look_slot f i .overlay
  have options := (Flow.look_sync f i).1
  exact
    { main_before := mainBefore.trans h.main_before
      main_after := by rw [options]; exact mainAfter.trans h.main_after
      overlay_before := overlayBefore.trans h.overlay_before
      overlay_after := by rw [options]; exact overlayAfter.trans h.overlay_after
      normal := by rw [options]; exact h.normal
      main_paced := Flow.look_paced (k := .main) h.main_paced i
      overlay_paced := by rw [options]; exact Flow.look_paced (k := .overlay) h.overlay_paced i
      limited := by
        intro k gone
        obtain ⟨-, after, state, -⟩ := Flow.look_slot f i k
        rw [after]
        exact h.limited k (state.symm.trans gone)
      main_spent := fun gone => Flow.look_eof i (h.main_spent (mainState.symm.trans gone)) }

theorem proceeds_look (f : Flow α) (i : InputRole) : f.sync.Proceeds (f.look i).2.sync :=
  .of_same (fun k => (Flow.look_slot f i k).2.2.1) (Flow.look_eof i) (Flow.look_sync f i).1

/-- What concerns neither slots nor policy, and takes back no end of the output. -/
theorem of_same {s t : Synchronizer α} (h : s.Staged) (main : t.main = s.main)
    (overlay : t.overlay = s.overlay) (options : t.options = s.options)
    (ended : s.eof = true → t.eof = true) : t.Staged where
  main_before := by rw [main]; exact h.main_before
  main_after := by rw [main, options]; exact h.main_after
  overlay_before := by rw [overlay]; exact h.overlay_before
  overlay_after := by rw [overlay, options]; exact h.overlay_after
  normal := by rw [options]; exact h.normal
  main_paced := by rw [main]; exact h.main_paced
  overlay_paced := by rw [overlay, options]; exact h.overlay_paced
  limited i := by
    cases i with
    | main =>
      show t.main.state = _ → t.main.after ≠ _
      rw [main]
      exact h.limited .main
    | overlay =>
      show t.overlay.state = _ → t.overlay.after ≠ _
      rw [overlay]
      exact h.limited .overlay
  main_spent gone := ended (h.main_spent (by rwa [main] at gone))

section Shift

variable (h : f.sync.Staged) {i : InputRole} (content : (f.sync.slot i).wants = false)
  {pts : Timestamp} (ahead : pts ≠ Timestamp.endless) (due : Bool)
include h content ahead

/-- An input's part in a move to an instant keeps the stages in order. -/
theorem shift : (f.shift i pts due).2.sync.Staged := by
  obtain ⟨full, paced⟩ := h.paced i
  have cases := Slot.movedTo_cases paced content (h.before_ne i) ahead
  have sync := f.shift_sync i pts due
  rw [sync]
  have limited : ((f.sync.slot i).movedTo pts).state = .exhausted →
      (f.sync.slot i).after ≠ .infinity := by
    intro gone
    rcases cases with same | ⟨-, runs⟩ | ⟨-, -, limited, -⟩
    · exact h.limited i (same.symm.trans gone)
    · exact nomatch runs.symm.trans gone
    · exact limited
  cases i with
  | main =>
    exact
      { main_before := (Slot.movedTo_before _ _).trans h.main_before
        main_after := (Slot.movedTo_after _ _).trans h.main_after
        overlay_before := h.overlay_before
        overlay_after := h.overlay_after
        normal := h.normal
        main_paced := h.main_paced.movedTo content pts
        overlay_paced := h.overlay_paced
        limited := by
          intro k gone
          cases k with
          | main =>
            show (f.sync.main.movedTo pts).after ≠ _
            rw [Slot.movedTo_after]
            exact limited gone
          | overlay => exact h.limited .overlay gone
        main_spent := by
          intro gone
          show (f.sync.eof || f.ends .main pts) = true
          rcases cases with same | ⟨-, runs⟩ | ⟨-, -, limited, moves, bare⟩
          · rw [h.main_spent (same.symm.trans gone), Bool.true_or]
          · exact nomatch runs.symm.trans gone
          · have stop : f.sync.main.after = .stop := by
              have after := h.main_after
              have null := SyncOptions.mainAfter_ne_null f.sync.options
              rw [← after] at null
              cases mode : f.sync.main.after with
              | stop => rfl
              | null => exact absurd mode null
              | infinity => exact absurd mode limited
            rw [Flow.ends_iff.2 ⟨moves, bare, stop⟩, Bool.or_true] }
  | overlay =>
    exact
      { main_before := h.main_before
        main_after := h.main_after
        overlay_before := (Slot.movedTo_before _ _).trans h.overlay_before
        overlay_after := (Slot.movedTo_after _ _).trans h.overlay_after
        normal := h.normal
        main_paced := h.main_paced
        overlay_paced := h.overlay_paced.movedTo content pts
        limited := by
          intro k gone
          cases k with
          | main => exact h.limited .main gone
          | overlay =>
            show (f.sync.overlay.movedTo pts).after ≠ _
            rw [Slot.movedTo_after]
            exact limited gone
        main_spent := by
          intro gone
          show (f.sync.eof || f.ends .overlay pts) = true
          rw [h.main_spent gone, Bool.true_or] }

theorem proceeds_shift : f.sync.Proceeds (f.shift i pts due).2.sync where
  slots k := by
    by_cases same : k = i
    · subst same
      obtain ⟨full, paced⟩ := h.paced k
      rw [Flow.shift_slot_self]
      exact Slot.movedTo_step paced content (h.before_ne k) ahead
    · rw [Flow.shift_slot_of_ne f pts due same]
      exact .stay _
  ended on := by
    rw [f.shift_sync]
    show (f.sync.eof || f.ends i pts) = true
    rw [on, Bool.true_or]
  options := by
    rw [f.shift_sync]
    cases i <;> rfl

end Shift

/-- A synchronizer that has just been configured has both slots at their first stage. -/
theorem of_steady {s : Synchronizer α} (h : s.Steady) (normal : s.options.normalized = s.options)
    (fresh : ∀ i, (s.slot i).state = .awaitingFirst) : s.Staged where
  toFollows := h.toFollows
  normal := normal
  main_paced := h.main_paced
  overlay_paced := h.overlay_paced
  limited i gone := nomatch (fresh i).symm.trans gone
  main_spent gone := nomatch (fresh .main).symm.trans gone

theorem afterEvent {s : Synchronizer α} (h : s.Staged) : s.afterEvent.Staged where
  main_before := (s.afterEvent_keeps Slot.before rfl).trans h.main_before
  main_after := (s.afterEvent_keeps Slot.after rfl).trans h.main_after
  overlay_before := h.overlay_before
  overlay_after := h.overlay_after
  normal := h.normal
  main_paced := by
    rcases s.afterEvent_main with same | taken
    · rw [same]
      exact h.main_paced
    · rw [taken]
      exact h.main_paced.takeCurrent
  overlay_paced := h.overlay_paced
  limited i gone := by
    cases i with
    | main =>
      show s.afterEvent.main.after ≠ _
      rw [s.afterEvent_keeps Slot.after rfl]
      exact h.limited .main (s.afterEvent_main_state.symm.trans gone)
    | overlay => exact h.limited .overlay gone
  main_spent gone := h.main_spent (s.afterEvent_main_state.symm.trans gone)

theorem configured (options : SyncOptions) (mainBase overlayBase base : TimeBase) :
    (Synchronizer.configured options.normalized mainBase overlayBase base :
      Synchronizer α).Staged := by
  refine of_steady (.configured _ mainBase overlayBase base) options.normalized_normalized ?_
  generalize options.normalized = options
  intro i
  rcases options with ⟨action, shortest, repeatLast⟩
  cases shortest <;> cases repeatLast <;> cases i <;> rfl

theorem new : (Synchronizer.new : Synchronizer α).Staged :=
  (configured {} .micros .micros .micros).of_same rfl rfl rfl fun ended => nomatch ended

end Staged

/-! ### What a state holds -/

/-- A slot that does not know what lies ahead holds no frame there.  A slot that has run out of frames
holds none at all; if it is the main slot, the output has ended.  Under the policy that repeats the last
frame no slot runs out of frames. -/
structure Regular (s : Synchronizer α) : Prop where
  ahead : ∀ i, (s.slot i).next.isKnown = false → (s.slot i).next.frame? = none
  spent : ∀ i, (s.slot i).state = .exhausted →
    (s.slot i).current? = none ∧ (s.slot i).next.frame? = none
  main_spent : s.main.state = .exhausted → s.eof = true
  repeating : s.options.eofAction = .repeatLast → ∀ i, (s.slot i).state ≠ .exhausted

theorem Staged.regular {s : Synchronizer α} (h : s.Staged) : s.Regular where
  ahead i unknown := by
    cases next : (s.slot i).next with
    | unknown => rfl
    | frame x => exact nomatch (next ▸ unknown : (Lookahead.frame x).isKnown = false)
    | ended e => rfl
  spent i gone := by
    refine ⟨?_, by rw [Slot.next_of_exhausted gone]; rfl⟩
    unfold Slot.state at gone
    unfold Slot.current?
    split at gone <;> simp_all
  main_spent := h.main_spent
  repeating repeats i gone := by
    obtain ⟨limited, again⟩ := SyncOptions.repeating h.normal repeats
    refine h.limited i gone ?_
    cases i with
    | main => exact h.main_after.trans (by simp [SyncOptions.mainAfter, limited])
    | overlay => exact h.overlay_after.trans (by simp [SyncOptions.overlayAfter, limited, again])

/-! ### Courses -/

/-- From one state through a course of states to another, each step of which keeps the stages in
order. -/
structure Passes (s : Synchronizer α) (course : List (Synchronizer α)) (t : Synchronizer α) : Prop where
  chain : (s :: course).IsChain Proceeds
  last : (s :: course).getLast? = some t
  staged : ∀ u ∈ course, u.Staged

namespace Passes

variable {s t u : Synchronizer α} {course course' : List (Synchronizer α)}

theorem refl (s : Synchronizer α) : s.Passes [] s := ⟨.singleton s, rfl, fun _ h => nomatch h⟩

/-- One step comes before a course. -/
theorem cons (first : s.Proceeds t) (staged : t.Staged) (h : t.Passes course u) :
    s.Passes (t :: course) u where
  chain := .cons_cons first h.chain
  last := by rw [List.getLast?_cons_cons, h.last]
  staged := by
    intro v hv
    rcases List.mem_cons.1 hv with rfl | later
    · exact staged
    · exact h.staged v later

theorem one (step : s.Proceeds t) (staged : t.Staged) : s.Passes [t] t := cons step staged (refl t)

/-- The first step of a course, and what comes after it. -/
theorem uncons (h : s.Passes (u :: course) t) : s.Proceeds u ∧ u.Staged ∧ u.Passes course t :=
  have ⟨first, chain⟩ := List.isChain_cons_cons.1 h.chain
  ⟨first, h.staged u List.mem_cons_self, chain, by rw [← h.last, List.getLast?_cons_cons],
    fun v hv => h.staged v (List.mem_cons_of_mem _ hv)⟩

theorem trans (h : s.Passes course t) (h' : t.Passes course' u) : s.Passes (course ++ course') u := by
  induction course generalizing s with
  | nil =>
    obtain rfl := Option.some.inj h.last
    exact h'
  | cons v rest ih =>
    obtain ⟨first, staged, rest⟩ := h.uncons
    exact cons first staged (ih rest)

/-- The last state is in order if the first one is. -/
theorem staged_last (h : s.Passes course t) (start : s.Staged) : t.Staged := by
  have member := List.mem_of_getLast? h.last
  rcases List.mem_cons.1 member with rfl | later
  · exact start
  · exact h.staged t later

/-- An output that has ended along the way is still over at the end. -/
theorem ended (h : s.Passes course t) (finished : ∃ u ∈ s :: course, u.eof = true) : t.eof = true := by
  induction course generalizing s with
  | nil =>
    obtain rfl := Option.some.inj h.last
    obtain ⟨u, hu, ended⟩ := finished
    rwa [List.mem_singleton.1 hu] at ended
  | cons v rest ih =>
    obtain ⟨first, -, rest⟩ := h.uncons
    refine ih rest ?_
    obtain ⟨u, hu, ended⟩ := finished
    rcases List.mem_cons.1 hu with rfl | later
    · exact ⟨v, List.mem_cons_self, first.ended ended⟩
    · exact ⟨u, later, ended⟩

/-- What has run out or ended along the way stays so. -/
theorem lasting (h : s.Passes course t) : (s :: course).Pairwise Lasts := by
  refine List.IsChain.pairwise (h.chain.imp ?_)
  intro u v first
  refine ⟨first.ended, fun i gone => ?_⟩
  have step := first.slots i
  rw [gone] at step
  generalize (v.slot i).state = state at step
  cases step
  rfl

end Passes

end Synchronizer

open Synchronizer

/-! ### Activations -/

namespace Flow

section Course

variable {f : Flow α}

theorem course_of_eof (ended : f.sync.eof = true) : f.course = [] := by
  rw [course, if_pos ended]

theorem course_of_on (on : f.sync.eof = false) : f.course = f.roundCourse ++
    match f.round with
    | .again g => g.course
    | _ => [] := by
  rw [course, on, if_neg Bool.false_ne_true]
  congr 1
  split <;> simp_all

/-- The looks of a round. -/
theorem passes_fill (h : f.sync.Staged) :
    f.sync.Passes [(f.look .main).2.sync, f.fill.2.sync] f.fill.2.sync :=
  .cons (Staged.proceeds_look f .main) (h.look .main)
    (.one (Staged.proceeds_look _ .overlay) ((h.look .main).look .overlay))

/-- The move of a round. -/
theorem passes_move (h : f.sync.Staged) (content : ∀ i, (f.sync.slot i).wants = false)
    {pts : Timestamp} (ahead : pts ≠ Timestamp.endless) :
    f.sync.Passes [(f.shift .main pts false).2.sync, (f.move pts).2.sync] (f.move pts).2.sync := by
  have placed : (f.move pts).2 = ((f.shift .main pts false).2.shift .overlay pts
      (f.shift .main pts false).1).2.putPts pts := rfl
  have first := h.shift (content .main) ahead false
  have still : ((f.shift .main pts false).2.sync.slot .overlay).wants = false := by
    rw [shift_slot_of_ne f pts false (by decide)]
    exact content .overlay
  refine .cons (Staged.proceeds_shift h (content .main) ahead false) first (.one ?_ ?_)
  · have second := Staged.proceeds_shift first still ahead (f.shift .main pts false).1
    rw [placed]
    generalize (Flow.shift _ .overlay pts _).2 = g at second
    exact ⟨fun i => by cases i <;> exact second.slots _, second.ended, second.options⟩
  · have second := first.shift still ahead (f.shift .main pts false).1
    rw [placed]
    generalize (Flow.shift _ .overlay pts _).2 = g at second
    exact second.of_same rfl rfl rfl id

/-- A round that moves. -/
theorem passes_round (h : f.sync.Staged) (filled : f.fill.1 = false)
    (ahead : f.fill.2.sync.nextTime ≠ Timestamp.endless) :
    f.sync.Passes f.roundCourse f.moved.2.sync := by
  have looked := passes_fill h
  have moved := passes_move (looked.staged_last h) (fill_content filled) ahead
  have states : f.roundCourse = [(f.look .main).2.sync, f.fill.2.sync] ++
      [(f.fill.2.shift .main f.fill.2.sync.nextTime false).2.sync,
        (f.fill.2.move f.fill.2.sync.nextTime).2.sync] := by
    simp only [roundCourse, filled, ahead, Bool.false_eq_true, if_false]
    rfl
  rw [states, moved_eq]
  exact looked.trans moved

/-- The rounds of an activation keep the stages of both slots in order. -/
theorem passes_course (f : Flow α) (h : f.sync.Staged) : f.sync.Passes f.course f.advance.2.sync := by
  induction f using rounds_induct with
  | ended f ended =>
    rw [advance_of_eof ended, course_of_eof ended]
    exact .refl _
  | missing f on missing =>
    rw [advance_of_missing on missing, course_of_on on, round_of_missing missing]
    simp only [roundCourse, missing, if_true, List.append_nil]
    exact passes_fill h
  | endless f on filled none =>
    rw [advance_of_endless on filled none, course_of_on on, round_of_endless filled none]
    simp only [roundCourse, filled, none, Bool.false_eq_true, if_false, if_true, List.append_nil]
    have looked := passes_fill h
    have finished : f.fill.2.sync.Passes [f.fill.2.sync.finish] f.fill.2.sync.finish :=
      .one (.of_same (fun i => by cases i <;> rfl) (fun _ => rfl) rfl)
        ((looked.staged_last h).of_same rfl rfl rfl fun _ => rfl)
    exact looked.trans finished
  | move f on filled ahead ih =>
    have round := passes_round h filled ahead
    rw [course_of_on on]
    cases finished : f.moved.1 || f.moved.2.sync.eof with
    | false =>
      rw [advance_of_quiet on filled ahead finished, round_of_quiet filled ahead finished]
      exact round.trans (ih finished (round.staged_last h))
    | true =>
      rw [advance_of_over on filled ahead finished, round_of_over filled ahead finished]
      exact round.trans (.refl _)

end Course

end Flow

/-! ### Behind the end of the output -/

/-- What an activation may still do once the output has ended: ask the overlay, and carry out both parts of
a move. -/
def Incident.Trailing (J : List (Incident α)) : Prop :=
  ∃ answer main overlay,
    J.Sublist [.polled .overlay answer, .moved .main main, .moved .overlay overlay]

theorem Incident.Trailing.nil : Incident.Trailing ([] : List (Incident α)) :=
  ⟨.empty, none, none, List.nil_sublist _⟩

namespace Flow

variable {f : Flow α}

theorem way_of_eof (ended : f.sync.eof = true) : f.way = [] := by
  rw [way, if_pos ended]

theorem way_of_on (on : f.sync.eof = false) : f.way = f.roundWay ++
    match f.round with
    | .again g => g.way
    | _ => [] := by
  rw [way, on, if_neg Bool.false_ne_true]
  congr 1
  split <;> simp_all

theorem roundWay_states (f : Flow α) : f.roundWay.map Waypoint.state = f.roundCourse := by
  unfold roundWay roundCourse
  dsimp only [List.map_cons]
  split
  · rfl
  split
  · rfl
  · rfl

theorem roundWay_incidents (f : Flow α) :
    f.roundWay.flatMap Waypoint.incidents = f.roundIncidents := by
  unfold roundWay roundIncidents fillIncidents moveIncidents
  by_cases missing : f.fill.1 = true
  · simp [missing]
  · by_cases none : f.fill.2.sync.nextTime = Timestamp.endless
    · simp [none]
    · simp [missing, none]

/-- The way of an activation passes through the states of its course. -/
theorem way_states (f : Flow α) : f.way.map Waypoint.state = f.course := by
  induction f using way.induct with
  | case1 f ended => rw [way_of_eof ended, course_of_eof ended, List.map_nil]
  | case2 f on ih =>
    have on := Bool.eq_false_iff.2 on
    rw [way_of_on on, course_of_on on, List.map_append, roundWay_states]
    cases again : f.round with
    | again g => exact congrArg _ (ih g again)
    | waiting => rfl
    | settled => rfl

/-- What happens on the way of an activation is its journal. -/
theorem way_incidents (f : Flow α) : f.way.flatMap Waypoint.incidents = f.incidents := by
  induction f using way.induct with
  | case1 f ended => rw [way_of_eof ended, incidents_of_eof ended, List.flatMap_nil]
  | case2 f on ih =>
    have on := Bool.eq_false_iff.2 on
    rw [way_of_on on, incidents_of_round on, List.flatMap_append, roundWay_incidents]
    cases again : f.round with
    | again g => exact congrArg _ (ih g again)
    | waiting => rfl
    | settled => rfl

theorem lookIncidents_sublist (f : Flow α) (i : InputRole) :
    (f.lookIncidents i).Sublist [.polled i (f.queue i).consume.1] := by
  unfold lookIncidents
  split
  · exact .refl _
  · exact List.nil_sublist _

theorem shiftIncidents_sublist (f : Flow α) (i : InputRole) (pts : Timestamp) :
    (f.shiftIncidents i pts).Sublist [.moved i (f.sync.slot i).promote.current?] := by
  unfold shiftIncidents
  split
  · exact .refl _
  · exact List.nil_sublist _

/-- An end within a round is at its first look at the earliest. -/
theorem trailing_round (f : Flow α) : Incident.Trailing (Waypoint.behindEnd f.roundWay) := by
  have behind : (Waypoint.behindEnd f.roundWay).Sublist
      (f.roundWay.tail.flatMap Waypoint.incidents) :=
    (List.dropWhile_sublist _).tail.flatMap _
  have asked := (f.look .main).2.lookIncidents_sublist .overlay
  refine ⟨((f.look .main).2.queue .overlay).consume.1, (f.fill.2.sync.slot .main).promote.current?,
    (f.fill.2.sync.slot .overlay).promote.current?, behind.trans ?_⟩
  unfold roundWay
  dsimp only [List.tail_cons, List.flatMap_cons]
  refine asked.append ?_
  split
  · exact List.nil_sublist _
  split
  · exact List.nil_sublist _
  · have first := f.fill.2.shiftIncidents_sublist .main f.fill.2.sync.nextTime
    have second := f.fill.2.shiftIncidents_sublist .overlay f.fill.2.sync.nextTime
    simpa using first.append second

theorem trailing_way (f : Flow α) (h : f.sync.Staged) :
    Incident.Trailing (Waypoint.behindEnd f.way) := by
  induction f using rounds_induct with
  | ended f ended =>
    rw [way_of_eof ended]
    exact .nil
  | missing f on missing =>
    rw [way_of_on on, round_of_missing missing, List.append_nil]
    exact trailing_round f
  | endless f on filled none =>
    rw [way_of_on on, round_of_endless filled none, List.append_nil]
    exact trailing_round f
  | move f on filled ahead ih =>
    rw [way_of_on on]
    cases finished : f.moved.1 || f.moved.2.sync.eof with
    | true =>
      rw [round_of_over filled ahead finished, List.append_nil]
      exact trailing_round f
    | false =>
      -- the output goes on after the round, so it has not ended within it
      have round := passes_round h filled ahead
      have before : ∀ w ∈ f.roundWay, (!w.state.eof) = true := by
        intro w hw
        have state : w.state ∈ f.roundCourse := roundWay_states f ▸ List.mem_map_of_mem hw
        rw [Bool.not_eq_true']
        refine Bool.eq_false_iff.2 fun ended => ?_
        have still := round.ended ⟨w.state, List.mem_cons_of_mem _ state, ended⟩
        rw [still, Bool.or_true] at finished
        exact nomatch finished
      rw [round_of_quiet filled ahead finished, Waypoint.behindEnd, Waypoint.fromEnd,
        List.dropWhile_append_of_pos before]
      exact ih finished (round.staged_last h)

end Flow

/-! ### Ends of inputs -/

/-- Part of a journal, with whether the end of an input is known before and after it: an input that is
known to have ended is not asked, and one that answers that it has ended is known to have. -/
structure Sealed (i : InputRole) (before : Bool) (J : List (Incident α)) (after : Bool) : Prop where
  silent : before = true → ∀ answer, .polled i answer ∉ J
  stays : before = true → after = true
  known : .polled i .ended ∈ J → after = true
  once : J.Pairwise fun a b => a = .polled i .ended → ∀ answer, b ≠ .polled i answer

namespace Sealed

variable {i : InputRole} {a b c : Bool} {J K : List (Incident α)}

/-- A part in which the input is not asked. -/
theorem aside (none : ∀ answer, .polled i answer ∉ J) (stays : a = true → b = true) : Sealed i a J b where
  silent _ := none
  stays := stays
  known asked := absurd asked (none .ended)
  once := by
    refine List.pairwise_iff_getElem.2 fun m n inside _ _ same => ?_
    exact absurd (same ▸ List.getElem_mem inside) (none .ended)

theorem nil (stays : a = true → b = true) : Sealed i a ([] : List (Incident α)) b :=
  aside (fun _ => List.not_mem_nil) stays

theorem append (h : Sealed i a J b) (h' : Sealed i b K c) : Sealed i a (J ++ K) c where
  silent known answer asked := by
    rcases List.mem_append.1 asked with first | second
    · exact h.silent known answer first
    · exact h'.silent (h.stays known) answer second
  stays known := h'.stays (h.stays known)
  known asked := by
    rcases List.mem_append.1 asked with first | second
    · exact h'.stays (h.known first)
    · exact h'.known second
  once := by
    refine List.pairwise_append.2 ⟨h.once, h'.once, ?_⟩
    intro x hx y hy same answer asked
    exact h'.silent (h.known (same ▸ hx)) answer (asked ▸ hy)

end Sealed

namespace Flow

/-- A look asks an input only if its end is not known yet. -/
theorem sealed_look (f : Flow α) (i k : InputRole) :
    Sealed i (f.sync.slot i).endSeen (f.lookIncidents k) ((f.look k).2.sync.slot i).endSeen := by
  by_cases same : i = k
  · subst same
    unfold lookIncidents
    have view := looked f i
    generalize f.look i = result at view ⊢
    cases view with
    | known content =>
      rw [content]
      exact .nil id
    | @frame x rest wants queued =>
      have fresh := Slot.endSeen_of_wants wants
      rw [wants, if_pos rfl, fresh, slot_putSlot_self]
      simp only [FrameQueue.consume, queued]
      exact ⟨by simp, by simp, by simp, List.pairwise_singleton _ _⟩
    | ended wants queued closed =>
      have fresh := Slot.endSeen_of_wants wants
      rw [wants, if_pos rfl, fresh, slot_updateLevel, slot_putSlot_self,
        Slot.endSeen_of_ended (Slot.lookAtEnd_next wants)]
      exact ⟨by simp, fun _ => rfl, fun _ => rfl, List.pairwise_singleton _ _⟩
    | missing wants queued closed =>
      have fresh := Slot.endSeen_of_wants wants
      rw [wants, if_pos rfl, fresh]
      simp only [FrameQueue.consume, queued, closed]
      exact ⟨by simp, by simp, by simp, List.pairwise_singleton _ _⟩
  · rw [(look_of_ne f same).1]
    refine .aside (fun answer asked => ?_) id
    unfold lookIncidents at asked
    split at asked
    · obtain ⟨rfl, -⟩ := Incident.polled.inj (List.mem_singleton.1 asked)
      exact same rfl
    · exact absurd asked List.not_mem_nil

theorem sealed_fill (f : Flow α) (i : InputRole) :
    Sealed i (f.sync.slot i).endSeen f.fillIncidents (f.fill.2.sync.slot i).endSeen :=
  (sealed_look f i .main).append (sealed_look _ i .overlay)

theorem sealed_move (f : Flow α) (i : InputRole) (pts : Timestamp) :
    Sealed i (f.sync.slot i).endSeen (f.moveIncidents pts) ((f.move pts).2.sync.slot i).endSeen := by
  rw [move_slot]
  refine .aside (fun answer asked => ?_) Slot.endSeen_movedTo
  have shift (k : InputRole) : .polled i answer ∉ f.shiftIncidents k pts := by
    unfold shiftIncidents
    split <;> simp
  rcases List.mem_append.1 asked with first | second
  · exact shift .main first
  · exact shift .overlay second

theorem sealed_advance (f : Flow α) (i : InputRole) :
    Sealed i (f.sync.slot i).endSeen f.incidents (f.advance.2.sync.slot i).endSeen := by
  induction f using rounds_induct with
  | ended f ended =>
    rw [advance_of_eof ended, incidents_of_eof ended]
    exact .nil id
  | missing f on missing =>
    rw [advance_of_missing on missing, incidents_of_missing on missing]
    exact sealed_fill f i
  | endless f on filled none =>
    rw [advance_of_endless on filled none, incidents_of_endless on filled none]
    have looked := sealed_fill f i
    cases i <;> exact looked
  | move f on filled ahead ih =>
    have round := (sealed_fill f i).append (sealed_move f.fill.2 i f.fill.2.sync.nextTime)
    rw [← moved_eq] at round
    cases finished : f.moved.1 || f.moved.2.sync.eof with
    | false =>
      rw [advance_of_quiet on filled ahead finished, incidents_of_quiet on filled ahead finished]
      exact round.append (ih finished)
    | true =>
      rw [advance_of_over on filled ahead finished, incidents_of_over on filled ahead finished]
      exact round

end Flow

/-! ### Runs -/

namespace Junction

/-- What an activation leaves: the state its rounds end in, or that state once the event has been given
out, which it has not if the output has ended. -/
theorem next_after {j : Junction α} {base : TimeBase} (some : j.sync.timeBase = some base)
    (sound : j.sync.Sound) :
    (j.flow.advance.2.sync.eof = true ∧ j.next = (.ended, j.flow.advance.2.junction)) ∨
    j.next.2.sync = j.flow.advance.2.sync ∨
    (j.flow.advance.2.sync.eof = false ∧ j.next.2.sync = j.flow.advance.2.sync.afterEvent) := by
  have view := concluded some sound
  generalize j.next = result at view ⊢
  cases view with
  | ended finished => exact .inl ⟨finished, rfl⟩
  | waits => exact .inr (.inl rfl)
  | event on => exact .inr (.inr ⟨on, rfl⟩)

/-- An activation keeps the stages of both slots in order. -/
theorem passes_next {j : Junction α} (sound : j.sync.Sound) (h : j.sync.Staged) :
    j.sync.Passes j.course j.next.2.sync := by
  unfold course
  cases some : j.sync.timeBase with
  | none =>
    rw [next_of_unconfigured some]
    exact .refl _
  | some base =>
    have rounds := Flow.passes_course j.flow h
    have staged := rounds.staged_last h
    refine rounds.trans (.one ?_ ?_)
    · rcases next_after some sound with ⟨-, ended⟩ | same | ⟨-, fired⟩
      · rw [ended]
        exact .of_same (fun _ => rfl) id rfl
      · rw [same]
        exact .of_same (fun _ => rfl) id rfl
      · rw [fired]
        refine .of_same (fun i => ?_) id rfl
        cases i with
        | main => exact Synchronizer.afterEvent_main_state _
        | overlay => rfl
    · rcases next_after some sound with ⟨-, ended⟩ | same | ⟨-, fired⟩
      · rw [ended]
        exact staged
      · rw [same]
        exact staged
      · rw [fired]
        exact staged.afterEvent

/-- **A schedule keeps the stages of both slots in order.** -/
theorem passes_courseOf {j : Junction α} (sound : j.sync.Sound) (h : j.sync.Staged)
    (S : List (Action α)) : j.sync.Passes (j.courseOf S) (run j S).2.sync := by
  induction S generalizing j with
  | nil => exact .refl _
  | cons a S ih =>
    rw [run_cons]
    cases a with
    | push i f =>
      have later := ih (j := (j.perform (.push i f)).2)
      cases i <;> exact later sound h
    | close i =>
      have later := ih (j := (j.perform (.close i)).2)
      cases i <;> exact later sound h
    | activate verdict =>
      have first := passes_next sound h
      exact first.trans (ih (sound_next sound).1 (first.staged_last h))

theorem sealed_next {j : Junction α} (sound : j.sync.Sound) (i : InputRole) :
    Sealed i (j.sync.slot i).endSeen (j.sync.incidents j.main j.overlay)
      (j.next.2.sync.slot i).endSeen := by
  cases some : j.sync.timeBase with
  | none =>
    rw [incidents_of_unconfigured some, next_of_unconfigured some]
    exact .nil id
  | some base =>
    rw [incidents_eq some]
    have rounds := Flow.sealed_advance j.flow i
    have after : (j.next.2.sync.slot i).endSeen = (j.flow.advance.2.sync.slot i).endSeen := by
      rcases next_after some sound with ⟨-, ended⟩ | same | ⟨-, fired⟩
      · rw [ended]
        rfl
      · rw [same]
      · rw [fired]
        cases i with
        | main => exact Synchronizer.afterEvent_keeps _ Slot.endSeen (Slot.takeCurrent_endSeen _)
        | overlay => rfl
    rw [after]
    refine rounds.append (.aside (fun answer asked => ?_) id)
    obtain ⟨e, -, offered⟩ := Option.map_eq_some_iff.1 (Option.mem_toList.1 asked)
    exact nomatch offered

theorem sealed_run {j : Junction α} (sound : j.sync.Sound) (S : List (Action α)) (i : InputRole) :
    Sealed i (j.sync.slot i).endSeen (Report.journal (run j S).1)
      ((run j S).2.sync.slot i).endSeen := by
  induction S generalizing j with
  | nil => exact .nil id
  | cons a S ih =>
    rw [run_cons]
    cases a with
    | push k f =>
      have later := ih (j := (j.perform (.push k f)).2) (by cases k <;> exact sound)
      cases k <;> exact later
    | close k =>
      have later := ih (j := (j.perform (.close k)).2) (by cases k <;> exact sound)
      cases k <;> exact later
    | activate verdict =>
      exact (sealed_next sound i).append (ih (sound_next sound).1)

/-- Once the output has ended, a schedule leaves the synchronizer alone, and nothing happens. -/
theorem run_over {j : Junction α} (ended : j.sync.eof = true) (S : List (Action α)) :
    (run j S).2.sync = j.sync ∧ Report.journal (run j S).1 = [] := by
  induction S generalizing j with
  | nil => exact ⟨rfl, rfl⟩
  | cons a S ih =>
    rw [run_cons]
    cases a with
    | push k f => cases k <;> exact ih ended
    | close k => cases k <;> exact ih ended
    | activate verdict =>
      have still : j.next.2.sync = j.sync ∧ j.sync.incidents j.main j.overlay = [] := by
        cases some : j.sync.timeBase with
        | none => rw [next_of_unconfigured some]; exact ⟨rfl, incidents_of_unconfigured some⟩
        | some base =>
          rw [incidents_eq some, next_eq some, Flow.advance_of_eof (f := j.flow) ended,
            conclude_of_eof base ended, Flow.incidents_of_eof (f := j.flow) ended]
          exact ⟨rfl, rfl⟩
      obtain ⟨same, nothing⟩ := ih (j := j.next.2) (still.1 ▸ ended)
      refine ⟨same.trans still.1, ?_⟩
      show j.sync.incidents j.main j.overlay ++ Report.journal (run j.next.2 S).1 = []
      rw [still.2, nothing]
      rfl

/-- An activation in the course of which the output has ended gives out no event. -/
theorem next_over {j : Junction α} (sound : j.sync.Sound) (h : j.sync.Staged)
    (finished : ∃ s ∈ j.course, s.eof = true) : j.next.1 = .ended := by
  unfold course at finished
  cases some : j.sync.timeBase with
  | none =>
    rw [some] at finished
    obtain ⟨s, hs, -⟩ := finished
    exact nomatch hs
  | some base =>
    rw [some] at finished
    obtain ⟨s, hs, ended⟩ := finished
    have rounds := Flow.passes_course j.flow h
    have finished : j.flow.advance.2.sync.eof = true := by
      rcases List.mem_append.1 hs with within | last
      · exact rounds.ended ⟨s, List.mem_cons_of_mem _ within, ended⟩
      · rw [List.mem_singleton.1 last] at ended
        rcases next_after some sound with ⟨finished, -⟩ | same | ⟨-, fired⟩
        · exact finished
        · rwa [same] at ended
        · rwa [fired] at ended
    rw [next_eq some, conclude_of_eof base finished]

/-- The steps of an activation are its course and its journal. -/
theorem way_eq (j : Junction α) : j.way.map Waypoint.state = j.course ∧
    j.way.flatMap Waypoint.incidents = j.sync.incidents j.main j.overlay := by
  unfold way course
  cases some : j.sync.timeBase with
  | none => exact ⟨rfl, (incidents_of_unconfigured some).symm⟩
  | some base =>
    simp only [List.map_append, Flow.way_states, List.flatMap_append, Flow.way_incidents,
      incidents_eq some, List.map_cons, List.map_nil, List.flatMap_cons, List.flatMap_nil,
      List.append_nil, true_and]

/-- Once the output has ended, an activation carries out what is left of a round at most. -/
theorem trailing_way {j : Junction α} (sound : j.sync.Sound) (h : j.sync.Staged) :
    Incident.Trailing (Waypoint.behindEnd j.way) := by
  have rounds := Flow.trailing_way j.flow h
  have states := (way_eq j).1
  have eventless := next_over sound h
  unfold way at states ⊢
  cases some : j.sync.timeBase with
  | none => exact .nil
  | some base =>
    rw [some] at states
    rw [← states] at eventless
    unfold Waypoint.behindEnd Waypoint.fromEnd at rounds ⊢
    dsimp only at eventless ⊢
    rw [List.dropWhile_append]
    split
    · -- the last step ends the output, or nothing does
      rw [List.dropWhile_cons]
      split <;> exact .nil
    · next within =>
      have within := mt List.isEmpty_iff.2 within
      obtain ⟨w, hw, ended⟩ : ∃ w ∈ j.flow.way, w.state.eof = true := by
        simpa [List.dropWhile_eq_nil_iff] using within
      have ended := eventless ⟨w.state, List.mem_map_of_mem (List.mem_append_left _ hw), ended⟩
      rw [ended, List.tail_append_of_ne_nil within]
      simpa [Outcome.event?] using rounds

/-- One request keeps a synchronizer sound and the stages of its slots in order. -/
theorem staged_answer (j : Junction α) (q : Request α) (h : j.sync.Sound ∧ j.sync.Staged) :
    (j.answer q).2.sync.Sound ∧ (j.answer q).2.sync.Staged := by
  refine ⟨(sound_answer j q h.1).1, ?_⟩
  cases q with
  | act a => exact (passes_courseOf h.1 h.2 [a]).staged_last h.2
  | configure options mainBase overlayBase explicit =>
    unfold answer
    dsimp only
    split
    · next base sync ok =>
      obtain ⟨_, rfl⟩ := Synchronizer.configure_ok ok
      exact .configured _ _ _ _
    · exact h.2

theorem staged_serve (main overlay : FrameQueue (Stamped α)) (requests : List (Request α)) :
    (serve ⟨.new, main, overlay⟩ requests).2.sync.Sound ∧
      (serve ⟨.new, main, overlay⟩ requests).2.sync.Staged :=
  (runBy_keeps (P := fun j => j.sync.Sound ∧ j.sync.Staged) (Q := fun _ => True)
    (fun j q h => ⟨staged_answer j q h, fun _ _ => trivial⟩) ⟨.new, main, overlay⟩ requests
    ⟨.inl rfl, .new⟩).1

/-- **A slot waits, runs, and runs out of frames.**  Start from whatever a synchronizer has been through,
whatever the queues held, and take the states of a schedule of actions, with those in the middle of an
activation.

* From one state to the next each slot stays as it is or goes one stage on.
* Every state is regular: nothing lies ahead of a slot that has not looked, a slot that has run out of
  frames holds none, and so on.
* A slot that has run out of frames and an output that has ended stay so.
* An input that has answered that it has ended is not asked again.
* An activation in which the output ends carries out what is left of its round: it asks the overlay at most
  once more, and each slot moves at most once.  It gives out no event and tells that the output has ended.
* After that the synchronizer does not change and nothing happens. -/
theorem run_staged (main overlay : FrameQueue (Stamped α)) (requests : List (Request α))
    (S : List (Action α)) :
    let j := (serve ⟨.new, main, overlay⟩ requests).2
    let states := j.sync :: j.courseOf S
    (states.IsChain Proceeds ∧ states.getLast? = some (run j S).2.sync) ∧
    (∀ s ∈ states, s.Regular) ∧
    states.Pairwise Lasts ∧
    (∀ i, (Report.journal (run j S).1).Pairwise fun a b =>
      a = .polled i .ended → ∀ answer, b ≠ .polled i answer) ∧
    Incident.Trailing (Waypoint.behindEnd j.way) ∧
    ((∃ s ∈ j.course, s.eof = true) → j.next.1 = .ended ∧ j.next.2.sync.eof = true) ∧
    (j.sync.eof = true → (run j S).2.sync = j.sync ∧ Report.journal (run j S).1 = []) := by
  intro j states
  obtain ⟨sound, staged⟩ := staged_serve main overlay requests
  have passes := passes_courseOf sound staged S
  refine ⟨⟨passes.chain, passes.last⟩, ?_, passes.lasting, fun i => (sealed_run sound S i).once,
    trailing_way sound staged, fun ⟨s, hs, ended⟩ => ?_, fun ended => run_over ended S⟩
  · intro s hs
    rcases List.mem_cons.1 hs with rfl | later
    · exact staged.regular
    · exact (passes.staged s later).regular
  · exact ⟨next_over sound staged ⟨s, hs, ended⟩,
      (passes_next sound staged).ended ⟨s, List.mem_cons_of_mem _ hs, ended⟩⟩

/-- The overlay goes through its stages one by one, and the output goes on until the main input ends. -/
theorem run_staged_pass :
    let main : FrameQueue (Stamped Nat) := ⟨[⟨1, some 0⟩, ⟨2, some 5⟩], true⟩
    let overlay : FrameQueue (Stamped Nat) := ⟨[⟨3, some 0⟩], true⟩
    let requests : List (Request Nat) := [.configure { eofAction := .pass } .micros .micros none]
    let j := (serve ⟨.new, main, overlay⟩ requests).2
    let S : List (Action Nat) := List.replicate 3 (.activate (.ok ()))
    let states := j.sync :: j.courseOf S
    (states.map fun s => s.overlay.state).eraseDups = [.awaitingFirst, .running, .exhausted] ∧
    (run j S).2.sync.eof = true ∧ states.IsChain Proceeds ∧ (∀ s ∈ states, s.Regular) := by
  intro main overlay requests j S states
  have runs := run_staged main overlay requests S
  exact ⟨by decide +kernel, by decide +kernel, runs.1.1, runs.2.1⟩

/-- Without repeating, the end of the main input ends the output; but the look at the main input is the
first of its round, so the overlay is asked once the output has ended, and its slot goes on to the frame that
it gives. -/
theorem round_outlasts_end :
    let main : FrameQueue (Stamped Nat) := ⟨[⟨1, some 0⟩], true⟩
    let overlay : FrameQueue (Stamped Nat) := ⟨[⟨2, some 0⟩, ⟨3, some 1⟩], true⟩
    let requests : List (Request Nat) := [.configure { eofAction := .pass } .micros .micros none,
      .act (.activate (.ok ()))]
    let j := (serve ⟨.new, main, overlay⟩ requests).2
    j.sync.eof = false ∧ j.next.1 = .ended ∧
    j.way.map (fun w => (w.incidents, w.state.eof, w.state.overlay.current?)) =
      [([.polled .main .ended], true, some ⟨2, some 0⟩),
        ([.polled .overlay (.frame ⟨3, some 1⟩)], true, some ⟨2, some 0⟩),
        ([], true, some ⟨2, some 0⟩),
        ([.moved .overlay (some ⟨3, some 1⟩)], true, some ⟨3, some 1⟩),
        ([], true, some ⟨3, some 1⟩)] := by
  intro main overlay requests j
  exact ⟨by decide +kernel, by decide +kernel, by decide +kernel⟩

end Junction

end FrameOverlay
