import FrameOverlay.Proofs.Sync.Round

/-!
# A synchronizer at work

What holds of a configured synchronizer as long as its output goes on, and what follows for the
main frame: it is never given away as long as an event may ask for it.

* `Synchronizer.Follows` — the slots have the modes of the policy;
* `Synchronizer.Steady` — **the invariant**: levels, ends of stream, and who may have handed out
  its frame;
* `Steady.look`, `Steady.move`, `Steady.afterEvent` — every step keeps it;
* `Steady.moved_cases` — what a move can be;
* `Synchronizer.Ready` — the main frame is there, which is so whenever an event is due
  (`Steady.ready`);
* `Steady.advance` — the same over all rounds of an activation;
* `Synchronizer.Sound` — not configured, ended, or steady, which every request keeps;
* `Junction.concluded` — what can become of an activation of a sound synchronizer;
* `Junction.serve_paired` — **an event that is due has a main frame**, whatever is requested.
-/

namespace FrameOverlay

namespace SyncOptions

/-- What the main input contributes after its end. -/
def mainAfter (o : SyncOptions) : ExtMode := if o.shortest then .stop else .infinity

/-- What the overlay contributes after its end. -/
def overlayAfter (o : SyncOptions) : ExtMode :=
  if o.shortest then .stop else if o.repeatLast then .infinity else .null

/-- The level at which the overlay triggers events. -/
def overlayLevel (o : SyncOptions) : Nat := if o.repeatLast then 1 else 0

theorem mainAfter_eq_stop (o : SyncOptions) : o.mainAfter = .stop ↔ o.shortest = true := by
  unfold mainAfter
  cases o.shortest <;> simp

theorem mainAfter_ne_null (o : SyncOptions) : o.mainAfter ≠ .null := by
  unfold mainAfter
  cases o.shortest <;> simp

theorem overlayAfter_ne_infinity (o : SyncOptions) :
    o.overlayAfter ≠ .infinity ↔ o.shortest = true ∨ o.repeatLast = false := by
  rcases o with ⟨action, shortest, repeatLast⟩
  cases shortest <;> cases repeatLast <;> simp [overlayAfter]

theorem overlayAfter_ne_stop (o : SyncOptions) : o.overlayAfter ≠ .stop ↔ o.shortest = false := by
  rcases o with ⟨action, shortest, repeatLast⟩
  cases shortest <;> cases repeatLast <;> simp [overlayAfter]

end SyncOptions

variable {α : Type}

namespace Synchronizer

/-! ### The invariant -/

/-- The slots have the modes of the policy. -/
structure Follows (s : Synchronizer α) : Prop where
  main_before : s.main.before = .stop
  main_after : s.main.after = s.options.mainAfter
  overlay_before : s.overlay.before = .null
  overlay_after : s.overlay.after = s.options.overlayAfter

/-- No slot extends without bound to the front. -/
theorem Follows.before_ne {s : Synchronizer α} (h : s.Follows) (i : InputRole) :
    (s.slot i).before ≠ .infinity := by
  cases i with
  | main =>
    show s.main.before ≠ _
    rw [h.main_before]
    exact nofun
  | overlay =>
    show s.overlay.before ≠ _
    rw [h.overlay_before]
    exact nofun

/-- What holds of a configured synchronizer as long as its output goes on.  The level is the higher
one of the two slots, where a slot that has seen its end counts nothing.  The main slot is never
exhausted, and has handed out its frame only if the overlay triggers no event before the next main
frame: because it never triggers one again, or because what lies ahead of it never takes effect. -/
structure Steady (s : Synchronizer α) : Prop extends Follows s where
  on : s.eof = false
  main_paced : s.main.Paced 2
  overlay_paced : s.overlay.Paced s.options.overlayLevel
  level_eq : s.level = some (max s.main.level s.overlay.level)
  level_pos : 0 < max s.main.level s.overlay.level
  main_on : s.main.state ≠ .exhausted
  overlay_gone : s.overlay.state = .exhausted → s.overlay.after = .null
  held : s.main.state = .running → s.main.current? = none → s.overlay.level = 0 ∨
    (s.overlay.next.isKnown = true ∧ s.overlay.next.pts = Timestamp.endless)

theorem updateLevel_of_on {s : Synchronizer α} (h : s.updateLevel.eof = false) :
    s.updateLevel = { s with level := some (max s.main.activeLevel s.overlay.activeLevel) } ∧
      0 < max s.main.activeLevel s.overlay.activeLevel := by
  unfold updateLevel at h ⊢
  dsimp only at h ⊢
  split at h
  · exact nomatch h
  · next hl => exact ⟨if_neg hl, Nat.pos_of_ne_zero hl⟩

namespace Steady

/-! ### Looking ahead -/

/-- A look keeps the level at that of the inputs that go on. -/
theorem look_level {f : Flow α} (h : f.sync.Steady) {i : InputRole}
    (on : (f.look i).2.sync.eof = false) :
    (f.look i).2.sync.level =
        some (max (f.look i).2.sync.main.level (f.look i).2.sync.overlay.level) ∧
      0 < max (f.look i).2.sync.main.level (f.look i).2.sync.overlay.level := by
  have main := (Flow.look_paced (k := .main) h.main_paced i).activeLevel_eq
  have overlay := (Flow.look_paced (k := .overlay) h.overlay_paced i).activeLevel_eq
  have view := Flow.looked f i
  generalize f.look i = result at on view main overlay ⊢
  cases view with
  | known => exact ⟨h.level_eq, h.level_pos⟩
  | frame => cases i <;> exact ⟨h.level_eq, h.level_pos⟩
  | ended =>
    obtain ⟨same, pos⟩ := updateLevel_of_on on
    rw [Flow.slot_updateLevel] at main overlay
    generalize f.putSlot i (f.sync.slot i).lookAtEnd = g at same pos main overlay ⊢
    have levels : max g.sync.main.activeLevel g.sync.overlay.activeLevel =
        max g.sync.main.level g.sync.overlay.level := congr (congrArg max main) overlay
    rw [levels] at same pos
    show g.sync.updateLevel.level =
        some (max g.sync.updateLevel.main.level g.sync.updateLevel.overlay.level) ∧
      0 < max g.sync.updateLevel.main.level g.sync.updateLevel.overlay.level
    rw [show g.sync.updateLevel = _ from same]
    exact ⟨rfl, pos⟩
  | missing => exact ⟨h.level_eq, h.level_pos⟩

/-- A main slot that has handed out its frame has done so for good. -/
theorem look_held {f : Flow α} (h : f.sync.Steady) (i : InputRole)
    (running : f.sync.main.state = .running) (handed : f.sync.main.current? = none) :
    (f.look i).2.sync.overlay.level = 0 ∨ ((f.look i).2.sync.overlay.next.isKnown = true ∧
      (f.look i).2.sync.overlay.next.pts = Timestamp.endless) := by
  have held := h.held running handed
  cases i with
  | main =>
    have same : (f.look .main).2.sync.overlay = f.sync.overlay :=
      (Flow.look_of_ne f (i := .main) (j := .overlay) (by decide)).1
    rw [same]
    exact held
  | overlay =>
    -- a slot that wants to look ahead knows of nothing that never takes effect
    have idle (wants : (f.sync.slot .overlay).wants = true) : f.sync.overlay.level = 0 := by
      rcases held with level | ⟨known, _⟩
      · exact level
      · have unknown : f.sync.overlay.next = .unknown := ((Slot.wants_iff _).1 wants).2
        rw [unknown] at known
        exact nomatch known
    have view := Flow.looked f .overlay
    generalize f.look .overlay = result at view ⊢
    cases view with
    | known => exact held
    | frame wants => exact .inl (idle wants)
    | ended =>
      have same := Flow.slot_updateLevel (f.putSlot .overlay f.sync.overlay.lookAtEnd) .overlay
      exact .inl (congrArg Slot.level same)
    | missing => exact held

/-- A look that does not end the output keeps a synchronizer steady. -/
theorem look {f : Flow α} (h : f.sync.Steady) {i : InputRole}
    (on : (f.look i).2.sync.eof = false) : (f.look i).2.sync.Steady := by
  obtain ⟨mainBefore, mainAfter, mainState, mainCurrent, _⟩ := Flow.look_slot f i .main
  obtain ⟨overlayBefore, overlayAfter, overlayState, _⟩ := Flow.look_slot f i .overlay
  have options := (Flow.look_sync f i).1
  obtain ⟨level, pos⟩ := h.look_level on
  exact
    { main_before := mainBefore.trans h.main_before
      main_after := by rw [options]; exact mainAfter.trans h.main_after
      overlay_before := overlayBefore.trans h.overlay_before
      overlay_after := by rw [options]; exact overlayAfter.trans h.overlay_after
      on := on
      main_paced := Flow.look_paced (k := .main) h.main_paced i
      overlay_paced := by rw [options]; exact Flow.look_paced (k := .overlay) h.overlay_paced i
      level_eq := level
      level_pos := pos
      main_on := fun gone => h.main_on (mainState.symm.trans gone)
      overlay_gone := fun gone => overlayAfter.trans (h.overlay_gone (overlayState.symm.trans gone))
      held := fun running handed =>
        h.look_held i (mainState.symm.trans running) (mainCurrent.symm.trans handed) }

theorem fill {f : Flow α} (h : f.sync.Steady) (on : f.fill.2.sync.eof = false) :
    f.fill.2.sync.Steady :=
  (h.look (Flow.fill_on on)).look on

/-! ### Moving on -/

/-- A slot that is not yet exhausted stays so in a move that does not end the output, unless it
contributes nothing after its end. -/
theorem movedTo_on {s : Slot α} {full : Nat} {pts : Timestamp} (paced : s.Paced full)
    (content : s.wants = false) (before : s.before ≠ .infinity) (ahead : pts ≠ Timestamp.endless)
    (goes : (s.moves pts && s.promote.endsOutput) = false)
    (gone : (s.movedTo pts).state = .exhausted) : s.state = .exhausted ∨ s.after = .null := by
  cases hm : s.moves pts with
  | false =>
    rw [Slot.movedTo_of_stays hm] at gone
    exact .inl gone
  | true =>
    rw [Slot.movedTo_of_moves hm] at gone
    rw [hm, Bool.true_and] at goes
    rcases Slot.content_cases content with he | ⟨_, x, hx⟩ | ⟨_, e, he⟩
    · exact .inl he
    · rw [Slot.promote_of_frame hx] at gone
      exact nomatch gone
    · have time : s.endTime = pts := by
        rw [← paced.ends e he, ← (Slot.moves_iff before).1 hm, he]
        rfl
      have limited := (Slot.endTime_finite time ahead).1
      right
      cases after : s.after with
      | stop =>
        have ends := s.promote_endsOutput.2 ⟨by simp [he], after⟩
        exact nomatch ends.symm.trans goes
      | null => rfl
      | infinity => exact absurd after limited

theorem move {f : Flow α} (h : f.sync.Steady) (content : ∀ i, (f.sync.slot i).wants = false)
    {pts : Timestamp} (ahead : pts ≠ Timestamp.endless)
    (on : (f.move pts).2.sync.eof = false) : (f.move pts).2.sync.Steady := by
  have sync := f.move_sync pts
  rw [sync] at on ⊢
  obtain ⟨mainOn, overlayOn⟩ := Bool.or_eq_false_iff.1 on
  have mainOn := (Bool.or_eq_false_iff.1 mainOn).2
  have main_before : f.sync.main.before ≠ .infinity := h.before_ne .main
  have overlay_before : f.sync.overlay.before ≠ .infinity := h.before_ne .overlay
  exact
    { main_before := (Slot.movedTo_before _ _).trans h.main_before
      main_after := (Slot.movedTo_after _ _).trans h.main_after
      overlay_before := (Slot.movedTo_before _ _).trans h.overlay_before
      overlay_after := (Slot.movedTo_after _ _).trans h.overlay_after
      on := on
      main_paced := h.main_paced.movedTo (content .main) pts
      overlay_paced := h.overlay_paced.movedTo (content .overlay) pts
      level_eq := by
        dsimp only
        rw [Slot.movedTo_level, Slot.movedTo_level]
        exact h.level_eq
      level_pos := by
        dsimp only
        rw [Slot.movedTo_level, Slot.movedTo_level]
        exact h.level_pos
      main_on := by
        intro gone
        rcases movedTo_on h.main_paced (content .main) main_before ahead mainOn gone with he | ha
        · exact h.main_on he
        · exact SyncOptions.mainAfter_ne_null _ (h.main_after.symm.trans ha)
      overlay_gone := by
        intro gone
        dsimp only
        rw [Slot.movedTo_after]
        rcases movedTo_on h.overlay_paced (content .overlay) overlay_before ahead overlayOn gone
          with he | ha
        · exact h.overlay_gone he
        · exact ha
      held := by
        dsimp only
        intro running handed
        cases hm : f.sync.main.moves pts with
        | false =>
          rw [Slot.movedTo_of_stays hm] at running handed
          rcases h.held running handed with level | ⟨known, never⟩
          · exact .inl (by rw [Slot.movedTo_level]; exact level)
          · have stays : f.sync.overlay.moves pts = false := by
              rw [Bool.eq_false_iff, Ne, Slot.moves_iff overlay_before, never]
              exact fun same => ahead same.symm
            rw [Slot.movedTo_of_stays stays]
            exact .inr ⟨known, never⟩
        | true =>
          -- a main slot that moves and goes on has just got a frame
          rw [Slot.movedTo_of_moves hm] at running handed
          obtain ⟨x, hx⟩ := Slot.next_of_promote_running running
          rw [Slot.promote_of_frame hx] at handed
          exact nomatch handed }

end Steady

/-! ### Giving out an event -/

/-- A frame is there for the event that is due, and one of the inputs has just moved. -/
structure Ready (s : Synchronizer α) : Prop where
  main_frame : s.main.current?.isSome = true
  moved : s.main.next = .unknown ∨ s.overlay.next = .unknown

namespace Steady

theorem overlayLevel_lt (o : SyncOptions) : o.overlayLevel < 2 := by
  unfold SyncOptions.overlayLevel
  split <;> decide

/-- The overlay triggers events just when the main input has ended. -/
theorem overlay_triggers {s : Synchronizer α} (h : s.Steady) {y : Stamped α}
    (next : s.overlay.next = .frame y) :
    (some s.overlay.level == s.level) = s.main.endSeen := by
  have overlay := overlayLevel_lt s.options
  rw [← h.overlay_paced.level_of_frame next] at overlay
  have main := h.main_paced.level_eq
  rw [h.level_eq]
  cases ended : s.main.endSeen with
  | false =>
    rw [ended] at main
    have above : s.overlay.level ≠ max s.main.level s.overlay.level := by
      rw [main]
      simp only [Bool.false_eq_true, if_false]
      omega
    simpa using above
  | true =>
    rw [ended] at main
    rw [main]
    simp

end Steady

/-- What a move that does not end the output can be. -/
inductive Moved (f : Flow α) (pts : Timestamp) : Prop where
  /-- A main frame becomes current, which makes an event due. -/
  | main {x : Stamped α} (moves : f.sync.main.moves pts = true)
      (next : f.sync.main.next = .frame x) (due : (f.move pts).1 = true)
  /-- An overlay frame alone becomes current, which makes an event due only if the main input has
  ended and has had a frame. -/
  | overlay {y : Stamped α} (stays : f.sync.main.moves pts = false)
      (moves : f.sync.overlay.moves pts = true) (next : f.sync.overlay.next = .frame y)
      (due : (f.move pts).1 = (f.sync.main.endSeen && f.sync.main.state == .running))
  /-- No frame becomes current. -/
  | quiet (stays : f.sync.main.moves pts = false)
      (none : f.sync.overlay.moves pts = true → f.sync.overlay.promote.current? = none)
      (due : (f.move pts).1 = false)

namespace Steady

theorem moved_cases {f : Flow α} (h : f.sync.Steady) (content : ∀ i, (f.sync.slot i).wants = false)
    {pts : Timestamp} (ahead : pts ≠ Timestamp.endless)
    (on : (f.move pts).2.sync.eof = false) : Moved f pts := by
  have after := h.move content ahead on
  have due := Flow.move_due on
  have sync := f.move_sync pts
  rw [sync] at after
  have overlayFree : (f.sync.overlay.movedTo pts).holdsBack = false := by
    simp [Slot.holdsBack, h.overlay_before]
  rw [overlayFree, Bool.or_false] at due
  cases moves : f.sync.main.moves pts with
  | false =>
    have main : f.triggers .main pts = false := by
      simp [Flow.triggers, Synchronizer.slot, moves]
    have mainFree : (!(f.sync.main.movedTo pts).holdsBack) = (f.sync.main.state == .running) := by
      rw [Slot.movedTo_of_stays moves, Slot.holdsBack, h.main_before]
      cases state : f.sync.main.state with
      | awaitingFirst => rfl
      | running => rfl
      | exhausted => exact absurd state h.main_on
    rw [main, mainFree, Bool.false_or] at due
    cases overlayMoves : f.sync.overlay.moves pts with
    | false =>
      refine .quiet moves (fun h => absurd (overlayMoves.symm.trans h) Bool.false_ne_true) ?_
      rw [due]
      simp [Flow.triggers, Synchronizer.slot, overlayMoves]
    | true =>
      rcases next : f.sync.overlay.next with _ | y | e
      case frame =>
        refine .overlay moves overlayMoves next ?_
        rw [due, Flow.triggers]
        simp only [Synchronizer.slot, overlayMoves, Bool.true_and, h.overlay_triggers next,
          Slot.promote_of_frame next]
        simp [Slot.current?]
      all_goals
        have gone : f.sync.overlay.promote.current? = none := by
          rw [Slot.promote_of_not_frame (by simp [next])]
          rfl
        refine .quiet moves (fun _ => gone) ?_
        rw [due, Flow.triggers]
        simp [Synchronizer.slot, gone]
  | true =>
    have running := after.main_on
    dsimp only at running
    rw [Slot.movedTo_of_moves moves] at running due
    rcases next : f.sync.main.next with _ | x | e
    case frame =>
      refine .main moves next ?_
      have level : (some f.sync.main.level == f.sync.level) = true := by
        have overlay : f.sync.overlay.level < 2 :=
          Nat.lt_of_le_of_lt h.overlay_paced.level_le (overlayLevel_lt _)
        have main := h.main_paced.level_of_frame next
        rw [h.level_eq, main]
        simp only [beq_iff_eq, Option.some.injEq]
        omega
      rw [due, Flow.triggers]
      simp only [Synchronizer.slot, moves, level, Slot.promote_of_frame next, Bool.true_and]
      rfl
    all_goals
      rw [Slot.promote_of_not_frame (by simp [next])] at running
      exact absurd rfl running

/-- **When an event is due, its main frame is there.**  Either the main input has just moved, or the
overlay has; the overlay can only do so while the main slot still has its frame. -/
theorem ready {f : Flow α} (h : f.sync.Steady) (content : ∀ i, (f.sync.slot i).wants = false)
    {pts : Timestamp} (ahead : pts ≠ Timestamp.endless)
    (on : (f.move pts).2.sync.eof = false) (due : (f.move pts).1 = true) :
    (f.move pts).2.sync.Ready := by
  have sync := f.move_sync pts
  cases h.moved_cases content ahead on with
  | main moves next _ =>
    rw [sync]
    dsimp only
    refine ⟨?_, .inl ?_⟩
    · dsimp only
      rw [Slot.movedTo_of_moves moves, Slot.promote_of_frame next]
      rfl
    · dsimp only
      rw [Slot.movedTo_of_moves moves, Slot.promote_next]
  | overlay stays moves _ due' =>
    obtain ⟨ended, running⟩ := Bool.and_eq_true_iff.1 (due'.symm.trans due)
    rw [sync]
    refine ⟨?_, .inr ?_⟩
    · dsimp only
      rw [Slot.movedTo_of_stays stays, Option.isSome_iff_ne_none]
      intro handed
      rcases h.held (eq_of_beq running) handed with idle | ⟨_, never⟩
      · have pos := h.level_pos
        rw [h.main_paced.level_eq, ended, idle] at pos
        exact absurd pos (by simp)
      · have takes := (Slot.moves_iff (h.before_ne .overlay)).1 moves
        exact ahead (takes.symm.trans never)
    · dsimp only
      rw [Slot.movedTo_of_moves moves, Slot.promote_next]
  | quiet _ _ due' => exact nomatch due'.symm.trans due

/-- The main frame of an event that was ready is handed out only if the overlay triggers nothing
before the next main frame. -/
theorem idle_of_not_kept {s : Synchronizer α} (ready : s.Ready) (kept : s.keepsMain = false) :
    s.overlay.level = 0 ∨
      (s.overlay.next.isKnown = true ∧ s.overlay.next.pts = Timestamp.endless) := by
  rcases keepsMain_eq_false_iff.1 kept with level | ⟨known, late⟩
  · exact .inl level
  · rcases ready.moved with unknown | unknown
    · have never : s.main.nextTime = Timestamp.endless := by
        simp [Slot.nextTime, unknown, Lookahead.isKnown]
      rw [never, Timestamp.not_lt_endless_iff] at late
      exact .inr ⟨known, late⟩
    · rw [unknown] at known
      exact absurd known Bool.false_ne_true

/-- What remains after an event that was ready is steady. -/
theorem afterEvent {s : Synchronizer α} (h : s.Steady) (ready : s.Ready) :
    s.afterEvent.Steady := by
  have before := s.afterEvent_keeps Slot.before rfl
  have after := s.afterEvent_keeps Slot.after rfl
  have level := s.afterEvent_keeps Slot.level rfl
  have state := s.afterEvent_main_state
  have paced : s.afterEvent.main.Paced 2 := by
    rcases s.afterEvent_main with main | main
    · rw [main]
      exact h.main_paced
    · rw [main]
      exact h.main_paced.takeCurrent
  exact
    { main_before := before.trans h.main_before
      main_after := after.trans h.main_after
      overlay_before := h.overlay_before
      overlay_after := h.overlay_after
      on := h.on
      main_paced := paced
      overlay_paced := h.overlay_paced
      level_eq := by rw [level]; exact h.level_eq
      level_pos := by rw [level]; exact h.level_pos
      main_on := by rw [state]; exact h.main_on
      overlay_gone := h.overlay_gone
      held := by
        intro running handed
        cases kept : s.keepsMain with
        | false => exact idle_of_not_kept (s := s) ready kept
        | true =>
          have main : s.afterEvent.main = s.main := by simp [Synchronizer.afterEvent, kept]
          rw [main] at running handed
          exact h.held running handed }

/-! ### Activations -/

theorem moved {f : Flow α} (h : f.sync.Steady) (filled : f.fill.1 = false)
    (ahead : f.fill.2.sync.nextTime ≠ Timestamp.endless) (on : f.moved.2.sync.eof = false) :
    f.moved.2.sync.Steady ∧ (f.moved.1 = true → f.moved.2.sync.Ready) := by
  rw [Flow.moved_eq] at on ⊢
  have steady := h.fill (Flow.move_on on)
  have content := Flow.fill_content filled
  exact ⟨steady.move content ahead on, steady.ready content ahead on⟩

/-- Rounds keep a synchronizer steady until its output ends, and when they make an event due it is
ready. -/
theorem advance {f : Flow α} (h : f.sync.Steady) : f.advance.2.sync.eof = true ∨
    (f.advance.2.sync.Steady ∧ (f.advance.1 = true → f.advance.2.sync.Ready)) := by
  induction f using Flow.rounds_induct with
  | ended f ended =>
    rw [Flow.advance_of_eof ended]
    exact .inl ended
  | missing f on missing =>
    rw [Flow.advance_of_missing on missing]
    dsimp only
    cases ended : f.fill.2.sync.eof with
    | false => exact .inr ⟨h.fill ended, fun due => nomatch due⟩
    | true => exact .inl rfl
  | endless f on filled none =>
    rw [Flow.advance_of_endless on filled none]
    exact .inl rfl
  | move f on filled ahead ih =>
    cases finished : f.moved.1 || f.moved.2.sync.eof with
    | false =>
      rw [Flow.advance_of_quiet on filled ahead finished]
      exact ih finished (h.moved filled ahead (Bool.or_eq_false_iff.1 finished).2).1
    | true =>
      rw [Flow.advance_of_over on filled ahead finished]
      cases ended : f.moved.2.sync.eof with
      | false => exact .inr (h.moved filled ahead ended)
      | true => exact .inl rfl

/-- A synchronizer that has just been configured is steady. -/
theorem configured (options : SyncOptions) (mainBase overlayBase base : TimeBase) :
    (Synchronizer.configured options mainBase overlayBase base : Synchronizer α).Steady := by
  have fresh {full : Nat} {s : Slot α} (level : s.level = full)
      (phase : s.phase = .awaitingFirst .unknown) : s.Paced full := by
    refine ⟨?_, ?_⟩
    · rw [level]
      simp [Slot.endSeen, Slot.state, Slot.next, Lookahead.isEnd, phase]
    · intro e he
      simp [Slot.next, phase] at he
  have awaiting {state : SlotState} {P : Prop} (other : state ≠ .awaitingFirst)
      (same : SlotState.awaitingFirst = state) : P := absurd same.symm other
  rcases options with ⟨action, shortest, repeatLast⟩
  cases shortest <;> cases repeatLast <;>
    exact
      { main_before := rfl
        main_after := rfl
        overlay_before := rfl
        overlay_after := rfl
        on := rfl
        main_paced := fresh rfl rfl
        overlay_paced := fresh rfl rfl
        level_eq := rfl
        level_pos := Nat.lt_of_lt_of_le Nat.two_pos (Nat.le_max_left _ _)
        main_on := awaiting (by decide)
        overlay_gone := awaiting (by decide)
        held := awaiting (by decide) }

end Steady

/-! ### Every state -/

/-- What holds of a synchronizer in every state: it has not been configured, or its output has
ended, or it is steady. -/
def Sound (s : Synchronizer α) : Prop := s.timeBase = none ∨ s.eof = true ∨ s.Steady

end Synchronizer

namespace Junction

/-- One induction for all runs: what every step keeps holds after a run, and what every step reports
is so holds of every report. -/
theorem runBy_keeps {β : Type} {step : Junction α → β → Option (Report α) × Junction α}
    {P : Junction α → Prop} {Q : Report α → Prop}
    (keeps : ∀ j b, P j → P (step j b).2 ∧ ∀ r, (step j b).1 = some r → Q r)
    (j : Junction α) (bs : List β) (h : P j) :
    P (runBy step j bs).2 ∧ ∀ r ∈ (runBy step j bs).1, Q r := by
  induction bs generalizing j with
  | nil => exact ⟨h, fun r hr => nomatch hr⟩
  | cons b rest ih =>
    obtain ⟨kept, reported⟩ := keeps j b h
    obtain ⟨keptAll, reportedAll⟩ := ih (step j b).2 kept
    refine ⟨keptAll, ?_⟩
    intro r hr
    rcases List.mem_append.1 hr with first | later
    · exact reported r (Option.mem_toList.1 first)
    · exact reportedAll r later

/-- An activation keeps a synchronizer sound, and an event that is due has a main frame. -/
theorem sound_next {j : Junction α} (h : j.sync.Sound) :
    j.next.2.sync.Sound ∧ ∀ pts, j.next.1 ≠ .unpaired pts := by
  rcases some : j.sync.timeBase with _ | base
  · rw [next_of_unconfigured some]
    exact ⟨h, fun _ => nofun⟩
  rw [next_eq some]
  have advanced : j.flow.advance.2.sync.eof = true ∨ (j.flow.advance.2.sync.Steady ∧
      (j.flow.advance.1 = true → j.flow.advance.2.sync.Ready)) := by
    rcases h with none | ended | steady
    · exact nomatch none.symm.trans some
    · left
      rw [Flow.advance_of_eof (f := j.flow) ended]
      exact ended
    · exact steady.advance (f := j.flow)
  cases on : j.flow.advance.2.sync.eof with
  | false =>
    rcases advanced with ended | ⟨steady, ready⟩
    · exact nomatch on.symm.trans ended
    · cases due : j.flow.advance.1 with
      | false =>
        rw [conclude_of_idle base on due]
        exact ⟨.inr (.inr steady), fun _ => nofun⟩
      | true =>
        obtain ⟨frame, current⟩ := Option.isSome_iff_exists.1 (ready due).main_frame
        rw [conclude_of_due base on due, Synchronizer.fire_of_frame current]
        exact ⟨.inr (.inr (steady.afterEvent (ready due))), fun _ => nofun⟩
  | true =>
    rw [conclude_of_eof base on]
    exact ⟨.inr (.inl on), fun _ => nofun⟩

/-- What the rounds of an activation come to, once the event that is due has been given out. -/
inductive Concluded (base : TimeBase) (r : Bool × Flow α) : Outcome α × Junction α → Prop where
  | ended (finished : r.2.sync.eof = true) : Concluded base r (.ended, r.2.junction)
  | waits (on : r.2.sync.eof = false) (idle : r.1 = false) : Concluded base r (.needInput, r.2.junction)
  | event {x : Stamped α} (on : r.2.sync.eof = false) (due : r.1 = true)
      (current : r.2.sync.main.current? = some x) :
      Concluded base r (.event (r.2.sync.eventWith base x), { r.2.junction with sync := r.2.sync.afterEvent })

/-- An activation of a sound synchronizer gives out the event that its rounds have made due. -/
theorem concluded {j : Junction α} {base : TimeBase} (some : j.sync.timeBase = some base)
    (sound : j.sync.Sound) : Concluded base j.flow.advance j.next := by
  have paired := (sound_next sound).2
  rw [next_eq some] at paired ⊢
  generalize j.flow.advance = r at paired ⊢
  cases on : r.2.sync.eof with
  | true =>
    rw [conclude_of_eof base on]
    exact .ended on
  | false =>
    cases due : r.1 with
    | false =>
      rw [conclude_of_idle base on due]
      exact .waits on due
    | true =>
      rw [conclude_of_due base on due] at paired ⊢
      cases current : r.2.sync.main.current? with
      | none =>
        refine absurd ?_ (paired r.2.sync.pts)
        unfold Synchronizer.fire
        rw [current]
      | some x =>
        rw [Synchronizer.fire_of_frame current]
        exact .event on due current

/-- One action keeps a synchronizer sound. -/
theorem sound_perform (j : Junction α) (a : Action α) (h : j.sync.Sound) :
    (j.perform a).2.sync.Sound ∧
      ∀ r, (j.perform a).1 = some r → ∀ pts, r.outcome ≠ .unpaired pts := by
  cases a with
  | push i f => cases i <;> exact ⟨h, fun _ hr => nomatch hr⟩
  | close i => cases i <;> exact ⟨h, fun _ hr => nomatch hr⟩
  | activate verdict =>
    obtain ⟨sound, paired⟩ := sound_next h
    refine ⟨sound, ?_⟩
    intro r hr
    obtain rfl := Option.some.inj hr
    exact paired

/-- One request keeps a synchronizer sound. -/
theorem sound_answer (j : Junction α) (q : Request α) (h : j.sync.Sound) :
    (j.answer q).2.sync.Sound ∧
      ∀ r, (j.answer q).1 = some r → ∀ pts, r.outcome ≠ .unpaired pts := by
  cases q with
  | act a => exact sound_perform j a h
  | configure options mainBase overlayBase explicit =>
    unfold answer
    dsimp only
    split
    · next base sync ok =>
      obtain ⟨_, rfl⟩ := Synchronizer.configure_ok ok
      exact ⟨.inr (.inr (.configured _ _ _ _)), fun _ hr => nomatch hr⟩
    · exact ⟨h, fun _ hr => nomatch hr⟩

/-- **The main frame is never given away too early.**  Whatever the queues hold, whatever is pushed,
closed, activated and configured in whatever order, and whatever the receiver answers: when an event
is due its main frame is there. -/
theorem serve_paired (main overlay : FrameQueue (Stamped α)) (requests : List (Request α)) :
    ∀ r ∈ (serve ⟨.new, main, overlay⟩ requests).1, ∀ pts, r.outcome ≠ .unpaired pts :=
  (runBy_keeps sound_answer ⟨.new, main, overlay⟩ requests (.inl rfl)).2

/-- The main input has ended, and its last frame is still there for the second overlay frame. -/
theorem serve_paired_late :
    let main : FrameQueue (Stamped Nat) := ⟨[⟨1, some 0⟩], true⟩
    let overlay : FrameQueue (Stamped Nat) := ⟨[⟨2, some 0⟩, ⟨3, some 5⟩], true⟩
    let requests : List (Request Nat) := [.configure {} .micros .micros none,
      .act (.activate (.ok ())), .act (.activate (.ok ()))]
    ∃ r ∈ (serve ⟨.new, main, overlay⟩ requests).1,
      r.outcome.event?.map (fun e => (e.main, e.overlay)) =
        some (⟨1, some 5⟩, some ⟨3, some 5⟩) ∧
      ∀ pts, r.outcome ≠ .unpaired pts := by
  intro main overlay requests
  have late : ∃ r ∈ (serve ⟨.new, main, overlay⟩ requests).1,
      r.outcome.event?.map (fun e => (e.main, e.overlay)) =
        some (⟨1, some 5⟩, some ⟨3, some 5⟩) := by
    decide +kernel
  obtain ⟨r, reported, event⟩ := late
  exact ⟨r, reported, event, serve_paired main overlay requests r reported⟩

end Junction

end FrameOverlay
