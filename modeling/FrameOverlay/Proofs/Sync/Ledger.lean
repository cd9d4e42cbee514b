import FrameOverlay.Proofs.Sync.Schedule
import Mathlib.Data.List.Basic

/-!
# No main frame is lost

The journal of a run is a ledger of the main input: what was taken in, and what was given out.  As
long as the output goes on, every main frame taken in is given out once and in order, but for the
one that lies ahead; once the main input has ended, its last frame is given out again with every
further overlay frame.

* `Incident.taken`, `Incident.given` — both sides of the ledger;
* `Balance.Open`, `Balance.Closed` — the invariant before and after the end of the main input;
* `Balance.look`, `Balance.move`, `Balance.fire` — **every step keeps the balance**;
* `Junction.balance_run` — the same for a schedule, by induction over it;
* `Junction.run_accounts` — **no main frame is lost, repeated or moved out of order**.
-/

namespace FrameOverlay

variable {α : Type}

namespace Incident

/-- Contents of the frames that the main input gave. -/
def taken (J : List (Incident α)) : List α := (pulled .main J).map Stamped.content

/-- Contents of the main frames of the events. -/
def given (J : List (Incident α)) : List α := (events J).map fun e => e.main.content

@[simp] theorem taken_append (J K : List (Incident α)) : taken (J ++ K) = taken J ++ taken K := by
  simp only [taken, pulled_append, List.map_append]

@[simp] theorem given_append (J K : List (Incident α)) : given (J ++ K) = given J ++ given K := by
  simp only [given, events_append, List.map_append]

/-- The main input has been asked and has said that it ended. -/
def mainEnd : Incident α := .polled .main .ended

theorem mainEnd_ne_offered (e : SyncEvent α) : (mainEnd : Incident α) ≠ .offered e := nofun

/-- Nothing that concerns the main input, and no event. -/
structure Aside (K : List (Incident α)) : Prop where
  taken_eq : taken K = []
  events_eq : events K = []
  no_end : mainEnd ∉ K

namespace Aside

theorem given_eq {K : List (Incident α)} (h : Aside K) : given K = [] := by
  unfold given
  rw [h.events_eq]
  rfl

theorem nil : Aside ([] : List (Incident α)) where
  taken_eq := rfl
  events_eq := rfl
  no_end := List.not_mem_nil

theorem append {K L : List (Incident α)} (h : Aside K) (h' : Aside L) : Aside (K ++ L) where
  taken_eq := by rw [taken_append, h.taken_eq, h'.taken_eq]; rfl
  events_eq := by rw [events_append, h.events_eq, h'.events_eq]; rfl
  no_end := by
    intro member
    rcases List.mem_append.1 member with first | second
    · exact h.no_end first
    · exact h'.no_end second

theorem polled_overlay (poll : LinkPoll (Stamped α)) : Aside [.polled .overlay poll] where
  taken_eq := by cases poll <;> rfl
  events_eq := rfl
  no_end := by simp [mainEnd]

theorem polled_empty (i : InputRole) : Aside ([.polled i .empty] : List (Incident α)) where
  taken_eq := rfl
  events_eq := rfl
  no_end := by simp [mainEnd]

theorem moved (i : InputRole) (frame : Option (Stamped α)) : Aside [.moved i frame] where
  taken_eq := rfl
  events_eq := rfl
  no_end := by simp [mainEnd]

end Aside

end Incident

open Incident

namespace Balance

/-! ### The invariant -/

/-- As long as the main input has not ended: what was taken in has been given out, but for the frame
that lies ahead; what was given out last is the current frame. -/
structure Open (main : Slot α) (J : List (Incident α)) : Prop where
  going : main.endSeen = false
  no_end : mainEnd ∉ J
  account : taken J = given J ++ main.next.frame?.toList.map Stamped.content
  first : main.state = .awaitingFirst → given J = []
  last : main.state = .running → ∃ before x, given J = before ++ [x] ∧
    ∀ f, main.current? = some f → f.content = x

/-- Once the main input has ended, with `J` before its end and `K` after it: what was taken in has
been given out before the end.  After it, either nothing is given out, as there has been no frame,
or the last frame with every overlay frame. -/
structure Closed (main : Slot α) (J K : List (Incident α)) : Prop where
  shut : main.endSeen = true
  no_end : mainEnd ∉ J
  no_other : mainEnd ∉ K
  account : taken J = given J
  nothing : taken K = []
  first : main.state = .awaitingFirst → given J = [] ∧ events K = []
  last : main.state = .running → ∃ before x, given J = before ++ [x] ∧
    (∀ f, main.current? = some f → f.content = x) ∧
    (events K).map (fun e => (e.main.content, e.overlay)) =
      (promoted .overlay K).map fun y => (x, some y)

end Balance

/-- The ledger is in balance with the main slot. -/
inductive Balance (main : Slot α) : List (Incident α) → Prop where
  | going {J : List (Incident α)} (ledger : Balance.Open main J) : Balance main J
  | shut {J K : List (Incident α)} (ledger : Balance.Closed main J K) :
      Balance main (J ++ mainEnd :: K)

namespace Balance

theorem Open.aside {main : Slot α} {J K : List (Incident α)} (h : Open main J) (aside : Aside K) :
    Open main (J ++ K) where
  going := h.going
  no_end := by
    intro member
    rcases List.mem_append.1 member with old | new
    · exact h.no_end old
    · exact aside.no_end new
  account := by
    rw [taken_append, given_append, aside.taken_eq, aside.given_eq, List.append_nil,
      List.append_nil]
    exact h.account
  first := by
    rw [given_append, aside.given_eq, List.append_nil]
    exact h.first
  last := by
    rw [given_append, aside.given_eq, List.append_nil]
    exact h.last

theorem Closed.aside {main : Slot α} {J K L : List (Incident α)} (h : Closed main J K)
    (aside : Aside L) (still : main.state = .running → promoted .overlay L = []) :
    Closed main J (K ++ L) where
  shut := h.shut
  no_end := h.no_end
  no_other := by
    intro member
    rcases List.mem_append.1 member with old | new
    · exact h.no_other old
    · exact aside.no_end new
  account := h.account
  nothing := by rw [taken_append, h.nothing, aside.taken_eq]; rfl
  first := by
    rw [events_append, aside.events_eq, List.append_nil]
    exact h.first
  last := by
    intro running
    rw [events_append, aside.events_eq, List.append_nil, promoted_append, still running,
      List.append_nil]
    exact h.last running

/-- What concerns neither input leaves the balance alone. -/
theorem aside {main : Slot α} {J K : List (Incident α)} (h : Balance main J) (aside : Aside K)
    (still : promoted .overlay K = []) : Balance main (J ++ K) := by
  cases h with
  | going ledger => exact .going (ledger.aside aside)
  | @shut J₁ J₂ ledger =>
    rw [List.append_assoc, List.cons_append]
    exact .shut (ledger.aside aside fun _ => still)

/-! ### Looking ahead -/

/-- A slot of which nothing is known ahead has an open ledger with nothing outstanding. -/
theorem of_wants {main : Slot α} {J : List (Incident α)} (h : Balance main J)
    (wants : main.wants = true) : Open main J ∧ taken J = given J := by
  have going := Slot.endSeen_of_wants wants
  cases h with
  | going ledger =>
    refine ⟨ledger, ?_⟩
    have account := ledger.account
    rw [((Slot.wants_iff _).1 wants).2] at account
    rw [account]
    exact List.append_nil _
  | shut ledger => exact nomatch going.symm.trans ledger.shut

/-- A frame is taken in. -/
theorem Open.pull {s : Synchronizer α} {J : List (Incident α)} (h : Open s.main J)
    (wants : s.main.wants = true) (target : TimeBase) (x : Stamped α) :
    Open (s.main.lookAtFrame target x) (J ++ [.polled .main (.frame x)]) := by
  have given_eq : given (J ++ [.polled .main (.frame x)]) = given J := by
    rw [given_append]
    exact List.append_nil _
  refine ⟨?_, ?_, ?_, ?_, ?_⟩
  · exact Slot.endSeen_of_frame (Slot.lookAtFrame_next target x wants)
  · simp [mainEnd, show (Incident.polled .main .ended) ∉ J from h.no_end]
  · have account := h.account
    rw [((Slot.wants_iff _).1 wants).2] at account
    rw [given_eq, taken_append, account, Slot.lookAtFrame_next target x wants]
    simp [Lookahead.frame?, taken, pulled, Stamped.rescaled]
  · rw [given_eq, Slot.lookAtFrame_state]
    exact h.first
  · rw [given_eq, Slot.lookAtFrame_state, Slot.lookAtFrame_current?]
    exact h.last

/-- The end of the main input comes into sight. -/
theorem Open.close {s : Synchronizer α} {J : List (Incident α)} (h : Open s.main J)
    (settled : taken J = given J) (wants : s.main.wants = true) : Closed s.main.lookAtEnd J [] where
  shut := Slot.endSeen_of_ended (Slot.lookAtEnd_next wants)
  no_end := h.no_end
  no_other := List.not_mem_nil
  account := settled
  nothing := rfl
  first := by
    rw [Slot.lookAtEnd_state]
    intro awaiting
    exact ⟨h.first awaiting, rfl⟩
  last := by
    rw [Slot.lookAtEnd_state, Slot.lookAtEnd_current?]
    intro running
    obtain ⟨before, x, given_eq, current⟩ := h.last running
    exact ⟨before, x, given_eq, current, rfl⟩

/-- A look at either input keeps the balance. -/
theorem look {f : Flow α} {J : List (Incident α)} (h : Balance f.sync.main J) (i : InputRole) :
    Balance (f.look i).2.sync.main (J ++ f.lookIncidents i) := by
  have polled (wants : (f.sync.slot i).wants = true) :
      f.lookIncidents i = [.polled i (f.queue i).consume.1] := if_pos wants
  cases i with
  | overlay =>
    have same : (f.look .overlay).2.sync.main = f.sync.main :=
      (Flow.look_of_ne f (i := .overlay) (j := .main) (by decide)).1
    rw [same]
    cases wants : (f.sync.slot .overlay).wants with
    | false =>
      have unpolled : f.lookIncidents .overlay = [] := if_neg (Bool.eq_false_iff.1 wants)
      rw [unpolled]
      exact h.aside .nil rfl
    | true =>
      rw [polled wants]
      exact h.aside (.polled_overlay _) rfl
  | main =>
    have view := Flow.looked f .main
    generalize f.look .main = result at view ⊢
    cases view with
    | known content =>
      have unpolled : f.lookIncidents .main = [] := if_neg (Bool.eq_false_iff.1 content)
      rw [unpolled]
      exact h.aside .nil rfl
    | @frame x rest wants queued =>
      have poll : (f.queue .main).consume.1 = .frame x := by simp [FrameQueue.consume, queued]
      rw [polled wants, poll]
      exact .going ((of_wants h wants).1.pull wants f.timeBase x)
    | ended wants queued closed =>
      have poll : (f.queue .main).consume.1 = .ended := by simp [FrameQueue.consume, queued, closed]
      have same : ((f.putSlot .main (f.sync.slot .main).lookAtEnd).updateLevel).sync.main =
          f.sync.main.lookAtEnd := Flow.slot_updateLevel _ .main
      obtain ⟨ledger, settled⟩ := of_wants h wants
      dsimp only
      rw [polled wants, poll, same]
      exact .shut (ledger.close settled wants)
    | missing wants queued closed =>
      have poll : (f.queue .main).consume.1 = .empty := by simp [FrameQueue.consume, queued, closed]
      rw [polled wants, poll]
      exact h.aside (.polled_empty _) rfl

theorem fill {f : Flow α} {J : List (Incident α)} (h : Balance f.sync.main J) :
    Balance f.fill.2.sync.main (J ++ f.fillIncidents) := by
  have looked := (h.look .main).look .overlay
  rw [List.append_assoc] at looked
  exact looked

/-! ### Moving on, and giving out an event -/

theorem aside_moveIncidents (f : Flow α) (pts : Timestamp) : Aside (f.moveIncidents pts) := by
  have shift (i : InputRole) : Aside (f.shiftIncidents i pts) := by
    unfold Flow.shiftIncidents
    split
    · exact .moved i _
    · exact .nil
  exact (shift .main).append (shift .overlay)

/-- What becomes current in a move is in its journal. -/
theorem promoted_moveIncidents (f : Flow α) (pts : Timestamp) (i : InputRole) :
    promoted i (f.moveIncidents pts) =
      if (f.sync.slot i).moves pts then (f.sync.slot i).next.frame?.toList else [] := by
  have shift (k : InputRole) : promoted i (f.shiftIncidents k pts) =
      if k = i ∧ (f.sync.slot k).moves pts then (f.sync.slot k).next.frame?.toList else [] := by
    unfold Flow.shiftIncidents
    rw [Slot.promote_current?]
    cases (f.sync.slot k).moves pts with
    | false => simp [promoted]
    | true =>
      by_cases same : k = i
      · rcases (f.sync.slot k).next.frame? <;> simp [promoted, same]
      · simp [promoted, same]
  rw [Flow.moveIncidents, promoted_append, shift, shift]
  cases i <;> simp

theorem given_offered (J : List (Incident α)) (e : SyncEvent α) :
    given (J ++ [.offered e]) = given J ++ [e.main.content] := by
  rw [given_append]
  rfl

/-- The frame that lay ahead is given out. -/
theorem Open.give {main m : Slot α} {J K : List (Incident α)} {x : Stamped α} {e : SyncEvent α}
    (h : Open main J) (next : main.next = .frame x) (aside : Aside K)
    (running : m.state = .running) (unknown : m.next = .unknown)
    (current : ∀ y, m.current? = some y → y = x) (content : e.main.content = x.content) :
    Open m (J ++ K ++ [.offered e]) := by
  have before := h.aside aside
  have account := before.account
  rw [next] at account
  refine ⟨?_, ?_, ?_, ?_, ?_⟩
  · simp [Slot.endSeen, running, unknown, Lookahead.isEnd]
  · intro member
    rcases List.mem_append.1 member with old | new
    · exact before.no_end old
    · exact absurd (List.mem_singleton.1 new) (mainEnd_ne_offered e)
  · rw [given_offered, taken_append, account, unknown, content]
    simp [Lookahead.frame?, taken, pulled]
  · intro awaiting
    rw [running] at awaiting
    exact SlotState.noConfusion awaiting
  · intro _
    refine ⟨given (J ++ K), x.content, ?_, ?_⟩
    · rw [given_offered, content]
    · intro y hy
      rw [current y hy]

/-- The last frame is given out again, with an overlay frame. -/
theorem Closed.give {main m : Slot α} {J K L : List (Incident α)} {x y : Stamped α}
    {e : SyncEvent α} (h : Closed main J K) (running : main.state = .running)
    (held : main.current? = some x) (aside : Aside L) (promotes : promoted .overlay L = [y])
    (state : m.state = main.state) (finished : m.endSeen = main.endSeen)
    (current : ∀ f, m.current? = some f → f = x) (content : e.main.content = x.content)
    (overlay : e.overlay = some y) : Closed m J (K ++ L ++ [.offered e]) := by
  obtain ⟨before, z, given_eq, same, pairs⟩ := h.last running
  have z_eq : x.content = z := same x held
  refine ⟨finished.trans h.shut, h.no_end, ?_, h.account, ?_, ?_, ?_⟩
  · intro member
    rcases List.mem_append.1 member with old | new
    · rcases List.mem_append.1 old with older | moves
      · exact h.no_other older
      · exact aside.no_end moves
    · exact absurd (List.mem_singleton.1 new) (mainEnd_ne_offered e)
  · rw [taken_append, taken_append, h.nothing, aside.taken_eq]
    rfl
  · intro awaiting
    exact nomatch (state.trans running).symm.trans awaiting
  · intro _
    refine ⟨before, z, given_eq, ?_, ?_⟩
    · intro f hf
      rw [current f hf, z_eq]
    · rw [events_append, events_append, aside.events_eq, List.append_nil, promoted_append,
        promoted_append, promotes, List.map_append, pairs]
      simp [events, promoted, content, overlay, z_eq]

section Move

variable {f : Flow α} {J : List (Incident α)} {pts : Timestamp} (h : Balance f.sync.main J)
  (steady : f.sync.Steady) (content : ∀ i, (f.sync.slot i).wants = false)
  (ahead : pts ≠ Timestamp.endless) (on : (f.move pts).2.sync.eof = false)
include h steady content ahead on

/-- A move that makes no event due keeps the balance. -/
theorem move (quiet : (f.move pts).1 = false) :
    Balance (f.move pts).2.sync.main (J ++ f.moveIncidents pts) := by
  have aside := aside_moveIncidents f pts
  have promotes := promoted_moveIncidents f pts .overlay
  have same (stays : f.sync.main.moves pts = false) :
      (f.move pts).2.sync.main = f.sync.main := by
    rw [f.move_sync pts]
    exact Slot.movedTo_of_stays stays
  cases steady.moved_cases content ahead on with
  | main _ _ due => exact nomatch due.symm.trans quiet
  | overlay stays moves next due =>
    rw [same stays]
    cases h with
    | going ledger => exact .going (ledger.aside aside)
    | shut ledger =>
      rw [List.append_assoc, List.cons_append]
      refine .shut (ledger.aside aside ?_)
      intro running
      rw [quiet, ledger.shut, running] at due
      exact nomatch due
  | quiet stays none _ =>
    rw [same stays]
    refine h.aside aside ?_
    rw [promotes]
    split
    · next moves =>
      have gone : (f.sync.slot .overlay).promote.current? = Option.none := none moves
      rw [← Slot.promote_current?, gone]
      rfl
    · rfl

/-- A move that makes an event due keeps the balance once the event has been given out. -/
theorem fire (due : (f.move pts).1 = true) (base : TimeBase) {x : Stamped α}
    (current : (f.move pts).2.sync.main.current? = some x) :
    Balance (f.move pts).2.sync.afterEvent.main
      (J ++ f.moveIncidents pts ++ [.offered ((f.move pts).2.sync.eventWith base x)]) := by
  have aside := aside_moveIncidents f pts
  have promotes := promoted_moveIncidents f pts .overlay
  have after : (f.move pts).2.sync.main = f.sync.main.movedTo pts := by rw [f.move_sync pts]
  have state := (f.move pts).2.sync.afterEvent_main_state
  have next' := (f.move pts).2.sync.afterEvent_main_next
  have left : ∀ y, (f.move pts).2.sync.afterEvent.main.current? = some y → y = x := by
    intro y hy
    have same := (Synchronizer.afterEvent_current hy).symm.trans current
    exact Option.some.inj same
  cases steady.moved_cases content ahead on with
  | @main x' moves next _ =>
    rw [after, Slot.movedTo_of_moves moves] at state next' current
    rw [Slot.promote_of_frame next] at state current
    rw [Slot.promote_next] at next'
    obtain rfl := Option.some.inj current
    cases h with
    | going ledger => exact .going (ledger.give next aside state next' left rfl)
    | shut ledger => exact nomatch (Slot.endSeen_of_frame next).symm.trans ledger.shut
  | @overlay y stays moves next due' =>
    obtain ⟨ended, running⟩ := Bool.and_eq_true_iff.1 (due'.symm.trans due)
    rw [after, Slot.movedTo_of_stays stays] at state next' current
    have finished : (f.move pts).2.sync.afterEvent.main.endSeen = f.sync.main.endSeen := by
      rw [Slot.endSeen, state, next']
      rfl
    have carried : (f.move pts).2.sync.overlay.current? = some y := by
      rw [f.move_sync pts]
      dsimp only
      rw [Slot.movedTo_of_moves moves, Slot.promote_of_frame next]
      rfl
    have moves' : (f.sync.slot .overlay).moves pts = true := moves
    have next'' : (f.sync.slot .overlay).next = .frame y := next
    rw [if_pos moves', next''] at promotes
    cases h with
    | going ledger => exact nomatch ledger.going.symm.trans ended
    | shut ledger =>
      rw [List.append_assoc, List.append_assoc, List.cons_append, ← List.append_assoc]
      have ledger' := ledger.give (eq_of_beq running) current aside promotes state finished left
        (e := (f.move pts).2.sync.eventWith base x) rfl carried
      exact .shut ledger'
  | quiet _ _ due' => exact nomatch due'.symm.trans due

end Move

/-! ### Activations -/

/-- Rounds keep the balance as long as the output goes on, up to the event that they make due. -/
theorem advance {f : Flow α} {J : List (Incident α)} (h : Balance f.sync.main J)
    (steady : f.sync.Steady) (on : f.advance.2.sync.eof = false) :
    (f.advance.1 = false → Balance f.advance.2.sync.main (J ++ f.incidents)) ∧
      (f.advance.1 = true → ∀ base x, f.advance.2.sync.main.current? = some x →
        Balance f.advance.2.sync.afterEvent.main
          (J ++ f.incidents ++ [.offered (f.advance.2.sync.eventWith base x)])) := by
  -- the journal grows with every round, so the induction is over rounds for every `J`
  induction f using Flow.rounds_induct generalizing J with
  | ended f ended => exact nomatch ended.symm.trans steady.on
  | missing f goes missing =>
    rw [Flow.advance_of_missing goes missing, Flow.incidents_of_missing goes missing]
    exact ⟨fun _ => h.fill, fun due => nomatch due⟩
  | endless f goes filled none =>
    rw [Flow.advance_of_endless goes filled none] at on
    exact nomatch on
  | move f goes filled ahead ih =>
    have content := Flow.fill_content filled
    have moved := Flow.moved_eq f
    cases finished : f.moved.1 || f.moved.2.sync.eof with
    | false =>
      obtain ⟨quiet, goes'⟩ := Bool.or_eq_false_iff.1 finished
      rw [Flow.advance_of_quiet goes filled ahead finished] at on ⊢
      rw [Flow.incidents_of_quiet goes filled ahead finished, ← List.append_assoc,
        ← List.append_assoc]
      have steady' := (steady.moved filled ahead goes').1
      refine ih finished ?_ steady' on
      rw [moved] at quiet goes' ⊢
      exact h.fill.move (steady.fill (Flow.move_on goes')) content ahead goes' quiet
    | true =>
      rw [Flow.advance_of_over goes filled ahead finished] at on ⊢
      rw [Flow.incidents_of_over goes filled ahead finished, ← List.append_assoc]
      rw [moved] at on ⊢
      have steady' := steady.fill (Flow.move_on on)
      refine ⟨?_, ?_⟩
      · intro quiet
        exact h.fill.move steady' content ahead on quiet
      · intro due base x current
        exact h.fill.fire steady' content ahead on due base current

end Balance

namespace Junction

theorem incidents_eq {j : Junction α} {base : TimeBase} (some : j.sync.timeBase = some base) :
    j.sync.incidents j.main j.overlay =
      j.flow.incidents ++ (j.next.1.event?.map Incident.offered).toList := by
  unfold Synchronizer.incidents
  rw [some]
  rfl

theorem incidents_of_unconfigured {j : Junction α} (none : j.sync.timeBase = none) :
    j.sync.incidents j.main j.overlay = [] := by
  unfold Synchronizer.incidents
  rw [none]

/-- An activation after which the output goes on keeps the balance. -/
theorem balance_next {j : Junction α} {J : List (Incident α)} {base : TimeBase}
    (some : j.sync.timeBase = some base) (steady : j.sync.Steady) (h : Balance j.sync.main J)
    (on : j.next.2.sync.eof = false) :
    Balance j.next.2.sync.main (J ++ j.sync.incidents j.main j.overlay) ∧
      j.next.2.sync.Steady := by
  have journal := incidents_eq some
  rw [next_eq some] at journal on ⊢
  cases finished : j.flow.advance.2.sync.eof with
  | false =>
    obtain ⟨waits, fires⟩ := h.advance (f := j.flow) steady finished
    rcases steady.advance (f := j.flow) with ended | ⟨steady', ready⟩
    · exact nomatch finished.symm.trans ended
    cases due : j.flow.advance.1 with
    | false =>
      rw [conclude_of_idle base finished due] at journal ⊢
      rw [journal]
      refine ⟨?_, steady'⟩
      have same := List.append_nil j.flow.incidents
      exact same.symm ▸ waits due
    | true =>
      obtain ⟨x, current⟩ := Option.isSome_iff_exists.1 (ready due).main_frame
      rw [conclude_of_due base finished due, Synchronizer.fire_of_frame current] at journal ⊢
      rw [journal, ← List.append_assoc]
      exact ⟨fires due base x current, steady'.afterEvent (ready due)⟩
  | true =>
    rw [conclude_of_eof base finished] at on
    exact nomatch on.symm.trans finished

/-- **A schedule keeps the balance** as long as the output goes on. -/
theorem balance_run {j : Junction α} {J : List (Incident α)} {base : TimeBase}
    (some : j.sync.timeBase = some base) (steady : j.sync.Steady) (h : Balance j.sync.main J)
    {S : List (Action α)} (on : (run j S).2.sync.eof = false) :
    Balance (run j S).2.sync.main (J ++ Report.journal (run j S).1) ∧
      (run j S).2.sync.Steady := by
  induction S generalizing j J with
  | nil =>
    show Balance j.sync.main (J ++ []) ∧ j.sync.Steady
    rw [List.append_nil]
    exact ⟨h, steady⟩
  | cons a S ih =>
    rw [run_cons] at on ⊢
    cases a with
    | push i f => cases i <;> exact ih some steady h on
    | close i => cases i <;> exact ih some steady h on
    | activate verdict =>
      have goes : j.next.2.sync.eof = false := by
        cases ended : j.next.2.sync.eof with
        | false => rfl
        | true => exact nomatch on.symm.trans (run_of_ended ended S)
      obtain ⟨balance, steady'⟩ := balance_next some steady h goes
      have later := ih (j := j.next.2) ((next_timeBase j).trans some) steady' balance on
      rw [List.append_assoc] at later
      exact later

end Junction

/-! ### What was taken in -/

namespace Flow

/-- What a look takes out of a queue is in its journal. -/
theorem look_pulled (f : Flow α) (i k : InputRole) :
    (f.queue k).frames = pulled k (f.lookIncidents i) ++ ((f.look i).2.queue k).frames := by
  by_cases same : k = i
  · subst same
    unfold lookIncidents
    have view := looked f k
    generalize f.look k = result at view ⊢
    cases view with
    | known content => rw [content]; rfl
    | frame wants queued =>
      rw [wants, queue_putSlot, queue_putQueue_self]
      simp [FrameQueue.consume, queued, pulled]
    | ended wants queued closed =>
      rw [wants, queue_updateLevel, queue_putSlot]
      simp [FrameQueue.consume, queued, closed, pulled]
    | missing wants queued closed =>
      rw [wants]
      simp [FrameQueue.consume, queued, closed, pulled]
  · have nothing : pulled k (f.lookIncidents i) = [] := by
      unfold lookIncidents
      split
      · rcases (f.queue i).consume.1 with x | _ | _
        · simp [pulled, Ne.symm same]
        · rfl
        · rfl
      · rfl
    rw [nothing, (look_of_ne f same).2]
    rfl

theorem fill_pulled (f : Flow α) (k : InputRole) :
    (f.queue k).frames = pulled k f.fillIncidents ++ (f.fill.2.queue k).frames := by
  rw [fillIncidents, pulled_append, List.append_assoc, fill_flow, ← look_pulled, ← look_pulled]

theorem pulled_moveIncidents (f : Flow α) (pts : Timestamp) (k : InputRole) :
    pulled k (f.moveIncidents pts) = [] := by
  have shift (i : InputRole) : pulled k (f.shiftIncidents i pts) = [] := by
    unfold shiftIncidents
    split <;> rfl
  rw [moveIncidents, pulled_append, shift, shift]
  rfl

theorem events_lookIncidents (f : Flow α) (i : InputRole) : events (f.lookIncidents i) = [] := by
  unfold lookIncidents
  split <;> rfl

theorem events_fillIncidents (f : Flow α) : events f.fillIncidents = [] := by
  rw [fillIncidents, events_append, events_lookIncidents, events_lookIncidents]
  rfl

/-- Rounds give out no events. -/
theorem events_incidents (f : Flow α) : events f.incidents = [] := by
  have moves (f : Flow α) (pts : Timestamp) : events (f.moveIncidents pts) = [] :=
    (Balance.aside_moveIncidents f pts).events_eq
  induction f using rounds_induct with
  | ended f ended =>
    rw [incidents_of_eof ended]
    rfl
  | missing f on missing =>
    rw [incidents_of_missing on missing]
    exact events_fillIncidents f
  | endless f on filled none =>
    rw [incidents_of_endless on filled none]
    exact events_fillIncidents f
  | move f on filled ahead ih =>
    cases finished : f.moved.1 || f.moved.2.sync.eof with
    | false =>
      rw [incidents_of_quiet on filled ahead finished, events_append, events_append,
        events_fillIncidents, moves, ih finished]
      rfl
    | true =>
      rw [incidents_of_over on filled ahead finished, events_append, events_fillIncidents, moves]
      rfl

theorem advance_pulled (f : Flow α) (k : InputRole) :
    (f.queue k).frames = pulled k f.incidents ++ (f.advance.2.queue k).frames := by
  induction f using rounds_induct with
  | ended f ended =>
    rw [advance_of_eof ended, incidents_of_eof ended]
    rfl
  | missing f on missing =>
    rw [advance_of_missing on missing, incidents_of_missing on missing]
    exact fill_pulled f k
  | endless f on filled none =>
    rw [advance_of_endless on filled none, incidents_of_endless on filled none]
    have filled := fill_pulled f k
    cases k <;> exact filled
  | move f on filled ahead ih =>
    have taken := fill_pulled f k
    have moved : (f.moved.2.queue k).frames = (f.fill.2.queue k).frames := by
      rw [moved_eq, move_queue]
    cases finished : f.moved.1 || f.moved.2.sync.eof with
    | false =>
      rw [advance_of_quiet on filled ahead finished, incidents_of_quiet on filled ahead finished,
        pulled_append, pulled_append, pulled_moveIncidents, List.append_nil, List.append_assoc,
        ← ih finished, moved]
      exact taken
    | true =>
      rw [advance_of_over on filled ahead finished, incidents_of_over on filled ahead finished,
        pulled_append, pulled_moveIncidents, List.append_nil, moved]
      exact taken

end Flow

namespace Junction

theorem next_pulled (j : Junction α) (k : InputRole) : (j.queue k).frames =
    pulled k (j.sync.incidents j.main j.overlay) ++ (j.next.2.queue k).frames := by
  cases some : j.sync.timeBase with
  | none =>
    rw [incidents_of_unconfigured some, next_of_unconfigured some]
    rfl
  | some base =>
    have offered : pulled k ((j.next.1.event?.map Incident.offered).toList) = [] := by
      rcases j.next.1.event? <;> rfl
    have taken := Flow.advance_pulled j.flow k
    rw [incidents_eq some, next_queue some, pulled_append, offered, List.append_nil, ← taken]
    cases k <;> rfl

/-- **What a schedule finds queued and pushes is what was taken in and what is still queued.** -/
theorem run_pulled (j : Junction α) (S : List (Action α)) (k : InputRole) :
    (j.queue k).frames ++ Action.pushed k S =
      pulled k (Report.journal (run j S).1) ++ ((run j S).2.queue k).frames := by
  have supplied (j : Junction α) (S : List (Action α)) : (j.queue k).frames ++ Action.pushed k S =
      ((j.supply fun i => Action.pushed i S).queue k).frames := by
    cases k <;> rfl
  induction S generalizing j with
  | nil => exact List.append_nil _
  | cons a S ih =>
    rw [run_cons]
    have later := ih (j.perform a).2
    cases a with
    | push i f =>
      rw [supplied, ← supply_push, ← supplied]
      exact later
    | close i => cases i <;> cases k <;> exact later
    | activate verdict =>
      have first := next_pulled j k
      show (j.queue k).frames ++ Action.pushed k S =
        pulled k (j.sync.incidents j.main j.overlay ++ Report.journal (run j.next.2 S).1) ++ _
      rw [first, pulled_append, List.append_assoc, List.append_assoc]
      exact congrArg _ later

/-- The journal of a run has the events that were reported. -/
theorem run_offered (j : Junction α) (S : List (Action α)) :
    events (Report.journal (run j S).1) = Report.events (run j S).1 := by
  have offered (j : Junction α) :
      events (j.sync.incidents j.main j.overlay) = j.next.1.event?.toList := by
    cases some : j.sync.timeBase with
    | none =>
      rw [incidents_of_unconfigured some, next_of_unconfigured some]
      rfl
    | some base =>
      rw [incidents_eq some, events_append, Flow.events_incidents, List.nil_append]
      rcases j.next.1.event? <;> rfl
  induction S generalizing j with
  | nil => rfl
  | cons a S ih =>
    have later := ih (j.perform a).2
    cases a with
    | push i f => exact later
    | close i => exact later
    | activate verdict =>
      show events (j.sync.incidents j.main j.overlay ++ Report.journal (run j.next.2 S).1) = _
      rw [events_append, offered]
      exact (congrArg _ later).trans (events_activate j verdict S).symm

/-! ### The accounts -/

/-- A synchronizer that has just been configured has an empty ledger. -/
theorem balance_configured (options : SyncOptions) (mainBase overlayBase base : TimeBase) :
    Balance (Synchronizer.configured (α := α) options mainBase overlayBase base).main [] := by
  refine .going ⟨?_, ?_, ?_, ?_, ?_⟩
  · rcases options with ⟨action, shortest, repeatLast⟩
    rcases shortest <;> rfl
  · exact List.not_mem_nil
  · rcases options with ⟨action, shortest, repeatLast⟩
    rcases shortest <;> rfl
  · exact fun _ => rfl
  · rcases options with ⟨action, shortest, repeatLast⟩
    rcases shortest <;> exact fun running => nomatch running

/-- What a balance says about the journal. -/
theorem accounts_of_balance {main : Slot α} {J : List (Incident α)} (h : Balance main J)
    (state : main.state ≠ .exhausted) :
    (mainEnd ∉ J → taken J = given J ++ main.next.frame?.toList.map Stamped.content) ∧
    ∀ K L, J = K ++ mainEnd :: L → given K = taken J ∧ (taken J = [] → events L = []) ∧
      ∀ before x, taken J = before ++ [x] →
        (events L).map (fun e => (e.main.content, e.overlay)) =
          (promoted .overlay L).map fun y => (x, some y) := by
  cases h with
  | going ledger =>
    refine ⟨fun _ => ledger.account, ?_⟩
    intro K L split
    refine absurd ?_ ledger.no_end
    rw [split]
    exact List.mem_append_right _ List.mem_cons_self
  | @shut J₁ J₂ ledger =>
    have account : taken (J₁ ++ mainEnd :: J₂) = given J₁ := by
      rw [taken_append, ledger.account]
      refine (congrArg _ ?_).trans (List.append_nil _)
      exact ledger.nothing
    refine ⟨?_, ?_⟩
    · intro unsaid
      exact absurd (List.mem_append_right _ List.mem_cons_self) unsaid
    · intro K L split
      obtain ⟨rfl, _, rfl⟩ :=
        (List.append_cons_inj_of_notMem ledger.no_end ledger.no_other).1 split
      rw [account]
      refine ⟨rfl, ?_, ?_⟩
      · intro none
        cases phase : main.state with
        | awaitingFirst => exact (ledger.first phase).2
        | running =>
          obtain ⟨before, x, given_eq, _⟩ := ledger.last phase
          rw [given_eq] at none
          simp at none
        | exhausted => exact absurd phase state
      · intro before x given_eq
        cases phase : main.state with
        | awaitingFirst =>
          rw [(ledger.first phase).1] at given_eq
          simp at given_eq
        | running =>
          obtain ⟨before', x', given_eq', _, pairs⟩ := ledger.last phase
          rw [given_eq'] at given_eq
          obtain rfl := List.singleton_inj.1 (List.append_inj_right' given_eq rfl)
          exact pairs
        | exhausted => exact absurd phase state

/-- **No main frame is lost, repeated or moved out of order.**  Whatever the timestamps, and
whatever a configured synchronizer has been through, take the journal of its run while the output
goes on.  It has the frames that were taken from the queue and the events that were given out.  As
long as the main input has not said that it ended, the main frames of the events are the frames
taken in, but for one that may lie ahead.  Once it has, they are the frames taken in, and after them
come events with the last of them, one for each overlay frame that became current since; none if
there has been no frame. -/
theorem run_accounts {s : Synchronizer α} {options : SyncOptions}
    {mainBase overlayBase base : TimeBase} {explicit : Option TimeBase} {j : Junction α}
    (configured : s.configure options mainBase overlayBase explicit = .ok (base, j.sync))
    {S : List (Action α)} (on : (run j S).2.sync.eof = false) :
    let J := Report.journal (run j S).1
    (j.main.frames ++ Action.pushed .main S = pulled .main J ++ (run j S).2.main.frames ∧
      events J = Report.events (run j S).1) ∧
    (mainEnd ∉ J →
      taken J = given J ++ (run j S).2.sync.main.next.frame?.toList.map Stamped.content) ∧
    ∀ K L, J = K ++ mainEnd :: L → given K = taken J ∧ (taken J = [] → events L = []) ∧
      ∀ before x, taken J = before ++ [x] →
        (events L).map (fun e => (e.main.content, e.overlay)) =
          (promoted .overlay L).map fun y => (x, some y) := by
  intro J
  obtain ⟨_, same⟩ := Synchronizer.configure_ok configured
  have some : j.sync.timeBase = some base := by rw [same]; rfl
  have steady : j.sync.Steady := same ▸ .configured _ _ _ _
  have start : Balance j.sync.main [] := same ▸ balance_configured _ _ _ _
  obtain ⟨balance, after⟩ := balance_run some steady start on
  exact ⟨⟨run_pulled j S .main, run_offered j S⟩, accounts_of_balance balance after.main_on⟩

/-- The main input ends after one frame, and an overlay frame comes later. -/
theorem run_accounts_main_first :
    let j : Junction Nat := ⟨.configured {} .micros .micros .micros, {}, {}⟩
    let S : List (Action Nat) := [.push .main ⟨1, some 0⟩, .close .main,
      .push .overlay ⟨2, some 5⟩, .activate (.ok ()), .activate (.ok ())]
    let J := Report.journal (run j S).1
    (run j S).2.sync.eof = false ∧ ∃ K L, J = K ++ mainEnd :: L ∧ given K = taken J := by
  intro j S J
  have configured : Synchronizer.new.configure {} .micros .micros (some .micros) =
      .ok (TimeBase.micros, j.sync) := rfl
  have on : (run j S).2.sync.eof = false := by decide +kernel
  have said : mainEnd ∈ J := by decide +kernel
  obtain ⟨K, L, split⟩ := List.append_of_mem said
  exact ⟨on, K, L, split, ((run_accounts configured on).2.2 K L split).1⟩

end Junction

end FrameOverlay
