import FrameOverlay.Proofs.Sync.Stages

/-!
# The clock of the events

If the timestamps of neither input go back, the times of the events do not either.  An event happens at the
earliest timestamp ahead; what lies ahead of a slot is found out at different times, and the end of an input
has a time of its own, right after the frame that became current last.

* `Onward` — a relation between `<` and `≤`, so that both orders are treated at once;
* `Slot.OnTime` — **the invariant of one slot**: what was current is not later than the clock, and what lies
  ahead is;
* `OnTime.lookAtFrame`, `OnTime.lookAtEnd`, `OnTime.movedTo` — what a slot does keeps it;
* `Timely` — what an event says about time;
* `Synchronizer.OnTime` — **the invariant of both slots, the clock and the journal**, with one lemma for
  each step;
* `Junction.run_onTime` — the same for a schedule, by induction over it;
* `Junction.run_clock` — **event time never runs backwards**.
-/

namespace FrameOverlay

open Incident

variable {α : Type}

/-- A relation between `<` and `≤`. -/
structure Onward (R : Timestamp → Timestamp → Prop) : Prop where
  le {a b : Timestamp} (h : R a b) : a ≤ b
  of_lt {a b : Timestamp} (h : a < b) : R a b

namespace Onward

variable {R : Timestamp → Timestamp → Prop} {a b c : Timestamp}

theorem weak : Onward (· ≤ ·) := ⟨id, Int64.le_of_lt⟩

theorem strict : Onward (· < ·) := ⟨Int64.le_of_lt, id⟩

theorem of_le (h : Onward R) (le : a ≤ b) (onward : R b c) : R a c := by
  by_cases same : a = b
  · rwa [same]
  · exact h.of_lt (Int64.lt_of_lt_of_le (Int64.lt_of_le_of_ne le same) (h.le onward))

end Onward

/-! ### One slot -/

namespace Slot

/-- What a slot has to do with the clock.  The clock stands at `now`; the input has given the frames `taken`,
of which `shown` have become current.  As long as the synchronizer is `idle` no slot has moved, and what
comes first has nothing to be compared with. -/
structure OnTime (R : Timestamp → Timestamp → Prop) (idle : Prop) (now : Timestamp) (s : Slot α)
    (taken shown : List (Stamped α)) : Prop where
  ledger : shown ++ s.next.frame?.toList = taken
  last {t : Timestamp} (running : s.stamp? = some t) : ∃ x, shown.getLast? = some x ∧ x.time = t
  current {x : Stamped α} (held : s.current? = some x) : shown.getLast? = some x
  here (wants : s.wants = true) : (s.stamp? = none ∧ idle) ∨ s.stamp? = some now
  past {x : Stamped α} (earlier : x ∈ shown) : x.time ≤ now
  later {x : Stamped α} (next : s.next = .frame x) : idle ∨ R now x.time
  ends {e : Timestamp} (next : s.next = .ended e) : e = Timestamp.endless ∨ now < e

namespace OnTime

variable {R : Timestamp → Timestamp → Prop} {idle idle' : Prop} {now pts : Timestamp} {s : Slot α}
  {taken shown : List (Stamped α)}

theorem mono (h : s.OnTime R idle now taken shown) (weaker : idle → idle') :
    s.OnTime R idle' now taken shown where
  ledger := h.ledger
  last := h.last
  current := h.current
  here wants := (h.here wants).imp_left (And.imp_right weaker)
  past := h.past
  later next := (h.later next).imp_left weaker
  ends := h.ends

theorem fresh (phase : s.phase = .awaitingFirst .unknown) (start : idle) :
    s.OnTime R idle now [] [] := by
  have next : s.next = .unknown := by simp [Slot.next, phase]
  have stamp : s.stamp? = none := by simp [stamp?, phase]
  have current : s.current? = none := by simp [current?, phase]
  exact
    { ledger := by rw [next]; rfl
      last := fun running => absurd (stamp.symm.trans running) (by simp)
      current := fun held => absurd (current.symm.trans held) (by simp)
      here := fun _ => .inl ⟨stamp, start⟩
      past := fun earlier => absurd earlier List.not_mem_nil
      later := fun ahead => absurd (next.symm.trans ahead) (by simp)
      ends := fun ahead => absurd (next.symm.trans ahead) (by simp) }

/-- A frame that comes to lie ahead is later than the one that became current last, and the clock still
stands where that one made it stand. -/
theorem lookAtFrame (h : s.OnTime R idle now taken shown) (wants : s.wants = true) (target : TimeBase)
    (f : Stamped α) (sorted : (taken ++ [f.rescaled s.timeBase target]).Pairwise fun a b =>
      R a.time b.time) :
    (s.lookAtFrame target f).OnTime R idle now (taken ++ [f.rescaled s.timeBase target]) shown := by
  have next := lookAtFrame_next target f wants
  have shown_eq : shown = taken := by
    have ledger := h.ledger
    rw [((wants_iff s).1 wants).2] at ledger
    rw [← ledger]
    exact (List.append_nil _).symm
  refine ⟨?_, ?_, ?_, ?_, h.past, ?_, ?_⟩
  · rw [next, shown_eq]
    rfl
  · rw [lookAtFrame_stamp?]
    exact h.last
  · rw [lookAtFrame_current?]
    exact h.current
  · intro again
    exact nomatch (lookAtFrame_wants target f wants).symm.trans again
  · intro x ahead
    obtain rfl := Lookahead.frame.inj (next.symm.trans ahead)
    rcases h.here wants with ⟨-, idle⟩ | running
    · exact .inl idle
    · obtain ⟨y, last, time⟩ := h.last running
      have member : y ∈ taken := shown_eq ▸ List.mem_of_getLast? last
      right
      rw [← time]
      exact (List.pairwise_append.1 sorted).2.2 y member _ List.mem_cons_self
  · intro e ahead
    exact nomatch next.symm.trans ahead

/-- An end that comes to lie ahead takes effect after the clock, or never. -/
theorem lookAtEnd (h : s.OnTime R idle now taken shown) (wants : s.wants = true) :
    s.lookAtEnd.OnTime R idle now taken shown := by
  have next := lookAtEnd_next wants
  refine ⟨?_, ?_, ?_, ?_, h.past, ?_, ?_⟩
  · have ledger := h.ledger
    rw [((wants_iff s).1 wants).2] at ledger
    rw [next]
    exact ledger
  · rw [lookAtEnd_stamp?]
    exact h.last
  · rw [lookAtEnd_current?]
    exact h.current
  · intro again
    exact nomatch (lookAtEnd_wants wants).symm.trans again
  · intro x ahead
    exact nomatch next.symm.trans ahead
  · intro e ahead
    obtain rfl := Lookahead.ended.inj (next.symm.trans ahead)
    rw [endTime_eq]
    rcases h.here wants with ⟨none, -⟩ | running
    · rw [none]
      exact .inl rfl
    · rw [running, Option.elim_some]
      split
      · exact .inl rfl
      · by_cases last : Timestamp.next now = Timestamp.endless
        · exact .inl last
        · exact .inr ((Timestamp.next_le_iff last).1 (Int64.le_refl _))

section Move

variable (h : s.OnTime R idle now taken shown) (forward : now ≤ pts)
include h forward

/-- What lies ahead of a slot that does not move to the clock lies behind it. -/
theorem stays (order : Onward R) (content : s.wants = false)
    (behind : s.next.isKnown = true → pts < s.next.pts) : s.OnTime R False pts taken shown := by
  refine ⟨h.ledger, h.last, h.current, ?_, ?_, ?_, ?_⟩
  · intro wants
    exact nomatch content.symm.trans wants
  · intro x earlier
    exact Int64.le_trans (h.past earlier) forward
  · intro x next
    rw [next] at behind
    exact .inr (order.of_lt (behind rfl))
  · intro e next
    rw [next] at behind
    exact .inr (behind rfl)

/-- The frame ahead becomes current. -/
theorem shows {x : Stamped α} (next : s.next = .frame x) (time : x.time = pts) :
    s.promote.OnTime R False pts taken (shown ++ [x]) := by
  have ledger := h.ledger
  rw [next] at ledger
  have unknown := s.promote_next
  rw [promote_of_frame next] at unknown ⊢
  refine ⟨?_, ?_, ?_, ?_, ?_, ?_, ?_⟩
  · rw [unknown, ← ledger]
    exact List.append_nil _
  · intro t running
    exact ⟨x, List.getLast?_concat, Option.some.inj running⟩
  · intro y held
    obtain rfl := Option.some.inj held
    exact List.getLast?_concat
  · intro wants
    exact .inr (congrArg some time)
  · intro y shown
    rcases List.mem_append.1 shown with earlier | new
    · exact Int64.le_trans (h.past earlier) forward
    · rw [List.mem_singleton.1 new, time]
      exact Int64.le_refl _
  · intro y ahead
    exact nomatch unknown.symm.trans ahead
  · intro e ahead
    exact nomatch unknown.symm.trans ahead

/-- The end of the input takes effect. -/
theorem gone (bare : ∀ x, s.next ≠ .frame x) : s.promote.OnTime R False pts taken shown := by
  have none : s.next.frame? = none := by
    cases next : s.next with
    | frame x => exact absurd next (bare x)
    | unknown => rfl
    | ended e => rfl
  have ledger := h.ledger
  rw [none] at ledger
  rw [promote_of_not_frame bare]
  exact
    { ledger := ledger
      last := fun running => nomatch running
      current := fun held => nomatch held
      here := fun wants => nomatch wants
      past := fun earlier => Int64.le_trans (h.past earlier) forward
      later := fun ahead => nomatch ahead
      ends := fun ahead => nomatch ahead }

/-- A move takes the clock to what lies ahead of a slot, or leaves that behind. -/
theorem movedTo (order : Onward R) (content : s.wants = false) (before : s.before ≠ .infinity)
    (le : pts ≤ s.nextTime) : (s.movedTo pts).OnTime R False pts taken
      (shown ++ if s.moves pts then s.next.frame?.toList else []) := by
  cases moves : s.moves pts with
  | false =>
    rw [movedTo_of_stays moves, if_neg Bool.false_ne_true, List.append_nil]
    refine h.stays forward order content fun known => ?_
    rw [nextTime, if_pos known] at le
    refine Int64.lt_of_le_of_ne le fun same => Bool.false_ne_true ?_
    rw [← moves, (moves_iff before).2 same.symm]
  | true =>
    have time : s.next.pts = pts := (moves_iff before).1 moves
    rw [movedTo_of_moves moves, if_pos rfl]
    cases next : s.next with
    | frame x =>
      rw [next] at time
      exact h.shows forward next time
    | unknown =>
      have spent := h.gone forward (by simp [next])
      exact (List.append_nil shown).symm ▸ spent
    | ended e =>
      have spent := h.gone forward (by simp [next])
      exact (List.append_nil shown).symm ▸ spent

end Move

theorem takeCurrent (h : s.OnTime R idle now taken shown) :
    s.takeCurrent.OnTime R idle now taken shown where
  ledger := by rw [takeCurrent_next]; exact h.ledger
  last := by rw [takeCurrent_stamp?]; exact h.last
  current held := by rw [takeCurrent_current?] at held; exact nomatch held
  here wants := by
    rw [takeCurrent_stamp?]
    rw [wants_iff, takeCurrent_state, takeCurrent_next, ← wants_iff] at wants
    exact h.here wants
  past := h.past
  later next := h.later (by rwa [takeCurrent_next] at next)
  ends next := h.ends (by rwa [takeCurrent_next] at next)

end OnTime

end Slot

/-! ### Both slots -/

/-- What an event that comes after the journal `K` says about time.  Its main frame is the one that became
current last, with the time of the event instead of its own, which is not later; and so is the overlay frame,
with its own. -/
structure Timely (K : List (Incident α)) (e : SyncEvent α) : Prop where
  main : ∃ x, (promoted .main K).getLast? = some x ∧
    e.main = { x with pts := Timestamp.toOption e.pts } ∧ x.time ≤ e.pts
  overlay {y : Stamped α} (shown : e.overlay = some y) :
    (promoted .overlay K).getLast? = some y ∧ y.time ≤ e.pts

/-- The events of a journal are those of its front and those behind it. -/
theorem timely_append {J K : List (Incident α)}
    (front : ∀ A e L, J = A ++ .offered e :: L → Timely A e)
    (back : ∀ A e L, K = A ++ .offered e :: L → Timely (J ++ A) e) (A : List (Incident α))
    (e : SyncEvent α) (L : List (Incident α)) (split : J ++ K = A ++ .offered e :: L) : Timely A e := by
  rcases List.append_eq_append_iff.1 split with ⟨B, rfl, rest⟩ | ⟨B, rfl, rest⟩
  · exact back B e L rest
  · cases B with
    | nil =>
      rw [List.append_nil] at back
      have first := back [] e L rest.symm
      rwa [List.append_nil] at first
    | cons a B =>
      obtain ⟨rfl, -⟩ := List.cons.inj rest
      exact front A e B rfl

/-- The frames that the inputs have given, stamped by `stamp`, are in order. -/
def InOrder (R : Timestamp → Timestamp → Prop) (stamp : InputRole → Stamped α → Stamped α)
    (J : List (Incident α)) : Prop :=
  ∀ i, ((pulled i J).map (stamp i)).Pairwise fun a b => R a.time b.time

theorem InOrder.left {R : Timestamp → Timestamp → Prop} {stamp : InputRole → Stamped α → Stamped α}
    {J K : List (Incident α)} (h : InOrder R stamp (J ++ K)) : InOrder R stamp J := by
  intro i
  have both := h i
  rw [pulled_append, List.map_append] at both
  exact (List.pairwise_append.1 both).1

namespace Synchronizer

/-- No slot has had a frame. -/
def Idle (s : Synchronizer α) : Prop := ∀ i, (s.slot i).state = .awaitingFirst

/-- A frame of an input with the timestamp that it has once it lies ahead. -/
def stamped (s : Synchronizer α) (i : InputRole) (x : Stamped α) : Stamped α :=
  x.rescaled (s.slot i).timeBase (s.timeBase.getD .micros)

/-- Both slots are on time, and so are the events of the journal `J`.  Frames are stamped by `stamp`. -/
structure OnTime (R : Timestamp → Timestamp → Prop) (stamp : InputRole → Stamped α → Stamped α)
    (s : Synchronizer α) (J : List (Incident α)) : Prop where
  stamps : s.stamped = stamp
  inputs (i : InputRole) :
    (s.slot i).OnTime R s.Idle s.pts ((pulled i J).map (stamp i)) (promoted i J)
  idle (fresh : s.Idle) : s.pts = Timestamp.unset ∧ Incident.events J = []
  past {e : SyncEvent α} (earlier : e ∈ Incident.events J) : e.pts ≤ s.pts
  sorted : (Incident.events J).Pairwise fun a b => R a.pts b.pts
  timely (K : List (Incident α)) (e : SyncEvent α) (L : List (Incident α))
    (split : J = K ++ .offered e :: L) : Timely K e

/-- No slot has a frame ahead that is earlier than one of the events. -/
def NotBehind (events : List (SyncEvent α)) (s : Synchronizer α) : Prop :=
  ∀ i x, (s.slot i).next = .frame x → ∀ e ∈ events, e.pts ≤ x.time

end Synchronizer

namespace Flow

theorem look_pts (f : Flow α) (i : InputRole) : (f.look i).2.sync.pts = f.sync.pts := by
  have level (s : Synchronizer α) : s.updateLevel.pts = s.pts := by
    unfold Synchronizer.updateLevel
    dsimp only
    split <;> rfl
  have view := looked f i
  generalize f.look i = result at view ⊢
  cases view with
  | known => rfl
  | frame => cases i <;> rfl
  | ended => cases i <;> exact level _
  | missing => rfl

/-- A look does not change how frames are stamped. -/
theorem look_stamped (f : Flow α) (i : InputRole) : (f.look i).2.sync.stamped = f.sync.stamped := by
  have base : ∀ k, ((f.look i).2.sync.slot k).timeBase = (f.sync.slot k).timeBase := by
    intro k
    by_cases same : k = i
    · subst same
      have view := looked f k
      generalize f.look k = result at view ⊢
      cases view with
      | known => rfl
      | frame => rw [slot_putSlot_self]; rfl
      | ended => rw [slot_updateLevel, slot_putSlot_self]; rfl
      | missing => rfl
    · rw [(look_of_ne f same).1]
  funext k x
  unfold Synchronizer.stamped
  rw [base, look_timeBase]

end Flow

namespace Synchronizer

/-- A move keeps the stages of both slots in order. -/
theorem Staged.moved {f : Flow α} (h : f.sync.Staged) (filled : f.fill.1 = false)
    (ahead : f.fill.2.sync.nextTime ≠ Timestamp.endless) : f.moved.2.sync.Staged := by
  rw [Flow.moved_eq]
  have looked : f.fill.2.sync.Staged := (h.look .main).look .overlay
  exact (Flow.passes_move looked (Flow.fill_content filled) ahead).staged_last looked

namespace NotBehind

variable {s t : Synchronizer α} {E E' : List (SyncEvent α)}

/-- What lies ahead is the same, or not known. -/
theorem of_next (h : s.NotBehind E)
    (next : ∀ i, (t.slot i).next = (s.slot i).next ∨ (t.slot i).next = .unknown) : t.NotBehind E := by
  intro i x ahead
  rcases next i with same | unknown
  · exact h i x (same.symm.trans ahead)
  · exact nomatch unknown.symm.trans ahead

theorem of_subset (h : s.NotBehind E') (fewer : E ⊆ E') : s.NotBehind E :=
  fun i x next e earlier => h i x next e (fewer earlier)

end NotBehind

namespace OnTime

variable {R : Timestamp → Timestamp → Prop} {stamp : InputRole → Stamped α → Stamped α}
  {s t : Synchronizer α} {J K : List (Incident α)}

theorem notBehind (h : s.OnTime R stamp J) (order : Onward R) : s.NotBehind (Incident.events J) := by
  intro i x next e earlier
  rcases (h.inputs i).later next with fresh | later
  · rw [(h.idle fresh).2] at earlier
    exact absurd earlier List.not_mem_nil
  · exact Int64.le_trans (h.past earlier) (order.le later)

/-- A step without an event. -/
theorem step (h : s.OnTime R stamp J) (stamps : t.stamped = s.stamped)
    (silent : Incident.events K = []) (forward : s.pts ≤ t.pts)
    (idle : t.Idle → s.Idle ∧ t.pts = s.pts)
    (inputs : ∀ i, (t.slot i).OnTime R t.Idle t.pts ((pulled i (J ++ K)).map (stamp i))
      (promoted i (J ++ K))) : t.OnTime R stamp (J ++ K) := by
  have same : Incident.events (J ++ K) = Incident.events J := by
    rw [events_append, silent, List.append_nil]
  refine ⟨stamps.trans h.stamps, inputs, ?_, ?_, ?_, ?_⟩
  · intro fresh
    obtain ⟨before, still⟩ := idle fresh
    rw [same, still]
    exact h.idle before
  · intro e earlier
    exact Int64.le_trans (h.past (same ▸ earlier)) forward
  · rw [same]
    exact h.sorted
  · refine timely_append h.timely fun A e L split => ?_
    have member : e ∈ Incident.events K := List.mem_filterMap.2 ⟨.offered e, by simp [split], rfl⟩
    rw [silent] at member
    exact absurd member List.not_mem_nil

/-! ### Looks -/

variable {f : Flow α}

theorem look (h : f.sync.OnTime R stamp J) {i : InputRole}
    (inOrder : InOrder R stamp (J ++ f.lookIncidents i)) :
    (f.look i).2.sync.OnTime R stamp (J ++ f.lookIncidents i) := by
  have state (k : InputRole) := (Flow.look_slot f i k).2.2.1
  have idle : (f.look i).2.sync.Idle ↔ f.sync.Idle := forall_congr' fun k => by rw [state k]
  have pts := Flow.look_pts f i
  have silent : ∀ k, promoted k (f.lookIncidents i) = [] := by
    intro k
    unfold Flow.lookIncidents
    split <;> rfl
  refine h.step (Flow.look_stamped f i) (f.events_lookIncidents i) (pts ▸ Int64.le_refl _)
    (fun fresh => ⟨idle.1 fresh, pts⟩) fun k => ?_
  rw [pts, promoted_append, silent, List.append_nil]
  have input := (h.inputs k).mono idle.2
  generalize (f.look i).2.sync.Idle = fresh at input ⊢
  by_cases same : k = i
  · subst same
    have ordered := inOrder k
    rw [pulled_append, List.map_append] at ordered ⊢
    have pulled_eq := Flow.look_pulled f k k
    have view := Flow.looked f k
    generalize f.look k = result at view pulled_eq ⊢
    cases view with
    | known content =>
      rw [List.self_eq_append_left] at pulled_eq
      rw [pulled_eq, List.map_nil, List.append_nil]
      exact input
    | @frame x rest wants queued =>
      rw [Flow.queue_putSlot, Flow.queue_putQueue_self, queued] at pulled_eq
      have taken : pulled k (f.lookIncidents k) = [x] := (List.append_cancel_right pulled_eq).symm
      have stamped : stamp k x = x.rescaled (f.sync.slot k).timeBase f.timeBase :=
        congrFun (congrFun h.stamps.symm k) x
      rw [taken, List.map_singleton, stamped] at ordered ⊢
      rw [Flow.slot_putSlot_self]
      exact input.lookAtFrame wants f.timeBase x ordered
    | ended wants queued closed =>
      rw [Flow.queue_updateLevel, Flow.queue_putSlot, List.self_eq_append_left] at pulled_eq
      rw [pulled_eq, List.map_nil, List.append_nil, Flow.slot_updateLevel, Flow.slot_putSlot_self]
      exact input.lookAtEnd wants
    | missing wants queued closed =>
      rw [List.self_eq_append_left] at pulled_eq
      rw [pulled_eq, List.map_nil, List.append_nil]
      exact input
  · obtain ⟨slot, queue⟩ := Flow.look_of_ne f same
    have pulled_eq := Flow.look_pulled f i k
    rw [queue, List.self_eq_append_left] at pulled_eq
    rw [slot, pulled_append, pulled_eq, List.append_nil]
    exact input

theorem fill (h : f.sync.OnTime R stamp J) (inOrder : InOrder R stamp (J ++ f.fillIncidents)) :
    f.fill.2.sync.OnTime R stamp (J ++ f.fillIncidents) := by
  rw [Flow.fillIncidents, ← List.append_assoc] at inOrder ⊢
  exact (h.look inOrder.left).look inOrder

/-! ### Moves -/

section Move

variable (h : f.sync.OnTime R stamp J) (order : Onward R) (follows : f.sync.Follows)
  (content : ∀ i, (f.sync.slot i).wants = false) (ahead : f.sync.nextTime ≠ Timestamp.endless)
include h order ahead

/-- What lies ahead is not earlier than the clock, nor at the clock when there have been events. -/
theorem forward : f.sync.Idle ∨ R f.sync.pts f.sync.nextTime := by
  obtain ⟨i, known, time⟩ := Flow.nextTime_known f.sync ahead
  cases next : (f.sync.slot i).next with
  | unknown => rw [next] at known; exact nomatch known
  | frame x =>
    rw [next] at time
    rw [← time]
    exact (h.inputs i).later next
  | ended e =>
    rw [next] at time
    rw [← time]
    rcases (h.inputs i).ends next with never | later
    · exact absurd (time.symm.trans never) ahead
    · exact .inr (order.of_lt later)

theorem forward_le : f.sync.pts ≤ f.sync.nextTime := by
  rcases h.forward order ahead with fresh | later
  · rw [(h.idle fresh).1]
    exact Timestamp.unset_le _
  · exact order.le later

/-- Events come before a move. -/
theorem before_move {e : SyncEvent α} (earlier : e ∈ Incident.events J) : R e.pts f.sync.nextTime := by
  rcases h.forward order ahead with fresh | later
  · rw [(h.idle fresh).2] at earlier
    exact absurd earlier List.not_mem_nil
  · exact order.of_le (h.past earlier) later

include follows content

theorem move : (f.move f.sync.nextTime).2.sync.OnTime R stamp
    (J ++ f.moveIncidents f.sync.nextTime) := by
  have sync := f.move_sync f.sync.nextTime
  have slot := Flow.move_slot f f.sync.nextTime
  have forward := h.forward_le order ahead
  have pts : (f.move f.sync.nextTime).2.sync.pts = f.sync.nextTime := by rw [sync]
  have aside := Balance.aside_moveIncidents f f.sync.nextTime
  refine h.step ?_ aside.events_eq (pts ▸ forward) ?_ ?_
  · funext i x
    unfold stamped
    rw [slot, sync]
    unfold Slot.movedTo
    split <;> rfl
  · -- the slot with what comes first has had its first frame now, or has ended after one
    intro fresh
    obtain ⟨i, known, time⟩ := Flow.nextTime_known f.sync ahead
    have state := fresh i
    rw [slot, Slot.movedTo_of_moves ((Slot.moves_iff (follows.before_ne i)).2 time)] at state
    exact absurd state (f.sync.slot i).promote_started
  · intro i
    have moved := (h.inputs i).movedTo forward order (content i) (follows.before_ne i)
      (f.sync.nextTime_le i)
    rw [slot, pts, pulled_append, Flow.pulled_moveIncidents, List.append_nil, promoted_append,
      Balance.promoted_moveIncidents]
    exact moved.mono False.elim

end Move

/-! ### Activations -/

theorem finish (h : s.OnTime R stamp J) : s.finish.OnTime R stamp J := by
  have slot (i : InputRole) : s.finish.slot i = s.slot i := by cases i <;> rfl
  have idle : s.finish.Idle ↔ s.Idle := by simp only [Idle, slot]
  refine ⟨?_, fun i => ?_, fun fresh => h.idle (idle.1 fresh), h.past, h.sorted, h.timely⟩
  · rw [← h.stamps]
    funext i x
    unfold stamped
    rw [slot]
    rfl
  · rw [slot]
    exact (h.inputs i).mono idle.2

/-- The move of a round. -/
theorem moved (h : f.sync.OnTime R stamp J) (order : Onward R) (staged : f.sync.Staged)
    (filled : f.fill.1 = false) (ahead : f.fill.2.sync.nextTime ≠ Timestamp.endless)
    (inOrder : InOrder R stamp (J ++ f.fillIncidents)) :
    f.moved.2.sync.OnTime R stamp
        (J ++ f.fillIncidents ++ f.fill.2.moveIncidents f.fill.2.sync.nextTime) ∧
      ∀ e ∈ Incident.events J, R e.pts f.moved.2.sync.pts := by
  have looked := h.fill inOrder
  have staged := ((staged.look .main).look .overlay).toFollows
  rw [Flow.moved_eq]
  refine ⟨looked.move order staged (Flow.fill_content filled) ahead, fun e earlier => ?_⟩
  have pts : (f.fill.2.move f.fill.2.sync.nextTime).2.sync.pts = f.fill.2.sync.nextTime := by
    rw [f.fill.2.move_sync]
  rw [pts]
  refine looked.before_move order ahead ?_
  rwa [events_append, Flow.events_fillIncidents, List.append_nil]

/-- Rounds keep both slots on time, and the clock is past all earlier events when they make one due. -/
theorem advance (h : f.sync.OnTime R stamp J) (order : Onward R) (staged : f.sync.Staged)
    (inOrder : InOrder R stamp (J ++ f.incidents)) :
    f.advance.2.sync.OnTime R stamp (J ++ f.incidents) ∧
      (f.advance.1 = true → ∀ e ∈ Incident.events J, R e.pts f.advance.2.sync.pts) := by
  induction f using Flow.rounds_induct generalizing J with
  | ended f ended =>
    rw [Flow.advance_of_eof ended, Flow.incidents_of_eof ended, List.append_nil]
    exact ⟨h, fun due => nomatch due⟩
  | missing f on missing =>
    rw [Flow.incidents_of_missing on missing] at inOrder ⊢
    rw [Flow.advance_of_missing on missing]
    exact ⟨h.fill inOrder, fun due => nomatch due⟩
  | endless f on filled none =>
    rw [Flow.incidents_of_endless on filled none] at inOrder ⊢
    rw [Flow.advance_of_endless on filled none]
    exact ⟨(h.fill inOrder).finish, fun due => nomatch due⟩
  | move f on filled ahead ih =>
    cases finished : f.moved.1 || f.moved.2.sync.eof with
    | false =>
      rw [Flow.incidents_of_quiet on filled ahead finished, ← List.append_assoc,
        ← List.append_assoc] at inOrder ⊢
      rw [Flow.advance_of_quiet on filled ahead finished]
      obtain ⟨onTime, -⟩ := h.moved order staged filled ahead inOrder.left.left
      obtain ⟨after, later⟩ := ih finished onTime (staged.moved filled ahead) inOrder
      refine ⟨after, fun due e earlier => later due e ?_⟩
      rw [events_append, events_append]
      exact List.mem_append_left _ (List.mem_append_left _ earlier)
    | true =>
      rw [Flow.incidents_of_over on filled ahead finished, ← List.append_assoc] at inOrder ⊢
      rw [Flow.advance_of_over on filled ahead finished]
      obtain ⟨onTime, later⟩ := h.moved order staged filled ahead inOrder.left
      exact ⟨onTime, fun _ => later⟩

/-- An event that is due has the time of the clock. -/
theorem afterEvent (h : s.OnTime R stamp J) {x : Stamped α} (current : s.main.current? = some x)
    (later : ∀ e ∈ Incident.events J, R e.pts s.pts) (base : TimeBase) :
    s.afterEvent.OnTime R stamp (J ++ [.offered (s.eventWith base x)]) := by
  have events_eq : Incident.events (J ++ [.offered (s.eventWith base x)]) =
      Incident.events J ++ [s.eventWith base x] := events_append _ _
  have state (i : InputRole) : (s.afterEvent.slot i).state = (s.slot i).state := by
    cases i with
    | main => exact s.afterEvent_main_state
    | overlay => rfl
  have idle : s.afterEvent.Idle ↔ s.Idle := by simp only [Idle, state]
  have shown (i : InputRole) {y : Stamped α} (held : (s.slot i).current? = some y) :
      (promoted i J).getLast? = some y ∧ y.time ≤ s.pts := by
    have last := (h.inputs i).current held
    exact ⟨last, (h.inputs i).past (List.mem_of_getLast? last)⟩
  refine ⟨?_, fun i => ?_, fun fresh => ?_, ?_, ?_, ?_⟩
  · rw [← h.stamps]
    funext i y
    cases i with
    | main => exact congrArg (y.rescaled · _) (s.afterEvent_keeps Slot.timeBase rfl)
    | overlay => rfl
  · have nothing : pulled i [Incident.offered (s.eventWith base x)] = [] := rfl
    have none : promoted i [Incident.offered (s.eventWith base x)] = [] := rfl
    rw [pulled_append, nothing, List.append_nil, promoted_append, none, List.append_nil]
    have input := (h.inputs i).mono idle.2
    cases i with
    | main =>
      show s.afterEvent.main.OnTime _ _ s.pts _ _
      rcases s.afterEvent_main with same | taken
      · rw [same]
        exact input
      · rw [taken]
        exact input.takeCurrent
    | overlay => exact input
  · -- a slot that has a current frame has had one
    have waits : s.main.state = .awaitingFirst := idle.1 fresh .main
    unfold Slot.current? at current
    unfold Slot.state at waits
    split at current <;> simp_all
  · intro e member
    rw [events_eq] at member
    rcases List.mem_append.1 member with earlier | new
    · exact h.past earlier
    · rw [List.mem_singleton.1 new]
      exact Int64.le_refl _
  · rw [events_eq]
    refine List.pairwise_append.2 ⟨h.sorted, List.pairwise_singleton _ _, ?_⟩
    intro e earlier e' new
    rw [List.mem_singleton.1 new]
    exact later e earlier
  · refine timely_append h.timely fun A e L split => ?_
    rcases List.append_eq_singleton_iff.1 split.symm with ⟨rfl, one⟩ | ⟨-, none⟩
    case inr => exact absurd none (List.cons_ne_nil _ _)
    obtain rfl := Incident.offered.inj (List.cons.inj one).1
    rw [List.append_nil]
    obtain ⟨last, past⟩ := shown .main current
    exact ⟨⟨x, last, rfl, past⟩, fun held => shown .overlay held⟩

/-! ### Courses -/

theorem round_notBehind (h : f.sync.OnTime R stamp J) (order : Onward R)
    (inOrder : InOrder R stamp (J ++ f.fillIncidents)) :
    ∀ t ∈ f.roundCourse, t.NotBehind (Incident.events J) := by
  have looked := h.fill inOrder
  rw [Flow.fillIncidents, ← List.append_assoc] at inOrder
  have first := (h.look inOrder.left).notBehind order
  rw [events_append, Flow.events_lookIncidents, List.append_nil] at first
  have second := looked.notBehind order
  rw [events_append, Flow.events_fillIncidents, List.append_nil] at second
  have moved (i : InputRole) (pts : Timestamp) : ((f.fill.2.sync.slot i).movedTo pts).next =
      (f.fill.2.sync.slot i).next ∨ ((f.fill.2.sync.slot i).movedTo pts).next = .unknown := by
    unfold Slot.movedTo
    split
    · exact .inr (Slot.promote_next _)
    · exact .inl rfl
  intro t member
  unfold Flow.roundCourse at member
  dsimp only at member
  rcases List.mem_cons.1 member with rfl | member
  · exact first
  rcases List.mem_cons.1 member with rfl | member
  · exact second
  split at member
  · exact absurd member List.not_mem_nil
  split at member
  · rw [List.mem_singleton.1 member]
    exact second.of_next fun i => by cases i <;> exact .inl rfl
  rcases List.mem_cons.1 member with rfl | member
  · refine second.of_next fun i => ?_
    cases i with
    | main =>
      rw [Flow.shift_slot_self]
      exact moved .main _
    | overlay =>
      rw [Flow.shift_slot_of_ne _ _ _ (by decide)]
      exact .inl rfl
  · rw [List.mem_singleton.1 member]
    refine second.of_next fun i => ?_
    rw [Flow.move_slot]
    exact moved i _

theorem course_notBehind (h : f.sync.OnTime R stamp J) (order : Onward R) (staged : f.sync.Staged)
    (inOrder : InOrder R stamp (J ++ f.incidents)) :
    ∀ t ∈ f.course, t.NotBehind (Incident.events J) := by
  induction f using Flow.rounds_induct generalizing J with
  | ended f ended =>
    rw [Flow.course_of_eof ended]
    exact fun t member => absurd member List.not_mem_nil
  | missing f on missing =>
    rw [Flow.incidents_of_missing on missing] at inOrder
    rw [Flow.course_of_on on, Flow.round_of_missing missing, List.append_nil]
    exact h.round_notBehind order inOrder
  | endless f on filled none =>
    rw [Flow.incidents_of_endless on filled none] at inOrder
    rw [Flow.course_of_on on, Flow.round_of_endless filled none, List.append_nil]
    exact h.round_notBehind order inOrder
  | move f on filled ahead ih =>
    rw [Flow.course_of_on on]
    cases finished : f.moved.1 || f.moved.2.sync.eof with
    | false =>
      rw [Flow.incidents_of_quiet on filled ahead finished, ← List.append_assoc,
        ← List.append_assoc] at inOrder
      rw [Flow.round_of_quiet filled ahead finished]
      intro t member
      rcases List.mem_append.1 member with round | later
      · exact h.round_notBehind order inOrder.left.left t round
      · obtain ⟨onTime, -⟩ := h.moved order staged filled ahead inOrder.left.left
        refine (ih finished onTime (staged.moved filled ahead) inOrder t later).of_subset ?_
        rw [events_append, events_append]
        exact fun e earlier => List.mem_append_left _ (List.mem_append_left _ earlier)
    | true =>
      rw [Flow.incidents_of_over on filled ahead finished, ← List.append_assoc] at inOrder
      rw [Flow.round_of_over filled ahead finished, List.append_nil]
      exact h.round_notBehind order inOrder.left

theorem stamped_configured (options : SyncOptions) (mainBase overlayBase base : TimeBase) (x : Stamped α) :
    let s : Synchronizer α := .configured options mainBase overlayBase base
    s.stamped .main x = x.rescaled mainBase base ∧ s.stamped .overlay x = x.rescaled overlayBase base := by
  rcases options with ⟨action, shortest, repeatLast⟩
  cases shortest <;> cases repeatLast <;> exact ⟨rfl, rfl⟩

/-- A synchronizer that has just been configured is on time. -/
theorem configured (options : SyncOptions) (mainBase overlayBase base : TimeBase) :
    let s : Synchronizer α := .configured options mainBase overlayBase base
    s.OnTime R s.stamped [] := by
  intro s
  have fresh (i : InputRole) : (s.slot i).phase = .awaitingFirst .unknown := by
    rcases options with ⟨action, shortest, repeatLast⟩
    cases shortest <;> cases repeatLast <;> cases i <;> rfl
  have idle : s.Idle := fun i => by
    unfold Slot.state
    rw [fresh i]
  exact
    { stamps := rfl
      inputs := fun i => .fresh (fresh i) idle
      idle := fun _ => ⟨rfl, rfl⟩
      past := fun earlier => absurd earlier List.not_mem_nil
      sorted := .nil
      timely := fun K e L split => absurd split.symm (by simp) }

end OnTime

end Synchronizer

open Synchronizer

/-! ### Runs -/

namespace Junction

variable {R : Timestamp → Timestamp → Prop} {stamp : InputRole → Stamped α → Stamped α}

/-- An activation keeps both slots on time. -/
theorem next_onTime {j : Junction α} {J : List (Incident α)} (order : Onward R) (sound : j.sync.Sound)
    (staged : j.sync.Staged) (h : j.sync.OnTime R stamp J)
    (inOrder : InOrder R stamp (J ++ j.sync.incidents j.main j.overlay)) :
    j.next.2.sync.OnTime R stamp (J ++ j.sync.incidents j.main j.overlay) := by
  cases some : j.sync.timeBase with
  | none =>
    rw [incidents_of_unconfigured some, next_of_unconfigured some, List.append_nil]
    exact h
  | some base =>
    rw [incidents_eq some, ← List.append_assoc] at inOrder ⊢
    obtain ⟨rounds, later⟩ := OnTime.advance (f := j.flow) h order staged inOrder.left
    have view := concluded some sound
    generalize j.next = result at view ⊢
    -- without an event nothing is added to the journal of the rounds
    have silent := (List.append_nil (J ++ j.flow.incidents)).symm ▸ rounds
    cases view with
    | ended => exact silent
    | waits => exact silent
    | event on due current =>
      refine rounds.afterEvent current (fun e earlier => later due e ?_) base
      rwa [events_append, Flow.events_incidents, List.append_nil] at earlier

theorem sound_run {j : Junction α} (sound : j.sync.Sound) (S : List (Action α)) :
    (run j S).2.sync.Sound :=
  (runBy_keeps (P := fun j => j.sync.Sound) (Q := fun _ => True)
    (fun j a h => ⟨(sound_perform j a h).1, fun _ _ => trivial⟩) j S sound).1

/-- **A schedule keeps both slots on time.** -/
theorem run_onTime {j : Junction α} {J : List (Incident α)} (order : Onward R) (sound : j.sync.Sound)
    (staged : j.sync.Staged) (h : j.sync.OnTime R stamp J) (S : List (Action α))
    (inOrder : InOrder R stamp (J ++ Report.journal (run j S).1)) :
    (run j S).2.sync.OnTime R stamp (J ++ Report.journal (run j S).1) := by
  induction S generalizing j J with
  | nil =>
    have same := List.append_nil J
    exact same.symm ▸ h
  | cons a S ih =>
    rw [run_cons] at inOrder ⊢
    cases a with
    | push i f => cases i <;> exact ih sound staged h inOrder
    | close i => cases i <;> exact ih sound staged h inOrder
    | activate verdict =>
      have journal : J ++ Report.journal ((j.perform (.activate verdict)).1.toList ++
          (run (j.perform (.activate verdict)).2 S).1) =
          J ++ j.sync.incidents j.main j.overlay ++ Report.journal (run j.next.2 S).1 :=
        (List.append_assoc _ _ _).symm
      rw [journal] at inOrder ⊢
      have staged' := (passes_next sound staged).staged_last staged
      exact ih (sound_next sound).1 staged' (next_onTime order sound staged h inOrder.left) inOrder

/-- What lies ahead is not behind the events at any time during an activation. -/
theorem course_notBehind {j : Junction α} {J : List (Incident α)} (order : Onward R)
    (sound : j.sync.Sound) (staged : j.sync.Staged) (h : j.sync.OnTime R stamp J)
    (inOrder : InOrder R stamp (J ++ j.sync.incidents j.main j.overlay)) :
    ∀ t ∈ j.course, t.NotBehind (Incident.events J) := by
  have after := (next_onTime order sound staged h inOrder).notBehind order
  unfold course
  cases some : j.sync.timeBase with
  | none => exact fun t member => absurd member List.not_mem_nil
  | some base =>
    rw [incidents_eq some, ← List.append_assoc] at inOrder
    intro t member
    rcases List.mem_append.1 member with within | last
    · exact OnTime.course_notBehind (f := j.flow) h order staged inOrder.left t within
    · rw [List.mem_singleton.1 last]
      refine after.of_subset ?_
      rw [events_append]
      exact List.subset_append_left _ _

/-- The frames that an activation after a schedule has taken are among those queued and pushed. -/
theorem inOrder_of_schedule {j : Junction α} {S : List (Action α)} (ordered : ∀ i,
    (((j.queue i).frames ++ Action.pushed i S).map (stamp i)).Pairwise fun a b => R a.time b.time) :
    let j' := (run j S).2
    InOrder R stamp (Report.journal (run j S).1 ++ j'.sync.incidents j'.main j'.overlay) := by
  intro j' i
  have whole := ordered i
  rw [run_pulled, next_pulled, ← List.append_assoc, ← pulled_append, List.map_append] at whole
  exact (List.pairwise_append.1 whole).1

/-- What becomes current has been queued or pushed before, and comes in the same order. -/
theorem current_prefix {j : Junction α} {S : List (Action α)} {i : InputRole}
    (ledger : promoted i (Report.journal (run j S).1) ++ ((run j S).2.sync.slot i).next.frame?.toList =
      (pulled i (Report.journal (run j S).1)).map (stamp i)) :
    promoted i (Report.journal (run j S).1) <+:
      ((j.queue i).frames ++ Action.pushed i S).map (stamp i) := by
  rw [run_pulled, List.map_append, ← ledger, List.append_assoc]
  exact List.prefix_append _ _

/-- **Event time never runs backwards.**  Take a synchronizer that has just been configured, and a schedule
of pushes, closes and activations in which the timestamps of each input, in the time base of the events, do
not decrease; a frame without a timestamp counts as one with the least.

* The times of the events do not decrease.  If the timestamps of both inputs increase, so do the times of
  the events.
* An event is not earlier than its main frame, which is the one that became current last, nor than its
  overlay frame.  What becomes current are the frames that were queued and pushed, in order.
* After the schedule, and in every state of an activation after it, no frame that lies ahead is earlier than
  an event. -/
theorem run_clock {s : Synchronizer α} {options : SyncOptions} {mainBase overlayBase base : TimeBase}
    {explicit : Option TimeBase} {j : Junction α}
    (configured : s.configure options mainBase overlayBase explicit = .ok (base, j.sync))
    (S : List (Action α)) :
    let main := (j.main.frames ++ Action.pushed .main S).map (·.rescaled mainBase base)
    let overlay := (j.overlay.frames ++ Action.pushed .overlay S).map (·.rescaled overlayBase base)
    let J := Report.journal (run j S).1
    let events := Report.events (run j S).1
    main.Pairwise (fun a b => a.time ≤ b.time) → overlay.Pairwise (fun a b => a.time ≤ b.time) →
      (events.Pairwise fun a b => a.pts ≤ b.pts) ∧
      (main.Pairwise (fun a b => a.time < b.time) → overlay.Pairwise (fun a b => a.time < b.time) →
        events.Pairwise fun a b => a.pts < b.pts) ∧
      (Incident.events J = events ∧ ∀ K e L, J = K ++ .offered e :: L → Timely K e) ∧
      (promoted .main J <+: main ∧ promoted .overlay J <+: overlay) ∧
      ∀ t ∈ (run j S).2.sync :: (run j S).2.course, t.NotBehind events := by
  intro main overlay J events mainSorted overlaySorted
  obtain ⟨-, same⟩ := Synchronizer.configure_ok configured
  have sound : j.sync.Sound := same ▸ .inr (.inr (.configured _ _ _ _))
  have staged : j.sync.Staged := same ▸ .configured _ _ _ _
  have start {R : Timestamp → Timestamp → Prop} : j.sync.OnTime R j.sync.stamped [] :=
    same ▸ OnTime.configured _ _ _ _
  have stampMain : j.sync.stamped .main = (·.rescaled mainBase base) :=
    same ▸ funext fun x => (OnTime.stamped_configured _ _ _ _ x).1
  have stampOverlay : j.sync.stamped .overlay = (·.rescaled overlayBase base) :=
    same ▸ funext fun x => (OnTime.stamped_configured _ _ _ _ x).2
  have runs {R : Timestamp → Timestamp → Prop} (order : Onward R)
      (main : main.Pairwise fun a b => R a.time b.time)
      (overlay : overlay.Pairwise fun a b => R a.time b.time) :
      (run j S).2.sync.OnTime R j.sync.stamped J ∧
        ∀ t ∈ (run j S).2.course, t.NotBehind (Incident.events J) := by
    have inOrder : InOrder R j.sync.stamped (J ++
        (run j S).2.sync.incidents (run j S).2.main (run j S).2.overlay) := by
      refine inOrder_of_schedule fun i => ?_
      cases i with
      | main => rw [stampMain]; exact main
      | overlay => rw [stampOverlay]; exact overlay
    have onTime := run_onTime order sound staged start S inOrder.left
    have staged' := (passes_courseOf sound staged S).staged_last staged
    exact ⟨onTime, course_notBehind order (sound_run sound S) staged' onTime inOrder⟩
  obtain ⟨onTime, course⟩ := runs .weak mainSorted overlaySorted
  have offered : Incident.events J = events := run_offered j S
  rw [offered] at course
  refine ⟨?_, ?_, ⟨offered, onTime.timely⟩, ?_, ?_⟩
  · rw [← offered]
    exact onTime.sorted
  · intro mainStrict overlayStrict
    rw [← offered]
    exact (runs .strict mainStrict overlayStrict).1.sorted
  · have mainGiven := current_prefix (onTime.inputs .main).ledger
    have overlayGiven := current_prefix (onTime.inputs .overlay).ledger
    rw [stampMain] at mainGiven
    rw [stampOverlay] at overlayGiven
    exact ⟨mainGiven, overlayGiven⟩
  · intro t member
    rcases List.mem_cons.1 member with rfl | within
    · rw [← offered]
      exact onTime.notBehind .weak
    · exact course t within

/-- The overlay frame lies between two main frames, the first of which has no timestamp. -/
theorem run_clock_between :
    let j : Junction Nat := ⟨.configured {} .micros .micros .micros, {}, {}⟩
    let S : List (Action Nat) := [.push .main ⟨1, none⟩, .push .overlay ⟨3, some 5⟩,
      .push .main ⟨2, some 10⟩, .close .overlay, .activate (.ok ()), .activate (.ok ())]
    let events := Report.events (run j S).1
    events.map SyncEvent.pts = [Timestamp.unset, 10] ∧ events.Pairwise fun a b => a.pts < b.pts := by
  intro j S events
  have configured : Synchronizer.new.configure {} .micros .micros (some .micros) =
      .ok (TimeBase.micros, j.sync) := rfl
  exact ⟨by decide +kernel,
    (run_clock configured S (by decide) (by decide)).2.1 (by decide) (by decide)⟩

end Junction

end FrameOverlay
