import FrameOverlay.Proofs.Sync.Steady
import FrameOverlay.Proofs.Sync.Supply

/-!
# Schedules do not matter

Which events come out depends on the frames that go in, not on when they are queued, when the
inputs are closed, or when the synchronizer is activated.

* `Junction.supply` — the rest of both inputs queued at once, and both closed;
* `Junction.drain_next` — **an activation gives out what would have come first, had the rest been
  queued before it**;
* `Junction.drain_run` — the same for a schedule, by induction over it;
* `Junction.run_agree` — **two schedules of the same frames give out the same events**, as far as
  both have come.
-/

namespace FrameOverlay

variable {α : Type}

namespace Flow

/-- Without an event and without an end, an activation has come to a round that had to wait. -/
theorem advance_idle {f : Flow α} (idle : f.advance.1 = false) (on : f.advance.2.sync.eof = false) :
    ∃ g : Flow α, g.sync.eof = false ∧ g.fill.1 = true ∧ f.advance = (false, g.fill.2) := by
  induction f using rounds_induct with
  | ended f ended =>
    rw [advance_of_eof ended] at on
    exact nomatch ended.symm.trans on
  | missing f goes missing => exact ⟨f, goes, missing, advance_of_missing goes missing⟩
  | endless f goes filled none =>
    rw [advance_of_endless goes filled none] at on
    exact nomatch on
  | move f goes filled ahead ih =>
    cases finished : f.moved.1 || f.moved.2.sync.eof with
    | false =>
      rw [advance_of_quiet goes filled ahead finished] at idle on ⊢
      exact ih finished idle on
    | true =>
      rw [advance_of_over goes filled ahead finished] at idle on
      rw [idle, on] at finished
      exact nomatch finished

/-- A round that had to wait has nothing more to look at. -/
theorem fill_again {f : Flow α} (missing : f.fill.1 = true) : f.fill.2.fill = (true, f.fill.2) := by
  have again {g : Flow α} (main : (g.look .main).2 = g) (overlay : (g.look .overlay).2 = g)
      (flag : ((g.look .main).1 || (g.look .overlay).1) = true) : g.fill = (true, g) := by
    have first : g.fill.1 = true := by
      rw [fill_flag, main]
      exact flag
    have second : g.fill.2 = g := by
      rw [fill_flow, main]
      exact overlay
    exact Prod.ext first second
  cases main : (f.look .main).1 with
  | false =>
    have overlay : ((f.look .main).2.look .overlay).1 = true := by
      rwa [fill_flag, main, Bool.false_or] at missing
    have same : f.fill.2 = (f.look .main).2 := (missing_of_look overlay).1
    have known := look_of_known (look_content main)
    rw [same]
    refine again ?_ ?_ ?_
    · rw [known]
    · exact same
    · rw [overlay, Bool.or_true]
  | true =>
    obtain ⟨idle, wants, queued, closed⟩ := missing_of_look main
    have same : f.fill.2 = (f.look .overlay).2 := by
      rw [fill_flow, idle]
    obtain ⟨slot, queue⟩ := look_of_ne f (i := .overlay) (j := .main) (by decide)
    have stuck := look_of_missing (f := (f.look .overlay).2) (i := .main) (slot ▸ wants)
      (queue ▸ queued) (queue ▸ closed)
    rw [same]
    refine again ?_ ?_ ?_
    · rw [stuck]
    · cases overlay : (f.look .overlay).1 with
      | false => rw [look_of_known (look_content overlay)]
      | true =>
        rw [(missing_of_look overlay).1]
        exact (missing_of_look overlay).1
    · rw [stuck, Bool.true_or]

end Flow

/-- The event that is given out, where a main frame is there for it. -/
theorem Synchronizer.fire_paired {s : Synchronizer α} {base : TimeBase}
    (paired : ∀ pts, (s.fire base).1 ≠ .unpaired pts) : ∃ e, (s.fire base).1 = .event e := by
  cases current : s.main.current? with
  | none =>
    refine absurd ?_ (paired s.pts)
    unfold fire
    rw [current]
  | some frame =>
    rw [fire_of_frame current]
    exact ⟨_, rfl⟩

namespace Junction

/-! ### Activations and their rounds -/

theorem conclude_alike (base : TimeBase) {r r' : Bool × Flow α} (h : Flow.Alike r r') :
    conclude base r = conclude base r' := by
  obtain ⟨flag, same⟩ := h
  have sync : r.2.sync = r'.2.sync := congrArg Junction.sync same
  unfold conclude
  rw [flag, same, sync]

/-- Without an event that is due, the synchronizer and the queues stay as the rounds left them. -/
theorem conclude_silent (base : TimeBase) (f : Flow α) :
    (conclude base (false, f)).1.event? = none ∧ (conclude base (false, f)).2 = f.junction := by
  cases on : f.sync.eof with
  | false =>
    rw [conclude_of_idle base on rfl]
    exact ⟨rfl, rfl⟩
  | true =>
    rw [conclude_of_eof base on]
    exact ⟨rfl, rfl⟩

/-- What an activation says about its rounds. -/
theorem conclude_means (base : TimeBase) (r : Bool × Flow α) :
    ((conclude base r).1 = .ended → r.2.sync.eof = true) ∧
      ((conclude base r).1 = .needInput → r.1 = false ∧ r.2.sync.eof = false) := by
  have fired (s : Synchronizer α) : (s.fire base).1 ≠ .ended ∧ (s.fire base).1 ≠ .needInput := by
    unfold Synchronizer.fire
    split
    · exact ⟨nofun, nofun⟩
    · exact ⟨nofun, nofun⟩
  obtain ⟨due, f⟩ := r
  cases on : f.sync.eof with
  | false =>
    cases due with
    | false =>
      rw [conclude_of_idle base on rfl]
      exact ⟨nofun, fun _ => ⟨rfl, rfl⟩⟩
    | true =>
      rw [conclude_of_due base on rfl]
      exact ⟨fun h => absurd h (fired _).1, fun h => absurd h (fired _).2⟩
  | true =>
    rw [conclude_of_eof base on]
    exact ⟨fun _ => rfl, nofun⟩

/-! ### Draining -/

theorem drain_of_event {j j' : Junction α} {e : SyncEvent α} (h : j.next = (.event e, j')) :
    j.drain = (e :: j'.drain.1, j'.drain.2) := by
  rw [drain]
  split
  · next e' k h' =>
    rw [h] at h'
    injection h' with event same
    injection event with event
    subst event same
    rfl
  · next none =>
    exact absurd h (none e j')

theorem drain_of_silent {j : Junction α} (h : j.next.1.event? = none) : j.drain = ([], j.next) := by
  rw [drain]
  split
  · next e j' h' =>
    rw [h'] at h
    exact absurd h (Option.some_ne_none e)
  · rfl

theorem drain_congr {j k : Junction α} (h : j.next = k.next) : j.drain = k.drain := by
  cases event : j.next.1.event? with
  | none => rw [drain_of_silent event, drain_of_silent (h ▸ event), h]
  | some e =>
    have given : j.next = (.event e, j.next.2) := Prod.ext (Outcome.event?_eq_some.1 event) rfl
    rw [drain_of_event given, drain_of_event (h.symm.trans given)]

/-- Nothing comes out of an activation that ends the output. -/
theorem drain_of_eof {j : Junction α} (ended : j.flow.advance.2.sync.eof = true) :
    j.drain.1 = [] := by
  have silent : j.next.1.event? = none := by
    cases some : j.sync.timeBase with
    | none =>
      rw [next_of_unconfigured some]
      rfl
    | some base =>
      rw [next_eq some, conclude_of_eof base ended]
      rfl
  rw [drain_of_silent silent]

theorem drain_of_ended {j : Junction α} (ended : j.sync.eof = true) : j.drain.1 = [] := by
  refine drain_of_eof ?_
  rw [Flow.advance_of_eof (f := j.flow) ended]
  exact ended

/-! ### Queueing the rest -/

/-- The rest of both inputs queued, and both closed. -/
def supply (j : Junction α) (rest : InputRole → List (Stamped α)) : Junction α where
  sync := j.sync
  main := ⟨j.main.frames ++ rest .main, true⟩
  overlay := ⟨j.overlay.frames ++ rest .overlay, true⟩

variable {rest : InputRole → List (Stamped α)}

theorem extends_supply {f : Flow α} (orderly : ∀ i, (f.queue i).closed = true → rest i = []) :
    Flow.Extends rest f (f.junction.supply rest).flow where
  sync := rfl
  frames i := by cases i <;> rfl
  closed i := by cases i <;> rfl
  orderly := orderly

theorem junction_of_extends {f g : Flow α} (h : Flow.Extends rest f g) :
    g.junction = f.junction.supply rest :=
  h.junction_eq (extends_supply h.orderly)

/-- **One activation.**  What it gives out, and what then comes out once the rest is queued, is what
would come out had the rest been queued before. -/
theorem drain_next {j : Junction α} (paired : ∀ pts, j.next.1 ≠ .unpaired pts)
    (orderly : ∀ i, (j.queue i).closed = true → rest i = []) :
    j.next.1.event?.toList ++ (j.next.2.supply rest).drain.1 = (j.supply rest).drain.1 := by
  rcases some : j.sync.timeBase with _ | base
  · rw [next_of_unconfigured some]
    rfl
  have longer : Flow.Extends rest j.flow (j.supply rest).flow :=
    extends_supply (f := j.flow) orderly
  have supplied : (j.supply rest).next = conclude base (j.supply rest).flow.advance := next_eq some
  rw [next_eq some] at paired ⊢
  rcases longer.advance with ⟨flag, after, settled⟩ | ⟨f, g, on, missing, h, waits, same⟩
  · cases ended : j.flow.advance.2.sync.eof with
    | false =>
      -- an event is due, and it is the same with the rest queued
      have due : j.flow.advance.1 = true := by rwa [ended, Bool.or_false] at settled
      rw [conclude_of_due base ended due] at paired ⊢
      rw [conclude_of_due base (after.sync ▸ ended) (flag.trans due), after.sync,
        junction_of_extends after] at supplied
      obtain ⟨e, event⟩ := Synchronizer.fire_paired paired
      rw [event] at supplied ⊢
      rw [drain_of_event supplied]
      rfl
    | true =>
      rw [conclude_of_eof base ended, drain_of_eof (j := j.supply rest) (after.sync ▸ ended)]
      exact drain_of_ended ended
  · -- the round that has to wait starts anew with the rest queued
    obtain ⟨silent, left⟩ := conclude_silent base f.fill.2
    have timeBase : f.fill.2.sync.timeBase = Option.some base := by
      have := Flow.advance_timeBase j.flow
      rw [waits] at this
      exact this.trans some
    have h' : Flow.Extends rest f.fill.2 (f.fill.2.junction.supply rest).flow := by
      refine extends_supply ?_
      intro i closed
      rw [Flow.fill_flow, Flow.look_closes, Flow.look_closes] at closed
      exact h.orderly i closed
    rw [waits, silent, left]
    rcases h.advance_of_missing on missing h' with alike | ⟨ended, ended'⟩
    · have again : (j.supply rest).next = (f.fill.2.junction.supply rest).next := by
        rw [supplied, same, conclude_alike base alike]
        exact (next_eq timeBase).symm
      rw [drain_congr again]
      rfl
    · rw [drain_of_eof (j := j.supply rest) (same ▸ ended)]
      exact drain_of_eof ended'

end Junction

/-! ### Schedules -/

namespace Action

/-- Nothing is pushed to an input that has been closed. -/
theorem Orderly.pushed_eq_nil {closed : InputRole → Bool} {S : List (Action α)}
    (h : Orderly closed S) {i : InputRole} (hi : closed i = true) : pushed i S = [] := by
  induction S generalizing closed with
  | nil => rfl
  | cons a S ih =>
    cases a with
    | push j f =>
      have other : j ≠ i := by
        intro same
        exact nomatch (same ▸ h.1).symm.trans hi
      have skip : pushed i (push j f :: S) = pushed i S := by simp [pushed, other]
      rw [skip]
      exact ih h.2 hi
    | close j =>
      refine ih h ?_
      show (decide (i = j) || closed i) = true
      rw [hi, Bool.or_true]
    | activate verdict => exact ih h hi

end Action

namespace Junction

/-- The inputs that are closed. -/
def closed (j : Junction α) (i : InputRole) : Bool := (j.queue i).closed

theorem conclude_queue (base : TimeBase) (r : Bool × Flow α) (i : InputRole) :
    (conclude base r).2.queue i = r.2.queue i := by
  unfold conclude
  split
  · cases i <;> rfl
  · split <;> cases i <;> rfl

/-- An activation leaves the queues as its rounds did. -/
theorem next_queue {j : Junction α} {base : TimeBase} (some : j.sync.timeBase = some base)
    (i : InputRole) : j.next.2.queue i = j.flow.advance.2.queue i := by
  rw [next_eq some, conclude_queue]

theorem next_closed (j : Junction α) : j.next.2.closed = j.closed := by
  funext i
  cases some : j.sync.timeBase with
  | none => rw [next_of_unconfigured some]
  | some base =>
    have kept := Flow.advance_closes j.flow i
    unfold closed
    rw [next_queue some, kept]
    cases i <;> rfl

theorem next_timeBase (j : Junction α) : j.next.2.sync.timeBase = j.sync.timeBase := by
  have fired (s : Synchronizer α) (base : TimeBase) : (s.fire base).2.timeBase = s.timeBase := by
    unfold Synchronizer.fire
    rcases s.main.current? with _ | frame <;> rcases s.keepsMain with _ | _ <;> rfl
  cases some : j.sync.timeBase with
  | none =>
    rw [next_of_unconfigured some]
    exact some
  | some base =>
    have kept : j.flow.advance.2.sync.timeBase = Option.some base :=
      (Flow.advance_timeBase j.flow).trans some
    rw [next_eq some]
    unfold conclude
    split
    · exact kept
    · split
      · exact (fired _ _).trans kept
      · exact kept

theorem push_closed (j : Junction α) (i : InputRole) (f : Stamped α) :
    (j.putQueue i ((j.queue i).push f)).closed = j.closed := by
  funext k
  cases i <;> cases k <;> rfl

theorem close_closed (j : Junction α) (i : InputRole) :
    (j.putQueue i (j.queue i).close).closed = fun k => decide (k = i) || j.closed k := by
  funext k
  cases i <;> cases k <;> rfl

/-- Pushing a frame first and queueing the rest after it is queueing all. -/
theorem supply_push (j : Junction α) (i : InputRole) (f : Stamped α) (S : List (Action α)) :
    (j.putQueue i ((j.queue i).push f)).supply (fun k => Action.pushed k S) =
      j.supply fun k => Action.pushed k (.push i f :: S) := by
  cases i with
  | main =>
    have main : j.main.frames ++ [f] ++ Action.pushed .main S =
        j.main.frames ++ f :: Action.pushed .main S := List.append_cons _ _ _ |>.symm
    exact congrArg (fun frames => Junction.mk j.sync ⟨frames, true⟩ _) main
  | overlay =>
    have overlay : j.overlay.frames ++ [f] ++ Action.pushed .overlay S =
        j.overlay.frames ++ f :: Action.pushed .overlay S := List.append_cons _ _ _ |>.symm
    exact congrArg (fun frames => Junction.mk j.sync _ ⟨frames, true⟩) overlay

theorem supply_close (j : Junction α) (i : InputRole) (rest : InputRole → List (Stamped α)) :
    (j.putQueue i (j.queue i).close).supply rest = j.supply rest := by
  cases i <;> rfl

theorem run_cons (j : Junction α) (a : Action α) (S : List (Action α)) :
    run j (a :: S) = ((j.perform a).1.toList ++ (run (j.perform a).2 S).1,
      (run (j.perform a).2 S).2) := rfl

theorem events_activate (j : Junction α) (verdict : Except OverlayError Unit)
    (S : List (Action α)) : Report.events (run j (.activate verdict :: S)).1 =
      j.next.1.event?.toList ++ Report.events (run j.next.2 S).1 := by
  rcases event : j.next.1.event? with _ | e <;>
    simp [run_cons, perform, Report.events, event]

/-- **A schedule.**  What it gives out, followed by what would still come out if both inputs were
closed, is what would come out had all its frames been queued at the start and both inputs been
closed. -/
theorem drain_run {j : Junction α} (sound : j.sync.Sound) {S : List (Action α)}
    (orderly : Action.Orderly j.closed S) :
    Report.events (run j S).1 ++ ((run j S).2.supply fun _ => []).drain.1 =
      (j.supply fun i => Action.pushed i S).drain.1 := by
  -- what has been pushed so far is in the queues of `j`, what is still to be pushed in `supply`
  induction S generalizing j with
  | nil => rfl
  | cons a S ih =>
    have kept : (j.perform a).2.sync.Sound := (sound_perform j a sound).1
    have later := ih kept
    cases a with
    | push i f =>
      have orderly' : Action.Orderly (j.putQueue i ((j.queue i).push f)).closed S := by
        rw [push_closed]
        exact orderly.2
      rw [← supply_push]
      exact later orderly'
    | close i =>
      have orderly' : Action.Orderly (j.putQueue i (j.queue i).close).closed S := by
        rw [close_closed]
        exact orderly
      rw [show (fun k => Action.pushed k (.close i :: S)) = fun k => Action.pushed k S from rfl,
        ← supply_close j i]
      exact later orderly'
    | activate verdict =>
      have orderly' : Action.Orderly j.next.2.closed S := by
        rw [next_closed]
        exact orderly
      have paired := (sound_next sound).2
      have spent : ∀ i, (j.queue i).closed = true → Action.pushed i S = [] :=
        fun i hi => Action.Orderly.pushed_eq_nil (S := S) orderly hi
      have first := drain_next (j := j) paired spent
      rw [events_activate, List.append_assoc]
      exact (congrArg _ (later orderly')).trans first

/-! ### Ends and waits -/

/-- An output that has ended stays ended. -/
theorem perform_ended {j : Junction α} (ended : j.sync.eof = true) (a : Action α) :
    (j.perform a).2.sync.eof = true := by
  cases a with
  | push i f => cases i <;> exact ended
  | close i => cases i <;> exact ended
  | activate verdict =>
    show j.next.2.sync.eof = true
    cases some : j.sync.timeBase with
    | none =>
      rw [next_of_unconfigured some]
      exact ended
    | some base =>
      rw [next_eq some, Flow.advance_of_eof (f := j.flow) ended, conclude_of_eof base ended]
      exact ended

theorem run_of_ended {j : Junction α} (ended : j.sync.eof = true) (S : List (Action α)) :
    (run j S).2.sync.eof = true :=
  (runBy_keeps (P := fun j => j.sync.eof = true) (Q := fun _ => True)
    (fun _ a h => ⟨perform_ended h a, fun _ _ => trivial⟩) j S ended).1

/-- An activation that says so has found the output ended. -/
theorem next_ended {j : Junction α} (h : j.next.1 = .ended) : j.next.2.sync.eof = true := by
  cases some : j.sync.timeBase with
  | none =>
    rw [next_of_unconfigured some] at h
    exact nomatch h
  | some base =>
    rw [next_eq some] at h ⊢
    have finished := (conclude_means base j.flow.advance).1 h
    rw [conclude_of_eof base finished]
    exact finished

/-- Once an activation has said that the output has ended, it has. -/
theorem run_ended {j : Junction α} {S : List (Action α)}
    (h : ∃ r ∈ (run j S).1, r.outcome = .ended) : (run j S).2.sync.eof = true := by
  induction S generalizing j with
  | nil =>
    obtain ⟨r, hr, _⟩ := h
    exact nomatch hr
  | cons a S ih =>
    obtain ⟨r, hr, said⟩ := h
    rw [run_cons] at hr ⊢
    rcases List.mem_append.1 hr with first | later
    · have reported := Option.mem_toList.1 first
      cases a with
      | push i f => exact nomatch reported
      | close i => exact nomatch reported
      | activate verdict =>
        obtain rfl := Option.some.inj reported
        have ended : j.next.2.sync.eof = true := next_ended said
        exact run_of_ended ended S
    · exact ih ⟨r, later, said⟩

/-- An activation that had to wait, repeated at once, waits again and changes nothing. -/
theorem next_again {j : Junction α} (h : j.next.1 = .needInput) :
    j.next.2.next = (.needInput, j.next.2) := by
  rcases some : j.sync.timeBase with _ | base
  · rw [next_of_unconfigured some] at h
    exact nomatch h
  rw [next_eq some] at h ⊢
  obtain ⟨idle, on⟩ := (conclude_means base j.flow.advance).2 h
  obtain ⟨f, goes, missing, waits⟩ := Flow.advance_idle idle on
  have timeBase : f.fill.2.sync.timeBase = Option.some base := by
    have kept := Flow.advance_timeBase j.flow
    rw [waits] at kept
    exact kept.trans some
  rw [waits] at on ⊢
  rw [conclude_of_idle base on rfl]
  have again : f.fill.2.advance = (false, f.fill.2) := by
    have refill := Flow.fill_again missing
    rw [Flow.advance_of_missing on (by rw [refill]), refill]
  have alike : Flow.Alike f.fill.2.junction.flow.advance f.fill.2.advance := Flow.advance_alike rfl
  rw [next_eq (j := f.fill.2.junction) timeBase, conclude_alike base alike, again,
    conclude_of_idle base on rfl]

/-! ### Two schedules -/

/-- What a run gives out comes first in what the same frames, all queued at the start, give out; and
once an activation has said that the output has ended, it is all of that. -/
theorem run_prefix {j : Junction α} (sound : j.sync.Sound) {S : List (Action α)}
    (orderly : Action.Orderly j.closed S) :
    Report.events (run j S).1 <+: (j.supply fun i => Action.pushed i S).drain.1 ∧
      ((∃ r ∈ (run j S).1, r.outcome = .ended) →
        Report.events (run j S).1 = (j.supply fun i => Action.pushed i S).drain.1) := by
  have whole := drain_run sound orderly
  refine ⟨⟨_, whole⟩, ?_⟩
  intro said
  have nothing : ((run j S).2.supply fun _ => []).drain.1 = [] := drain_of_ended (run_ended said)
  rw [nothing, List.append_nil] at whole
  exact whole

/-- **Schedules do not matter.**  Take two schedules that push the same frames to each input of a
configured synchronizer, none of them to an input that has been closed, whatever their timestamps.
The events of one run come first in the events of the other, and they are the same once both runs
have been told that the output has ended.  An activation that had to wait, repeated at once, waits
again and changes nothing. -/
theorem run_agree {s : Synchronizer α} {options : SyncOptions}
    {mainBase overlayBase base : TimeBase} {explicit : Option TimeBase} {j : Junction α}
    (configured : s.configure options mainBase overlayBase explicit = .ok (base, j.sync))
    {S T : List (Action α)} (orderlyS : Action.Orderly j.closed S)
    (orderlyT : Action.Orderly j.closed T)
    (same : ∀ i, Action.pushed i S = Action.pushed i T) :
    (Report.events (run j S).1 <+: Report.events (run j T).1 ∨
      Report.events (run j T).1 <+: Report.events (run j S).1) ∧
    ((∃ r ∈ (run j S).1, r.outcome = .ended) → (∃ r ∈ (run j T).1, r.outcome = .ended) →
      Report.events (run j S).1 = Report.events (run j T).1) ∧
    ((run j S).2.next.1 = .needInput →
      (run j S).2.next.2.next = (.needInput, (run j S).2.next.2)) := by
  have sound : j.sync.Sound := by
    rw [(Synchronizer.configure_ok configured).2]
    exact .inr (.inr (.configured _ _ _ _))
  obtain ⟨firstS, wholeS⟩ := run_prefix sound orderlyS
  obtain ⟨firstT, wholeT⟩ := run_prefix sound orderlyT
  have supplies : (j.supply fun i => Action.pushed i S) = j.supply fun i => Action.pushed i T :=
    congrArg j.supply (funext same)
  rw [supplies] at firstS wholeS
  refine ⟨List.prefix_or_prefix_of_prefix firstS firstT, ?_, next_again⟩
  intro saidS saidT
  exact (wholeS saidS).trans (wholeT saidT).symm

/-- One schedule activates between two pushes, the other queues everything first. -/
theorem run_agree_interleaved :
    let j : Junction Nat := ⟨.configured {} .micros .micros .micros, {}, {}⟩
    let S : List (Action Nat) := [.push .main ⟨1, some 0⟩, .activate (.ok ()),
      .push .overlay ⟨2, some 0⟩, .close .main, .close .overlay, .activate (.ok ()),
      .activate (.ok ())]
    let T : List (Action Nat) := [.push .overlay ⟨2, some 0⟩, .push .main ⟨1, some 0⟩,
      .close .overlay, .close .main, .activate (.ok ()), .activate (.ok ())]
    Report.events (run j S).1 <+: Report.events (run j T).1 ∨
      Report.events (run j T).1 <+: Report.events (run j S).1 := by
  intro j S T
  have configured : Synchronizer.new.configure {} .micros .micros (some .micros) =
      .ok (TimeBase.micros, j.sync) := rfl
  have orderlyS : Action.Orderly j.closed S := by decide
  have orderlyT : Action.Orderly j.closed T := by decide
  have same : ∀ i, Action.pushed i S = Action.pushed i T := by
    intro i
    cases i <;> rfl
  exact (run_agree configured orderlyS orderlyT same).1

end Junction

end FrameOverlay
