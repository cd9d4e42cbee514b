import FrameOverlay.Proofs.Sync.Schedule
import FrameOverlay.Sync.Receiver

/-!
# Failing receivers

What becomes of an event is the receiver's business.  Whether it fails or not, the synchronizer has
already moved on.

* `Junction.activate_eq` — **the receiver is called last**, when the synchronizer has done all it does;
* `Junction.next_counts` — an activation numbers its event and counts it;
* `Junction.present_shape` — **what an activation tells its caller** is its receiver's answer, or that
  there was no event;
* `Junction.attendAll_numbered` — the events of a run are numbered in order, and their number is kept;
* `Junction.attendAll_alike` — two runs with different receivers, by induction over the schedule;
* `Junction.attendAll_undisturbed` — **failures never disturb the synchronizer**.
-/

namespace FrameOverlay

variable {σ τ α : Type}

namespace Notice

@[simp] theorem receipts_append (l k : List (Notice α)) :
    receipts (l ++ k) = receipts l ++ receipts k := List.flatMap_append

@[simp] theorem offered_append (l k : List (Notice α)) :
    offered (l ++ k) = offered l ++ offered k := by
  simp [offered]

/-- A notice of a configured synchronizer: the receiver was not called and the caller was told why, or
it was called once and the caller was told its answer. -/
def Told (n : Notice α) : Prop :=
  (n.calls = [] ∧ (n.result = .ok .needInput ∨ n.result = .ok .ended)) ∨
    ∃ c, n.calls = [c] ∧ n.result = c.verdict.map fun _ => .event

end Notice

namespace Junction

/-! ### One activation -/

/-- A call of the receiver leaves the synchronizer alone. -/
theorem call_eq (receive : Receiver σ α) (e : SyncEvent α) (j : Junction α) (s : σ) :
    (do receive.call e; return Activation.event : ReceiverM σ α Activation) (j, s) =
      match ((Outcome.event e).deliver receive : EStateM OverlayError σ Activation) s with
      | .ok a s => .ok a (j, s)
      | .error x s => .error x (j, s) := by
  simp only [Receiver.call, Outcome.deliver, bind, EStateM.bind]
  cases receive e s <;> rfl

/-- Offering an event is giving it out and then delivering it: the receiver finds the synchronizer in the
state in which the offer leaves it. -/
theorem offer_eq (receive : Receiver σ α) (base : TimeBase) (j : Junction α) (s : σ) :
    (do offer receive base; return Activation.event : ReceiverM σ α Activation) (j, s) =
      match ((j.sync.fire base).1.deliver receive : EStateM OverlayError σ Activation) s with
      | .ok a s => .ok a ({ j with sync := (j.sync.fire base).2 }, s)
      | .error x s => .error x ({ j with sync := (j.sync.fire base).2 }, s) := by
  unfold offer Synchronizer.fire
  simp only [getJunction, bind, EStateM.bind]
  cases current : j.sync.main.current? with
  | none => cases j.sync.keepsMain <;> rfl
  | some frame => cases j.sync.keepsMain <;> exact call_eq receive _ _ s

/-- **The receiver is called last.**  An activation with its receiver is an activation, after which the
receiver is called for what it has come to. -/
theorem activate_eq (receive : Receiver σ α) (j : Junction α) (s : σ) :
    activate receive (j, s) =
      match (j.next.1.deliver receive : EStateM OverlayError σ Activation) s with
      | .ok a s => .ok a (j.next.2, s)
      | .error x s => .error x (j.next.2, s) := by
  unfold activate
  simp only [getJunction, bind, EStateM.bind]
  cases some : j.sync.timeBase with
  | none =>
    rw [next_of_unconfigured some]
    rfl
  | some base =>
    rw [next_eq some]
    dsimp only
    generalize j.flow.advance = r
    cases on : r.2.sync.eof with
    | true =>
      rw [conclude_of_eof base on]
      rfl
    | false =>
      cases due : r.1 with
      | false =>
        rw [conclude_of_idle base on due]
        rfl
      | true =>
        rw [conclude_of_due base on due]
        exact offer_eq receive base r.2.junction s

/-- An activation of a schedule, for its caller. -/
theorem attend_activate (receive : Receiver σ α) (j : Junction α) (s : σ) :
    attend receive j s .activate =
      (some (present receive s j.next.1).1, j.next.2, (present receive s j.next.1).2) := by
  unfold attend present
  dsimp only
  rw [activate_eq]
  rcases (j.next.1.deliver receive.noted : EStateM OverlayError _ Activation) (s, []) with
    ⟨a, t⟩ | ⟨x, t⟩
  · rfl
  · rfl

/-- An activation counts its event, and numbers it with the count before. -/
theorem next_counts (j : Junction α) :
    j.next.2.sync.events = j.sync.events + j.next.1.event?.toList.length ∧
      ∀ e ∈ j.next.1.event?, e.index = j.sync.events := by
  have noEvent {P : SyncEvent α → Prop} : ∀ e ∈ (none : Option (SyncEvent α)), P e :=
    fun e he => absurd he (Option.not_mem_none e)
  rcases some : j.sync.timeBase with _ | base
  · rw [next_of_unconfigured some]
    exact ⟨rfl, noEvent⟩
  rw [next_eq some]
  have kept : j.flow.advance.2.sync.events = j.sync.events := (Flow.advance_sync j.flow).2
  generalize j.flow.advance = r at kept
  cases on : r.2.sync.eof with
  | true =>
    rw [conclude_of_eof base on]
    exact ⟨kept, noEvent⟩
  | false =>
    cases due : r.1 with
    | false =>
      rw [conclude_of_idle base on due]
      exact ⟨kept, noEvent⟩
    | true =>
      rw [conclude_of_due base on due, ← kept]
      cases current : r.2.sync.main.current? with
      | none =>
        unfold Synchronizer.fire
        rw [current]
        refine ⟨?_, noEvent⟩
        cases r.2.sync.keepsMain <;> rfl
      | some frame =>
        rw [Synchronizer.fire_of_frame current]
        refine ⟨rfl, ?_⟩
        intro e he
        obtain rfl := Option.some.inj he
        rfl

/-- Presenting an event calls the receiver once and passes its answer on. -/
theorem present_event (receive : Receiver σ α) (s : σ) (e : SyncEvent α) :
    ∃ verdict, (present receive s (.event e)).1 = ⟨[⟨e, verdict⟩], verdict.map fun _ => .event⟩ := by
  rcases answer : receive e s with ⟨⟨⟩, s'⟩ | ⟨x, s'⟩
  · refine ⟨.ok (), ?_⟩
    simp [present, Outcome.deliver, Receiver.noted, bind, EStateM.bind, pure, EStateM.pure, answer,
      Except.map]
  · refine ⟨.error x, ?_⟩
    simp [present, Outcome.deliver, Receiver.noted, bind, EStateM.bind, answer, Except.map]

/-- Whatever an activation comes to, the receiver is offered its event and nothing else. -/
theorem present_offered (receive : Receiver σ α) (s : σ) (o : Outcome α) :
    (present receive s o).1.calls.map Receipt.event = o.event?.toList := by
  cases o with
  | event e =>
    obtain ⟨verdict, told⟩ := present_event receive s e
    rw [told]
    rfl
  | unconfigured => rfl
  | unpaired pts => rfl
  | needInput => rfl
  | ended => rfl

/-- An activation of a schedule offers its event and nothing else. -/
theorem attend_offered (receive : Receiver σ α) (j : Junction α) (s : σ) :
    Notice.offered (attend receive j s .activate).1.toList = j.next.1.event?.toList := by
  rw [← present_offered receive s, attend_activate]
  simp [Notice.offered, Notice.receipts]

/-- What a caller is told about an event that has its main frame. -/
theorem present_shape (receive : Receiver σ α) (s : σ) {o : Outcome α} (configured : o ≠ .unconfigured)
    (paired : ∀ pts, o ≠ .unpaired pts) : (present receive s o).1.Told := by
  cases o with
  | event e =>
    obtain ⟨verdict, told⟩ := present_event receive s e
    rw [told]
    exact .inr ⟨_, rfl, rfl⟩
  | unconfigured => exact absurd rfl configured
  | unpaired pts => exact absurd rfl (paired pts)
  | needInput => exact .inl ⟨rfl, .inl rfl⟩
  | ended => exact .inl ⟨rfl, .inr rfl⟩

theorem next_configured {j : Junction α} {base : TimeBase} (some : j.sync.timeBase = some base) :
    j.next.1 ≠ .unconfigured := by
  rw [next_eq some]
  unfold conclude Synchronizer.fire
  split
  · nofun
  split
  · dsimp only
    split <;> nofun
  · nofun

/-! ### A schedule -/

section Attend

variable (receive : Receiver σ α) (j : Junction α) (s : σ)

theorem attend_push (i : InputRole) (f : Stamped α) :
    attend receive j s (.push i f) = (none, j.putQueue i ((j.queue i).push f), s) := rfl

theorem attend_close (i : InputRole) :
    attend receive j s (.close i) = (none, j.putQueue i (j.queue i).close, s) := rfl

theorem attendAll_cons (p : Prompt α) (S : List (Prompt α)) :
    attendAll receive j s (p :: S) =
      ((attend receive j s p).1.toList ++
          (attendAll receive (attend receive j s p).2.1 (attend receive j s p).2.2 S).1,
        (attendAll receive (attend receive j s p).2.1 (attend receive j s p).2.2 S).2) := rfl

/-- A prompt adds the events it offers to the count, numbered in order. -/
theorem attend_numbered (p : Prompt α) :
    (attend receive j s p).2.1.sync.events =
        j.sync.events + (Notice.offered (attend receive j s p).1.toList).length ∧
      (Notice.offered (attend receive j s p).1.toList).map SyncEvent.index =
        List.range' j.sync.events (Notice.offered (attend receive j s p).1.toList).length := by
  cases p with
  | push i f =>
    rw [attend_push]
    cases i <;> exact ⟨rfl, rfl⟩
  | close i =>
    rw [attend_close]
    cases i <;> exact ⟨rfl, rfl⟩
  | activate =>
    obtain ⟨counted, numbered⟩ := next_counts j
    rw [attend_offered, attend_activate]
    refine ⟨counted, ?_⟩
    cases event : j.next.1.event? with
    | none => rfl
    | some e => simp [numbered e event]

/-- The events of a run are numbered in order from the count before, and the count goes up by their
number. -/
theorem attendAll_numbered (S : List (Prompt α)) :
    (attendAll receive j s S).2.1.sync.events =
        j.sync.events + (Notice.offered (attendAll receive j s S).1).length ∧
      (Notice.offered (attendAll receive j s S).1).map SyncEvent.index =
        List.range' j.sync.events (Notice.offered (attendAll receive j s S).1).length := by
  induction S generalizing j s with
  | nil => exact ⟨rfl, rfl⟩
  | cons p S ih =>
    obtain ⟨count, numbers⟩ := attend_numbered receive j s p
    obtain ⟨counts, rest⟩ := ih (attend receive j s p).2.1 (attend receive j s p).2.2
    rw [attendAll_cons]
    simp only [Notice.offered_append, List.length_append, List.map_append]
    refine ⟨by rw [counts, count]; omega, ?_⟩
    rw [numbers, rest, count, List.range'_append_1]

end Attend

/-- A prompt does the same to the synchronizer and offers the same event, whoever receives it. -/
theorem attend_alike (receive : Receiver σ α) (receive' : Receiver τ α) (j : Junction α) (s : σ)
    (t : τ) (p : Prompt α) :
    (attend receive j s p).2.1 = (attend receive' j t p).2.1 ∧
      Notice.offered (attend receive j s p).1.toList =
        Notice.offered (attend receive' j t p).1.toList := by
  cases p with
  | push i f =>
    rw [attend_push, attend_push]
    exact ⟨rfl, rfl⟩
  | close i =>
    rw [attend_close, attend_close]
    exact ⟨rfl, rfl⟩
  | activate =>
    rw [attend_offered, attend_offered, attend_activate, attend_activate]
    exact ⟨rfl, rfl⟩

/-- A run does the same to the synchronizer and offers the same events, whoever receives them. -/
theorem attendAll_alike (receive : Receiver σ α) (receive' : Receiver τ α) (j : Junction α) (s : σ)
    (t : τ) (S : List (Prompt α)) :
    (attendAll receive j s S).2.1 = (attendAll receive' j t S).2.1 ∧
      Notice.offered (attendAll receive j s S).1 = Notice.offered (attendAll receive' j t S).1 := by
  induction S generalizing j s t with
  | nil => exact ⟨rfl, rfl⟩
  | cons p S ih =>
    obtain ⟨same, first⟩ := attend_alike receive receive' j s t p
    obtain ⟨sameAll, rest⟩ := ih (attend receive j s p).2.1 (attend receive j s p).2.2
      (attend receive' j t p).2.2
    rw [attendAll_cons, attendAll_cons, Notice.offered_append, Notice.offered_append, first]
    rw [← same]
    exact ⟨sameAll, congrArg _ rest⟩

/-- A prompt keeps a configured synchronizer sound, and its caller is told the receiver's answer. -/
theorem attend_told (receive : Receiver σ α) (j : Junction α) (s : σ) (p : Prompt α)
    (sound : j.sync.Sound) (configured : j.sync.timeBase ≠ none) :
    (attend receive j s p).2.1.sync.Sound ∧ (attend receive j s p).2.1.sync.timeBase ≠ none ∧
      ∀ n ∈ (attend receive j s p).1, n.Told := by
  cases p with
  | push i f =>
    rw [attend_push]
    cases i <;> exact ⟨sound, configured, fun n hn => absurd hn (Option.not_mem_none n)⟩
  | close i =>
    rw [attend_close]
    cases i <;> exact ⟨sound, configured, fun n hn => absurd hn (Option.not_mem_none n)⟩
  | activate =>
    obtain ⟨base, some⟩ := Option.ne_none_iff_exists'.1 configured
    obtain ⟨kept, paired⟩ := sound_next sound
    rw [attend_activate]
    refine ⟨kept, ?_, ?_⟩
    · show j.next.2.sync.timeBase ≠ none
      rw [next_timeBase]
      exact configured
    · intro n hn
      obtain rfl := Option.some.inj hn
      exact present_shape receive s (next_configured some) paired

theorem attendAll_told (receive : Receiver σ α) (j : Junction α) (s : σ) (S : List (Prompt α))
    (sound : j.sync.Sound) (configured : j.sync.timeBase ≠ none) :
    ∀ n ∈ (attendAll receive j s S).1, n.Told := by
  induction S generalizing j s with
  | nil =>
    intro n hn
    exact absurd hn List.not_mem_nil
  | cons p S ih =>
    obtain ⟨kept, still, told⟩ := attend_told receive j s p sound configured
    intro n hn
    rw [attendAll_cons] at hn
    rcases List.mem_append.1 hn with first | later
    · exact told n (Option.mem_toList.1 first)
    · exact ih _ _ kept still n later

/-- **Failures never disturb the synchronizer.**  Take any receivers of the events of a configured
synchronizer, which fail where they like, and any schedule of pushes, closes and activations, whatever
the frames.  Both receivers are offered the same events, and the synchronizer and its queues end up the
same.  Event `n` has index `n`, so that none is offered again.  An activation that offers an event tells
its caller just what the receiver answered, and one that offers none never fails.  The count of events
is the number of calls of the receiver, whatever they came to. -/
theorem attendAll_undisturbed {before : Synchronizer α} {options : SyncOptions}
    {mainBase overlayBase base : TimeBase} {explicit : Option TimeBase} {j : Junction α}
    (configured : before.configure options mainBase overlayBase explicit = .ok (base, j.sync))
    (receive : Receiver σ α) (receive' : Receiver τ α) (s : σ) (t : τ) (S : List (Prompt α)) :
    let run := attendAll receive j s S
    let run' := attendAll receive' j t S
    Notice.offered run.1 = Notice.offered run'.1 ∧ run.2.1 = run'.2.1 ∧
      (Notice.offered run.1).map SyncEvent.index = List.range (Notice.offered run.1).length ∧
      (Notice.offered run.1).Nodup ∧
      (∀ n ∈ run.1, n.Told) ∧
      run.2.1.sync.events = (Notice.receipts run.1).length := by
  intro run run'
  obtain ⟨_, fresh⟩ := Synchronizer.configure_ok configured
  have sound : j.sync.Sound := by
    rw [fresh]
    exact .inr (.inr (.configured _ _ _ _))
  have some : j.sync.timeBase ≠ none := by
    rw [fresh]
    exact Option.some_ne_none base
  have none : j.sync.events = 0 := by
    rw [fresh]
    rfl
  obtain ⟨same, offered⟩ := attendAll_alike receive receive' j s t S
  obtain ⟨count, numbers⟩ := attendAll_numbered receive j s S
  rw [none, Nat.zero_add] at count
  rw [none, ← List.range_eq_range'] at numbers
  refine ⟨offered, same, numbers, ?_, attendAll_told receive j s S sound some, ?_⟩
  · have distinct : ((Notice.offered run.1).map SyncEvent.index).Nodup := by
      rw [numbers]
      exact List.nodup_range
    exact List.Pairwise.of_map SyncEvent.index (fun _ _ differ same => differ (congrArg _ same)) distinct
  · rw [count, Notice.offered, List.length_map]

/-- One receiver refuses the first event, the other takes both. -/
theorem attendAll_undisturbed_refused :
    let j : Junction Nat := ⟨.configured {} .micros .micros .micros, {}, {}⟩
    let refuse : Receiver Nat Nat := fun e calls =>
      if e.index = 0 then .error .notConfigured (calls + 1) else .ok () (calls + 1)
    let accept : Receiver Unit Nat := fun _ s => .ok () s
    let S : List (Prompt Nat) := [.push .main ⟨1, some 0⟩, .push .overlay ⟨2, some 0⟩, .activate,
      .push .main ⟨3, some 1⟩, .close .main, .close .overlay, .activate]
    (attendAll refuse j 0 S).1.map (fun n => n.result.toBool) = [false, true] ∧
      (Notice.offered (attendAll refuse j 0 S).1).length = 2 ∧
      Notice.offered (attendAll refuse j 0 S).1 = Notice.offered (attendAll accept j () S).1 := by
  intro j refuse accept S
  have configured : Synchronizer.new.configure {} .micros .micros (some .micros) =
      .ok (TimeBase.micros, j.sync) := rfl
  have same := (attendAll_undisturbed configured refuse accept 0 () S).1
  refine ⟨?_, ?_, same⟩
  · decide +kernel
  · decide +kernel

end Junction

end FrameOverlay
