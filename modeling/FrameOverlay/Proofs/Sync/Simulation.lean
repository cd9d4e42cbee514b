import FrameOverlay.Proofs.Sync.Pairing
import FrameOverlay.Proofs.Sync.Schedule

/-!
# A synchronizer computes the pairing

A synchronizer whose inputs have been queued completely gives out the pairs of `pairing`, one by
one.

* `Flow.ahead`, `Flow.Carries` — the frames ahead of an input, whether looked at or still queued,
  and the one that was current last;
* `Flow.Tracks` — **the simulation**: the synchronizer stands at some place in both lists;
* `OverlayMove`, `Step` — what a move does to the overlay input, and to both lists;
* `Tracks.fill`, `Tracks.move` — a round takes the synchronizer to another place, and gives out the
  pair in between, if there is one;
* `Junction.next_tracks`, `Junction.drain_tracks` — the same for an activation, and for all of them;
* `Junction.drain_pairs` — **the events of two complete, ordered inputs**.
-/

namespace FrameOverlay

variable {α : Type}

namespace Flow

/-! ### One input -/

/-- The frames ahead of an input, in the time base of the events. -/
def ahead (f : Flow α) (i : InputRole) : List (Stamped α) :=
  (f.sync.slot i).next.frame?.toList ++
    (f.queue i).frames.map fun x => x.rescaled (f.sync.slot i).timeBase f.timeBase

/-- A look takes nothing away from what is ahead. -/
theorem look_ahead (f : Flow α) (i : InputRole) : (f.look i).2.ahead i = f.ahead i := by
  have base : (f.look i).2.timeBase = f.timeBase := by
    unfold Flow.timeBase
    rw [look_timeBase]
  unfold ahead
  rw [base]
  have view := looked f i
  generalize f.look i = result at view ⊢
  cases view with
  | known => rfl
  | @frame y rest wants queued =>
    rw [slot_putSlot_self, queue_putSlot, queue_putQueue_self, queued,
      Slot.lookAtFrame_next f.timeBase y wants, ((Slot.wants_iff _).1 wants).2]
    rfl
  | ended wants queued closed =>
    rw [slot_updateLevel, slot_putSlot_self, queue_updateLevel, queue_putSlot, queued,
      Slot.lookAtEnd_next wants, ((Slot.wants_iff _).1 wants).2]
    rfl
  | missing => rfl

/-- A look at the end of an input finds nothing left. -/
theorem look_dry (f : Flow α) (i : InputRole)
    (dry : (f.sync.slot i).endSeen = true → (f.queue i).frames = []) :
    ((f.look i).2.sync.slot i).endSeen = true → ((f.look i).2.queue i).frames = [] := by
  have view := looked f i
  generalize f.look i = result at view ⊢
  cases view with
  | known => exact dry
  | @frame y rest wants queued =>
    rw [slot_putSlot_self, Slot.endSeen_of_frame (Slot.lookAtFrame_next f.timeBase y wants)]
    exact fun ended => nomatch ended
  | ended wants queued closed =>
    rw [queue_updateLevel, queue_putSlot]
    exact fun _ => queued
  | missing => exact dry

/-- The input is closed, has the frames `xs` ahead, and `x` became current last. -/
structure Carries (f : Flow α) (i : InputRole) (x : Option (Stamped α)) (xs : List (Stamped α)) :
    Prop where
  closed : (f.queue i).closed = true
  dry : (f.sync.slot i).endSeen = true → (f.queue i).frames = []
  ahead_eq : f.ahead i = xs
  stamp : (f.sync.slot i).stamp? = x.map Stamped.time
  current : ∀ y, (f.sync.slot i).current? = some y → x = some y

namespace Carries

variable {f g : Flow α} {i : InputRole} {x : Option (Stamped α)} {xs : List (Stamped α)}

/-- What an input carries depends on its slot, its queue and the common time base. -/
theorem congr (h : Carries f i x xs) (slot : g.sync.slot i = f.sync.slot i)
    (queue : g.queue i = f.queue i) (timeBase : g.sync.timeBase = f.sync.timeBase) :
    Carries g i x xs where
  closed := by rw [queue]; exact h.closed
  dry := by rw [slot, queue]; exact h.dry
  ahead_eq := by
    rw [← h.ahead_eq]
    unfold ahead Flow.timeBase
    rw [slot, queue, timeBase]
  stamp := by rw [slot]; exact h.stamp
  current := by rw [slot]; exact h.current

/-- Before its first frame, a complete input carries what is queued. -/
theorem fresh {before after : ExtMode} {level : Nat} {timeBase base : TimeBase} {queued : List (Stamped α)}
    (slot : f.sync.slot i = .fresh before after level timeBase) (queue : f.queue i = ⟨queued, true⟩)
    (common : f.sync.timeBase = some base) :
    Carries f i none (queued.map fun y => y.rescaled timeBase base) where
  closed := by rw [queue]
  dry := by
    rw [slot]
    exact fun ended => nomatch ended
  ahead_eq := by
    unfold ahead Flow.timeBase
    rw [slot, queue, common]
    rfl
  stamp := by
    rw [slot]
    rfl
  current := by
    rw [slot]
    exact fun _ none => nomatch none

theorem look (h : Carries f i x xs) (k : InputRole) : Carries (f.look k).2 i x xs := by
  by_cases same : i = k
  · subst same
    obtain ⟨_, _, _, current, stamp⟩ := look_slot f i i
    exact
      { closed := (look_closes f i i).trans h.closed
        dry := look_dry f i h.dry
        ahead_eq := (look_ahead f i).trans h.ahead_eq
        stamp := stamp.trans h.stamp
        current := fun y hy => h.current y (current.symm.trans hy) }
  · obtain ⟨slot, queue⟩ := look_of_ne f same
    exact h.congr slot queue (look_timeBase f k)

theorem fill (h : Carries f i x xs) : Carries f.fill.2 i x xs := (h.look .main).look .overlay

/-- Once looked at, the first frame ahead is known. -/
theorem next_of_cons {y : Stamped α} {ys : List (Stamped α)} (h : Carries f i x (y :: ys))
    (content : (f.sync.slot i).wants = false) : (f.sync.slot i).next = .frame y := by
  have ahead_eq := h.ahead_eq
  unfold ahead at ahead_eq
  have unended (ended : (f.sync.slot i).endSeen = true)
      (none : (f.sync.slot i).next.frame? = none) : (f.sync.slot i).next = .frame y := by
    rw [none, h.dry ended] at ahead_eq
    exact nomatch ahead_eq
  rcases Slot.content_cases content with he | ⟨_, z, hz⟩ | ⟨_, e, he⟩
  · refine unended (Slot.endSeen_of_exhausted he) ?_
    rw [Slot.next_of_exhausted he]
    rfl
  · rw [hz] at ahead_eq ⊢
    rw [(List.cons.inj ahead_eq).1]
  · refine unended (Slot.endSeen_of_ended he) ?_
    rw [he]
    rfl

/-- Once looked at, an input without frames ahead has been seen to end. -/
theorem endSeen_of_nil (h : Carries f i x []) (content : (f.sync.slot i).wants = false) :
    (f.sync.slot i).endSeen = true := by
  rcases Slot.content_cases content with he | ⟨_, z, hz⟩ | ⟨_, e, he⟩
  · exact Slot.endSeen_of_exhausted he
  · have ahead_eq := h.ahead_eq
    unfold ahead at ahead_eq
    rw [hz] at ahead_eq
    exact nomatch ahead_eq
  · exact Slot.endSeen_of_ended he

/-- An input that has been seen to end has nothing ahead. -/
theorem nil_of_endSeen (h : Carries f i x xs) (ended : (f.sync.slot i).endSeen = true) :
    xs = [] := by
  have none : (f.sync.slot i).next.frame? = none := by
    cases next : (f.sync.slot i).next with
    | unknown => rfl
    | frame y => exact nomatch (Slot.endSeen_of_frame next).symm.trans ended
    | ended e => rfl
  rw [← h.ahead_eq]
  unfold ahead
  rw [none, h.dry ended]
  rfl

theorem not_frame_of_nil (h : Carries f i x []) (y : Stamped α) :
    (f.sync.slot i).next ≠ .frame y := by
  intro next
  have ahead_eq := h.ahead_eq
  unfold ahead at ahead_eq
  rw [next] at ahead_eq
  exact nomatch ahead_eq

/-- An input that goes on without frames ahead has its end ahead. -/
theorem ended_of_nil {full : Nat} (h : Carries f i x []) (content : (f.sync.slot i).wants = false)
    (paced : (f.sync.slot i).Paced full) (going : (f.sync.slot i).state ≠ .exhausted) :
    (f.sync.slot i).next = .ended (f.sync.slot i).endTime := by
  rcases Slot.content_cases content with he | ⟨_, y, hy⟩ | ⟨_, e, he⟩
  · exact absurd he going
  · exact absurd hy (h.not_frame_of_nil y)
  · rw [← paced.ends e he]
    exact he

theorem going_of_some {c : Stamped α} (h : Carries f i (some c) xs) :
    (f.sync.slot i).state ≠ .exhausted := by
  intro gone
  have running := (f.sync.slot i).stamp?_isSome
  rw [h.stamp, gone] at running
  exact nomatch running

/-- When the first frame ahead takes effect. -/
theorem nextTime_of_cons {y : Stamped α} {ys : List (Stamped α)} (h : Carries f i x (y :: ys))
    (content : (f.sync.slot i).wants = false) : (f.sync.slot i).nextTime = y.time := by
  unfold Slot.nextTime
  rw [h.next_of_cons content]
  rfl

/-- When the end of an input without frames ahead takes effect. -/
theorem nextTime_of_nil {full : Nat} (h : Carries f i x [])
    (content : (f.sync.slot i).wants = false) (paced : (f.sync.slot i).Paced full) :
    (f.sync.slot i).nextTime = (f.sync.slot i).endTime := by
  unfold Slot.nextTime
  rcases Slot.content_cases content with he | ⟨_, y, hy⟩ | ⟨_, e, he⟩
  · rw [Slot.next_of_exhausted he, Slot.endTime_of_exhausted he]
    rfl
  · exact absurd hy (h.not_frame_of_nil y)
  · rw [he, paced.ends e he]
    rfl

/-- When the end takes effect, seen from the last frame that became current. -/
theorem endTime_eq (h : Carries f i x xs) : (f.sync.slot i).endTime =
    x.elim Timestamp.endless fun c =>
      if (f.sync.slot i).after = .infinity then Timestamp.endless else Timestamp.next c.time := by
  rw [Slot.endTime_eq, h.stamp]
  cases x <;> rfl

variable {pts : Timestamp}

/-- If an input does not move to `pts`, its frames ahead are later. -/
theorem later_of_stays (h : Carries f i x xs) (content : (f.sync.slot i).wants = false)
    (before : (f.sync.slot i).before ≠ .infinity) (sorted : xs.Pairwise fun a b => a.time < b.time)
    (le : pts ≤ (f.sync.slot i).nextTime) (stays : (f.sync.slot i).moves pts = false) :
    ∀ y ∈ xs, pts < y.time := by
  cases xs with
  | nil => exact fun y hy => nomatch hy
  | cons y ys =>
    have other : y.time ≠ pts := by
      intro same
      rw [Bool.eq_false_iff, Ne, Slot.moves_iff before, h.next_of_cons content] at stays
      exact stays same
    rw [h.nextTime_of_cons content] at le
    have first : pts < y.time := Int64.lt_of_le_of_ne le other.symm
    intro z hz
    cases List.mem_cons.1 hz with
    | inl same =>
      rw [same]
      exact first
    | inr later => exact Int64.lt_trans first ((List.pairwise_cons.1 sorted).1 z later)

/-- If an input that has ended and extends no further does not move to `pts`, it reaches as far. -/
theorem reach_of_stays {full : Nat} {c : Stamped α} (h : Carries f i (some c) [])
    (content : (f.sync.slot i).wants = false) (paced : (f.sync.slot i).Paced full)
    (before : (f.sync.slot i).before ≠ .infinity) (limited : (f.sync.slot i).after ≠ .infinity)
    (finite : pts ≠ Timestamp.endless) (le : pts ≤ (f.sync.slot i).nextTime)
    (stays : (f.sync.slot i).moves pts = false) : pts ≤ c.time := by
  have endTime : (f.sync.slot i).endTime = Timestamp.next c.time := by
    rw [h.endTime_eq, Option.elim_some, if_neg limited]
  rw [h.nextTime_of_nil content paced, endTime] at le
  rw [Bool.eq_false_iff, Ne, Slot.moves_iff before,
    h.ended_of_nil content paced h.going_of_some, endTime] at stays
  apply Int64.not_lt.1
  intro past
  exact stays (Int64.le_antisymm ((Timestamp.next_le_iff finite).2 past) le)

/-- The end of an input takes effect next to its last frame. -/
theorem end_of_nil {full : Nat} (h : Carries f i x []) (content : (f.sync.slot i).wants = false)
    (paced : (f.sync.slot i).Paced full) (before : (f.sync.slot i).before ≠ .infinity)
    (going : (f.sync.slot i).state ≠ .exhausted) (finite : pts ≠ Timestamp.endless)
    (moves : (f.sync.slot i).moves pts = true) :
    ∃ c, x = some c ∧ (f.sync.slot i).after ≠ .infinity ∧ Timestamp.next c.time = pts := by
  have time : (f.sync.slot i).endTime = pts := by
    have takes := (Slot.moves_iff before).1 moves
    rwa [h.ended_of_nil content paced going] at takes
  obtain ⟨limited, t, stamp, next⟩ := Slot.endTime_finite time finite
  obtain ⟨c, rfl, rfl⟩ := Option.map_eq_some_iff.1 (h.stamp.symm.trans stamp)
  exact ⟨c, rfl, limited, next⟩

theorem move_of_stays (h : Carries f i x xs) (stays : (f.sync.slot i).moves pts = false) :
    Carries (f.move pts).2 i x xs := by
  have timeBase : (f.move pts).2.sync.timeBase = f.sync.timeBase := by rw [f.move_sync pts]
  refine h.congr ?_ (move_queue f pts i) timeBase
  rw [move_slot, Slot.movedTo_of_stays stays]

/-- The first frame ahead becomes current. -/
theorem move_of_frame {y : Stamped α} {ys : List (Stamped α)} (h : Carries f i x (y :: ys))
    (next : (f.sync.slot i).next = .frame y) (moves : (f.sync.slot i).moves pts = true) :
    Carries (f.move pts).2 i (some y) ys := by
  have timeBase : (f.move pts).2.timeBase = f.timeBase := by
    unfold Flow.timeBase
    rw [f.move_sync pts]
  have slot : (f.move pts).2.sync.slot i = (f.sync.slot i).promote := by
    rw [move_slot, Slot.movedTo_of_moves moves]
  have ahead_eq := h.ahead_eq
  unfold ahead at ahead_eq
  rw [next] at ahead_eq
  refine ⟨?_, ?_, ?_, ?_, ?_⟩
  · rw [move_queue]
    exact h.closed
  · rw [slot, Slot.promote_of_frame next]
    exact fun ended => nomatch ended
  · unfold ahead
    rw [timeBase, move_queue, slot, Slot.promote_next]
    exact (List.cons.inj ahead_eq).2
  · rw [slot, Slot.promote_of_frame next]
    rfl
  · rw [slot, Slot.promote_of_frame next]
    exact fun _ hy => hy

/-- The end of the input takes effect. -/
theorem move_of_nil (h : Carries f i x []) (moves : (f.sync.slot i).moves pts = true) :
    Carries (f.move pts).2 i none [] := by
  have slot : (f.move pts).2.sync.slot i = (f.sync.slot i).promote := by
    rw [move_slot, Slot.movedTo_of_moves moves]
  have gone := Slot.promote_of_not_frame h.not_frame_of_nil
  have queued : (f.queue i).frames = [] := by
    have ahead_eq := h.ahead_eq
    unfold ahead at ahead_eq
    exact List.map_eq_nil_iff.1 (List.append_eq_nil_iff.1 ahead_eq).2
  refine ⟨?_, ?_, ?_, ?_, ?_⟩
  · rw [move_queue]
    exact h.closed
  · rw [move_queue]
    exact fun _ => queued
  · unfold ahead
    rw [move_queue, queued, slot, gone]
    rfl
  · rw [slot, gone]
    rfl
  · rw [slot, gone]
    exact fun _ none => nomatch none

theorem cons_of_frame {y : Stamped α} (h : Carries f i x xs)
    (next : (f.sync.slot i).next = .frame y) : ∃ ys, xs = y :: ys := by
  rw [← h.ahead_eq]
  unfold ahead
  rw [next]
  exact ⟨_, rfl⟩

end Carries

/-! ### Both inputs -/

/-- The synchronizer stands at a place in both lists: `last` has been the last main frame and `M`
are ahead, `cur` is the current overlay frame and `O` are ahead. -/
structure Tracks (options : SyncOptions) (base : TimeBase) (f : Flow α) (last : Option (Stamped α))
    (M : List (Stamped α)) (cur : Option (Stamped α)) (O : List (Stamped α)) : Prop where
  steady : f.sync.Steady
  options_eq : f.sync.options = options
  timeBase_eq : f.sync.timeBase = some base
  main : Carries f .main last M
  overlay : Carries f .overlay cur O
  held : f.sync.overlay.current? = cur

/-- What a move to `t` does to the overlay input: its first frame becomes current, or its end takes
effect, or nothing. -/
inductive OverlayMove (f : Flow α) (t : Timestamp) : Option (Stamped α) → List (Stamped α) →
    Option (Stamped α) → List (Stamped α) → Prop where
  | frame {cur : Option (Stamped α)} {o : Stamped α} {O : List (Stamped α)}
      (moves : f.sync.overlay.moves t = true) (next : f.sync.overlay.next = .frame o)
      (time : o.time = t) : OverlayMove f t cur (o :: O) (some o) O
  | gone {c : Stamped α} (limited : f.sync.overlay.after ≠ .infinity)
      (goes : f.sync.overlay.after ≠ .stop) (time : Timestamp.next c.time = t) :
      OverlayMove f t (some c) [] none []
  | idle {cur : Option (Stamped α)} {O : List (Stamped α)} (later : ∀ o ∈ O, t < o.time)
      (reach : O = [] → f.sync.overlay.after ≠ .infinity → ∀ c ∈ cur, t ≤ c.time) :
      OverlayMove f t cur O cur O

namespace OverlayMove

variable {options : SyncOptions} {f : Flow α} {t : Timestamp} {last cur cur' : Option (Stamped α)}
  {M O O' : List (Stamped α)}

/-- The overlay can move before the main frames ahead, unless a frame of it comes with the last one
of them. -/
theorem onward_eq (h : OverlayMove f t cur O cur' O') (ordered : Ordered last M cur O)
    (after : f.sync.overlay.after = options.overlayAfter) (le : ∀ m ∈ M, t ≤ m.time)
    (late : ∀ o, f.sync.overlay.moves t = true → f.sync.overlay.next = .frame o →
      ∀ l ∈ M.getLast?.or last, t ≤ l.time) :
    onward options last M cur O = onward options last M cur' O' ∧ Ordered last M cur' O' := by
  cases h with
  | @frame _ o _ moves next time =>
    subst time
    have earlier : ∀ c ∈ cur, c.time < o.time := fun c hc =>
      ordered.cur_overlay c hc o List.mem_cons_self
    exact ⟨onward_overlay earlier le (late o moves next), ordered.overlay_step le⟩
  | @gone c limited goes time =>
    rw [after] at limited goes
    have unlimited := (SyncOptions.overlayAfter_ne_stop options).1 goes
    have passes : options.repeatLast = false := by
      rcases (SyncOptions.overlayAfter_ne_infinity options).1 limited with shortest | passes
      · exact nomatch unlimited.symm.trans shortest
      · exact passes
    have past : ∀ m ∈ M, c.time < m.time := by
      intro m hm
      rw [← Timestamp.next_le_iff (ordered.main_finite m hm), time]
      exact le m hm
    exact ⟨onward_passed unlimited passes past, ordered.overlay_gone⟩
  | idle => exact ⟨rfl, ordered⟩

/-- After the move, the current overlay frame is not later than it, every frame ahead is, and an
overlay that ends is not beyond its end. -/
theorem spans (h : OverlayMove f t cur O cur' O') (ordered : Ordered last M cur O)
    (due : ∀ c ∈ cur, c.time ≤ t) :
    (∀ c ∈ cur', c.time ≤ t) ∧ (∀ o ∈ O', t < o.time) ∧
      (O' = [] → f.sync.overlay.after ≠ .infinity → ∀ c ∈ cur', t ≤ c.time) := by
  cases h with
  | frame moves next time =>
    subst time
    refine ⟨?_, (List.pairwise_cons.1 ordered.overlay_sorted).1, ?_⟩
    · intro c hc
      rw [Option.some.inj hc]
      exact Int64.le_refl _
    · intro _ _ c hc
      rw [Option.some.inj hc]
      exact Int64.le_refl _
  | gone =>
    refine ⟨?_, ?_, ?_⟩
    · exact fun _ hc => nomatch hc
    · exact fun _ ho => nomatch ho
    · exact fun _ _ _ hc => nomatch hc
  | idle later reach => exact ⟨due, later, reach⟩

end OverlayMove

namespace Tracks

variable {options : SyncOptions} {base : TimeBase} {f : Flow α} {last cur : Option (Stamped α)}
  {M O : List (Stamped α)}

theorem overlay_after (h : Tracks options base f last M cur O) :
    f.sync.overlay.after = options.overlayAfter := by
  rw [h.steady.overlay_after, h.options_eq]

section Move

variable (h : Tracks options base f last M cur O) (content : ∀ i, (f.sync.slot i).wants = false)
  (finite : f.sync.nextTime ≠ Timestamp.endless)
include h content

/-- No main frame ahead is earlier than the next move. -/
theorem le_main (ordered : Ordered last M cur O) : ∀ m ∈ M, f.sync.nextTime ≤ m.time := by
  have le := f.sync.nextTime_le .main
  cases M with
  | nil => exact fun m hm => nomatch hm
  | cons m M =>
    rw [h.main.nextTime_of_cons (content .main)] at le
    intro x hx
    cases List.mem_cons.1 hx with
    | inl first =>
      rw [first]
      exact le
    | inr later => exact Int64.le_trans le ((List.pairwise_cons.1 ordered.main_sorted).1 x later)

include finite

/-- The overlay input in a move that does not end the output. -/
theorem overlay_move (ordered : Ordered last M cur O)
    (on : (f.move f.sync.nextTime).2.sync.eof = false) :
    ∃ cur' O', OverlayMove f f.sync.nextTime cur O cur' O' ∧
      Carries (f.move f.sync.nextTime).2 .overlay cur' O' ∧
      (f.move f.sync.nextTime).2.sync.overlay.current? = cur' := by
  have before := h.steady.before_ne .overlay
  have le := f.sync.nextTime_le .overlay
  have slot := move_slot f f.sync.nextTime .overlay
  have held : (f.sync.slot .overlay).current? = cur := h.held
  generalize f.sync.nextTime = t at *
  cases moves : (f.sync.slot .overlay).moves t with
  | false =>
    have stays : (f.move t).2.sync.overlay = f.sync.overlay :=
      slot.trans (Slot.movedTo_of_stays moves)
    have carries := h.overlay.move_of_stays moves
    have held' : (f.move t).2.sync.overlay.current? = cur := by rw [stays]; exact held
    refine ⟨cur, O, .idle ?_ ?_, carries, held'⟩
    · exact h.overlay.later_of_stays (content .overlay) before ordered.overlay_sorted le moves
    · intro empty limited c hc
      subst empty hc
      exact h.overlay.reach_of_stays (content .overlay) h.steady.overlay_paced before limited
        finite le moves
  | true =>
    have slot : (f.move t).2.sync.overlay = f.sync.overlay.promote :=
      slot.trans (Slot.movedTo_of_moves moves)
    have takes := (Slot.moves_iff before).1 moves
    cases O with
    | cons o O =>
      have next := h.overlay.next_of_cons (content .overlay)
      rw [next] at takes
      refine ⟨some o, O, .frame moves next takes, h.overlay.move_of_frame next moves, ?_⟩
      rw [slot, show f.sync.overlay.promote = _ from Slot.promote_of_frame next]
      rfl
    | nil =>
      have carries := h.overlay.move_of_nil moves
      have held' : (f.move t).2.sync.overlay.current? = none := by
        rw [slot, show f.sync.overlay.promote = _ from
          Slot.promote_of_not_frame h.overlay.not_frame_of_nil]
        rfl
      cases cur with
      | none => exact ⟨none, [], .idle (fun _ ho => nomatch ho) (fun _ _ _ hc => nomatch hc),
          carries, held'⟩
      | some c =>
        obtain ⟨c', same, limited, time⟩ := h.overlay.end_of_nil (content .overlay)
          h.steady.overlay_paced before h.overlay.going_of_some finite moves
        obtain rfl := Option.some.inj same
        have goes : f.sync.overlay.after ≠ .stop := by
          intro stop
          have ends : f.ends .overlay t = true :=
            ends_iff.2 ⟨moves, h.overlay.not_frame_of_nil, stop⟩
          rw [f.move_sync t] at on
          exact nomatch ends.symm.trans (Bool.or_eq_false_iff.1 on).2
        exact ⟨none, [], .gone limited goes time, carries, held'⟩

end Move

/-- Where a move that does not end the output takes both lists: either nothing comes out and the
same pairs are still to come, or the first of them comes out. -/
inductive Step (options : SyncOptions) (t : Timestamp) (due : Bool) (last : Option (Stamped α))
    (M : List (Stamped α)) (cur : Option (Stamped α)) (O : List (Stamped α)) :
    Option (Stamped α) → List (Stamped α) → Option (Stamped α) → List (Stamped α) → Prop where
  | quiet {last' M' cur' O'} (due_eq : due = false)
      (same : onward options last M cur O = onward options last' M' cur' O') :
      Step options t due last M cur O last' M' cur' O'
  | pair {m M' cur' O'} (due_eq : due = true)
      (first : onward options last M cur O = ⟨m, cur', t⟩ :: onward options (some m) M' cur' O') :
      Step options t due last M cur O (some m) M' cur' O'

theorem mem_of_last {m l : Stamped α} (hl : l ∈ (m :: M).getLast?.or last) : l ∈ m :: M := by
  have some : (m :: M).getLast? = some (M.getLast?.getD m) := List.getLast?_cons
  rw [some, Option.some_or] at hl
  rw [← Option.some.inj hl]
  exact List.mem_of_getLast? some

section Step

variable {t : Timestamp} {cur' : Option (Stamped α)} {O' : List (Stamped α)}
  (h : Tracks options base f last M cur O) (ordered : Ordered last M cur O)
  (overlayMove : OverlayMove f t cur O cur' O') (le : ∀ m ∈ M, t ≤ m.time)
include h ordered overlayMove le

/-- A main frame becomes current, and its pair comes out. -/
theorem step_main {m : Stamped α} (moves : f.sync.main.moves t = true)
    (next : f.sync.main.next = .frame m) (due : (f.move t).1 = true) :
    ∃ last' M', Step options t (f.move t).1 last M cur O last' M' cur' O' ∧
      Ordered last' M' cur' O' ∧ Carries (f.move t).2 .main last' M' := by
  obtain ⟨M', rfl⟩ := h.main.cons_of_frame next
  have time : m.time = t := by
    have takes := (Slot.moves_iff (h.steady.before_ne .main)).1 moves
    rwa [show (f.sync.slot .main).next = _ from next] at takes
  subst time
  obtain ⟨same, ordered'⟩ := overlayMove.onward_eq ordered h.overlay_after le
    fun _ _ _ l hl => le l (mem_of_last hl)
  obtain ⟨due', later, reach⟩ := overlayMove.spans ordered fun c hc =>
    ordered.cur_main c hc m List.mem_cons_self
  refine ⟨some m, M', .pair due ?_, ordered'.main_step later, h.main.move_of_frame next moves⟩
  rw [same]
  refine onward_main due' later ?_
  intro empty limited
  rw [h.overlay_after] at reach
  exact reach empty ((SyncOptions.overlayAfter_ne_infinity options).2 limited)

/-- No frame becomes current, and nothing comes out. -/
theorem step_quiet (stays : f.sync.main.moves t = false) (due : (f.move t).1 = false)
    (late : ∀ o, f.sync.overlay.moves t = true → f.sync.overlay.next = .frame o →
      ∀ l ∈ M.getLast?.or last, t ≤ l.time) :
    ∃ last' M', Step options t (f.move t).1 last M cur O last' M' cur' O' ∧
      Ordered last' M' cur' O' ∧ Carries (f.move t).2 .main last' M' := by
  obtain ⟨same, ordered'⟩ := overlayMove.onward_eq ordered h.overlay_after le late
  exact ⟨last, M, .quiet due same, ordered', h.main.move_of_stays stays⟩

omit le in
/-- After the last main frame an overlay frame becomes current, and comes out with it. -/
theorem step_late {l y : Stamped α} (none : M = []) (some : last = some l)
    (first : t ≤ f.sync.main.nextTime) (finite : t ≠ Timestamp.endless)
    (content : ∀ i, (f.sync.slot i).wants = false) (stays : f.sync.main.moves t = false)
    (next : f.sync.overlay.next = .frame y) (time : y.time = t) (due : (f.move t).1 = true) :
    ∃ last' M', Step options t (f.move t).1 last M cur O last' M' cur' O' ∧
      Ordered last' M' cur' O' ∧ Carries (f.move t).2 .main last' M' := by
  subst none some time
  obtain ⟨O₁, rfl⟩ := h.overlay.cons_of_frame next
  have later : l.time < y.time := ordered.last_overlay l rfl y List.mem_cons_self
  have repeats : options.repeatLast = true := by
    have ended : f.sync.main.endSeen = true := h.main.endSeen_of_nil (content .main)
    have pos := h.steady.level_pos
    rw [h.steady.main_paced.level_eq, ended, h.steady.overlay_paced.level_of_frame next,
      h.options_eq, SyncOptions.overlayLevel] at pos
    cases repeats : options.repeatLast with
    | true => rfl
    | false =>
      rw [repeats] at pos
      exact absurd pos (by decide)
  have unlimited : options.shortest = false := by
    cases shortest : options.shortest with
    | false => rfl
    | true =>
      -- the end of the main input comes first
      have limited : f.sync.main.after ≠ .infinity := by
        rw [h.steady.main_after, h.options_eq, (SyncOptions.mainAfter_eq_stop _).2 shortest]
        decide
      have reach := h.main.reach_of_stays (content .main) h.steady.main_paced
        (h.steady.before_ne .main) limited finite first stays
      exact absurd later (Int64.not_lt.2 reach)
  cases overlayMove with
  | frame =>
    exact ⟨_, [], .pair due (onward_late later unlimited repeats),
      ordered.overlay_step (List.forall_mem_nil _), h.main.move_of_stays stays⟩
  | idle after => exact absurd (after y List.mem_cons_self) Int64.lt_irrefl

/-- An overlay frame alone becomes current. -/
theorem step_overlay {y : Stamped α} (first : t ≤ f.sync.main.nextTime)
    (finite : t ≠ Timestamp.endless) (content : ∀ i, (f.sync.slot i).wants = false)
    (stays : f.sync.main.moves t = false) (moves : f.sync.overlay.moves t = true)
    (next : f.sync.overlay.next = .frame y)
    (due : (f.move t).1 = (f.sync.main.endSeen && f.sync.main.state == .running)) :
    ∃ last' M', Step options t (f.move t).1 last M cur O last' M' cur' O' ∧
      Ordered last' M' cur' O' ∧ Carries (f.move t).2 .main last' M' := by
  have running : (f.sync.main.state == .running) = last.isSome := by
    rw [← Slot.stamp?_isSome, show f.sync.main.stamp? = _ from h.main.stamp]
    exact Option.isSome_map
  rw [running] at due
  cases M with
  | cons m M =>
    have going : f.sync.main.endSeen = false :=
      Slot.endSeen_of_frame (h.main.next_of_cons (content .main))
    rw [going, Bool.false_and] at due
    exact step_quiet h ordered overlayMove le stays due fun _ _ _ l hl => le l (mem_of_last hl)
  | nil =>
    have ended : f.sync.main.endSeen = true := h.main.endSeen_of_nil (content .main)
    rw [ended, Bool.true_and] at due
    cases last with
    | none => exact step_quiet h ordered overlayMove le stays due fun _ _ _ l hl => nomatch hl
    | some l =>
      have time : y.time = t := by
        have takes := (Slot.moves_iff (h.steady.before_ne .overlay)).1 moves
        rwa [show (f.sync.slot .overlay).next = _ from next] at takes
      exact step_late h ordered overlayMove rfl rfl first finite content stays next time due

end Step

section Over

variable (h : Tracks options base f last M cur O) (ordered : Ordered last M cur O)
  (content : ∀ i, (f.sync.slot i).wants = false)
include h ordered content

/-- **A move that does not end the output** takes the synchronizer to another place, and gives out
the pair in between, if there is one. -/
theorem move (finite : f.sync.nextTime ≠ Timestamp.endless)
    (on : (f.move f.sync.nextTime).2.sync.eof = false) :
    ∃ last' M' cur' O',
      Step options f.sync.nextTime (f.move f.sync.nextTime).1 last M cur O last' M' cur' O' ∧
      Ordered last' M' cur' O' ∧
      Tracks options base (f.move f.sync.nextTime).2 last' M' cur' O' := by
  obtain ⟨cur', O', overlayMove, overlay', held'⟩ := h.overlay_move content finite ordered on
  have le := h.le_main content ordered
  have steady' := h.steady.move content finite on
  have first : f.sync.nextTime ≤ f.sync.main.nextTime := f.sync.nextTime_le .main
  have view := h.steady.moved_cases content finite on
  generalize f.sync.nextTime = t at *
  have main : ∃ last' M', Step options t (f.move t).1 last M cur O last' M' cur' O' ∧
      Ordered last' M' cur' O' ∧ Carries (f.move t).2 .main last' M' := by
    cases view with
    | main moves next due => exact step_main h ordered overlayMove le moves next due
    | overlay stays moves next due =>
      exact step_overlay h ordered overlayMove le first finite content stays moves next due
    | quiet stays none due =>
      refine step_quiet h ordered overlayMove le stays due ?_
      intro o moves next
      have gone := none moves
      rw [Slot.promote_of_frame next] at gone
      exact nomatch gone
  obtain ⟨last', M', step, ordered', main'⟩ := main
  refine ⟨last', M', cur', O', step, ordered', steady', ?_, ?_, main', overlay', held'⟩
  · rw [f.move_sync t]
    exact h.options_eq
  · rw [f.move_sync t]
    exact h.timeBase_eq

/-- A move that ends the output comes when nothing is to come any more. -/
theorem move_over (finite : f.sync.nextTime ≠ Timestamp.endless)
    (ended : (f.move f.sync.nextTime).2.sync.eof = true) :
    onward options last M cur O = [] := by
  have le := h.le_main content ordered
  generalize f.sync.nextTime = t at *
  rw [f.move_sync t, h.steady.on, Bool.false_or] at ended
  cases Bool.or_eq_true_iff.1 ended with
  | inl mainEnds =>
    obtain ⟨_, unframed, stop⟩ := ends_iff.1 mainEnds
    have shortest : options.shortest = true := by
      rw [← SyncOptions.mainAfter_eq_stop, ← h.options_eq, ← h.steady.main_after]
      exact stop
    cases M with
    | nil => exact onward_over (.inl shortest)
    | cons m M => exact absurd (h.main.next_of_cons (content .main)) (unframed m)
  | inr overlayEnds =>
    obtain ⟨moves, unframed, stop⟩ := ends_iff.1 overlayEnds
    cases O with
    | cons o O => exact absurd (h.overlay.next_of_cons (content .overlay)) (unframed o)
    | nil =>
      have going : f.sync.overlay.state ≠ .exhausted := by
        intro gone
        exact absurd (stop.symm.trans (h.steady.overlay_gone gone)) (by decide)
      obtain ⟨c, rfl, _, time⟩ := h.overlay.end_of_nil (content .overlay) h.steady.overlay_paced
        (h.steady.before_ne .overlay) going finite moves
      have shortest : options.shortest = true := by
        cases shortest : options.shortest with
        | true => rfl
        | false =>
          have goes := (SyncOptions.overlayAfter_ne_stop options).2 shortest
          rw [← h.overlay_after] at goes
          exact absurd stop goes
      refine onward_stopped shortest ?_
      intro m hm
      rw [← Timestamp.next_le_iff (ordered.main_finite m hm), time]
      exact le m hm

/-- If nothing that takes effect lies ahead, nothing is to come any more. -/
theorem endless_over (never : f.sync.nextTime = Timestamp.endless) :
    onward options last M cur O = [] := by
  have beyond {x : Stamped α} (finite : x.time ≠ Timestamp.endless)
      (le : f.sync.nextTime ≤ x.time) : False := by
    rw [never] at le
    exact finite (Int64.le_antisymm (Timestamp.le_endless x.time) le)
  have noMain : M = [] := by
    cases M with
    | nil => rfl
    | cons m M =>
      have le := h.le_main content ordered m List.mem_cons_self
      exact (beyond (ordered.main_finite m List.mem_cons_self) le).elim
  have noOverlay : O = [] := by
    cases O with
    | nil => rfl
    | cons o O =>
      have le := f.sync.nextTime_le .overlay
      rw [h.overlay.nextTime_of_cons (content .overlay)] at le
      exact (beyond (ordered.overlay_finite o List.mem_cons_self) le).elim
  subst noMain noOverlay
  exact onward_over (.inr (.inr (.inr rfl)))

end Over

/-! ### Rounds -/

/-- The looks of a round leave the place alone. -/
theorem fill (h : Tracks options base f last M cur O) (on : f.fill.2.sync.eof = false) :
    Tracks options base f.fill.2 last M cur O where
  steady := h.steady.fill on
  options_eq := by
    rw [fill_flow, (look_sync _ _).1, (look_sync _ _).1]
    exact h.options_eq
  timeBase_eq := by
    rw [fill_flow, look_timeBase, look_timeBase]
    exact h.timeBase_eq
  main := h.main.fill
  overlay := h.overlay.fill
  held := by
    obtain ⟨_, _, _, first, _⟩ := look_slot f .main .overlay
    obtain ⟨_, _, _, second, _⟩ := look_slot (f.look .main).2 .overlay .overlay
    exact (second.trans first).trans h.held

/-- Without an input that triggers events, nothing is to come any more. -/
theorem over_of_idle (main : Carries f .main last M) (overlay : Carries f .overlay cur O)
    (mainPaced : f.sync.main.Paced 2) (overlayPaced : f.sync.overlay.Paced options.overlayLevel)
    (idle : ∀ k, (f.sync.slot k).activeLevel = 0) : onward options last M cur O = [] := by
  have mainLevel : f.sync.main.level = 0 := mainPaced.activeLevel_eq.symm.trans (idle .main)
  have overlayLevel : f.sync.overlay.level = 0 :=
    overlayPaced.activeLevel_eq.symm.trans (idle .overlay)
  have mainEnd : f.sync.main.endSeen = true := by
    rw [mainPaced.level_eq] at mainLevel
    split at mainLevel
    · next ended => exact ended
    · exact nomatch mainLevel
  obtain rfl := main.nil_of_endSeen mainEnd
  rw [overlayPaced.level_eq] at overlayLevel
  apply onward_over
  split at overlayLevel
  · next ended => exact .inr (.inr (.inr (overlay.nil_of_endSeen ended)))
  · unfold SyncOptions.overlayLevel at overlayLevel
    split at overlayLevel
    · exact nomatch overlayLevel
    · next passes => exact .inr (.inl (Bool.eq_false_iff.2 passes))

/-- If the looks of a round end the output, nothing is to come any more. -/
theorem fill_over (h : Tracks options base f last M cur O) (ended : f.fill.2.sync.eof = true) :
    onward options last M cur O = [] := by
  have mainPaced := look_paced (k := .main) h.steady.main_paced .main
  have overlayPaced := look_paced (k := .overlay) h.steady.overlay_paced .main
  have main := h.main.look .main
  have overlay := h.overlay.look .main
  rw [h.options_eq] at overlayPaced
  cases goes : (f.look .main).2.sync.eof with
  | false =>
    exact over_of_idle (main.look .overlay) (overlay.look .overlay)
      (look_paced (k := .main) mainPaced .overlay)
      (look_paced (k := .overlay) overlayPaced .overlay) (look_over goes ended)
  | true => exact over_of_idle main overlay mainPaced overlayPaced (look_over h.steady.on goes)

/-- The rounds of an activation end with the output, or with the first of the pairs to come. -/
theorem advance (h : Tracks options base f last M cur O) (ordered : Ordered last M cur O) :
    (f.advance.2.sync.eof = true ∧ onward options last M cur O = []) ∨
    ∃ m M' cur' O' t, f.advance.1 = true ∧ f.advance.2.sync.eof = false ∧
      f.advance.2.sync.pts = t ∧
      onward options last M cur O = ⟨m, cur', t⟩ :: onward options (some m) M' cur' O' ∧
      Ordered (some m) M' cur' O' ∧ Tracks options base f.advance.2 (some m) M' cur' O' := by
  induction f using rounds_induct generalizing last M cur O with
  | ended f ended => exact nomatch h.steady.on.symm.trans ended
  | missing f on missing =>
    have closed : ∀ i, (f.queue i).closed = true := by
      intro i
      cases i with
      | main => exact h.main.closed
      | overlay => exact h.overlay.closed
    exact nomatch (fill_of_closed closed).symm.trans missing
  | endless f on filled none =>
    rw [advance_of_endless on filled none]
    refine .inl ⟨rfl, ?_⟩
    cases goes : f.fill.2.sync.eof with
    | false => exact (h.fill goes).endless_over ordered (fill_content filled) none
    | true => exact h.fill_over goes
  | move f on filled ahead ih =>
    have content := fill_content filled
    have moved := moved_eq f
    cases goes : f.fill.2.sync.eof with
    | false =>
      have h' := h.fill goes
      cases ended : f.moved.2.sync.eof with
      | false =>
        rw [moved] at ended
        obtain ⟨last', M', cur', O', step, ordered', tracks'⟩ := h'.move ordered content ahead ended
        rw [← moved] at ended step tracks'
        cases step with
        -- a quiet round changes nothing of what is to come
        | quiet due same =>
          rw [advance_of_quiet on filled ahead (by rw [due, ended]; rfl), same]
          exact ih (by rw [due, ended]; rfl) tracks' ordered'
        | @pair m _ _ _ due first =>
          rw [advance_of_over on filled ahead (by rw [due]; rfl)]
          refine .inr ⟨m, M', cur', O', _, due, ended, ?_, first, ordered', tracks'⟩
          rw [moved, move_sync]
      | true =>
        rw [advance_of_over on filled ahead (by rw [ended, Bool.or_true])]
        refine .inl ⟨ended, h'.move_over ordered content ahead ?_⟩
        rw [← moved]
        exact ended
    | true =>
      have finished : f.moved.2.sync.eof = true := by
        rw [moved, move_sync]
        simp only [goes, Bool.true_or]
      rw [advance_of_over on filled ahead (by rw [finished, Bool.or_true])]
      exact .inl ⟨finished, h.fill_over goes⟩

/-- Giving out a pair leaves the place alone. -/
theorem afterEvent {m : Stamped α} (h : Tracks options base f (some m) M cur O)
    (ready : f.sync.Ready) :
    Tracks options base ⟨f.sync.afterEvent, f.main, f.overlay, []⟩ (some m) M cur O where
  steady := h.steady.afterEvent ready
  options_eq := h.options_eq
  timeBase_eq := h.timeBase_eq
  main := by
    have state := f.sync.afterEvent_main_state
    have next := f.sync.afterEvent_main_next
    have timeBase := f.sync.afterEvent_keeps Slot.timeBase rfl
    have stamp := f.sync.afterEvent_keeps Slot.stamp? (Slot.takeCurrent_stamp? _)
    refine ⟨h.main.closed, ?_, ?_, ?_, ?_⟩
    · show f.sync.afterEvent.main.endSeen = true → _
      rw [Slot.endSeen, state, next]
      exact h.main.dry
    · rw [← h.main.ahead_eq]
      show f.sync.afterEvent.main.next.frame?.toList ++ f.main.frames.map
        (fun x => x.rescaled f.sync.afterEvent.main.timeBase f.timeBase) = _
      rw [next, timeBase]
      rfl
    · exact stamp.trans h.main.stamp
    · intro y hy
      exact h.main.current y (Synchronizer.afterEvent_current hy)
  overlay := h.overlay.congr rfl rfl rfl
  held := h.held

end Tracks

end Flow

/-! ### Whole runs -/

/-- What a receiver learns from an event; it need not know whether the main frame is shared. -/
def SyncEvent.told (e : SyncEvent α) :
    Stamped α × Option (Stamped α) × Timestamp × TimeBase × Nat :=
  (e.main, e.overlay, e.pts, e.timeBase, e.index)

theorem Synchronizer.told_eventWith (s : Synchronizer α) (base : TimeBase) (m : Stamped α) :
    (s.eventWith base m).told =
      ({ m with pts := Timestamp.toOption s.pts }, s.overlay.current?, s.pts, base, s.events) := rfl

/-- What a receiver is to learn from the pair with number `i`. -/
def Pair.told (base : TimeBase) (p : Pair α) (i : Nat) :
    Stamped α × Option (Stamped α) × Timestamp × TimeBase × Nat :=
  ({ p.main with pts := Timestamp.toOption p.time }, p.overlay, p.time, base, i)

namespace Junction

/-- What an activation can come to at a place in both lists: the output has ended and nothing is to
come any more, or the first pair to come is given out with the number `index`. -/
inductive Progress (options : SyncOptions) (base : TimeBase) (index : Nat)
    (last : Option (Stamped α)) (M : List (Stamped α)) (cur : Option (Stamped α))
    (O : List (Stamped α)) : Outcome α × Junction α → Prop where
  | ended {j : Junction α} (nothing : onward options last M cur O = []) :
      Progress options base index last M cur O (.ended, j)
  | event {e : SyncEvent α} {j : Junction α} {p : Pair α} {M' O' : List (Stamped α)}
      {cur' : Option (Stamped α)} (told : e.told = p.told base index)
      (events : j.sync.events = index + 1)
      (first : onward options last M cur O = p :: onward options (some p.main) M' cur' O')
      (ordered : Ordered (some p.main) M' cur' O')
      (tracks : Flow.Tracks options base j.flow (some p.main) M' cur' O') :
      Progress options base index last M cur O (.event e, j)

section Tracks

variable {options : SyncOptions} {base : TimeBase} {j : Junction α}
  {last cur : Option (Stamped α)} {M O : List (Stamped α)}

theorem next_tracks (h : Flow.Tracks options base j.flow last M cur O)
    (ordered : Ordered last M cur O) :
    Progress options base j.sync.events last M cur O j.next := by
  have next : j.next = conclude base j.flow.advance := next_eq h.timeBase_eq
  rcases h.advance ordered with
    ⟨ended, nothing⟩ | ⟨m, M', cur', O', t, due, on, pts, first, ordered', h'⟩
  · rw [next, conclude_of_eof base ended]
    exact .ended nothing
  · have ready : j.flow.advance.2.sync.Ready := by
      rcases h.steady.advance (f := j.flow) with ended | ⟨_, ready⟩
      · exact nomatch on.symm.trans ended
      · exact ready due
    obtain ⟨x, current⟩ := Option.isSome_iff_exists.1 ready.main_frame
    obtain rfl := Option.some.inj (h'.main.current x current)
    have events : j.flow.advance.2.sync.events = j.sync.events := (Flow.advance_sync _).2
    rw [next, conclude_of_due base on due, Synchronizer.fire_of_frame current]
    refine .event (p := ⟨m, cur', t⟩) ?_ ?_ first ordered' (h'.afterEvent ready)
    · rw [Synchronizer.told_eventWith, h'.held, pts, events]
      rfl
    · exact congrArg (· + 1) events

/-- Activations give out all pairs to come, and then find the output ended. -/
theorem drain_tracks (h : Flow.Tracks options base j.flow last M cur O)
    (ordered : Ordered last M cur O) :
    j.drain.1.map SyncEvent.told =
      (onward options last M cur O).mapIdx (fun i p => p.told base (j.sync.events + i)) ∧
    j.drain.2.1 = .ended := by
  -- on the pairs to come: every activation but the last takes one of them away
  generalize pairs : onward options last M cur O = ps
  induction ps generalizing j last M cur O with
  | nil =>
    have progress := next_tracks h ordered
    rcases next : j.next with ⟨outcome, j'⟩
    rw [next] at progress
    cases progress with
    | ended =>
      have silent : j.next.1.event? = none := by
        rw [next]
        rfl
      rw [drain_of_silent silent, next]
      exact ⟨rfl, rfl⟩
    | event _ _ first => exact nomatch pairs.symm.trans first
  | cons p ps ih =>
    have progress := next_tracks h ordered
    rcases next : j.next with ⟨outcome, j'⟩
    rw [next] at progress
    cases progress with
    | ended nothing => exact nomatch pairs.symm.trans nothing
    | event told events first ordered' h' =>
      obtain ⟨rfl, rfl⟩ := List.cons.inj (pairs.symm.trans first)
      obtain ⟨later, ended⟩ := ih h' ordered' rfl
      rw [drain_of_event next]
      refine ⟨?_, ended⟩
      have numbered : (fun i (p : Pair α) => p.told base (j'.sync.events + i)) =
          fun i p => p.told base (j.sync.events + (i + 1)) := by
        funext i p
        rw [events, Nat.add_assoc, Nat.add_comm 1 i]
      rw [List.map_cons, List.mapIdx_cons, told, ← numbered]
      exact congrArg _ later

end Tracks

/-- A configured synchronizer with complete inputs stands at the start of both lists. -/
theorem tracks_start (options : SyncOptions) (mainBase overlayBase base : TimeBase)
    (M O : List (Stamped α)) :
    Flow.Tracks options base
      (Junction.mk (.configured options mainBase overlayBase base) ⟨M, true⟩ ⟨O, true⟩).flow
      none (M.map fun m => m.rescaled mainBase base)
      none (O.map fun o => o.rescaled overlayBase base) := by
  rcases options with ⟨action, shortest, repeatLast⟩
  refine ⟨.configured _ _ _ _, rfl, rfl, ?_, ?_, ?_⟩
  · cases shortest <;> cases repeatLast <;> exact .fresh rfl rfl rfl
  · cases shortest <;> cases repeatLast <;> exact .fresh rfl rfl rfl
  · cases shortest <;> cases repeatLast <;> rfl

/-- **The events of two complete inputs.**  Take valid time bases and two frame lists whose
timestamps, in the time base of the events, are finite, do not decrease in the main list and
increase in the overlay list.  With both lists queued and both inputs closed, activations give out
the pairs of `pairing` one after the other, and then say that the output has ended.  So does every
schedule that pushes these frames, once it has been told so. -/
theorem drain_pairs (s : Synchronizer α) (options : SyncOptions) {mainBase overlayBase : TimeBase}
    {explicit : Option TimeBase} (main : mainBase.Valid) (overlay : overlayBase.Valid)
    (asked : ∀ b ∈ explicit, b.Valid) (M O : List (Stamped α)) :
    ∃ base s', s.configure options mainBase overlayBase explicit = .ok (base, s') ∧
      let M' := M.map fun m => m.rescaled mainBase base
      let O' := O.map fun o => o.rescaled overlayBase base
      let events := (pairing options.normalized M' O').mapIdx fun i p => p.told base i
      (∀ m ∈ M', m.time ≠ Timestamp.endless) → (∀ o ∈ O', o.time ≠ Timestamp.endless) →
      M'.Pairwise (fun a b => a.time ≤ b.time) → O'.Pairwise (fun a b => a.time < b.time) →
        (drain ⟨s', ⟨M, true⟩, ⟨O, true⟩⟩).1.map SyncEvent.told = events ∧
        (drain ⟨s', ⟨M, true⟩, ⟨O, true⟩⟩).2.1 = .ended ∧
        ∀ S, Action.Orderly (fun _ => false) S → Action.pushed .main S = M →
          Action.pushed .overlay S = O → (∃ r ∈ (run ⟨s', {}, {}⟩ S).1, r.outcome = .ended) →
          (Report.events (run ⟨s', {}, {}⟩ S).1).map SyncEvent.told = events := by
  obtain ⟨base, accepted⟩ := s.configure_valid options main overlay asked
  refine ⟨base, _, accepted, ?_⟩
  intro M' O' events mainFinite overlayFinite mainSorted overlaySorted
  have ordered : Ordered none M' none O' :=
    { main_sorted := mainSorted
      overlay_sorted := overlaySorted
      main_finite := mainFinite
      overlay_finite := overlayFinite
      cur_main := fun _ none => nomatch none
      cur_overlay := fun _ none => nomatch none
      last_overlay := fun _ none => nomatch none }
  have start := tracks_start options.normalized mainBase overlayBase base M O
  obtain ⟨told, ended⟩ := drain_tracks start ordered
  rw [onward_start] at told
  have numbered : (fun i (p : Pair α) => p.told base (0 + i)) = fun i p => p.told base i := by
    funext i p
    rw [Nat.zero_add]
  have told := told.trans (congrArg (fun f => (pairing options.normalized M' O').mapIdx f) numbered)
  refine ⟨told, ended, ?_⟩
  intro S orderly pushedMain pushedOverlay said
  let j : Junction α := ⟨.configured options.normalized mainBase overlayBase base, {}, {}⟩
  have sound : j.sync.Sound := .inr (.inr (.configured _ _ _ _))
  have fresh : j.closed = fun _ => false := by
    funext i
    cases i <;> rfl
  obtain ⟨_, whole⟩ := run_prefix sound (S := S) (fresh ▸ orderly)
  have supplied : (j.supply fun i => Action.pushed i S) = ⟨j.sync, ⟨M, true⟩, ⟨O, true⟩⟩ := by
    subst pushedMain pushedOverlay
    rfl
  rw [supplied] at whole
  show (Report.events (run j S).1).map SyncEvent.told = events
  rw [whole said]
  exact told

/-- With `repeatLast`, an overlay frame between two main frames waits for the second, and one after
both comes with the second again. -/
theorem drain_pairs_repeat :
    ∃ base s', (Synchronizer.new : Synchronizer Nat).configure {} .micros .micros (some .micros) =
        .ok (base, s') ∧
      (drain ⟨s', ⟨[⟨1, some 0⟩, ⟨2, some 10⟩], true⟩,
        ⟨[⟨3, some 5⟩, ⟨4, some 20⟩], true⟩⟩).1.map SyncEvent.told =
        [(⟨1, some 0⟩, none, 0, .micros, 0), (⟨2, some 10⟩, some ⟨3, some 5⟩, 10, .micros, 1),
          (⟨2, some 20⟩, some ⟨4, some 20⟩, 20, .micros, 2)] := by
  have asked : ∀ b ∈ some TimeBase.micros, b.Valid := by decide
  obtain ⟨base, s', accepted, pairs⟩ := drain_pairs (.new : Synchronizer Nat) {}
    TimeBase.micros_valid TimeBase.micros_valid asked
    [⟨1, some 0⟩, ⟨2, some 10⟩] [⟨3, some 5⟩, ⟨4, some 20⟩]
  obtain rfl : .micros = base := Except.ok.inj (Synchronizer.configure_ok accepted).1
  refine ⟨.micros, s', accepted, ?_⟩
  obtain ⟨told, _⟩ := pairs (by decide) (by decide) (by decide) (by decide)
  exact told.trans (by decide)

end Junction

end FrameOverlay
