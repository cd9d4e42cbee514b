import FrameOverlay.Sync.Slot

/-!
# What a slot keeps

A slot is looked ahead of, promoted, and relieved of its current frame.  This module says what each
of these leaves alone, and what all of them keep.

* `Slot.endSeen` — the end of the input is known;
* `Slot.Paced` — the level of a slot is its full level until the end is seen and zero from then on,
  and the end takes effect at `Slot.endTime`;
* `Paced.lookAtFrame`, `Paced.lookAtEnd`, `Paced.movedTo`, `Paced.takeCurrent` — **every
  operation keeps a slot paced**.
-/

namespace FrameOverlay

/-- The end of the stream lies ahead. -/
def Lookahead.isEnd {α : Type} : Lookahead α → Bool
  | ended _ => true
  | _ => false

/-- The frame that lies ahead. -/
def Lookahead.frame? {α : Type} : Lookahead α → Option (Stamped α)
  | frame f => some f
  | _ => none

namespace Slot

variable {α : Type}

/-! ### Phases -/

/-- The end of the input is known. -/
def endSeen (s : Slot α) : Bool := s.state == .exhausted || s.next.isEnd

theorem wants_iff (s : Slot α) : s.wants = true ↔ s.state ≠ .exhausted ∧ s.next = .unknown := by
  rcases s with ⟨next | ⟨current, pts, next⟩ | _, before, after, level, timeBase⟩
  · cases next <;> simp [wants, state, Slot.next, Lookahead.isKnown]
  · cases next <;> simp [wants, state, Slot.next, Lookahead.isKnown]
  · simp [wants, state]

/-- A slot that does not want to look ahead is exhausted, or knows a frame or the end. -/
theorem content_cases {s : Slot α} (h : s.wants = false) :
    s.state = .exhausted ∨ (s.state ≠ .exhausted ∧ ∃ x, s.next = .frame x) ∨
      (s.state ≠ .exhausted ∧ ∃ e, s.next = .ended e) := by
  rcases s with ⟨next | ⟨current, pts, next⟩ | _, before, after, level, timeBase⟩
  · cases next <;> simp_all [wants, state, Slot.next, Lookahead.isKnown]
  · cases next <;> simp_all [wants, state, Slot.next, Lookahead.isKnown]
  · exact .inl rfl

theorem next_of_exhausted {s : Slot α} (h : s.state = .exhausted) : s.next = .unknown := by
  rcases s with ⟨next | ⟨current, pts, next⟩ | _, before, after, level, timeBase⟩ <;>
    simp_all [state, Slot.next]

theorem endTime_of_exhausted {s : Slot α} (h : s.state = .exhausted) :
    s.endTime = Timestamp.endless := by
  rcases s with ⟨next | ⟨current, pts, next⟩ | _, before, after, level, timeBase⟩ <;>
    simp_all [state, endTime]

theorem endSeen_of_exhausted {s : Slot α} (h : s.state = .exhausted) : s.endSeen = true := by
  simp [endSeen, h]

theorem endSeen_of_ended {s : Slot α} {e : Timestamp} (h : s.next = .ended e) :
    s.endSeen = true := by
  simp [endSeen, h, Lookahead.isEnd]

theorem endSeen_of_frame {s : Slot α} {x : Stamped α} (h : s.next = .frame x) :
    s.endSeen = false := by
  have hs : s.state ≠ .exhausted := fun he => nomatch (next_of_exhausted he).symm.trans h
  simp [endSeen, h, hs, Lookahead.isEnd]

theorem endSeen_of_wants {s : Slot α} (h : s.wants = true) : s.endSeen = false := by
  obtain ⟨hs, hn⟩ := s.wants_iff.1 h
  simp [endSeen, hn, hs, Lookahead.isEnd]

/-- Timestamp of the last frame that became current, as long as the slot is running. -/
def stamp? (s : Slot α) : Option Timestamp :=
  match s.phase with
  | .running _ pts _ => some pts
  | _ => none

theorem stamp?_isSome (s : Slot α) : s.stamp?.isSome = (s.state == .running) := by
  rcases s with ⟨next | ⟨current, pts, next⟩ | _, before, after, level, timeBase⟩ <;> rfl

theorem endTime_eq (s : Slot α) : s.endTime = s.stamp?.elim Timestamp.endless fun pts =>
    if s.after = .infinity then Timestamp.endless else Timestamp.next pts := by
  rcases s with ⟨next | ⟨current, pts, next⟩ | _, before, after, level, timeBase⟩ <;> rfl

/-- An end that takes effect at all does so next to the last frame that became current. -/
theorem endTime_finite {s : Slot α} {t : Timestamp} (h : s.endTime = t)
    (finite : t ≠ Timestamp.endless) :
    s.after ≠ .infinity ∧ ∃ pts, s.stamp? = some pts ∧ Timestamp.next pts = t := by
  rw [endTime_eq] at h
  cases stamp : s.stamp? with
  | none =>
    rw [stamp] at h
    exact absurd h.symm finite
  | some pts =>
    rw [stamp, Option.elim_some] at h
    split at h
    · exact absurd h.symm finite
    · next limited => exact ⟨limited, pts, rfl, h⟩

/-! ### Looking ahead -/

section LookAhead

variable (s : Slot α) (target : TimeBase) (f : Stamped α)

@[simp] theorem lookAtFrame_level : (s.lookAtFrame target f).level = s.level := rfl

@[simp] theorem lookAtFrame_state : (s.lookAtFrame target f).state = s.state := by
  rcases s with ⟨next | ⟨current, pts, next⟩ | _, before, after, level, timeBase⟩ <;> rfl

@[simp] theorem lookAtFrame_current? : (s.lookAtFrame target f).current? = s.current? := by
  rcases s with ⟨next | ⟨current, pts, next⟩ | _, before, after, level, timeBase⟩ <;> rfl

@[simp] theorem lookAtFrame_stamp? : (s.lookAtFrame target f).stamp? = s.stamp? := by
  rcases s with ⟨next | ⟨current, pts, next⟩ | _, before, after, level, timeBase⟩ <;> rfl

@[simp] theorem lookAtEnd_stamp? : s.lookAtEnd.stamp? = s.stamp? := by
  rcases s with ⟨next | ⟨current, pts, next⟩ | _, before, after, level, timeBase⟩ <;> rfl

@[simp] theorem lookAtEnd_level : s.lookAtEnd.level = 0 := rfl

@[simp] theorem lookAtEnd_state : s.lookAtEnd.state = s.state := by
  rcases s with ⟨next | ⟨current, pts, next⟩ | _, before, after, level, timeBase⟩ <;> rfl

@[simp] theorem lookAtEnd_current? : s.lookAtEnd.current? = s.current? := by
  rcases s with ⟨next | ⟨current, pts, next⟩ | _, before, after, level, timeBase⟩ <;> rfl

@[simp] theorem lookAtEnd_endTime : s.lookAtEnd.endTime = s.endTime := by
  rcases s with ⟨next | ⟨current, pts, next⟩ | _, before, after, level, timeBase⟩ <;> rfl

end LookAhead

theorem lookAtFrame_next {s : Slot α} (target : TimeBase) (f : Stamped α) (h : s.wants = true) :
    (s.lookAtFrame target f).next = .frame (f.rescaled s.timeBase target) := by
  rcases s with ⟨next | ⟨current, pts, next⟩ | _, before, after, level, timeBase⟩
  · rfl
  · rfl
  · exact absurd h (by simp [wants, state])

theorem lookAtEnd_next {s : Slot α} (h : s.wants = true) : s.lookAtEnd.next = .ended s.endTime := by
  rcases s with ⟨next | ⟨current, pts, next⟩ | _, before, after, level, timeBase⟩
  · rfl
  · rfl
  · exact absurd h (by simp [wants, state])

theorem lookAtFrame_wants {s : Slot α} (target : TimeBase) (f : Stamped α) (h : s.wants = true) :
    (s.lookAtFrame target f).wants = false := by
  rw [Bool.eq_false_iff, Ne, wants_iff, lookAtFrame_next target f h]
  simp

theorem lookAtEnd_wants {s : Slot α} (h : s.wants = true) : s.lookAtEnd.wants = false := by
  rw [Bool.eq_false_iff, Ne, wants_iff, lookAtEnd_next h]
  simp

/-! ### Moving on -/

section Move

variable (s : Slot α) (pts : Timestamp)

@[simp] theorem promote_level : s.promote.level = s.level := rfl

@[simp] theorem movedTo_before : (s.movedTo pts).before = s.before := by
  unfold movedTo
  split <;> rfl

@[simp] theorem movedTo_after : (s.movedTo pts).after = s.after := by
  unfold movedTo
  split <;> rfl

@[simp] theorem movedTo_level : (s.movedTo pts).level = s.level := by
  unfold movedTo
  split <;> rfl

end Move

theorem promote_of_frame {s : Slot α} {x : Stamped α} (h : s.next = .frame x) :
    s.promote = { s with phase := .running (some x) x.time .unknown } := by
  simp only [promote, h]

theorem promote_of_not_frame {s : Slot α} (h : ∀ x, s.next ≠ .frame x) :
    s.promote = { s with phase := .exhausted } := by
  unfold promote
  split
  · next x hx => exact absurd hx (h x)
  · rfl

theorem next_of_promote_running {s : Slot α} (h : s.promote.state = .running) :
    ∃ x, s.next = .frame x := by
  cases hn : s.next with
  | unknown =>
    rw [promote_of_not_frame (by simp [hn])] at h
    exact nomatch h
  | frame x => exact ⟨x, rfl⟩
  | ended e =>
    rw [promote_of_not_frame (by simp [hn])] at h
    exact nomatch h

theorem promote_next (s : Slot α) : s.promote.next = .unknown := by
  cases hn : s.next with
  | unknown =>
    rw [promote_of_not_frame (by simp [hn])]
    rfl
  | frame y =>
    rw [promote_of_frame hn]
    rfl
  | ended e =>
    rw [promote_of_not_frame (by simp [hn])]
    rfl

/-- The frame ahead becomes current. -/
theorem promote_current? (s : Slot α) : s.promote.current? = s.next.frame? := by
  cases hn : s.next with
  | unknown =>
    rw [promote_of_not_frame (by simp [hn])]
    rfl
  | frame y =>
    rw [promote_of_frame hn]
    rfl
  | ended e =>
    rw [promote_of_not_frame (by simp [hn])]
    rfl

/-- A slot that has been promoted is past its first stage. -/
theorem promote_started (s : Slot α) : s.promote.state ≠ .awaitingFirst := by
  intro waits
  unfold promote at waits
  cases next : s.next <;> simp [next, state] at waits

/-- A promotion ends the output if no frame lies ahead and the end of the input does so. -/
theorem promote_endsOutput (s : Slot α) : s.promote.endsOutput = true ↔
    (∀ x, s.next ≠ .frame x) ∧ s.after = .stop := by
  cases hn : s.next with
  | frame x =>
    rw [promote_of_frame hn]
    simp [endsOutput, state]
  | unknown =>
    rw [promote_of_not_frame (by simp [hn])]
    simp [endsOutput, state]
  | ended e =>
    rw [promote_of_not_frame (by simp [hn])]
    simp [endsOutput, state]

/-- Without an unbounded extension to the front, a slot moves just when what is ahead of it takes
effect. -/
theorem moves_iff {s : Slot α} {pts : Timestamp} (h : s.before ≠ .infinity) :
    s.moves pts = true ↔ s.next.pts = pts := by
  simp [moves, h]

theorem movedTo_of_moves {s : Slot α} {pts : Timestamp} (h : s.moves pts = true) :
    s.movedTo pts = s.promote := if_pos h

theorem movedTo_of_stays {s : Slot α} {pts : Timestamp} (h : s.moves pts = false) :
    s.movedTo pts = s := if_neg (Bool.eq_false_iff.1 h)

/-! ### Handing out the current frame -/

section Take

variable (s : Slot α)

@[simp] theorem takeCurrent_level : s.takeCurrent.level = s.level := rfl

@[simp] theorem takeCurrent_state : s.takeCurrent.state = s.state := by
  rcases s with ⟨next | ⟨current, pts, next⟩ | _, before, after, level, timeBase⟩ <;> rfl

@[simp] theorem takeCurrent_next : s.takeCurrent.next = s.next := by
  rcases s with ⟨next | ⟨current, pts, next⟩ | _, before, after, level, timeBase⟩ <;> rfl

@[simp] theorem takeCurrent_current? : s.takeCurrent.current? = none := by
  rcases s with ⟨next | ⟨current, pts, next⟩ | _, before, after, level, timeBase⟩ <;> rfl

@[simp] theorem takeCurrent_stamp? : s.takeCurrent.stamp? = s.stamp? := by
  rcases s with ⟨next | ⟨current, pts, next⟩ | _, before, after, level, timeBase⟩ <;> rfl

@[simp] theorem takeCurrent_endTime : s.takeCurrent.endTime = s.endTime := by
  rcases s with ⟨next | ⟨current, pts, next⟩ | _, before, after, level, timeBase⟩ <;> rfl

@[simp] theorem takeCurrent_endSeen : s.takeCurrent.endSeen = s.endSeen := by
  simp only [endSeen, takeCurrent_state, takeCurrent_next]

end Take

/-! ### Pace -/

/-- A slot triggers events at its `full` level until its end is seen, and the end takes effect when
`endTime` says. -/
structure Paced (full : Nat) (s : Slot α) : Prop where
  level_eq : s.level = if s.endSeen then 0 else full
  ends : ∀ e, s.next = .ended e → e = s.endTime

namespace Paced

variable {full : Nat} {s : Slot α}

theorem level_of_exhausted (h : s.Paced full) (he : s.state = .exhausted) : s.level = 0 := by
  rw [h.level_eq, endSeen_of_exhausted he]
  rfl

theorem level_of_wants (h : s.Paced full) (hw : s.wants = true) : s.level = full := by
  rw [h.level_eq, endSeen_of_wants hw]
  rfl

theorem level_of_frame (h : s.Paced full) {x : Stamped α} (hx : s.next = .frame x) :
    s.level = full := by
  rw [h.level_eq, endSeen_of_frame hx]
  rfl

theorem level_le (h : s.Paced full) : s.level ≤ full := by
  rw [h.level_eq]
  split
  · exact Nat.zero_le _
  · exact Nat.le_refl _

theorem activeLevel_eq (h : s.Paced full) : s.activeLevel = s.level := by
  unfold activeLevel
  split
  · next he => exact (h.level_of_exhausted he).symm
  · rfl

theorem lookAtFrame (h : s.Paced full) (hw : s.wants = true) (target : TimeBase)
    (f : Stamped α) : (s.lookAtFrame target f).Paced full := by
  have hn := lookAtFrame_next target f hw
  refine ⟨?_, ?_⟩
  · rw [lookAtFrame_level, h.level_of_wants hw, endSeen_of_frame hn]
    rfl
  · intro e he
    rw [hn] at he
    exact nomatch he

theorem lookAtEnd (full : Nat) (hw : s.wants = true) : s.lookAtEnd.Paced full := by
  have hn := lookAtEnd_next hw
  refine ⟨?_, ?_⟩
  · rw [lookAtEnd_level, endSeen_of_ended hn]
    rfl
  · intro e he
    rw [hn] at he
    rw [lookAtEnd_endTime]
    exact (Lookahead.ended.inj he).symm

theorem promote (h : s.Paced full) (hw : s.wants = false) : s.promote.Paced full := by
  have ends : ∀ e, s.promote.next = .ended e → e = s.promote.endTime := by
    intro e he
    rw [promote_next] at he
    exact nomatch he
  have gone (hl : s.level = 0) (hx : ∀ x, s.next ≠ .frame x) : s.promote.Paced full := by
    refine ⟨?_, ends⟩
    rw [promote_level, hl, endSeen_of_exhausted (by rw [promote_of_not_frame hx]; rfl)]
    rfl
  rcases content_cases hw with he | ⟨_, x, hx⟩ | ⟨_, e, he⟩
  · exact gone (h.level_of_exhausted he) (by simp [next_of_exhausted he])
  · refine ⟨?_, ends⟩
    rw [promote_level, h.level_of_frame hx, promote_of_frame hx]
    rfl
  · refine gone ?_ (by simp [he])
    rw [h.level_eq, endSeen_of_ended he]
    rfl

theorem movedTo (h : s.Paced full) (hw : s.wants = false) (pts : Timestamp) :
    (s.movedTo pts).Paced full := by
  cases hm : s.moves pts with
  | false => rwa [movedTo_of_stays hm]
  | true =>
    rw [movedTo_of_moves hm]
    exact h.promote hw

theorem takeCurrent (h : s.Paced full) : s.takeCurrent.Paced full := by
  refine ⟨?_, ?_⟩
  · rw [takeCurrent_level, takeCurrent_endSeen]
    exact h.level_eq
  · intro e he
    rw [takeCurrent_endTime]
    exact h.ends e (by rwa [takeCurrent_next] at he)

end Paced

end Slot

end FrameOverlay
