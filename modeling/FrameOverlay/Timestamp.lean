/-!
# Timestamps

Presentation timestamps are 64-bit counts of ticks.  The two ends of the range are no instants:

* `Timestamp.unset` — the least value stands for a frame without a timestamp;
* `Timestamp.endless` — the greatest value stands for an end that never comes;
* `Timestamp.next` — the following tick, which stays at `endless` once there;
* `Timestamp.earlier` — the smaller of two;
* `Timestamp.ofOption`, `Timestamp.toOption` — a missing timestamp read as `unset` and back;
* `Stamped` — a value with a timestamp.
-/

namespace FrameOverlay

/-- A count of ticks of some time base. -/
abbrev Timestamp := Int64

namespace Timestamp

/-- Stands for a missing timestamp. -/
def unset : Timestamp := Int64.minValue

/-- Stands for the end of an open range. -/
def endless : Timestamp := Int64.maxValue

/-- The following tick; `endless` has none and stays. -/
def next (t : Timestamp) : Timestamp :=
  if t = endless then endless else t + 1

/-- The smaller of two timestamps. -/
def earlier (a b : Timestamp) : Timestamp :=
  if b < a then b else a

/-- A missing timestamp counts as `unset`. -/
def ofOption (t : Option Timestamp) : Timestamp :=
  t.getD unset

/-- `unset` is no timestamp. -/
def toOption (t : Timestamp) : Option Timestamp :=
  if t = unset then none else some t

theorem ofOption_toOption (t : Timestamp) : ofOption (toOption t) = t := by
  unfold toOption ofOption
  split
  · next h => simp only [h, Option.getD_none]
  · rfl

/-- Timestamps are ordered as the integers they count. -/
theorem le_iff (a b : Timestamp) : a ≤ b ↔ a.toInt ≤ b.toInt :=
  Int64.le_iff_toInt_le

theorem unset_le (t : Timestamp) : unset ≤ t := by
  rw [le_iff]
  exact t.le_toInt

theorem le_endless (t : Timestamp) : t ≤ endless := by
  rw [le_iff]
  have := t.toInt_lt
  have : endless.toInt = 2 ^ 63 - 1 := by decide
  omega

theorem earlier_le_left (a b : Timestamp) : earlier a b ≤ a := by
  unfold earlier
  split
  · next h => exact Int64.le_of_lt h
  · exact Int64.le_refl a

theorem earlier_le_right (a b : Timestamp) : earlier a b ≤ b := by
  unfold earlier
  split
  · exact Int64.le_refl b
  · next h => exact Int64.not_lt.1 h

theorem lt_endless_iff (t : Timestamp) : t < endless ↔ t ≠ endless := by
  constructor
  · exact Int64.ne_of_lt
  · exact Int64.lt_of_le_of_ne (le_endless t)

theorem not_lt_endless_iff (t : Timestamp) : ¬t < endless ↔ t = endless := by
  rw [lt_endless_iff]
  exact Decidable.not_not

theorem toInt_next {t : Timestamp} (h : t ≠ endless) : (next t).toInt = t.toInt + 1 := by
  have low := t.le_toInt
  have high := (Int64.lt_iff_toInt_lt).1 ((lt_endless_iff t).2 h)
  have top : endless.toInt = 2 ^ 63 - 1 := by decide
  rw [next, if_neg h, Int64.toInt_add]
  show (t.toInt + 1).bmod (2 ^ 64) = t.toInt + 1
  apply Int.bmod_eq_of_le
  · omega
  · omega

/-- No timestamp lies between one and the following. -/
theorem next_le_iff {t u : Timestamp} (h : u ≠ endless) : next t ≤ u ↔ t < u := by
  by_cases last : t = endless
  · subst last
    have top : ¬endless < u := Int64.not_lt.2 (le_endless u)
    have finished : ¬endless ≤ u := fun le => h (Int64.le_antisymm (le_endless u) le)
    simp only [next, if_true, top, finished]
  · rw [le_iff, toInt_next last, Int64.lt_iff_toInt_lt]
    omega

end Timestamp

/-- A value with a presentation timestamp. -/
structure Stamped (α : Type) where
  content : α
  pts : Option Timestamp
  deriving DecidableEq, Repr

/-- The timestamp, with a missing one as `Timestamp.unset`. -/
def Stamped.time {α : Type} (f : Stamped α) : Timestamp := Timestamp.ofOption f.pts

end FrameOverlay
