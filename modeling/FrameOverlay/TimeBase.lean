import FrameOverlay.Timestamp

/-!
# Time bases

A time base is the length of one tick in seconds, as a fraction of two 64-bit integers.

* `TimeBase.Valid` — both terms are positive;
* `TimeBase.seconds` — ticks in seconds, as a double;
* `TimeBase.tryRescale` — ticks of one base in ticks of another, rounded to nearest with halves away
  from zero, and never onto the two ends of the timestamp range;
* `ScaleFailure` — why there may be no result;
* `TimeBase.rescale?`, `TimeBase.rescale` — the result without the reason, and a total form;
* `TimeBase.merge` — one base for timestamps of several inputs;
* `Stamped.rescaled` — a value with its timestamp in another base.

Scaling is done in 128-bit words: a product or a sum that does not fit stops it.
-/

namespace FrameOverlay

/-- `num / den` seconds per tick. -/
structure TimeBase where
  num : Int64
  den : Int64
  deriving DecidableEq, Repr

namespace TimeBase

/-- One microsecond. -/
def micros : TimeBase := ⟨1, 1000000⟩

/-- Both terms are positive. -/
def Valid (b : TimeBase) : Prop := 0 < b.num ∧ 0 < b.den

instance (b : TimeBase) : Decidable b.Valid :=
  inferInstanceAs (Decidable (0 < b.num ∧ 0 < b.den))

theorem micros_valid : micros.Valid := by decide

/-- The fraction as it is written in messages. -/
def text (b : TimeBase) : String :=
  s!"{b.num.toInt}/{b.den.toInt}"

/-! ### Seconds -/

/-- Length of one tick in seconds. -/
def toFloat (b : TimeBase) : Float :=
  b.num.toFloat / b.den.toFloat

/-- `t` ticks in seconds. -/
def seconds (b : TimeBase) (t : Timestamp) : Float :=
  t.toFloat * b.toFloat

/-! ### Scaling -/

/-- Why a timestamp has no value in another base. -/
inductive ScaleFailure where
  /-- A product, a sum or a quotient does not fit into a 128-bit word. -/
  | overflow
  /-- The denominator of the one base or the numerator of the other is zero. -/
  | zeroDivisor
  deriving DecidableEq, Repr

/-- The first integer that a signed 128-bit word does not hold. -/
def wordEnd : Int := 1 <<< 127

/-- An integer in a signed 128-bit word, if one holds it. -/
def wide (n : Int) : Except ScaleFailure Int :=
  if -wordEnd ≤ n ∧ n < wordEnd then .ok n else .error .overflow

/-- Quotient of two 128-bit words, toward zero. -/
def wideQuotient (a b : Int) : Except ScaleFailure Int :=
  if b = 0 then .error .zeroDivisor else wide (a.tdiv b)

/-- Rounds `num / den` to the nearest integer, halves away from zero, by adding or subtracting
half the divisor first. -/
def roundedQuotient (num den : Int) : Except ScaleFailure Int := do
  let half := den.tdiv 2
  wideQuotient (← wide (if 0 ≤ num then num + half else num - half)) den

/-- The nearest timestamp that is neither end of the range. -/
def clampInside (q : Int) : Timestamp :=
  Int64.ofInt (max (Int64.minValue.toInt + 1) (min q (Int64.maxValue.toInt - 1)))

/-- `t` ticks of `b` in ticks of `target`.  The two ends of the range stay as they are, and so does
every timestamp if the bases are the same. -/
def tryRescale (b : TimeBase) (t : Timestamp) (target : TimeBase) : Except ScaleFailure Timestamp :=
  if t = Timestamp.unset ∨ t = Timestamp.endless ∨ b = target then
    .ok t
  else do
    let ticks ← wide (t.toInt * b.num.toInt)
    let num ← wide (ticks * target.den.toInt)
    let den ← wide (b.den.toInt * target.num.toInt)
    return clampInside (← roundedQuotient num den)

/-- The result of `tryRescale`, if there is one. -/
def rescale? (b : TimeBase) (t : Timestamp) (target : TimeBase) : Option Timestamp :=
  (b.tryRescale t target).toOption

/-- `rescale?` for timestamps that have a result; a timestamp without one is kept. -/
def rescale (b : TimeBase) (t : Timestamp) (target : TimeBase) : Timestamp :=
  (b.rescale? t target).getD t

theorem tryRescale_of_kept {b target : TimeBase} {t : Timestamp}
    (kept : t = Timestamp.unset ∨ t = Timestamp.endless ∨ b = target) :
    b.tryRescale t target = .ok t := by
  rw [tryRescale, if_pos kept]

/-! ### Merging -/

/-- Common denominators at or above this give way to microseconds. -/
def denominatorLimit : Int := 500000

/-- Why there is no common base. -/
inductive MergeFailure where
  /-- There is no base to begin with. -/
  | noBases
  /-- Two different bases both have denominator zero. -/
  | zeroDenominators
  deriving DecidableEq, Repr

/-- Greatest common divisor. -/
def gcd (a b : Int64) : Int64 :=
  Int64.ofNat (a.toInt.gcd b.toInt)

/-- A base of which both arguments are whole multiples: least common denominator, greatest common
numerator.  `none` if the denominator reaches `denominatorLimit`. -/
def common (a b : TimeBase) : Except MergeFailure (Option TimeBase) :=
  let g := gcd a.den b.den
  if g = 0 then
    .error .zeroDenominators
  else
    let lcm := a.den.toInt.tdiv g.toInt * b.den.toInt
    if Int64.minValue.toInt ≤ lcm ∧ lcm < denominatorLimit then
      .ok (some ⟨gcd a.num b.num, Int64.ofInt lcm⟩)
    else
      .ok none

/-- Merges further bases into `b`; microseconds as soon as a denominator grows too large. -/
def mergeFrom (b : TimeBase) : List TimeBase → Except MergeFailure TimeBase
  | [] => .ok b
  | c :: rest =>
    if b = c then
      mergeFrom b rest
    else
      match common b c with
      | .error e => .error e
      | .ok none => .ok micros
      | .ok (some d) => mergeFrom d rest

/-- One base for timestamps of all the given bases.  Equal bases are kept as they are. -/
def merge : List TimeBase → Except MergeFailure TimeBase
  | [] => .error .noBases
  | b :: rest => mergeFrom b rest

theorem gcd_ne_zero {a b : Int64} (pos : 0 < a) : gcd a b ≠ 0 := by
  have pos : 0 < a.toInt := Int64.lt_iff_toInt_lt.1 pos
  have high := a.toInt_lt
  have le := Int.gcd_le_left b.toInt pos
  have size : a.toInt.gcd b.toInt < 2 ^ 63 := by omega
  have nonzero : 0 < a.toInt.gcd b.toInt := Int.gcd_pos_of_ne_zero_left _ (by omega)
  intro zero
  have toInt := Int64.toInt_ofNat_of_lt size
  rw [show Int64.ofNat _ = gcd a b from rfl, zero] at toInt
  have : (0 : Int64).toInt = 0 := rfl
  omega

theorem common_isOk {a b : TimeBase} (pos : 0 < a.den) : ∃ c, common a b = .ok c := by
  unfold common
  simp only [gcd_ne_zero pos, if_false]
  split
  · exact ⟨_, rfl⟩
  · exact ⟨_, rfl⟩

/-- Two bases have a common one, if the denominator of the first is positive. -/
theorem merge_pair {a b : TimeBase} (pos : 0 < a.den) : ∃ c, merge [a, b] = .ok c := by
  show ∃ c, mergeFrom a [b] = .ok c
  unfold mergeFrom
  split
  · exact ⟨a, rfl⟩
  · obtain ⟨c, found⟩ := common_isOk (b := b) pos
    rw [found]
    rcases c with _ | c
    · exact ⟨micros, rfl⟩
    · exact ⟨c, rfl⟩

end TimeBase

/-- A value stamped in ticks of `b`, stamped in ticks of `target`; without a timestamp it stays
so. -/
def Stamped.rescaled {α : Type} (f : Stamped α) (b target : TimeBase) : Stamped α :=
  { f with pts := f.pts.map fun t => b.rescale t target }

end FrameOverlay
